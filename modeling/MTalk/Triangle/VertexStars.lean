import MTalk.Triangle.NetRuns
import MTalk.Triangle.PointLocation

/-!
# The trigons around a vertex

`GetCommonVertexTrigon` walks to the left from one trigon until it meets the boundary or the trigon
it began with, and from there collects the trigons to the right. Around a vertex whose trigons form
one fan, open or closed, it returns the whole fan.
-/

namespace MTalk.Triangle

/-- A `ComVexNode`: a trigon and the place of the vertex in it. -/
abbrev Corner := TrigonRef × Fin 3

namespace Net

variable {K : Type}

section Algorithm

variable (s : Net K)

/-- The corner across the side before the vertex. The index `-1` counts as `2`. -/
def leftCorner (c : Corner) : Option Corner :=
  (s.nbtri c.1 (c.2 + 2)).map fun pt => (pt, (s.nbvex c.1 (c.2 + 2)).getD 2 + 2)

/-- The corner across the side behind the vertex. -/
def rightCorner (c : Corner) : Option Corner :=
  (s.nbtri c.1 (c.2 + 1)).map fun pt => (pt, (s.nbvex c.1 (c.2 + 1)).getD 2 + 1)

/-- `GoToLeft`, with the calls that are left as fuel. -/
def goToLeft (start : Corner) : ℕ → Corner → Except Stop Corner
  | 0, _ => .error .running
  | fuel + 1, c =>
    match s.leftCorner c with
    | none => .ok c
    | some pt => if pt.1 = start.1 then .ok start else goToLeft start fuel pt

/-- `SearchRight`. -/
def searchRight : ℕ → List Corner → Except Stop (List Corner)
  | 0, _ => .error .running
  | fuel + 1, header => do
    let cv ← index header.getLast?
    let h ← index header.head?
    match s.rightCorner cv with
    | none => return header
    | some right => if right.1 = h.1 then return header else searchRight fuel (header ++ [right])

/-- `Trigon.GetVertex`, of a vertex of the trigon. -/
def getVertex [DecidableEq K] (vex : Fin 3 → Vertex K) (vertex : Vertex K) : Fin 3 :=
  if vex 0 = vertex then 0 else if vex 1 = vertex then 1 else 2

/-- `GetCommonVertexTrigon` from the trigon that was found on. -/
def starFrom [DecidableEq K] (fuel : ℕ) (vertex : Vertex K) (t : TrigonRef) :
    Except Stop (List Corner) := do
  let vid := getVertex (s.vex t) vertex
  let first ← s.goToLeft (t, vid) fuel (t, vid)
  s.searchRight fuel [first]

/-- `GetCommonVertexTrigon`, `none` for `null`. -/
def getCommonVertexTrigon [Field K] [LinearOrder K] [FloorRing K] (fuel : ℕ)
    (vertex : Option (Vertex K)) : Except Stop (Option (List Corner)) :=
  match vertex with
  | none => .ok none
  | some v =>
    match QueryList.getOneTrigon s (some v) with
    | none => .ok none
    | some t => (s.starFrom fuel v t).map some

end Algorithm

/-- The trigons around a vertex, each once, each followed by its right neighbour, from boundary to
boundary or all the way round. -/
structure Fan (s : Net K) (v : Vertex K) (star : List Corner) : Prop where
  mem_iff : ∀ c, c ∈ star ↔ s.Live c.1 ∧ s.vex c.1 c.2 = v
  nodup : (star.map Prod.fst).Nodup
  chain : star.IsChain fun c d => s.rightCorner c = some d
  ends : (∀ c ∈ star.head?, s.leftCorner c = none) ∧ (∀ c ∈ star.getLast?, s.rightCorner c = none)
    ∨ ∀ c ∈ star.getLast?, s.rightCorner c = star.head?

variable {s : Net K} {v : Vertex K} {c d : Corner}

/-! Steps to the left and to the right. -/

lemma leftCorner_of_right (hs : s.AdjacencyInvariant) (hc : s.Live c.1)
    (h : s.rightCorner c = some d) :
    s.leftCorner d = some c ∧ s.Live d.1 ∧ s.vex d.1 d.2 = s.vex c.1 c.2 := by
  obtain ⟨u, hu, rfl⟩ := Option.map_eq_some_iff.mp h
  obtain ⟨hlive, j, hj, hback, hindex, hends, -⟩ := hs.back c.1 hc _ u hu
  rw [hj, Option.getD_some]
  refine ⟨?_, hlive, ?_⟩
  · simp only [leftCorner, side_one_two, hback, hindex, Option.map_some, Option.getD_some]
  · rw [hends, side_one_two]

lemma rightCorner_of_left (hs : s.AdjacencyInvariant) (hc : s.Live c.1)
    (h : s.leftCorner c = some d) :
    s.rightCorner d = some c ∧ s.Live d.1 ∧ s.vex d.1 d.2 = s.vex c.1 c.2 := by
  obtain ⟨u, hu, rfl⟩ := Option.map_eq_some_iff.mp h
  obtain ⟨hlive, j, hj, hback, hindex, -, hends⟩ := hs.back c.1 hc _ u hu
  rw [hj, Option.getD_some]
  refine ⟨?_, hlive, ?_⟩
  · simp only [rightCorner, side_two_one, hback, hindex, Option.map_some, Option.getD_some]
  · rw [hends, side_two_one]

/-! The two walks. -/

lemma searchRight_end {header : List Corner} {cv h : Corner} (hcv : header.getLast? = some cv)
    (hh : header.head? = some h)
    (hright : s.rightCorner cv = none ∨ s.rightCorner cv = some h) (fuel : ℕ) :
    s.searchRight (fuel + 1) header = .ok header := by
  rw [searchRight, hcv, hh]
  simp only [index_some]
  change (match s.rightCorner cv with
    | none => (.ok header : Except Stop (List Corner))
    | some right => if right.1 = h.1 then .ok header else s.searchRight fuel (header ++ [right])) = _
  rcases hright with hright | hright
  · rw [hright]
  · rw [hright]
    exact if_pos rfl

lemma searchRight_next {header : List Corner} {cv h : Corner} (hcv : header.getLast? = some cv)
    (hh : header.head? = some h) (hright : s.rightCorner cv = some d) (hne : d.1 ≠ h.1) (fuel : ℕ) :
    s.searchRight (fuel + 1) header = s.searchRight fuel (header ++ [d]) := by
  rw [searchRight, hcv, hh]
  simp only [index_some]
  change (match s.rightCorner cv with
    | none => (.ok header : Except Stop (List Corner))
    | some right => if right.1 = h.1 then .ok header else s.searchRight fuel (header ++ [right])) = _
  rw [hright]
  exact if_neg hne

/-- `SearchRight` collects a fan from its first trigons on. -/
lemma searchRight_eq {l₁ l₂ : List Corner} (hne : l₁ ≠ [])
    (hchain : (l₁ ++ l₂).IsChain fun c d => s.rightCorner c = some d)
    (hnodup : ((l₁ ++ l₂).map Prod.fst).Nodup)
    (hend : ∀ c ∈ (l₁ ++ l₂).getLast?,
      s.rightCorner c = none ∨ s.rightCorner c = (l₁ ++ l₂).head?) {fuel : ℕ}
    (hfuel : l₂.length < fuel) : s.searchRight fuel l₁ = .ok (l₁ ++ l₂) := by
  obtain ⟨h, hh⟩ := Option.ne_none_iff_exists'.mp (mt List.head?_eq_none_iff.mp hne)
  obtain ⟨cv, hcv⟩ := Option.ne_none_iff_exists'.mp (mt List.getLast?_eq_none_iff.mp hne)
  induction l₂ generalizing l₁ cv fuel with
  | nil =>
    obtain ⟨fuel, rfl⟩ : ∃ k, fuel = k + 1 := ⟨fuel - 1, by omega⟩
    rw [List.append_nil] at hend ⊢
    have hright := hend cv hcv
    rw [hh] at hright
    exact searchRight_end hcv hh hright fuel
  | cons d l₂ ih =>
    obtain ⟨fuel, rfl⟩ : ∃ k, fuel = k + 1 := ⟨fuel - 1, by omega⟩
    have hright : s.rightCorner cv = some d :=
      (List.isChain_append.mp hchain).2.2 cv hcv d (by simp)
    have hother : d.1 ≠ h.1 := by
      intro hsame
      rw [List.map_append, List.nodup_append] at hnodup
      exact hnodup.2.2 h.1 (List.mem_map_of_mem (List.mem_of_mem_head? hh)) d.1 (by simp) hsame.symm
    have hsplit : l₁ ++ d :: l₂ = (l₁ ++ [d]) ++ l₂ := by simp
    rw [hsplit] at hchain hnodup hend ⊢
    rw [searchRight_next hcv hh hright hother fuel]
    exact ih (by simp) hchain hnodup hend (by simpa using hfuel) (by simp [hh]) d (by simp)

/-- `GoToLeft` follows a path to its end, unless that is next to the trigon it began with. -/
lemma goToLeft_eq {start first : Corner} {path : List Corner}
    (hchain : (c :: path).IsChain fun c d => s.leftCorner c = some d)
    (hother : ∀ d ∈ path, d.1 ≠ start.1)
    (hend : ∀ d ∈ (c :: path).getLast?,
      s.leftCorner d = none ∧ first = d ∨ s.leftCorner d = some start ∧ first = start)
    {fuel : ℕ} (hfuel : path.length < fuel) : s.goToLeft start fuel c = .ok first := by
  induction path generalizing c fuel with
  | nil =>
    obtain ⟨fuel, rfl⟩ : ∃ k, fuel = k + 1 := ⟨fuel - 1, by omega⟩
    rcases hend c rfl with ⟨hleft, rfl⟩ | ⟨hleft, rfl⟩
    · rw [goToLeft, hleft]
    · rw [goToLeft, hleft]
      exact if_pos rfl
  | cons d path ih =>
    obtain ⟨fuel, rfl⟩ : ∃ k, fuel = k + 1 := ⟨fuel - 1, by omega⟩
    obtain ⟨hleft, hrest⟩ := List.isChain_cons_cons.mp hchain
    rw [goToLeft, hleft]
    change (if d.1 = start.1 then _ else _) = _
    rw [if_neg (hother d (by simp))]
    exact ih hrest (fun e he => hother e (List.mem_cons_of_mem d he))
      (fun e he => hend e (by simpa using he)) (by simpa using hfuel)

/-! Fans. -/

lemma Fan.left_chain (hs : s.AdjacencyInvariant) {star l : List Corner} (h : s.Fan v star)
    (hl : l.IsChain fun c d => s.rightCorner c = some d) (hsub : ∀ c ∈ l, c ∈ star) :
    l.reverse.IsChain fun c d => s.leftCorner c = some d := by
  rw [List.isChain_reverse]
  refine hl.imp_of_mem_imp fun c d hc _ hright => ?_
  exact (leftCorner_of_right hs ((h.mem_iff c).mp (hsub c hc)).1 hright).1

/-- A closed fan may begin with any of its trigons. -/
lemma Fan.rotate {l₁ l₂ : List Corner} (h : s.Fan v (l₁ ++ c :: l₂))
    (hclosed : ∀ d ∈ (l₁ ++ c :: l₂).getLast?, s.rightCorner d = (l₁ ++ c :: l₂).head?) :
    s.Fan v (c :: (l₂ ++ l₁)) ∧ ∀ d ∈ (c :: (l₂ ++ l₁)).getLast?, s.rightCorner d = some c := by
  have hperm : List.Perm (l₁ ++ c :: l₂) (c :: (l₂ ++ l₁)) := List.perm_append_comm
  obtain ⟨hchain₁, hchain₂, hmid⟩ := List.isChain_append.mp h.chain
  have hlast : ∀ d ∈ (c :: (l₂ ++ l₁)).getLast?, s.rightCorner d = some c := by
    intro d hd
    cases l₁ using List.reverseRecOn with
    | nil =>
      rw [List.append_nil] at hd
      exact hclosed d hd
    | append_singleton l e =>
      have heq : d = e := by
        rw [← List.append_assoc, ← List.cons_append, List.getLast?_concat] at hd
        exact (Option.some.inj hd).symm
      rw [heq]
      exact hmid e (by simp) c rfl
  refine ⟨⟨fun d => ?_, ?_, ?_, .inr hlast⟩, hlast⟩
  · rw [← hperm.mem_iff]
    exact h.mem_iff d
  · exact (hperm.map Prod.fst).nodup_iff.mp h.nodup
  · rw [← List.cons_append]
    refine hchain₂.append hchain₁ fun d hd e he => ?_
    have hd' : d ∈ (l₁ ++ c :: l₂).getLast? := by
      rw [List.getLast?_append_of_ne_nil _ (by simp)]
      exact hd
    have he' : (l₁ ++ c :: l₂).head? = some e := by
      rw [List.head?_append, he]
      rfl
    rw [hclosed d hd', he']

lemma exists_first (hs : s.AdjacencyInvariant) {star : List Corner} (h : s.Fan v star)
    (hc : c ∈ star) : ∃ first rest, s.Fan v (first :: rest) ∧
      ∀ fuel, star.length ≤ fuel → s.goToLeft c fuel c = .ok first := by
  obtain ⟨l₁, l₂, rfl⟩ := List.append_of_mem hc
  rcases h.ends with ⟨hfirst, -⟩ | hclosed
  · -- An open fan: the walk ends at its first trigon.
    obtain ⟨first, rest, hstar⟩ := List.exists_cons_of_ne_nil (l := l₁ ++ c :: l₂) (by simp)
    refine ⟨first, rest, hstar ▸ h, fun fuel hfuel => ?_⟩
    have hpart : (l₁ ++ [c]).IsChain fun c d => s.rightCorner c = some d :=
      h.chain.infix ⟨[], l₂, by simp⟩
    have hchain := h.left_chain hs hpart fun d hd => by
      rcases List.mem_append.mp hd with hd | hd
      · exact List.mem_append_left _ hd
      · rw [List.mem_singleton.mp hd]
        exact hc
    rw [List.reverse_concat] at hchain
    refine goToLeft_eq hchain ?_ ?_ ?_
    · intro d hd hsame
      have hnodup := h.nodup
      rw [List.map_append, List.nodup_append] at hnodup
      exact hnodup.2.2 d.1 (List.mem_map_of_mem (List.mem_reverse.mp hd)) c.1 (by simp) hsame
    · intro d hd
      have hhead : (l₁ ++ c :: l₂).head? = some d := by
        rw [← List.reverse_concat, List.getLast?_reverse] at hd
        cases l₁ with
        | nil => exact hd
        | cons e l => exact hd
      refine .inl ⟨hfirst d hhead, ?_⟩
      rw [hstar] at hhead
      exact Option.some.inj hhead
    · rw [List.length_reverse]
      rw [List.length_append, List.length_cons] at hfuel
      omega
  · -- A closed fan: the walk comes back to the trigon it began with.
    obtain ⟨hfan, hlast⟩ := h.rotate hclosed
    refine ⟨c, l₂ ++ l₁, hfan, fun fuel hfuel => ?_⟩
    have hround : (l₂ ++ l₁ ++ [c]).IsChain fun c d => s.rightCorner c = some d := by
      have hrest := (List.isChain_cons.mp hfan.chain).2
      refine hrest.append (List.isChain_singleton c) fun d hd e he => ?_
      obtain rfl : c = e := by simpa using he
      refine hlast d ?_
      rw [List.getLast?_cons]
      rw [Option.mem_def] at hd
      simp [hd]
    have hchain := hfan.left_chain hs hround fun d hd => by
      rcases List.mem_append.mp hd with hd | hd
      · exact List.mem_cons_of_mem c hd
      · rw [List.mem_singleton.mp hd]
        exact List.mem_cons_self
    rw [List.reverse_concat] at hchain
    refine goToLeft_eq hchain ?_ ?_ ?_
    · intro d hd hsame
      have hnodup := hfan.nodup
      rw [List.map_cons, List.nodup_cons] at hnodup
      refine hnodup.1 ?_
      rw [← hsame]
      exact List.mem_map_of_mem (List.mem_reverse.mp hd)
    · intro d hd
      refine .inr ⟨?_, rfl⟩
      have hright : s.rightCorner c = some d := by
        rw [← List.reverse_concat, List.getLast?_reverse] at hd
        cases hrest : l₂ ++ l₁ with
        | nil =>
          rw [hrest] at hd
          obtain rfl : c = d := by simpa using hd
          refine hlast c ?_
          rw [hrest]
          rfl
        | cons e l =>
          rw [hrest] at hd hfan
          obtain rfl : e = d := by simpa using hd
          exact (List.isChain_cons_cons.mp hfan.chain).1
      exact (leftCorner_of_right hs ((h.mem_iff c).mp hc).1 hright).1
    · rw [List.length_reverse, List.length_append]
      rw [List.length_append, List.length_cons] at hfuel
      omega

lemma vex_getVertex [DecidableEq K] {t : TrigonRef} (h : ∃ i, s.vex t i = v) :
    s.vex t (getVertex (s.vex t) v) = v := by
  obtain ⟨i, hi⟩ := h
  unfold getVertex
  split_ifs with h₀ h₁
  · exact h₀
  · exact h₁
  · fin_cases i
    · exact absurd hi h₀
    · exact absurd hi h₁
    · exact hi

/-- From any trigon of a fan the two walks collect the whole fan. -/
lemma Fan.starFrom [DecidableEq K] (hs : s.AdjacencyInvariant) {star : List Corner}
    (h : s.Fan v star) {t : TrigonRef} (ht : s.Live t) (hvt : ∃ i, s.vex t i = v) :
    ∃ n star', s.Fan v star' ∧ ∀ fuel, n ≤ fuel → s.starFrom fuel v t = .ok star' := by
  have hc : (t, getVertex (s.vex t) v) ∈ star := (h.mem_iff _).mpr ⟨ht, vex_getVertex hvt⟩
  obtain ⟨first, rest, hfan, hleft⟩ := exists_first hs h hc
  refine ⟨star.length + rest.length + 1, first :: rest, hfan, fun fuel hfuel => ?_⟩
  have hright : s.searchRight fuel [first] = .ok ([first] ++ rest) := by
    refine searchRight_eq (by simp) hfan.chain hfan.nodup ?_ (by omega)
    intro d hd
    rcases hfan.ends with ⟨-, hlast⟩ | hclosed
    · exact .inl (hlast d hd)
    · exact .inr (hclosed d hd)
  unfold Net.starFrom
  dsimp only
  rw [hleft fuel (by omega)]
  exact hright

lemma getCommonVertexTrigon_eq [Field K] [LinearOrder K] [FloorRing K] {t : TrigonRef} {fuel : ℕ}
    {star : List Corner} (hfound : QueryList.getOneTrigon s (some v) = some t)
    (hstar : s.starFrom fuel v t = .ok star) :
    s.getCommonVertexTrigon fuel (some v) = .ok (some star) := by
  rw [getCommonVertexTrigon, hfound]
  dsimp only
  rw [hstar]
  rfl

/-- Around a vertex whose trigons form one fan the walks return that fan, from whichever of its
trigons they start. -/
theorem getCommonVertexTrigon_fan [Field K] [LinearOrder K] [FloorRing K]
    (hs : s.AdjacencyInvariant) (hv : ∃ star, s.Fan v star) {t : TrigonRef} (ht : s.Live t)
    (hvt : ∃ i, s.vex t i = v) : ∃ n star, s.Fan v star ∧ ∀ fuel, n ≤ fuel →
      s.starFrom fuel v t = .ok star
        ∧ (QueryList.getOneTrigon s (some v) = some t →
          s.getCommonVertexTrigon fuel (some v) = .ok (some star)) := by
  obtain ⟨star, h⟩ := hv
  obtain ⟨n, star', hfan, hfrom⟩ := h.starFrom hs ht hvt
  exact ⟨n, star', hfan, fun fuel hfuel =>
    ⟨hfrom fuel hfuel, fun hfound => getCommonVertexTrigon_eq hfound (hfrom fuel hfuel)⟩⟩

/-- The corners that a split of the trigon `0` makes at its point. -/
def midpointStar : List Corner := [(1, 0), (2, 1), (3, 2)]

/-- Around the point that splits the right triangle, from the second of the three new trigons. -/
theorem getCommonVertexTrigon_fan_split : ∃ s₀ s,
    Polygon.triangulize 3 (create unitGrid) (Polygon.ofVertices rightTriangle) = .ok s₀ ∧
      s₀.insertMid midpoint 0 = .ok s ∧ ∃ n star, s.Fan midpoint star ∧ ∀ fuel, n ≤ fuel →
        s.starFrom fuel midpoint 2 = .ok star
          ∧ (QueryList.getOneTrigon s (some midpoint) = some 2 →
            s.getCommonVertexTrigon fuel (some midpoint) = .ok (some star)) := by
  have h : passes (Polygon.triangulize 3 (create unitGrid) (Polygon.ofVertices rightTriangle))
      (fun s₀ => passes (s₀.insertMid midpoint 0) fun s =>
        decide (s₀.Live 0 ∧ (∀ t ∈ s.trigonIndex, ∀ i, s.vex t i = midpoint →
            (t, i) ∈ midpointStar) ∧
          (∀ c ∈ midpointStar, c.1 ∈ s.trigonIndex ∧ s.vex c.1 c.2 = midpoint) ∧
          s.rightCorner (1, 0) = some (2, 1) ∧ s.rightCorner (2, 1) = some (3, 2) ∧
          s.rightCorner (3, 2) = some (1, 0))) = true := by
    decide +kernel
  obtain ⟨s₀, h₀, h⟩ := exists_of_passes h
  obtain ⟨s, hs, h⟩ := exists_of_passes h
  obtain ⟨hlive, hall, hstar, h₁₂, h₂₃, h₃₁⟩ := of_decide_eq_true h
  have hadj := (insertMid_ok (triangulize_adjacent h₀) hlive hs).1.adjacencyInvariant
  have hfan : s.Fan midpoint midpointStar := by
    refine ⟨fun c => ⟨hstar c, fun hc => hall c.1 hc.1 c.2 hc.2⟩, by decide, ?_, .inr ?_⟩
    · exact .cons_cons h₁₂ (.cons_cons h₂₃ (.singleton _))
    · intro c hc
      obtain rfl : (3, 2) = c := Option.some.inj hc
      exact h₃₁
  obtain ⟨hsecond, hmid⟩ := hstar (2, 1) (by decide)
  exact ⟨s₀, s, h₀, hs, getCommonVertexTrigon_fan hadj ⟨_, hfan⟩ hsecond ⟨1, hmid⟩⟩

end Net

end MTalk.Triangle
