import MTalk.Triangle.Adjacency

/-!
# The triangulation of the start polygon

While `triangulize` runs, the remaining polygon bounds the part of the net that is finished:
each of its edges that has a trigon behind it names a free side of that trigon. `Outline` is
this invariant, and every call of `appendTrigon` keeps it together with the adjacency of the net.
-/

namespace MTalk.Triangle

open SideGluing

variable {K : Type}

/-- The side behind the edge from a polygon node to the next one. -/
def PolygonNode.side (n : PolygonNode K) : Option (TrigonRef × Fin 3) :=
  match n.trigon, n.vid with
  | some t, some k => some (t, k)
  | _, _ => none

lemma PolygonNode.side_eq_some {n : PolygonNode K} {t : TrigonRef} {k : Fin 3} :
    n.side = some (t, k) ↔ n.trigon = some t ∧ n.vid = some k := by
  unfold PolygonNode.side
  cases n.trigon <;> cases n.vid <;> simp

namespace Net

/-- A polygon edge and the trigon behind it: the side is free and runs the other way. -/
structure Behind (s : Net K) (n : PolygonNode K) (next : Vertex K) : Prop where
  paired : n.trigon ≠ none → n.vid ≠ none
  free : ∀ t k, n.side = some (t, k) → s.Live t ∧ s.link (t, k) = none ∧
    s.vex t (k + 1) = next ∧ s.vex t (k + 2) = n.vertex

/-- Every edge of a chain of polygon nodes that ends before `last` has a free side behind it. -/
def Lined (s : Net K) (last : Vertex K) : List (PolygonNode K) → Prop
  | [] => True
  | [n] => s.Behind n last
  | n :: m :: rest => s.Behind n m.vertex ∧ Lined s last (m :: rest)

/-- The edges of the remaining polygon have free sides behind them, no side twice. -/
structure Outline (s : Net K) (nodes : List (PolygonNode K)) : Prop where
  lined : ∀ n ∈ nodes.head?, s.Lined n.vertex nodes
  nodup : (nodes.filterMap PolygonNode.side).Nodup

lemma Lined.append {s : Net K} {v : Vertex K} {n : PolygonNode K} {nodes : List (PolygonNode K)}
    (h : s.Lined n.vertex nodes) (hn : s.Behind n v) : s.Lined v (nodes ++ [n]) := by
  induction nodes with
  | nil => exact hn
  | cons m nodes ih =>
    cases nodes with
    | nil => exact ⟨h, hn⟩
    | cons m' nodes => exact ⟨h.1, ih h.2⟩

lemma Lined.mono {s s' : Net K} {v : Vertex K} {nodes : List (PolygonNode K)}
    (h : s.Lined v nodes) (hb : ∀ n ∈ nodes, ∀ w, s.Behind n w → s'.Behind n w) :
    s'.Lined v nodes := by
  induction nodes with
  | nil => trivial
  | cons m nodes ih =>
    cases nodes with
    | nil => exact hb m (by simp) v h
    | cons m' nodes =>
      exact ⟨hb m (by simp) _ h.1, ih h.2 fun n hn => hb n (List.mem_cons_of_mem _ hn)⟩

lemma Lined.behind {s : Net K} {v : Vertex K} {nodes : List (PolygonNode K)}
    (h : s.Lined v nodes) {n : PolygonNode K} (hn : n ∈ nodes) : ∃ w, s.Behind n w := by
  induction nodes with
  | nil => simp at hn
  | cons m nodes ih =>
    cases nodes with
    | nil =>
      obtain rfl : n = m := by simpa using hn
      exact ⟨v, h⟩
    | cons m' nodes =>
      rcases List.mem_cons.mp hn with rfl | hn
      · exact ⟨_, h.1⟩
      · exact ih h.2 hn

/-- Turning the header keeps the outline. -/
lemma Outline.turn {s : Net K} {nodes : List (PolygonNode K)} (h : s.Outline nodes) :
    s.Outline (Polygon.turn nodes) := by
  cases nodes with
  | nil => exact h
  | cons n rest =>
    have hl := h.lined n (by simp)
    refine ⟨fun m hm => ?_, ?_⟩
    · cases rest with
      | nil =>
        obtain rfl : n = m := by simpa [Polygon.turn] using hm
        exact hl
      | cons b rest =>
        obtain rfl : b = m := by simpa [Polygon.turn] using hm
        exact hl.2.append hl.1
    · have hperm : (Polygon.turn (n :: rest)).Perm (n :: rest) := List.perm_append_singleton n rest
      exact (hperm.filterMap _).nodup_iff.mpr h.nodup

/-- The outline that the polygon starts with: no edge has a trigon behind it. -/
lemma outline_ofVertices (s : Net K) (vs : List (Vertex K)) :
    s.Outline (Polygon.ofVertices vs) := by
  have hnull : ∀ n ∈ Polygon.ofVertices vs, n.trigon = none := by
    intro n hn
    obtain ⟨v, -, rfl⟩ := List.mem_map.mp hn
    rfl
  have hside : ∀ n ∈ Polygon.ofVertices vs, n.side = none := by
    intro n hn
    simp [PolygonNode.side, hnull n hn]
  have hbehind : ∀ n ∈ Polygon.ofVertices vs, ∀ w, s.Behind n w :=
    fun n hn w => ⟨fun hne => absurd (hnull n hn) hne, by simp [hside n hn]⟩
  refine ⟨fun n _ => ?_, ?_⟩
  · generalize Polygon.ofVertices vs = nodes at hbehind
    induction nodes with
    | nil => trivial
    | cons m nodes ih =>
      have htail := ih fun n hn => hbehind n (List.mem_cons_of_mem _ hn)
      cases nodes with
      | nil => exact hbehind m (by simp) _
      | cons m' nodes => exact ⟨hbehind m (by simp) _, htail⟩
  · rw [List.filterMap_eq_nil_iff.mpr hside]
    exact List.nodup_nil

section Append

variable [Field K] {s : Net K} {edge : Fin 3 → PolygonNode K}

/-- The trigon that `appendTrigon` creates from three polygon edges in order. -/
def appended (s : Net K) (edge : Fin 3 → PolygonNode K) : Net K :=
  s.newTrigon (fun i => (edge (i + 2)).vertex) (fun i => (edge i).trigon) (fun i => (edge i).vid)

lemma appended_vex_new : (s.appended edge).vex s.trigonCount = fun i => (edge (i + 2)).vertex := by
  simp [appended, newTrigon]

lemma appended_vex_old {u : TrigonRef} (hu : u ≠ s.trigonCount) :
    (s.appended edge).vex u = s.vex u := by
  simp [appended, newTrigon, hu]

lemma appended_link_new (i : Fin 3) :
    (s.appended edge).link (s.trigonCount, i) = (edge i).side := by
  cases ht : (edge i).trigon <;> cases hv : (edge i).vid <;>
    simp [link, appended, newTrigon, PolygonNode.side, ht, hv]

lemma appended_link_old {a : TrigonRef × Fin 3} (ha : a.1 ≠ s.trigonCount) :
    (s.appended edge).link a = s.link a := by
  apply link_congr <;> simp [appended, newTrigon, ha]

/-- The new trigon fits against the trigons behind its three edges. -/
lemma Adjacent.appended (h : s.Adjacent) (hb : ∀ i, s.Behind (edge i) (edge (i + 1)).vertex) :
    (s.appended edge).Adjacent := by
  have hlink : ∀ a : TrigonRef × Fin 3, s.Live a.1 → (s.appended edge).link a = s.link a :=
    fun a ha => appended_link_old (h.old a.1 ha).ne
  refine ⟨⟨fun u j hne => ?_, fun u j w k hl => ?_, fun u j w k hl => ?_⟩, ?_, h.nodup,
    fun u hu => Nat.lt_succ_of_lt (h.old u hu), h.count⟩
  · by_cases hu : u = s.trigonCount
    · subst hu
      simp only [Net.appended, newTrigon, Function.update_self] at hne ⊢
      exact (hb j).paired hne
    · simp only [Net.appended, newTrigon, Function.update_of_ne hu] at hne ⊢
      exact h.paired u j hne
  · change u < s.trigonCount + 1 ∧ w < s.trigonCount + 1 ∧ w ≠ u
    by_cases hu : u = s.trigonCount
    · subst hu
      rw [appended_link_new] at hl
      have hw := h.old w ((hb j).free w k hl).1
      exact ⟨Nat.lt_succ_self _, Nat.lt_succ_of_lt hw, hw.ne⟩
    · rw [appended_link_old hu] at hl
      obtain ⟨hu', hw, hne⟩ := h.known u j w k hl
      exact ⟨Nat.lt_succ_of_lt hu', Nat.lt_succ_of_lt hw, hne⟩
  · by_cases hu : u = s.trigonCount
    · subst hu
      rw [appended_link_new] at hl
      obtain ⟨hw, -, he1, he2⟩ := (hb j).free w k hl
      rw [appended_vex_new, appended_vex_old (h.old w hw).ne, he1, he2]
      simp only [side_two_two, side_one_two, and_self]
    · rw [appended_link_old hu] at hl
      have hw := (h.known u j w k hl).2.1
      rw [appended_vex_old hu, appended_vex_old hw.ne]
      exact h.ends u j w k hl
  · intro a b ha hab
    rw [hlink a ha] at hab
    obtain ⟨hb, hback⟩ := h.symmetric a b ha hab
    exact ⟨hb, (hlink b hb).trans hback⟩

/-- The other edges of the polygon keep their trigons behind them. -/
lemma Behind.rebuilt {s' : Net K} {n : PolygonNode K} {w : Vertex K} (hn : s.Behind n w)
    (h : s.Adjacent) (h' : s'.Adjacent) (hr : Rebuilt (s.appended edge) [] [s.trigonCount] s')
    (hother : ∀ i a, (edge i).side = some a → n.side ≠ some a) : s'.Behind n w := by
  refine ⟨hn.paired, fun t k hs => ?_⟩
  obtain ⟨ht, hfree, hv⟩ := hn.free t k hs
  have hlt := h.old t ht
  have ht' : s'.Live t := by
    unfold Live
    rw [hr.trigonIndex]
    simpa using .inl ht
  refine ⟨ht', ?_, by rw [hr.vex, appended_vex_old hlt.ne]; exact hv⟩
  by_contra hne
  obtain ⟨b, hb⟩ := Option.ne_none_iff_exists'.mp hne
  by_cases hbn : b.1 = s.trigonCount
  · -- then the new trigon points back at the side, so its edge had the side behind it
    obtain ⟨u, i⟩ := b
    obtain rfl : u = s.trigonCount := hbn
    have hback := (h'.symmetric _ _ ht' hb).2
    rw [hr.links.new _ (by simp), appended_link_new] at hback
    exact hother i _ hback hs
  · rw [hr.links.kept (t, k) b ht (by simp) (by simp) (by simpa using hbn),
      appended_link_old hlt.ne, hfree] at hb
    exact absurd hb (by simp)

variable [LinearOrder K] [FloorRing K]

/-- Inserting the new trigon completes the gluing along its edges. -/
theorem appended_ok {s' : Net K} (h : s.Adjacent)
    (hb : ∀ i, s.Behind (edge i) (edge (i + 1)).vertex)
    (hinj : ∀ i j a, (edge i).side = some a → (edge j).side = some a → i = j)
    (hr : (s.appended edge).insertTrigon s.trigonCount = .ok s') :
    s'.Adjacent ∧ Rebuilt (s.appended edge) [] [s.trigonCount] s' := by
  have h0 := h.appended hb
  have hfresh : ∀ t ∈ [s.trigonCount], ¬s.Live t := by
    simp only [List.mem_singleton, forall_eq]
    exact fun hl => (h.old _ hl).ne rfl
  have hnone : [].foldlM deleteTrigon (s.appended edge) = .ok (s.appended edge) := rfl
  refine h0.rebuild (by simp) (by simp) ?_ hnone ?_ (by simp)
    hfresh fun l₁ l' hc hp => ?_
  · simp only [List.mem_singleton, forall_eq]
    exact Nat.lt_succ_self _
  · rw [List.foldlM_cons, bind_eq_ok]
    exact ⟨s', hr, rfl⟩
  · refine h0.symmetric.replace (by simp) (by simp) hfresh (fun u _ => h0.no_self u) ?_ ?_ hc hp
    · rintro ⟨u, j⟩ ⟨w, k⟩ hu hab
      obtain rfl : u = s.trigonCount := by simpa using hu
      rw [appended_link_new] at hab
      obtain ⟨hw, hfree, -⟩ := (hb j).free w k hab
      refine .inr ⟨⟨hw, by simp⟩, fun c hc => ?_⟩
      rw [appended_link_old (h.old w hw).ne, hfree] at hc
      exact absurd hc (by simp)
    · rintro ⟨u, j⟩ ⟨u', j'⟩ b hu hu' - hab ha'b
      obtain rfl : u = s.trigonCount := by simpa using hu
      obtain rfl : u' = s.trigonCount := by simpa using hu'
      rw [appended_link_new] at hab ha'b
      rw [hinj j j' b hab ha'b]

end Append

section AppendTrigon

lemma checkSide_ok {s s' : Net K} {t : TrigonRef} {i : Fin 3} (h : checkSide t s i = .ok s') :
    ∃ n e q, s' = { s with nodeCount := n, etc := e, queue := q } := by
  unfold checkSide at h
  cases hu : s.nbtri t i with
  | none =>
    simp only [hu, pure, Except.pure, Except.ok.injEq] at h
    exact ⟨s.nodeCount, s.etc, s.queue, h.symm⟩
  | some u =>
    simp only [hu, bind_eq_ok] at h
    obtain ⟨j, -, h⟩ := h
    split_ifs at h
    · simp only [pure, Except.pure, Except.ok.injEq] at h
      obtain ⟨e, q, he⟩ := s.enterEdge_eq t i
      exact ⟨_, e, q, h.symm.trans he⟩
    · simp only [pure, Except.pure, Except.ok.injEq] at h
      exact ⟨s.nodeCount, s.etc, s.queue, h.symm⟩

lemma checkTrigonEdge_ok {s s' : Net K} {t : TrigonRef} (h : s.checkTrigonEdge t = .ok s') :
    ∃ n e q, s' = { s with nodeCount := n, etc := e, queue := q } := by
  simp only [checkTrigonEdge, List.foldlM_cons, List.foldlM_nil, bind_eq_ok, pure, Except.pure,
    Except.ok.injEq] at h
  obtain ⟨s1, h1, s2, h2, s3, h3, rfl⟩ := h
  obtain ⟨n1, e1, q1, rfl⟩ := checkSide_ok h1
  obtain ⟨n2, e2, q2, rfl⟩ := checkSide_ok h2
  obtain ⟨n3, e3, q3, rfl⟩ := checkSide_ok h3
  exact ⟨n3, e3, q3, rfl⟩

variable [Field K] [LinearOrder K] [FloorRing K]

/-- Cutting the trigon `pt` off a polygon: the edges it is built on and what remains. The edge
that closes the cut has nothing behind it. -/
inductive CutOff (pt : TrigonRef) :
    List (PolygonNode K) → (Fin 3 → PolygonNode K) → List (PolygonNode K) → Prop
  | last (h b c : PolygonNode K) : CutOff pt [h, b, c] ![b, c, h] []
  | ear (h b c d : PolygonNode K) (rest : List (PolygonNode K)) :
      CutOff pt (h :: b :: c :: d :: rest) ![b, ⟨c.vertex, none, none⟩, h]
        ({ h with trigon := some pt, vid := some 1 } :: c :: d :: rest)

/-- `appendTrigon` at a cut. -/
lemma appendTrigon_eq {s : Net K} {nodes nodes' : List (PolygonNode K)}
    {edge : Fin 3 → PolygonNode K} (h : CutOff s.trigonCount nodes edge nodes') :
    Polygon.appendTrigon s nodes = (do
      let s1 ← (s.appended edge).insertTrigon s.trigonCount
      let s2 ← s1.checkTrigonEdge s.trigonCount
      return (s2, nodes')) := by
  have hvex : ∀ x y z w : PolygonNode K, w.vertex = z.vertex →
      (![x.vertex, y.vertex, z.vertex] : Fin 3 → Vertex K) =
        fun i => (![y, w, x] (i + 2)).vertex := by
    intro x y z w hw
    funext i
    fin_cases i
    · rfl
    · rfl
    · exact hw.symm
  have hedge : ∀ {α : Type} (f : PolygonNode K → α) (x y z : PolygonNode K),
      ![f x, f y, f z] = fun i => f (![x, y, z] i) := by
    intro α f x y z
    funext i
    fin_cases i <;> rfl
  cases h with
  | last hd b c =>
    rw [appended, ← hvex hd b c c rfl, ← hedge PolygonNode.trigon, ← hedge PolygonNode.vid]
    rfl
  | ear hd b c d rest =>
    rw [appended, ← hvex hd b c ⟨c.vertex, none, none⟩ rfl, ← hedge PolygonNode.trigon,
      ← hedge PolygonNode.vid]
    rfl

omit [Field K] [LinearOrder K] [FloorRing K] in
/-- A polygon of three nodes or more can be cut. -/
lemma exists_cutOff (pt : TrigonRef) {nodes : List (PolygonNode K)} (h : 3 ≤ nodes.length) :
    ∃ edge nodes', CutOff pt nodes edge nodes' := by
  match nodes, h with
  | [hd, b, c], _ => exact ⟨_, _, .last hd b c⟩
  | hd :: b :: c :: d :: rest, _ => exact ⟨_, _, .ear hd b c d rest⟩

lemma appendTrigon_short {s : Net K} {nodes : List (PolygonNode K)} (h : nodes.length < 3) :
    Polygon.appendTrigon s nodes = .error .nullPointer := by
  match nodes, h with
  | [], _ => rfl
  | [_], _ => rfl
  | [_, _], _ => rfl

lemma appendTrigon_ok {s s' : Net K} {nodes nodes' : List (PolygonNode K)}
    (h : Polygon.appendTrigon s nodes = .ok (s', nodes')) :
    ∃ edge s1, CutOff s.trigonCount nodes edge nodes' ∧
      (s.appended edge).insertTrigon s.trigonCount = .ok s1 ∧
      s1.checkTrigonEdge s.trigonCount = .ok s' := by
  rcases Nat.lt_or_ge nodes.length 3 with hlt | hge
  · rw [appendTrigon_short hlt] at h
    simp at h
  · obtain ⟨edge, rest, hcut⟩ := exists_cutOff s.trigonCount hge
    rw [appendTrigon_eq hcut] at h
    simp only [bind_eq_ok, pure, Except.pure, Except.ok.injEq, Prod.mk.injEq] at h
    obtain ⟨s1, h1, s2, h2, rfl, rfl⟩ := h
    exact ⟨edge, s1, hcut, h1, h2⟩

omit [Field K] [LinearOrder K] [FloorRing K] in
/-- A cut takes its vertices from the polygon. -/
lemma CutOff.vertices {vs : List (Vertex K)} {pt : TrigonRef} {nodes nodes' : List (PolygonNode K)}
    {edge : Fin 3 → PolygonNode K} (h : CutOff pt nodes edge nodes')
    (hvs : ∀ n ∈ nodes, n.vertex ∈ vs) :
    (∀ i, (edge i).vertex ∈ vs) ∧ ∀ n ∈ nodes', n.vertex ∈ vs := by
  cases h with
  | last hd b c =>
    refine ⟨fun i => ?_, by simp⟩
    fin_cases i <;> exact hvs _ (by simp)
  | ear hd b c d rest =>
    constructor
    · intro i
      fin_cases i
      · exact hvs b (by simp)
      · exact hvs c (by simp)
      · exact hvs hd (by simp)
    · intro n hn
      rcases List.mem_cons.mp hn with rfl | hn
      · exact hvs hd (by simp)
      · exact hvs n (List.mem_cons_of_mem _ (List.mem_cons_of_mem _ hn))

omit [Field K] [LinearOrder K] [FloorRing K] in
/-- A node's side occurs in no later node. -/
lemma side_ne_of_nodup {n m : PolygonNode K} {nodes : List (PolygonNode K)}
    (h : ((n :: nodes).filterMap PolygonNode.side).Nodup) (hm : m ∈ nodes)
    {a : TrigonRef × Fin 3} (hn : n.side = some a) : m.side ≠ some a := by
  intro hma
  rw [List.filterMap_cons_some hn, List.nodup_cons] at h
  exact h.1 (List.mem_filterMap.mpr ⟨m, hm, hma⟩)

omit [Field K] [LinearOrder K] [FloorRing K] in
lemma nodup_of_cons {n : PolygonNode K} {nodes : List (PolygonNode K)}
    (h : ((n :: nodes).filterMap PolygonNode.side).Nodup) :
    (nodes.filterMap PolygonNode.side).Nodup :=
  h.sublist ((List.sublist_cons_self n nodes).filterMap _)

omit [Field K] [LinearOrder K] [FloorRing K] in
/-- The three edges of a cut have their sides behind them, and no two the same one. -/
lemma Outline.edges {s : Net K} {pt : TrigonRef} {nodes nodes' : List (PolygonNode K)}
    {edge : Fin 3 → PolygonNode K} (h : s.Outline nodes) (hc : CutOff pt nodes edge nodes') :
    (∀ i, s.Behind (edge i) (edge (i + 1)).vertex) ∧
      ∀ i j a, (edge i).side = some a → (edge j).side = some a → i = j := by
  cases hc with
  | last hd b c =>
    obtain ⟨h1, h2, h3⟩ := h.lined hd rfl
    have hb : ∀ {a}, hd.side = some a → b.side ≠ some a := side_ne_of_nodup h.nodup (by simp)
    have hc : ∀ {a}, hd.side = some a → c.side ≠ some a := side_ne_of_nodup h.nodup (by simp)
    have hbc : ∀ {a}, b.side = some a → c.side ≠ some a :=
      side_ne_of_nodup (nodup_of_cons h.nodup) (by simp)
    constructor
    · intro i
      fin_cases i
      · exact h2
      · exact h3
      · exact h1
    · intro i j a hi hj
      fin_cases i <;> fin_cases j <;> first
        | rfl
        | exact absurd hj (hbc hi)
        | exact absurd hi (hbc hj)
        | exact absurd hi (hb hj)
        | exact absurd hj (hb hi)
        | exact absurd hi (hc hj)
        | exact absurd hj (hc hi)
  | ear hd b c d rest =>
    obtain ⟨h1, h2, -⟩ := h.lined hd rfl
    have hb : ∀ {a}, hd.side = some a → b.side ≠ some a := side_ne_of_nodup h.nodup (by simp)
    constructor
    · intro i
      fin_cases i
      · exact ⟨h2.paired, h2.free⟩
      · exact ⟨fun hne => absurd rfl hne, fun _ _ hs => by simp [PolygonNode.side] at hs⟩
      · exact h1
    · intro i j a hi hj
      fin_cases i <;> fin_cases j <;> first
        | rfl
        | simp [PolygonNode.side] at hi; done
        | simp [PolygonNode.side] at hj; done
        | exact absurd hi (hb hj)
        | exact absurd hj (hb hi)

/-- `appendTrigon` keeps the adjacency of the net and the outline of the polygon. -/
theorem appendTrigon_adjacent {s s' : Net K} {nodes nodes' : List (PolygonNode K)}
    (h : s.Adjacent) (ho : s.Outline nodes)
    (hr : Polygon.appendTrigon s nodes = .ok (s', nodes')) :
    s'.Adjacent ∧ s'.Outline nodes' ∧ ∃ edge, CutOff s.trigonCount nodes edge nodes' ∧
      Rebuilt (s.appended edge) [] [s.trigonCount] s' := by
  obtain ⟨edge, s1, hcut, h1, h2⟩ := appendTrigon_ok hr
  obtain ⟨hb, hinj⟩ := ho.edges hcut
  obtain ⟨hadj1, hreb1⟩ := appended_ok h hb hinj h1
  obtain ⟨n, e, q, rfl⟩ := checkTrigonEdge_ok h2
  have hadj := hadj1.of_queue n e q
  have hreb := hreb1.of_queue n e q
  refine ⟨hadj, ?_, edge, hcut, hreb⟩
  generalize ({ s1 with nodeCount := n, etc := e, queue := q } : Net K) = s' at hadj hreb
  cases hcut with
  | last => exact ⟨by simp, List.nodup_nil⟩
  | ear hd b c d rest =>
    obtain ⟨-, -, hl⟩ := ho.lined hd rfl
    have hnodup := nodup_of_cons (nodup_of_cons ho.nodup)
    -- the nodes that stay name sides different from those of the edges that were cut off
    have hkeep : ∀ m ∈ c :: d :: rest, ∀ w, s.Behind m w → s'.Behind m w := by
      intro m hm w hmw
      refine hmw.rebuilt h hadj hreb fun i a hi => ?_
      fin_cases i
      · exact side_ne_of_nodup (nodup_of_cons ho.nodup) hm hi
      · simp [PolygonNode.side] at hi
      · exact side_ne_of_nodup ho.nodup (List.mem_cons_of_mem _ hm) hi
    have hlive : s'.Live s.trigonCount := by
      unfold Live
      rw [hreb.trigonIndex]
      simp
    refine ⟨fun m hm => ?_, ?_⟩
    · obtain rfl : _ = m := by simpa using hm
      refine ⟨⟨by simp, fun t k hs => ?_⟩, hl.mono hkeep⟩
      obtain ⟨ht, hk⟩ := PolygonNode.side_eq_some.mp hs
      obtain rfl := Option.some.inj ht
      obtain rfl := Option.some.inj hk
      refine ⟨hlive, ?_, ?_⟩
      · rw [hreb.links.new _ (by simp), appended_link_new]
        rfl
      · rw [hreb.vex, appended_vex_new]
        exact ⟨rfl, rfl⟩
    · rw [List.filterMap_cons_some (show PolygonNode.side _ = some (s.trigonCount, 1) from rfl),
        List.nodup_cons]
      refine ⟨fun hmem => ?_, hnodup⟩
      -- the new trigon is behind no edge yet
      obtain ⟨m, hm, hs⟩ := List.mem_filterMap.mp hmem
      obtain ⟨w, hw⟩ := hl.behind hm
      exact (h.old _ (hw.free _ _ hs).1).ne rfl

end AppendTrigon

end Net

end MTalk.Triangle
