import MTalk.Triangle.WholeContours
import MTalk.Triangle.PointLocation
import MTalk.Library.WhileLoop

/-!
# The contours of a net

`ContourSet` extracts a contour from each trigon that the level meets. The mark that
`GetCrossTrigon` looks at is set for the start trigon alone, not for the trigons that the walk goes
through, so that a line through two trigons is extracted from both. The set has each crossed edge
once only where the level crosses no edge between two trigons.
-/

namespace MTalk.Triangle

open GeoMath PartialWalks

namespace Net

section Resets

variable {K : Type} (s : Net K)

/-- The trigons of the cells, in the order that `QueryList` scans them. -/
def scan : List TrigonRef :=
  (indices 0 (s.listp.nx - 1)).flatMap fun i =>
    (indices 0 (s.listp.ny - 1)).flatMap fun j => s.cells i j

/-- `resetvisit`: `QueryList.reset` takes the mark from every trigon of the cells. -/
def resetvisit : Net K :=
  { s with visited := fun t => if t ∈ s.scan then false else s.visited t }

end Resets

end Net

namespace ContourSet

variable {K : Type} [Field K] [LinearOrder K]

/-- `GetSeg`, as one iteration of the loop of `GetAll`. -/
def getSeg (fuel : ℕ) (z : K) (cs : Net K × List (Contour K)) :
    Except Stop (Option (Net K × List (Contour K))) := do
  let (net, seg) ← Contour.extractSegment cs.1 z fuel
  match seg with
  | none => return none
  | some seg => return some (net, cs.2 ++ [seg])

/-- `GetAll`. -/
def getAll (fuel : ℕ) (z : K) (net : Net K) : Except Stop (Net K × List (Contour K)) := do
  let (net, list) ← WhileLoop.run .running (getSeg fuel z) fuel (net, [])
  return (net.resetvisit, list)

end ContourSet

namespace Net

variable {K : Type} [Field K] [LinearOrder K]

/-- `TrigonNet.getContourSet`. -/
def getContourSet (fuel : ℕ) (s : Net K) (z : K) :
    Except Stop (Net K × List (List (SidePoint K))) := do
  let (net, conset) ← ContourSet.getAll fuel z s
  return (net, conset.map Contour.list)

end Net

/-! What the set should be. -/

namespace Net

variable {K : Type} {s : Net K}

instance (s : Net K) (a b : TrigonRef × Fin 3) : Decidable (s.SameEdge a b) :=
  inferInstanceAs (Decidable (_ ∨ _))

/-- The points of a contour, without the last one where that is on the edge of the first again. -/
def withoutReturn (s : Net K) : List (SidePoint K) → List (SidePoint K)
  | q :: r :: rest =>
    if s.SameEdge q.side ((r :: rest).getLast (List.cons_ne_nil _ _)).side then
      q :: (r :: rest).dropLast
    else q :: r :: rest
  | list => list

/-- Every crossed edge has one point, and no contour is there twice. -/
structure ExactSet [Field K] [LinearOrder K] (s : Net K) (z : K)
    (lists : List (List (SidePoint K))) : Prop where
  complete : ∀ a ∈ s.entered z, ∃ q ∈ lists.flatMap s.withoutReturn, s.SameEdge q.side a
  once : (lists.flatMap s.withoutReturn).Pairwise fun q r => ¬ s.SameEdge q.side r.side
  onSides : ∀ list ∈ lists, ∀ q ∈ list, q.side ∈ s.entered z ∧ s.OnSide z q
  nodup : lists.Nodup

/-- Each side that the level crosses is at the boundary, of a trigon whose side opposite the first
vertex is not crossed, or glued to the other crossed side of its own trigon. -/
def Alone [LinearOrder K] (s : Net K) (z : K) : Prop :=
  ∀ a ∈ s.entered z,
    s.nbtri a.1 a.2 = none ∧ s.crosses z a.1 0 = false ∨ s.nbtri a.1 a.2 = some a.1

lemma SameEdge.symm (hs : s.AdjacencyInvariant) {a b : TrigonRef × Fin 3} (ha : s.Live a.1)
    (h : s.SameEdge a b) : s.SameEdge b a := by
  rcases h with rfl | hlink
  · exact .inl rfl
  · exact .inr (hs.link_some ha hlink).2.1

lemma SameEdge.trans (hs : s.AdjacencyInvariant) {a b c : TrigonRef × Fin 3} (ha : s.Live a.1)
    (hab : s.SameEdge a b) (hbc : s.SameEdge b c) : s.SameEdge a c := by
  rcases hab with rfl | hab
  · exact hbc
  · rcases hbc with rfl | hbc
    · exact .inr hab
    · have hback := (hs.link_some ha hab).2.1
      rw [hback, Option.some.injEq] at hbc
      exact .inl hbc

lemma SameEdge.live (hs : s.AdjacencyInvariant) {a b : TrigonRef × Fin 3} (ha : s.Live a.1)
    (h : s.SameEdge a b) : s.Live b.1 := by
  rcases h with rfl | hlink
  · exact ha
  · exact (hs.link_some ha hlink).1

/-- A side without a neighbour is an edge of its own. -/
lemma SameEdge.eq_of_boundary (hs : s.AdjacencyInvariant) {a b : TrigonRef × Fin 3}
    (ha : s.Live a.1) (hb : s.link b = none) (h : s.SameEdge a b) : a = b := by
  rcases h with rfl | hlink
  · rfl
  · rw [(hs.link_some ha hlink).2.1] at hb
    cases hb

lemma withoutReturn_sublist (list : List (SidePoint K)) :
    (s.withoutReturn list).Sublist list := by
  unfold withoutReturn
  split
  · split_ifs
    · exact (List.dropLast_sublist _).cons_cons _
    · exact List.Sublist.refl _
  · exact List.Sublist.refl _

/-- The first two points of three stay. -/
lemma withoutReturn_three (q q' r : SidePoint K) (rest : List (SidePoint K)) :
    ∃ rest', s.withoutReturn (q :: q' :: r :: rest) = q :: q' :: rest' := by
  rw [withoutReturn]
  split_ifs
  · exact ⟨(r :: rest).dropLast, rfl⟩
  · exact ⟨r :: rest, rfl⟩

lemma withoutReturn_closed {l : List (SidePoint K)} {q r : SidePoint K} (hr : r ∈ l.head?)
    (hreturn : s.SameEdge r.side q.side) : s.withoutReturn (l ++ [q]) = l := by
  match l with
  | [] => simp at hr
  | [r'] =>
    obtain rfl := Option.some.inj hr
    exact if_pos hreturn
  | r' :: r'' :: l =>
    obtain rfl := Option.some.inj hr
    have hlast : (r'' :: (l ++ [q])).getLast (List.cons_ne_nil _ _) = q := by
      simp
    have hinit : (r'' :: (l ++ [q])).dropLast = r'' :: l := by
      rw [← List.cons_append, List.dropLast_concat]
    rw [List.cons_append, List.cons_append, withoutReturn, hlast, if_pos hreturn, hinit]

/-- Every point's edge is there without the return. -/
lemma exists_mem_withoutReturn {list : List (SidePoint K)} {q : SidePoint K} (hq : q ∈ list) :
    ∃ r ∈ s.withoutReturn list, s.SameEdge r.side q.side := by
  unfold withoutReturn
  split
  next q' r rest =>
    split_ifs with hreturn
    · rcases List.mem_cons.mp hq with rfl | hq
      · exact ⟨q, List.mem_cons_self, .inl rfl⟩
      · rw [← List.dropLast_append_getLast (List.cons_ne_nil r rest), List.mem_append,
          List.mem_singleton] at hq
        rcases hq with hq | rfl
        · exact ⟨q, List.mem_cons_of_mem _ hq, .inl rfl⟩
        · exact ⟨q', List.mem_cons_self, hreturn⟩
    · exact ⟨q, hq, .inl rfl⟩
  next => exact ⟨q, hq, .inl rfl⟩

end Net

/-! The run of the loop. -/

namespace ContourSet

open Net

variable {K : Type} [Field K] [LinearOrder K] {s : Net K} {z : K}

/-- The contour that is traced from each trigon that the level meets. -/
def Traced (s : Net K) (z : K) (L : TrigonRef → Contour K) : Prop :=
  ∀ p, s.Live p → (∃ i, s.crosses z p i = true) →
    ∃ fuel, Contour.extractFrom s z fuel p = .ok (L p)

/-- What the loop has after the extractions from some start trigons. -/
structure Collected (s : Net K) (L : TrigonRef → Contour K) (z : K) (ps : List TrigonRef)
    (cs : Net K × List (Contour K)) : Prop where
  net : cs.1 = { s with visited := cs.1.visited }
  marks : ∀ t ∈ s.scan, cs.1.visited t = true ↔ t ∈ ps
  nodup : ps.Nodup
  met : ∀ p ∈ ps, s.Live p ∧ ∃ i, s.crosses z p i = true
  list : cs.2 = ps.map L

/-- The walk does not look at the marks. -/
lemma go_marked (v : TrigonRef → Bool) (n : ℕ) (c : Contour K) :
    c.go { s with visited := v } z n = c.go s z n := by
  induction n generalizing c with
  | zero => rfl
  | succ n ih =>
    have hnext : c.getNext { s with visited := v } z = c.getNext s z := rfl
    simp only [Contour.go, hnext, ih]

lemma extractFrom_marked (v : TrigonRef → Bool) (n : ℕ) (p : TrigonRef) :
    Contour.extractFrom { s with visited := v } z n p = Contour.extractFrom s z n p :=
  go_marked v n _

variable {L : TrigonRef → Contour K} {ps : List TrigonRef} {cs cs' : Net K × List (Contour K)}
  {fuel : ℕ} (hlive : ∀ t ∈ s.scan, s.Live t)

omit [Field K] in
/-- The trigon that the scan stops at. -/
lemma getCrossTrigon_eq_some (h : Collected s L z ps cs) {p : TrigonRef}
    (hp : cs.1.getCrossTrigon z = some p) :
    p ∈ s.scan ∧ p ∉ ps ∧ ∃ i, s.crosses z p i = true := by
  rw [h.net] at hp
  have hscan := List.mem_of_find?_eq_some hp
  have hmeets := List.find?_some hp
  simp only [decide_eq_true_eq] at hmeets
  refine ⟨hscan, ?_, exists_crosses hmeets.1 hmeets.2.1⟩
  rw [← h.marks p hscan, hmeets.2.2]
  exact Bool.false_ne_true

omit [Field K] in
/-- The scan comes to its end once every trigon that the level meets is marked. -/
lemma getCrossTrigon_eq_none (h : Collected s L z ps cs) (hp : cs.1.getCrossTrigon z = none)
    {p : TrigonRef} (hscan : p ∈ s.scan) (hcross : ∃ i, s.crosses z p i = true) : p ∈ ps := by
  rw [h.net] at hp
  have hnot := List.find?_eq_none.mp hp p hscan
  simp only [decide_eq_true_eq] at hnot
  obtain ⟨i, hi⟩ := hcross
  rw [crosses, isCross_iff, min_le_iff, le_max_iff] at hi
  have hlow : minz (s.vex p) ≤ z := by
    rcases hi.1 with hz | hz
    · exact (smallest_le (fun i => (s.vex p i).coord.z) _).trans hz
    · exact (smallest_le (fun i => (s.vex p i).coord.z) _).trans hz
  have hhigh : z ≤ maxz (s.vex p) := by
    rcases hi.2 with hz | hz
    · exact hz.trans (le_largest (fun i => (s.vex p i).coord.z) _)
    · exact hz.trans (le_largest (fun i => (s.vex p i).coord.z) _)
  rw [← h.marks p hscan]
  by_contra hmark
  exact hnot ⟨hlow, hhigh, by simpa using hmark⟩

include hlive

omit [Field K] in
/-- One more start trigon. -/
lemma Collected.step (h : Collected s L z ps cs) {p : TrigonRef}
    (hp : cs.1.getCrossTrigon z = some p) :
    Collected s L z (ps ++ [p])
      ({ cs.1 with visited := Function.update cs.1.visited p true }, cs.2 ++ [L p]) := by
  obtain ⟨hscan, hnew, hcross⟩ := getCrossTrigon_eq_some h hp
  refine ⟨?_, ?_, ?_, ?_, ?_⟩
  · rw [h.net]
  · intro t ht
    have hmark := h.marks t ht
    by_cases htp : t = p
    · simp [htp]
    · simp [htp, hmark]
  · rw [List.nodup_append]
    refine ⟨h.nodup, List.nodup_singleton p, ?_⟩
    rintro a ha b hb rfl
    rw [List.mem_singleton] at hb
    exact hnew (hb ▸ ha)
  · intro q hq
    rcases List.mem_append.mp hq with hq | hq
    · exact h.met q hq
    · rw [List.mem_singleton] at hq
      rw [hq]
      exact ⟨hlive p hscan, hcross⟩
  · rw [h.list, List.map_append, List.map_singleton]

variable (hL : Traced s z L)

include hL

/-- An iteration extracts the contour of the trigon that the scan stops at. -/
lemma Collected.iteration (h : Collected s L z ps cs)
    (hstep : WhileLoop.Iteration (getSeg fuel z) cs cs') :
    ∃ ps', Collected s L z ps' cs' := by
  unfold WhileLoop.Iteration getSeg Contour.extractSegment at hstep
  cases hp : cs.1.getCrossTrigon z with
  | none => simp [hp, bind, Except.bind, pure, Except.pure] at hstep
  | some p =>
    obtain ⟨hscan, -, hcross⟩ := getCrossTrigon_eq_some h hp
    obtain ⟨fuel', hfuel⟩ := hL p (hlive p hscan) hcross
    simp only [hp] at hstep
    obtain ⟨⟨net, seg⟩, hrun, hstep⟩ := bind_eq_ok.mp hstep
    obtain ⟨c, hc, hrun⟩ := bind_eq_ok.mp hrun
    rw [h.net, extractFrom_marked] at hc
    obtain rfl := Contour.go_unique hc hfuel
    simp only [Except.ok.injEq, Prod.mk.injEq] at hrun
    obtain ⟨rfl, rfl⟩ := hrun
    simp only [pure, Except.pure, Except.ok.injEq, Option.some.injEq] at hstep
    subst hstep
    exact ⟨ps ++ [p], h.step hlive hp⟩

/-- The loop has the contours of all trigons that the level meets. -/
lemma getAll_collects (hfresh : ∀ t ∈ s.scan, s.visited t = false) {n : ℕ}
    (hr : WhileLoop.run .running (getSeg fuel z) n (s, []) = .ok cs) :
    ∃ ps, Collected s L z ps cs ∧
      ∀ p ∈ s.scan, (∃ i, s.crosses z p i = true) → p ∈ ps := by
  have hfirst : Collected s L z [] (s, []) :=
    ⟨rfl, fun t ht => by simp [hfresh t ht], List.nodup_nil, by simp, rfl⟩
  obtain ⟨⟨ps, h⟩, hexit⟩ := WhileLoop.invariant_of_run (I := fun cs => ∃ ps, Collected s L z ps cs)
    (fun cs cs' h hstep => h.elim fun ps h => h.iteration hlive hL hstep) hr ⟨[], hfirst⟩
  refine ⟨ps, h, fun p hscan hcross => ?_⟩
  apply getCrossTrigon_eq_none h _ hscan hcross
  cases hp : cs.1.getCrossTrigon z with
  | none => rfl
  | some p =>
    unfold getSeg Contour.extractSegment at hexit
    simp only [hp] at hexit
    obtain ⟨⟨net, seg⟩, hrun, hexit⟩ := bind_eq_ok.mp hexit
    obtain ⟨c, hc, hrun⟩ := bind_eq_ok.mp hrun
    simp only [Except.ok.injEq, Prod.mk.injEq] at hrun
    obtain ⟨rfl, rfl⟩ := hrun
    simp [pure, Except.pure] at hexit

/-- The loop returns: each extraction marks one more trigon. -/
lemma getAll_returns (hfresh : ∀ t ∈ s.scan, s.visited t = false) :
    ∃ fuel cs, WhileLoop.run .running (getSeg fuel z) fuel (s, []) = .ok cs := by
  classical
  have hfuels : ∀ p, ∃ fuel, s.Live p → (∃ i, s.crosses z p i = true) →
      Contour.extractFrom s z fuel p = .ok (L p) := by
    intro p
    by_cases hp : s.Live p ∧ ∃ i, s.crosses z p i = true
    · obtain ⟨fuel, hfuel⟩ := hL p hp.1 hp.2
      exact ⟨fuel, fun _ _ => hfuel⟩
    · exact ⟨0, fun h1 h2 => absurd ⟨h1, h2⟩ hp⟩
  choose F hF using hfuels
  -- enough steps for each walk, and one iteration for each trigon
  let fuel := s.scan.toFinset.sup F + s.scan.toFinset.card + 1
  refine ⟨fuel, ?_⟩
  let unmarked : Net K × List (Contour K) → Finset TrigonRef :=
    fun cs => s.scan.toFinset.filter fun t => cs.1.visited t = false
  have hfirst : Collected s L z [] (s, []) :=
    ⟨rfl, fun t ht => by simp [hfresh t ht], List.nodup_nil, by simp, rfl⟩
  refine WhileLoop.exists_run_of_lt (I := fun cs => ∃ ps, Collected s L z ps cs)
    (fun cs => (unmarked cs).card) ?_ ⟨[], hfirst⟩ ?_
  · rintro cs ⟨ps, h⟩
    cases hp : cs.1.getCrossTrigon z with
    | none =>
      left
      simp [getSeg, Contour.extractSegment, hp, bind, Except.bind, pure, Except.pure]
    | some p =>
      obtain ⟨hscan, hnew, hcross⟩ := getCrossTrigon_eq_some h hp
      have hle : F p ≤ fuel := by
        have hsup := Finset.le_sup (f := F) (List.mem_toFinset.mpr hscan)
        omega
      have hrun : Contour.extractFrom cs.1 z fuel p = .ok (L p) := by
        rw [h.net, extractFrom_marked, ← Nat.add_sub_cancel' hle]
        exact Contour.go_add (hF p (hlive p hscan) hcross) _
      right
      refine ⟨_, ?_, ⟨_, h.step hlive hp⟩, ?_⟩
      · simp [WhileLoop.Iteration, getSeg, Contour.extractSegment, hp, hrun, bind, Except.bind,
          pure, Except.pure]
      · apply Finset.card_lt_card
        have hmark : cs.1.visited p = false := by
          rw [← Bool.not_eq_true, h.marks p hscan]
          exact hnew
        rw [Finset.ssubset_iff_of_subset]
        · exact ⟨p, by simp [unmarked, hscan, hmark], by simp [unmarked]⟩
        · intro t ht
          simp only [unmarked, Finset.mem_filter] at ht ⊢
          refine ⟨ht.1, ?_⟩
          by_cases htp : t = p
          · rw [htp]
            exact hmark
          · simpa [htp] using ht.2
  · have hcard := Finset.card_filter_le s.scan.toFinset fun t => s.visited t = false
    simp only [unmarked, fuel]
    omega

end ContourSet

/-! The contours where the level crosses no edge between two trigons. -/

namespace Net

variable {K : Type} [LinearOrder K] {s : Net K} {z : K} {p : TrigonRef}

/-- Each crossed side of a trigon is at the boundary or glued to another side of the trigon. -/
def Lone (s : Net K) (z : K) (p : TrigonRef) : Prop :=
  ∀ i, s.crosses z p i = true → s.nbtri p i = none ∨ s.nbtri p i = some p

lemma entered_of_component (hs : s.AdjacencyInvariant) (hp : s.Live p) {a : TrigonRef × Fin 3}
    (ha : a ∈ s.component z p) : a ∈ s.entered z := by
  obtain ⟨i, hi, hpa⟩ := ha
  exact (mem_of_eqvGen hs (fun a b hab _ => hab.2.1) hpa).mp ⟨hp, hi⟩

lemma component_subset_of_mem (hp : s.Live p) (hs : s.AdjacencyInvariant)
    {a b : TrigonRef × Fin 3} (ha : a ∈ s.component z p) (hb : b ∈ s.component z a.1) :
    b ∈ s.component z p := by
  have hain := entered_of_component hs hp ha
  obtain ⟨j, hj, hab⟩ := hb
  obtain ⟨i, hi, hpj⟩ := component_of_joined ha
    (show s.Joined z a (a.1, j) from ⟨hain, ⟨hain.1, hj⟩, .inl rfl⟩)
  exact ⟨i, hi, hpj.trans _ _ _ hab⟩

lemma link_of_lone (h : s.Lone z p) {a b : TrigonRef × Fin 3}
    (ha : a ∈ s.entered z) (hap : a.1 = p) (hab : s.link a = some b) : b.1 = p := by
  have hnb := (link_eq_some.mp (show _ = some (b.1, b.2) from hab)).1
  subst hap
  rcases h a.2 ha.2 with hnone | hself
  · rw [hnb] at hnone
    cases hnone
  · rw [hnb] at hself
    exact Option.some.inj hself

omit [LinearOrder K] in
lemma link_of_nbtri_eq_none {a : TrigonRef × Fin 3} (h : s.nbtri a.1 a.2 = none) :
    s.link a = none := by
  cases hlink : s.link a with
  | none => rfl
  | some b =>
    rw [(link_eq_some.mp (show s.link (a.1, a.2) = some (b.1, b.2) from hlink)).1] at h
    cases h

/-- If one crossed side of such a trigon is at the boundary, so is the other. -/
lemma link_flip_of_lone (hs : s.AdjacencyInvariant) (hz : s.AvoidsVertices z)
    {a : TrigonRef × Fin 3} (ha : a ∈ s.entered z) (h : s.Lone z a.1)
    (hnone : s.nbtri a.1 a.2 = none) : s.link (s.flip z a) = none := by
  cases hlink : s.link (s.flip z a) with
  | none => rfl
  | some b =>
    have hba := link_of_lone h (flip_entered ha) rfl hlink
    have hstep : iter (s.follow z) 1 a = some b := by
      rw [iter_one]
      exact hlink
    obtain rfl := eq_of_iter hs hz ha hstep hba
    have hback := (hs.link_some ha.1 hlink).2.1
    rw [link_of_nbtri_eq_none hnone] at hback
    cases hback

/-- The component of such a trigon is its own. -/
lemma component_of_lone (hs : s.AdjacencyInvariant) (h : s.Lone z p) {a : TrigonRef × Fin 3}
    {q : TrigonRef} (ha : a ∈ s.component z q) : a.1 = p ↔ q = p := by
  obtain ⟨i, -, hqa⟩ := ha
  have hclosed : ∀ a b, s.Joined z a b → a ∈ {x : TrigonRef × Fin 3 | x.1 = p} →
      b ∈ {x : TrigonRef × Fin 3 | x.1 = p} := by
    rintro a b ⟨ha, hb, hsame | hlink⟩ hap
    · exact hsame.symm.trans hap
    · exact link_of_lone h ha hap hlink
  exact (mem_of_eqvGen hs hclosed hqa).symm

/-- `GetFirst` and the first branch leave out the side opposite the first vertex. -/
lemma exitSide_firstSide (hz : s.AvoidsVertices z) {i : Fin 3} (hi : s.firstSide z p = some i)
    (hx : (p, i) ∈ s.entered z) :
    s.exitSide z (p, i) = i + 2 ↔ s.crosses z p 0 = false := by
  have htwo := crosses_two_iff hz hx
  have hbranch : s.exitSide z (p, i) = i + 2 ↔ s.crosses z p (i + 2) = true := by
    rw [exitSide_iff hz hx]
    exact ⟨And.right, fun h => ⟨(side_ne_two i).symm, h⟩⟩
  rw [hbranch]
  dsimp only at htwo
  cases h2 : s.crosses z p 2 with
  | true =>
    obtain rfl : 2 = i := by simpa [firstSide, h2] using hi
    rw [htwo, Bool.not_eq_true]
    rfl
  | false =>
    cases h0 : s.crosses z p 0 with
    | true =>
      obtain rfl : 0 = i := by simpa [firstSide, h2, h0] using hi
      simp [h2]
    | false =>
      obtain rfl : 1 = i := by
        have hfound := List.find?_some hi
        have hmem := List.mem_of_find?_eq_some hi
        simp only [List.mem_cons, List.not_mem_nil, or_false] at hmem
        rcases hmem with rfl | rfl | rfl
        · simp [h2] at hfound
        · simp [h0] at hfound
        · rfl
      have h12 : (1 : Fin 3) + 1 = 2 := rfl
      have h10 : (1 : Fin 3) + 2 = 0 := rfl
      rw [h12, h10, h0, h2] at htwo
      simp at htwo

end Net

namespace Contour

open Net

variable {K : Type} [Field K] [LinearOrder K] [IsStrictOrderedRing K] {s : Net K} {z : K}
  {p : TrigonRef} (hs : s.AdjacencyInvariant) (hz : s.AvoidsVertices z)

include hs hz

/-- The contour from a trigon has a point, and its points are on the line through the trigon. It is
the whole line, or a boundary point twice, or begins with a point twice and goes on. -/
lemma extractFrom_shape (hp : s.Live p) (hcross : ∃ i, s.crosses z p i = true) {c : Contour K}
    {fuel : ℕ} (hc : extractFrom s z fuel p = .ok c) :
    (∀ q ∈ c.list, q.side ∈ s.component z p ∧ s.OnSide z q) ∧ (∃ q, q ∈ c.list) ∧
      (s.WholeLine z p c.list ∨ (∃ q, s.link q.side = none ∧ c.list = [q, q])
        ∨ ∃ q r rest, c.list = q :: q :: r :: rest) := by
  obtain ⟨i, hi, hcross⟩ := exists_firstSide hcross
  have hx : (p, i) ∈ s.entered z := ⟨hp, hcross⟩
  have hxp : (p, i) ∈ s.component z p := ⟨i, hcross, .refl _⟩
  obtain ⟨c', n, y, ⟨fuel', hc'⟩, hlast, hy, hcases⟩ := extractFrom_cases hs hz hp hi hcross
  obtain rfl := go_unique hc hc'
  have hyp := component_iter hs hx hxp hlast.walk
  rcases hcases with ⟨-, hwhole⟩ | ⟨-, rest, hlist, hrest, hshort⟩
  · obtain ⟨q, hq, -⟩ := hwhole.complete _ hxp
    exact ⟨hwhole.onSides, ⟨q, hq⟩, .inl hwhole⟩
  · have hexit : ∀ b, b ∈ s.entered z → b ∈ s.component z p →
        (s.exitPoint z b).side ∈ s.component z p ∧ s.OnSide z (s.exitPoint z b) := by
      intro b hb hbp
      exact ⟨component_flip hb hbp, onSide_sectOf hz (flip_entered hb)⟩
    refine ⟨?_, ⟨s.exitPoint z y, by rw [hlist]; exact List.mem_cons_self⟩, ?_⟩
    · intro q hq
      rw [hlist, List.mem_cons, List.mem_cons, List.mem_map] at hq
      rcases hq with rfl | rfl | ⟨b, hb, rfl⟩
      · exact hexit y hy hyp
      · exact hexit y hy hyp
      · exact hexit b (hrest b hb).1 (hrest b hb).2
    · cases rest with
      | cons b rest => exact .inr (.inr ⟨_, _, _, hlist⟩)
      | nil =>
        rcases hshort.mp rfl with hnone | hself
        · exact .inr (.inl ⟨s.exitPoint z y, hnone, hlist⟩)
        · left
          obtain rfl : y.1 = p := by
            rcases hlast.ends with hnone | ⟨j, hj⟩
            · rw [hself] at hnone
              cases hnone
            · rw [hself, Option.some.injEq] at hj
              rw [hj]
          rw [hlist]
          exact wholeLine_of_follow_self hs hz hy hyp hself

/-- Which contour is traced where the line does not leave the trigon. -/
lemma extractFrom_lone (hp : s.Live p) (hlone : s.Lone z p) {i : Fin 3}
    (hi : s.firstSide z p = some i) (hcross : s.crosses z p i = true) {c : Contour K} {fuel : ℕ}
    (hc : extractFrom s z fuel p = .ok c) :
    (s.crosses z p 0 = false ∨ s.link (p, i) ≠ none → s.WholeLine z p c.list)
      ∧ (s.crosses z p 0 = true → c.list = [s.exitPoint z (p, i), s.exitPoint z (p, i)]) := by
  have hx : (p, i) ∈ s.entered z := ⟨hp, hcross⟩
  have hxp : (p, i) ∈ s.component z p := ⟨i, hcross, .refl _⟩
  obtain ⟨c', n, y, ⟨fuel', hc'⟩, hlast, hy, hcases⟩ := extractFrom_cases hs hz hp hi hcross
  obtain rfl := go_unique hc hc'
  have hends : s.follow z (p, i) = none ∨ s.follow z (p, i) = some (p, i) := by
    cases hnext : s.follow z (p, i) with
    | none => exact .inl rfl
    | some b =>
      right
      have hbp := link_of_lone hlone (flip_entered hx) rfl hnext
      have hstep : iter (s.follow z) 1 (p, i) = some b := by rw [iter_one, hnext]
      rw [eq_of_iter hs hz hx hstep hbp]
  have hatonce : Last s z p (p, i) 0 (p, i) :=
    ⟨rfl, fun m hm hm' => by omega, hends.imp_right fun h => ⟨i, h⟩⟩
  obtain ⟨rfl, rfl⟩ := hlast.unique hatonce
  have hfirst := exitSide_firstSide hz hi hx
  rcases hcases with ⟨hexit, hwhole⟩ | ⟨hexit, rest, hlist, -, hshort⟩
  · refine ⟨fun _ => hwhole, fun h0 => ?_⟩
    rw [hfirst.mp hexit] at h0
    cases h0
  · have hcrossed : s.crosses z p 0 = true := by
      rw [← Bool.not_eq_false, ← hfirst, hexit]
      rw [← side_one_one]
      exact side_ne_one _
    rw [hshort.mpr hends] at hlist
    refine ⟨fun h => ?_, fun _ => hlist⟩
    have hglued := h.resolve_left (by simp [hcrossed])
    have hself : s.follow z (p, i) = some (p, i) := by
      obtain ⟨⟨t, j⟩, hb⟩ := Option.ne_none_iff_exists'.mp hglued
      obtain rfl : t = p := link_of_lone hlone hx rfl hb
      exact follow_of_gluedToItself hs hz hx ⟨i, j, hcross, hb⟩
    rw [hlist]
    exact wholeLine_of_follow_self hs hz hx hxp hself

end Contour

/-! The whole set. -/

namespace Net

variable {K : Type} [Field K] [LinearOrder K] {s : Net K} {z : K}

/-- The cells have the live trigons. -/
lemma mem_scan_iff [IsStrictOrderedRing K] [FloorRing K] (hready : QueryList.Ready s)
    (hsize : 0 < s.listp.cellsize) (t : TrigonRef) : t ∈ s.scan ↔ s.Live t := by
  simp only [scan, List.mem_flatMap, mem_indices]
  constructor
  · rintro ⟨r, -, c, -, ht⟩
    exact ((hready.filed.mem_iff r c t).mp ht).1
  · intro ht
    obtain ⟨hr, hr', hc, hc'⟩ := hready.inside t ht 0
    have hbox := ListParam.mem_box_of_vertex hsize (s.vex t) 0
    exact ⟨_, ⟨hr, by omega⟩, _, ⟨hc, by omega⟩, (hready.filed.mem_iff _ _ t).mpr ⟨ht, hbox⟩⟩

section Lists

variable [IsStrictOrderedRing K] (hs : s.AdjacencyInvariant) (hz : s.AvoidsVertices z)
  {L : TrigonRef → Contour K} (hL : ContourSet.Traced s z L) {ps : List TrigonRef}
  (hnodup : ps.Nodup) (hps : ∀ p, p ∈ ps ↔ s.Live p ∧ ∃ i, s.crosses z p i = true)

include hs hz hL hps

lemma traced_entered {p : TrigonRef} (hp : p ∈ ps) {q : SidePoint K} (hq : q ∈ (L p).list) :
    q.side ∈ s.component z p ∧ q.side ∈ s.entered z ∧ s.OnSide z q := by
  obtain ⟨hlive, hcross⟩ := (hps p).mp hp
  obtain ⟨fuel, hc⟩ := hL p hlive hcross
  have hside := (Contour.extractFrom_shape hs hz hlive hcross hc).1 q hq
  exact ⟨hside.1, entered_of_component hs hlive hside.1, hside.2⟩

section Exact

variable (hexact : s.ExactSet z (ps.map fun p => (L p).list))

include hexact

/-- No edge is on the contours of two start trigons. -/
lemma ExactSet.apart {p p' : TrigonRef} (hp : p ∈ ps) (hp' : p' ∈ ps) (hne : p ≠ p')
    {q r : SidePoint K} (hq : q ∈ (L p).list) (hr : r ∈ (L p').list) :
    ¬ s.SameEdge q.side r.side := by
  intro hsame
  obtain ⟨q', hq', hqq⟩ := exists_mem_withoutReturn (s := s) hq
  obtain ⟨r', hr', hrr⟩ := exists_mem_withoutReturn (s := s) hr
  have hqlive : s.Live q'.side.1 :=
    (traced_entered hs hz hL hps hp ((withoutReturn_sublist _).subset hq')).2.1.1
  have hrlive : s.Live r'.side.1 :=
    (traced_entered hs hz hL hps hp' ((withoutReturn_sublist _).subset hr')).2.1.1
  have hboth : s.SameEdge q'.side r'.side :=
    (hqq.trans hs hqlive hsame).trans hs hqlive (hrr.symm hs hrlive)
  let R : TrigonRef → TrigonRef → Prop := fun p p' => ∀ q ∈ s.withoutReturn (L p).list,
    ∀ r ∈ s.withoutReturn (L p').list, ¬ s.SameEdge q.side r.side ∧ ¬ s.SameEdge r.side q.side
  have hsymm : Std.Symm R := ⟨fun p p' h q hq r hr => (h r hr q hq).symm⟩
  have honce := hexact.once
  rw [List.flatMap_map, List.pairwise_flatMap] at honce
  have hpairs : ps.Pairwise R := by
    refine honce.2.imp_of_mem ?_
    intro a b ha hb h q hq r hr
    refine ⟨h q hq r hr, fun hback => h q hq r hr (hback.symm hs ?_)⟩
    exact (traced_entered hs hz hL hps hb ((withoutReturn_sublist _).subset hr)).2.1.1
  exact (hpairs.forall hp hp' hne q' hq' r' hr').1 hboth

/-- Each contour is the whole line or a boundary point twice. -/
lemma ExactSet.shape {p : TrigonRef} (hp : p ∈ ps) :
    s.WholeLine z p (L p).list ∨ ∃ q, s.link q.side = none ∧ (L p).list = [q, q] := by
  obtain ⟨hlive, hcross⟩ := (hps p).mp hp
  obtain ⟨fuel, hc⟩ := hL p hlive hcross
  rcases (Contour.extractFrom_shape hs hz hlive hcross hc).2.2 with
    hwhole | hboundary | ⟨q, r, rest, hlist⟩
  · exact .inl hwhole
  · exact .inr hboundary
  · have honce := hexact.once
    rw [List.flatMap_map, List.pairwise_flatMap] at honce
    have hfirst := honce.1 p hp
    obtain ⟨rest', hrest⟩ := withoutReturn_three (s := s) q q r rest
    rw [hlist, hrest] at hfirst
    exact absurd (.inl rfl) (List.rel_of_pairwise_cons hfirst List.mem_cons_self)

omit [IsStrictOrderedRing K] hs hz hL hps in
lemma ExactSet.exists_point {a : TrigonRef × Fin 3} (ha : a ∈ s.entered z) :
    ∃ p ∈ ps, ∃ q ∈ (L p).list, s.SameEdge q.side a := by
  obtain ⟨q, hq, hqa⟩ := hexact.complete a ha
  rw [List.flatMap_map, List.mem_flatMap] at hq
  obtain ⟨p, hp, hq⟩ := hq
  exact ⟨p, hp, q, (withoutReturn_sublist _).subset hq, hqa⟩

/-- The level crosses no edge between two trigons: each of the two has a contour with it. -/
lemma ExactSet.lone {p : TrigonRef} (hp : s.Live p) : s.Lone z p := by
  intro i hi
  by_contra hnot
  push Not at hnot
  obtain ⟨u, hu⟩ := Option.ne_none_iff_exists'.mp hnot.1
  have hup : u ≠ p := by
    rintro rfl
    exact hnot.2 hu
  obtain ⟨j, hlink, hulive, -⟩ := hs.link_of_nbtri hp hu
  have hin : (p, i) ∈ s.entered z := ⟨hp, hi⟩
  have hin' : (u, j) ∈ s.entered z := ⟨hulive, by
    change s.crosses z u j = true
    rw [hs.crosses_of_link hp hlink]
    exact hi⟩
  obtain ⟨p', hp', q, hq, hqa⟩ := hexact.exists_point hin
  have hqin := traced_entered hs hz hL hps hp' hq
  rcases hexact.shape hs hz hL hps hp' with hwhole | ⟨q', hnone, hlist⟩
  · -- one of the two trigons is not the one that this line is traced from
    have hap : (p, i) ∈ s.component z p' := by
      rcases hqa with hqa | hqa
      · exact hqa ▸ hqin.1
      · exact component_of_joined hqin.1 ⟨hqin.2.1, hin, .inr hqa⟩
    have hbp := component_of_joined hap
      (show s.Joined z (p, i) (u, j) from ⟨hin, hin', .inr hlink⟩)
    have hother : ∃ a ∈ s.component z p', a ∈ s.entered z ∧ a.1 ≠ p' := by
      by_cases hpp : p = p'
      · exact ⟨(u, j), hbp, hin', fun h => hup (h.trans hpp.symm)⟩
      · exact ⟨(p, i), hap, hin, hpp⟩
    obtain ⟨a, hap, hain, hne⟩ := hother
    have ha : a.1 ∈ ps := (hps a.1).mpr ⟨hain.1, a.2, hain.2⟩
    obtain ⟨fuel, hc⟩ := hL a.1 hain.1 ⟨a.2, hain.2⟩
    obtain ⟨r, hr⟩ := (Contour.extractFrom_shape hs hz hain.1 ⟨a.2, hain.2⟩ hc).2.1
    have hrin := traced_entered hs hz hL hps ha hr
    obtain ⟨q', hq', hsame⟩ := hwhole.complete r.side
      (component_subset_of_mem ((hps p').mp hp').1 hs hap hrin.1)
    exact hexact.apart hs hz hL hps hp' ha hne.symm hq' hr hsame
  · obtain rfl : q = q' := by simpa [hlist] using hq
    rcases hqa with hqa | hqa
    · rw [hqa, hlink] at hnone
      cases hnone
    · rw [hnone] at hqa
      cases hqa

/-- Of a trigon at the boundary the side opposite the first vertex is not crossed: its contour
would have one of the two crossed sides twice and the other one not at all. -/
lemma ExactSet.not_crosses {p : TrigonRef} (hp : s.Live p) {i : Fin 3}
    (hi : s.crosses z p i = true) (hnone : s.nbtri p i = none) : s.crosses z p 0 = false := by
  have hlone := hexact.lone hs hz hL hps hp
  obtain ⟨k, hk, hcross⟩ := exists_firstSide ⟨i, hi⟩
  have hx : (p, k) ∈ s.entered z := ⟨hp, hcross⟩
  obtain ⟨fuel, hc⟩ := hL p hp ⟨i, hi⟩
  have hlist := (Contour.extractFrom_lone hs hz hp hlone hk hcross hc).2
  rw [← Bool.not_eq_true]
  intro h0
  have hboundary : s.link (p, k) = none := by
    have hin : (p, i) ∈ s.entered z := ⟨hp, hi⟩
    rcases eq_or_eq_flip hz hin hx rfl with heq | heq
    · rw [heq]
      exact link_of_nbtri_eq_none hnone
    · rw [heq]
      exact link_flip_of_lone hs hz hin hlone hnone
  obtain ⟨p', hp', q, hq, hqx⟩ := hexact.exists_point hx
  have hqin := traced_entered hs hz hL hps hp' hq
  have hqeq := hqx.eq_of_boundary hs hqin.2.1.1 hboundary
  have hpp : p' = p := by
    rw [← component_of_lone hs hlone hqin.1, hqeq]
  rw [hpp, hlist h0] at hq
  have hflip : q = s.exitPoint z (p, k) := by simpa using hq
  rw [hflip] at hqeq
  exact flip_ne hz hx hqeq

end Exact

/-- Where the level crosses sides of lone trigons alone, by first branches, each contour is the
whole line. -/
lemma Alone.wholeLine (halone : s.Alone z) {p : TrigonRef} (hp : p ∈ ps) :
    s.Lone z p ∧ s.WholeLine z p (L p).list := by
  obtain ⟨hlive, hcross⟩ := (hps p).mp hp
  have hlone : s.Lone z p := fun i hi => (halone (p, i) ⟨hlive, hi⟩).imp_left And.left
  obtain ⟨fuel, hc⟩ := hL p hlive hcross
  obtain ⟨k, hk, hcross⟩ := exists_firstSide hcross
  refine ⟨hlone, (Contour.extractFrom_lone hs hz hlive hlone hk hcross hc).1 ?_⟩
  rcases halone (p, k) ⟨hlive, hcross⟩ with ⟨-, h0⟩ | hself
  · exact .inl h0
  · right
    obtain ⟨j, hlink, -⟩ := hs.link_of_nbtri hlive hself
    rw [hlink]
    simp

include hnodup

lemma Alone.exactSet (halone : s.Alone z) : s.ExactSet z (ps.map fun p => (L p).list) := by
  have hside : ∀ p ∈ ps, ∀ q ∈ (L p).list, q.side.1 = p := by
    intro p hp q hq
    have hin := traced_entered hs hz hL hps hp hq
    exact (component_of_lone hs (halone.wholeLine hs hz hL hps hp).1 hin.1).mpr rfl
  constructor
  · intro a ha
    have hp : a.1 ∈ ps := (hps a.1).mpr ⟨ha.1, a.2, ha.2⟩
    obtain ⟨hlone, hwhole⟩ := halone.wholeLine hs hz hL hps hp
    obtain ⟨q, hq, hqa⟩ := hwhole.complete a ⟨a.2, ha.2, .refl _⟩
    obtain ⟨r, hr, hrq⟩ := exists_mem_withoutReturn (s := s) hq
    have hrin := traced_entered hs hz hL hps hp ((withoutReturn_sublist _).subset hr)
    refine ⟨r, ?_, hrq.trans hs hrin.2.1.1 hqa⟩
    rw [List.flatMap_map, List.mem_flatMap]
    exact ⟨a.1, hp, hr⟩
  · rw [List.flatMap_map, List.pairwise_flatMap]
    constructor
    · intro p hp
      rcases (halone.wholeLine hs hz hL hps hp).2.once with
        ⟨hpairwise, -⟩ | ⟨l, q, hlist, hpairwise, r, hr, hreturn⟩
      · exact hpairwise.sublist (withoutReturn_sublist _)
      · rw [hlist, withoutReturn_closed hr hreturn]
        exact hpairwise
    · refine hnodup.imp_of_mem ?_
      intro p p' hp hp' hne q hq r hr hsame
      have hq := (withoutReturn_sublist _).subset hq
      have hr := (withoutReturn_sublist _).subset hr
      have hqp := hside p hp q hq
      have hrp := hside p' hp' r hr
      apply hne
      rcases hsame with heq | hlink
      · rw [← hqp, ← hrp, heq]
      · have hin := traced_entered hs hz hL hps hp hq
        have hrq := link_of_lone (halone.wholeLine hs hz hL hps hp).1 hin.2.1 hqp hlink
        rw [← hrq, hrp]
  · intro list hlist q hq
    obtain ⟨p, hp, rfl⟩ := List.mem_map.mp hlist
    exact (traced_entered hs hz hL hps hp hq).2
  · refine List.Nodup.map_on ?_ hnodup
    intro p hp p' hp' heq
    obtain ⟨hlive, i, hi⟩ := (hps p).mp hp
    obtain ⟨q, hq, -⟩ := (halone.wholeLine hs hz hL hps hp).2.complete (p, i) ⟨i, hi, .refl _⟩
    have hq' : q ∈ (L p').list := heq ▸ hq
    rw [← hside p hp q hq, hside p' hp' q hq']

omit hnodup in
lemma ExactSet.alone (hexact : s.ExactSet z (ps.map fun p => (L p).list)) : s.Alone z := by
  intro a ha
  rcases hexact.lone hs hz hL hps ha.1 a.2 ha.2 with hnone | hself
  · exact .inl ⟨hnone, hexact.not_crosses hs hz hL hps ha.1 ha.2 hnone⟩
  · exact .inr hself

end Lists

/-- The contours of a net have every crossed edge once exactly where the level crosses no edge
between two trigons, and of no boundary trigon the side opposite the first vertex. -/
theorem getContourSet_exactSet_iff [IsStrictOrderedRing K] [FloorRing K]
    (hs : s.AdjacencyInvariant) (hready : QueryList.Ready s) (hsize : 0 < s.listp.cellsize)
    (hfresh : ∀ t, s.Live t → s.visited t = false) (hz : s.AvoidsVertices z) :
    (∃ fuel r, s.getContourSet fuel z = .ok r) ∧
      ∀ fuel r, s.getContourSet fuel z = .ok r → (s.ExactSet z r.2 ↔ s.Alone z) := by
  have hscan := mem_scan_iff hready hsize
  have hlive : ∀ t ∈ s.scan, s.Live t := fun t ht => (hscan t).mp ht
  have hunmarked : ∀ t ∈ s.scan, s.visited t = false := fun t ht => hfresh t (hlive t ht)
  have htraced : ∀ p, ∃ c, s.Live p → (∃ i, s.crosses z p i = true) →
      ∃ fuel, Contour.extractFrom s z fuel p = .ok c := by
    intro p
    by_cases hp : s.Live p ∧ ∃ i, s.crosses z p i = true
    · obtain ⟨fuel, c, hc⟩ := Contour.extractFrom_returns hs hp.1 hp.2
      exact ⟨c, fun _ _ => ⟨fuel, hc⟩⟩
    · exact ⟨Contour.getFirst s z p, fun h1 h2 => absurd ⟨h1, h2⟩ hp⟩
  choose L hL using htraced
  constructor
  · obtain ⟨fuel, cs, hrun⟩ := ContourSet.getAll_returns hlive hL hunmarked
    exact ⟨fuel, _, by rw [getContourSet, ContourSet.getAll, hrun]; rfl⟩
  · intro fuel r hr
    obtain ⟨⟨net, conset⟩, hall, hr⟩ := bind_eq_ok.mp hr
    obtain ⟨cs, hrun, hall⟩ := bind_eq_ok.mp hall
    obtain ⟨ps, hcollected, hdone⟩ := ContourSet.getAll_collects hlive hL hunmarked hrun
    have hps : ∀ p, p ∈ ps ↔ s.Live p ∧ ∃ i, s.crosses z p i = true :=
      fun p => ⟨hcollected.met p, fun h => hdone p ((hscan p).mpr h.1) h.2⟩
    simp only [pure, Except.pure, Except.ok.injEq] at hr hall
    obtain ⟨-, rfl⟩ := Prod.mk.inj hall
    have hlists : r.2 = ps.map fun p => (L p).list := by
      rw [← hr, hcollected.list]
      exact List.map_map
    rw [hlists]
    exact ⟨fun h => h.alone hs hz hL hps, fun h => h.exactSet hs hz hL hcollected.nodup hps⟩

/-- Two trigons with the level between their common side's ends: the line goes through both. -/
def ramp : Net ℚ :=
  { Contour.plateau with
    vex := fun t i =>
      let v := Contour.plateau.vex t i
      { v with coord := { v.coord with z := v.coord.y } }
    listp := ⟨0, 0, 8, 8, 8, 1, 1⟩
    cells := fun r c => if r = 0 ∧ c = 0 then [0, 1] else [] }

lemma ramp_adjacencyInvariant : ramp.AdjacencyInvariant := by
  have hsides : ∀ t ∈ [0, 1], ∀ i : Fin 3, ∀ u ∈ ramp.nbtri t i, u ∈ [0, 1] ∧
      ∃ j, ramp.nbvex t i = some j ∧ ramp.nbtri u j = some t ∧ ramp.nbvex u j = some i ∧
        ramp.vex u (j + 1) = ramp.vex t (i + 2) ∧ ramp.vex u (j + 2) = ramp.vex t (i + 1) := by
    decide +kernel
  exact ⟨fun t ht i u hu => hsides t ht i u hu, rfl⟩

lemma ramp_avoidsVertices : ramp.AvoidsVertices 2 := by
  have hheights : ∀ t ∈ [0, 1], ∀ i, (ramp.vex t i).coord.z ≠ 2 := by decide +kernel
  exact fun t ht i => hheights t ht i

lemma ramp_ready : QueryList.Ready ramp := by
  have hbox : ∀ t ∈ [0, 1], ramp.listp.box (ramp.vex t) = [(0, 0)] := by decide +kernel
  have hinside : ∀ t ∈ [0, 1], ∀ i, ramp.listp.InRange (ramp.listp.cellx (ramp.vex t i).coord.x)
      (ramp.listp.celly (ramp.vex t i).coord.y) := by decide +kernel
  refine ⟨⟨fun r c u => ?_, fun r c => ?_⟩, hinside⟩
  · have hcells : ramp.cells r c = if r = 0 ∧ c = 0 then [0, 1] else [] := rfl
    have hindex : ramp.trigonIndex = [0, 1] := rfl
    rw [hcells, hindex]
    constructor
    · intro hu
      split_ifs at hu with hrc
      · refine ⟨hu, ?_⟩
        rw [hbox u hu, hrc.1, hrc.2]
        exact List.mem_singleton_self _
      · cases hu
    · rintro ⟨hu, hrc⟩
      rw [hbox u hu, List.mem_singleton, Prod.mk.injEq] at hrc
      rw [if_pos hrc]
      exact hu
  · have hcells : ramp.cells r c = if r = 0 ∧ c = 0 then [0, 1] else [] := rfl
    rw [hcells]
    split_ifs
    · decide
    · exact List.nodup_nil

/-- The line is traced from either trigon: each of its points is there twice. -/
theorem getContourSet_lists_twice :
    ramp.AdjacencyInvariant ∧ QueryList.Ready ramp ∧ ramp.AvoidsVertices 2
      ∧ (∀ t, ramp.Live t → ramp.visited t = false)
      ∧ ∃ r, ramp.getContourSet 5 2 = .ok r ∧ ¬ ramp.ExactSet 2 r.2 := by
  have hrun : passes (ramp.getContourSet 5 2) (fun r =>
      ¬ (r.2.flatMap ramp.withoutReturn).Pairwise fun q r =>
        ¬ ramp.SameEdge q.side r.side) = true := by
    decide +kernel
  obtain ⟨r, hr, htwice⟩ := exists_of_passes hrun
  refine ⟨ramp_adjacencyInvariant, ramp_ready, ramp_avoidsVertices, fun _ _ => rfl, r, hr, ?_⟩
  exact fun hexact => of_decide_eq_true htwice hexact.once

/-- The same net and level. -/
theorem getContourSet_exactSet_iff_ramp :
    (∃ fuel r, ramp.getContourSet fuel 2 = .ok r) ∧
      ∀ fuel r, ramp.getContourSet fuel 2 = .ok r → (ramp.ExactSet 2 r.2 ↔ ramp.Alone 2) :=
  getContourSet_exactSet_iff ramp_adjacencyInvariant ramp_ready (by decide +kernel)
    (fun _ _ => rfl) ramp_avoidsVertices

end Net

end MTalk.Triangle
