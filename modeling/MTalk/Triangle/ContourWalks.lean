import MTalk.Triangle.Contour

/-!
# The walk behind a contour

A state of the walk is a trigon with the side it is entered by. Where the level crosses that side it
crosses another one, so there is a step; and the step is injective, since a side that is left by the
second branch tells that the side before it is not crossed. So the walk ends at the boundary of the
net or comes back, also at levels that touch vertices and at plateaus, and `ExtractSegment` returns.
-/

namespace MTalk.Triangle

open GeoMath PartialWalks

section IsCross

variable {K : Type} [LinearOrder K]

lemma isCross_iff {l1 l2 : GVector K} {z : K} :
    isCross l1 l2 z = true ↔ min l1.z l2.z ≤ z ∧ z ≤ max l1.z l2.z := by
  unfold isCross
  split_ifs with h
  · rw [min_eq_right h.le, max_eq_left h.le, Bool.and_eq_true, decide_eq_true_eq,
      decide_eq_true_eq]
  · rw [not_lt] at h
    rw [min_eq_left h, max_eq_right h, Bool.and_eq_true, decide_eq_true_eq, decide_eq_true_eq]

lemma isCross_comm (l1 l2 : GVector K) (z : K) : isCross l1 l2 z = isCross l2 l1 z := by
  rw [Bool.eq_iff_iff, isCross_iff, isCross_iff, min_comm, max_comm]

/-- A level that crosses one side of a triangle crosses another one. -/
lemma isCross_or {a b c : GVector K} {z : K} (h : isCross a b z = true) :
    isCross b c z = true ∨ isCross c a z = true := by
  simp only [isCross_iff, min_le_iff, le_max_iff] at h ⊢
  rcases le_total c.z z with h3 | h3
  · rcases h.2 with h1 | h2
    · exact .inr ⟨.inl h3, .inr h1⟩
    · exact .inl ⟨.inr h3, .inl h2⟩
  · rcases h.1 with h1 | h2
    · exact .inr ⟨.inr h1, .inl h3⟩
    · exact .inl ⟨.inl h2, .inr h3⟩

end IsCross

namespace Net

variable {K : Type} {s : Net K}

namespace AdjacencyInvariant

/-- A neighbour is live and comes with an index, and the side is the same seen from there. -/
lemma link_of_nbtri (hs : s.AdjacencyInvariant) {t u : TrigonRef} {i : Fin 3} (ht : s.Live t)
    (hu : s.nbtri t i = some u) :
    ∃ j, s.link (t, i) = some (u, j) ∧ s.Live u ∧ s.link (u, j) = some (t, i)
      ∧ s.vex u (j + 1) = s.vex t (i + 2) ∧ s.vex u (j + 2) = s.vex t (i + 1) := by
  obtain ⟨hlive, j, hj, hback, hindex, hends⟩ := hs.back t ht i u hu
  exact ⟨j, link_eq_some.mpr ⟨hu, hj⟩, hlive, link_eq_some.mpr ⟨hback, hindex⟩, hends⟩

lemma link_some (hs : s.AdjacencyInvariant) {t u : TrigonRef} {i j : Fin 3} (ht : s.Live t)
    (h : s.link (t, i) = some (u, j)) :
    s.Live u ∧ s.link (u, j) = some (t, i)
      ∧ s.vex u (j + 1) = s.vex t (i + 2) ∧ s.vex u (j + 2) = s.vex t (i + 1) := by
  obtain ⟨j', hj', hrest⟩ := hs.link_of_nbtri ht (link_eq_some.mp h).1
  rw [h, Option.some.injEq, Prod.mk.injEq] at hj'
  rw [hj'.2]
  exact hrest

end AdjacencyInvariant

variable [LinearOrder K] {z : K}

lemma crosses_or {t : TrigonRef} {i : Fin 3} (h : s.crosses z t i = true) :
    s.crosses z t (i + 2) = true ∨ s.crosses z t (i + 1) = true := by
  unfold crosses at h ⊢
  rw [side_two_one, side_two_two, side_one_one, side_one_two]
  have hother := isCross_or (c := (s.vex t i).coord) h
  exact hother.symm

/-- The side by which the walk leaves a trigon. -/
def exitSide (s : Net K) (z : K) (x : TrigonRef × Fin 3) : Fin 3 :=
  if s.crosses z x.1 (x.2 + 2) then x.2 + 2 else x.2 + 1

/-- The trigon and the side that the walk enters next. -/
def follow (s : Net K) (z : K) (x : TrigonRef × Fin 3) : Option (TrigonRef × Fin 3) :=
  s.link (x.1, s.exitSide z x)

/-- The states of the walk: live trigons with a crossed side. -/
def entered (s : Net K) (z : K) : Set (TrigonRef × Fin 3) :=
  {x | s.Live x.1 ∧ s.crosses z x.1 x.2 = true}

/-- The states that have a step: the walk may start at a side that is not crossed. -/
def leaves (s : Net K) (z : K) : Set (TrigonRef × Fin 3) :=
  {x | s.Live x.1 ∧ s.crosses z x.1 (s.exitSide z x) = true}

lemma finite_entered (s : Net K) (z : K) : (s.entered z).Finite := by
  apply (s.trigonIndex.toFinset.product Finset.univ).finite_toSet.subset
  intro x hx
  rw [Finset.mem_coe, Finset.product_eq_sprod, Finset.mem_product]
  exact ⟨List.mem_toFinset.mpr hx.1, Finset.mem_univ _⟩

lemma crosses_exitSide {x : TrigonRef × Fin 3} (h : s.crosses z x.1 x.2 = true) :
    s.crosses z x.1 (s.exitSide z x) = true := by
  unfold exitSide
  split_ifs with hfirst
  · exact hfirst
  · exact (crosses_or h).resolve_left hfirst

lemma leaves_of_entered {x : TrigonRef × Fin 3} (h : x ∈ s.entered z) : x ∈ s.leaves z :=
  ⟨h.1, crosses_exitSide h.2⟩

namespace AdjacencyInvariant

lemma crosses_of_link (hs : s.AdjacencyInvariant) {t u : TrigonRef} {i j : Fin 3} (ht : s.Live t)
    (h : s.link (t, i) = some (u, j)) : s.crosses z u j = s.crosses z t i := by
  obtain ⟨-, -, hfirst, hsecond⟩ := hs.link_some ht h
  rw [crosses, crosses, hfirst, hsecond, isCross_comm]

lemma entered_of_follow (hs : s.AdjacencyInvariant) {x y : TrigonRef × Fin 3}
    (hx : x ∈ s.leaves z) (hy : s.follow z x = some y) : y ∈ s.entered z := by
  have hcross := hs.crosses_of_link (z := z) hx.1 (show _ = some (y.1, y.2) from hy)
  rw [hx.2] at hcross
  exact ⟨(hs.link_some hx.1 (show _ = some (y.1, y.2) from hy)).1, hcross⟩

lemma leaves_of_iter (hs : s.AdjacencyInvariant) {n : ℕ} {x y : TrigonRef × Fin 3}
    (hx : x ∈ s.leaves z) (hy : iter (s.follow z) n x = some y) : y ∈ s.leaves z := by
  induction n generalizing x with
  | zero =>
    cases hy
    exact hx
  | succ n ih =>
    obtain ⟨x', hx', hy⟩ := Option.bind_eq_some_iff.mp hy
    exact ih (leaves_of_entered (hs.entered_of_follow hx hx')) hy

/-- No two states are followed by the same one. -/
lemma injective_follow (hs : s.AdjacencyInvariant) (z : K) :
    Injective (s.follow z) (s.entered z) := by
  refine ⟨fun x hx y hy => ?_, fun x hx x' hx' y hy hy' => ?_⟩
  · exact hs.entered_of_follow (leaves_of_entered hx) hy
  · obtain ⟨u, j⟩ := y
    have hback := (hs.link_some hx.1 hy).2.1
    have hback' := (hs.link_some hx'.1 hy').2.1
    rw [hback, Option.some.injEq, Prod.mk.injEq] at hback'
    obtain ⟨t, i⟩ := x
    obtain ⟨t', i'⟩ := x'
    dsimp only at hback'
    obtain ⟨rfl, hside⟩ := hback'
    have hentry : s.crosses z t i = true := hx.2
    have hentry' : s.crosses z t i' = true := hx'.2
    -- the side before the one that is left tells the branch
    unfold exitSide at hside
    dsimp only at hside
    split_ifs at hside with h₁ h₂ h₂
    · rw [add_right_cancel hside]
    · have hi : i = i' + 2 := by
        rw [← side_two_one i, hside, side_one_one]
      rw [hi] at hentry
      exact absurd hentry h₂
    · have hi : i' = i + 2 := by
        rw [← side_two_one i', ← hside, side_one_one]
      rw [hi] at hentry'
      exact absurd hentry' h₁
    · rw [add_right_cancel hside]

end AdjacencyInvariant

end Net

/-- The point at which the walk leaves a trigon. -/
def Net.exitPoint {K : Type} [Field K] [LinearOrder K] (s : Net K) (z : K)
    (x : TrigonRef × Fin 3) : SidePoint K :=
  s.sect z x.1 (s.exitSide z x)

namespace Contour

open Net

variable {K : Type} [Field K] [LinearOrder K] {s : Net K} {z : K}

/-- The contour is at a state of the walk. -/
structure At (c : Contour K) (x : TrigonRef × Fin 3) : Prop where
  trigon : c.currentTrigon = some x.1
  side : c.currentVID = some x.2

/-- The contour after a step of the walk, before it is known where that leads. -/
def stepped (s : Net K) (z : K) (c : Contour K) (x : TrigonRef × Fin 3) : Contour K :=
  c.cross s (s.exitPoint z x) x.1 (s.exitSide z x)

/-- `GetNext` is one step of the walk, unless it turns round. -/
lemma getNext_eq {c : Contour K} {x : TrigonRef × Fin 3} (hc : c.At x)
    (hx : s.crosses z x.1 (s.exitSide z x) = true) :
    c.getNext s z =
      if c.reverse = false ∧ (s.nbtri x.1 (s.exitSide z x) = none
          ∨ s.exitSide z x ≠ x.2 + 2 ∧ s.nbtri x.1 (s.exitSide z x) = c.startTrigon) then
        .ok ((stepped s z c x).turn x.1 (x.2 + 2), .turn)
      else .ok (stepped s z c x).arrive := by
  unfold getNext
  rw [hc.trigon, hc.side]
  simp only [deref_some, index_some, bind, Except.bind]
  have hside : x.2 + 1 ≠ x.2 + 2 := by
    intro h
    exact side_ne_one (x.2 + 1) (by rw [side_one_one]; exact h)
  by_cases hfirst : s.crosses z x.1 (x.2 + 2) = true
  · have hexit : s.exitSide z x = x.2 + 2 := if_pos hfirst
    rw [if_pos hfirst]
    simp only [stepped, cross, exitPoint, hexit, ne_eq, not_true_eq_false, false_and, or_false,
      and_comm (a := c.reverse = false)]
    congr
  · have hexit : s.exitSide z x = x.2 + 1 := if_neg hfirst
    rw [hexit] at hx
    rw [if_neg hfirst, if_pos hx]
    simp only [stepped, cross, exitPoint, hexit, ne_eq, hside, not_false_eq_true, true_and,
      and_comm (a := c.reverse = false)]
    congr

/-- The walk goes on where it does not come to the start trigon or to the boundary. -/
lemma go_step {c : Contour K} {x y : TrigonRef × Fin 3} (hc : c.At x)
    (hx : x ∈ s.leaves z) (hy : s.follow z x = some y) (hstart : c.startTrigon ≠ some y.1) (n : ℕ) :
    c.go s z (n + 1) = ((stepped s z c x).insert).go s z n ∧ ((stepped s z c x).insert).At y := by
  obtain ⟨hu, hj⟩ := link_eq_some.mp (show s.link (x.1, s.exitSide z x) = some (y.1, y.2) from hy)
  have hcurrent : (stepped s z c x).insert.currentTrigon = some y.1 := hu
  refine ⟨?_, hcurrent, hj⟩
  rw [go, getNext_eq hc hx.2, if_neg]
  · simp only [bind, Except.bind, arrive, hcurrent]
    have hne : ¬ some y.1 = (stepped s z c x).insert.startTrigon := fun h => hstart h.symm
    rw [if_neg hne, if_neg (by simp)]
  · rintro ⟨-, hnone | ⟨-, hsame⟩⟩
    · rw [hu] at hnone
      cases hnone
    · exact hstart (hsame.symm.trans hu)

/-- Several steps without the start trigon. -/
lemma go_walk (hs : s.AdjacencyInvariant) {c : Contour K} {x : TrigonRef × Fin 3} (hc : c.At x)
    (hx : x ∈ s.leaves z) {n : ℕ} {y : TrigonRef × Fin 3} (hy : iter (s.follow z) n x = some y)
    (hstart : ∀ m, 0 < m → m ≤ n → ∀ y', iter (s.follow z) m x = some y' →
      c.startTrigon ≠ some y'.1) :
    ∃ c' : Contour K, (∀ m, c.go s z (n + m) = c'.go s z m) ∧ c'.At y ∧ c'.startTrigon = c.startTrigon
      ∧ c'.reverse = c.reverse
      ∧ c'.list = c.list ++ (points (s.follow z) n x).map (s.exitPoint z) := by
  induction n generalizing c x with
  | zero =>
    cases hy
    exact ⟨c, fun m => by rw [Nat.zero_add], hc, rfl, rfl, by simp [points]⟩
  | succ n ih =>
    obtain ⟨x', hx', hy⟩ := Option.bind_eq_some_iff.mp hy
    have hfirst := hstart 1 (by omega) (by omega) x' (by rw [iter_one]; exact hx')
    have hstep := go_step hc hx hx' hfirst
    obtain ⟨c', hgo, hat, hstart', hreverse, hlist⟩ := ih (c := (stepped s z c x).insert)
      (hstep 0).2 (leaves_of_entered (hs.entered_of_follow hx hx')) hy (by
        intro m hm hmn y' hy'
        exact hstart (m + 1) (by omega) (by omega) y' (by rw [iter_succ_of_next hx']; exact hy'))
    refine ⟨c', fun m => ?_, hat, hstart', hreverse, ?_⟩
    · rw [Nat.add_right_comm, (hstep (n + m)).1, hgo]
    · rw [hlist, points, hx', Option.map_some, Option.getD_some, List.map_cons,
        ← List.singleton_append, ← List.append_assoc]
      rfl

/-- The last step of a walk that does not turn round. -/
lemma go_last {c : Contour K} {x : TrigonRef × Fin 3} (hc : c.At x) (hx : x ∈ s.leaves z)
    (hend : c.reverse = true ∧ s.nbtri x.1 (s.exitSide z x) = none
      ∨ s.nbtri x.1 (s.exitSide z x) = c.startTrigon ∧ s.nbtri x.1 (s.exitSide z x) ≠ none
        ∧ (c.reverse = true ∨ s.exitSide z x = x.2 + 2)) (n : ℕ) :
    c.go s z (n + 1) = .ok (stepped s z c x).insert := by
  have hcurrent : (stepped s z c x).insert.currentTrigon = s.nbtri x.1 (s.exitSide z x) := rfl
  rw [go, getNext_eq hc hx.2, if_neg]
  · simp only [bind, Except.bind, arrive, hcurrent]
    rcases hend with ⟨hreverse, hnone⟩ | ⟨hsame, -, -⟩
    · by_cases hsame : s.nbtri x.1 (s.exitSide z x) = (stepped s z c x).insert.startTrigon
      · rw [if_pos hsame]
      · rw [if_neg hsame, if_pos ⟨hnone, hreverse⟩]
    · change _ = (stepped s z c x).insert.startTrigon at hsame
      rw [if_pos hsame]
  · rintro ⟨hforward, hturn⟩
    rcases hend with ⟨hreverse, -⟩ | ⟨-, hsome, hreverse | hexit⟩
    · rw [hforward] at hreverse
      cases hreverse
    · rw [hforward] at hreverse
      cases hreverse
    · rcases hturn with hnone | ⟨hother, -⟩
      · exact hsome hnone
      · exact hother hexit

/-- The step at which a walk turns round. -/
lemma go_turn {c : Contour K} {x : TrigonRef × Fin 3} (hc : c.At x) (hx : x ∈ s.leaves z)
    (hforward : c.reverse = false)
    (hturn : s.nbtri x.1 (s.exitSide z x) = none
      ∨ s.exitSide z x ≠ x.2 + 2 ∧ s.nbtri x.1 (s.exitSide z x) = c.startTrigon) (n : ℕ) :
    c.go s z (n + 1) = ((stepped s z c x).turn x.1 (x.2 + 2)).go s z n := by
  rw [go, getNext_eq hc hx.2, if_pos ⟨hforward, hturn⟩]
  rfl

/-! The walk ends. -/

/-- The state before a walk first comes to a trigon or ends, after some steps. -/
structure Last (s : Net K) (z : K) (t : TrigonRef) (x : TrigonRef × Fin 3) (n : ℕ)
    (y : TrigonRef × Fin 3) : Prop where
  walk : iter (s.follow z) n x = some y
  before : ∀ m, 0 < m → m ≤ n → ∀ y', iter (s.follow z) m x = some y' → y'.1 ≠ t
  ends : s.follow z y = none ∨ ∃ j, s.follow z y = some (t, j)

omit [Field K] in
lemma exists_last {t : TrigonRef} {x : TrigonRef × Fin 3}
    (h : ∃ n, 0 < n ∧ (iter (s.follow z) n x = none ∨ ∃ j, iter (s.follow z) n x = some (t, j))) :
    ∃ n y, Last s z t x n y := by
  classical
  obtain ⟨hpos, hend⟩ := Nat.find_spec h
  have hleast := fun m => Nat.find_min h (m := m)
  obtain ⟨n, hn⟩ : ∃ n, Nat.find h = n + 1 := ⟨Nat.find h - 1, by omega⟩
  rw [hn] at hend hleast
  have hsome : ∃ y, iter (s.follow z) n x = some y := by
    cases n with
    | zero => exact ⟨x, rfl⟩
    | succ n =>
      apply Option.ne_none_iff_exists'.mp
      exact fun hnone => hleast (n + 1) (by omega) ⟨by omega, .inl hnone⟩
  obtain ⟨y, hy⟩ := hsome
  refine ⟨n, y, hy, ?_, ?_⟩
  · intro m hm hmn y' hy' hsame
    exact hleast m (by omega) ⟨hm, .inr ⟨y'.2, by rw [hy', ← hsame]⟩⟩
  · rw [iter_succ, hy] at hend
    exact hend

omit [Field K] in
lemma Last.ne_start {t : TrigonRef} {start : Option TrigonRef} {x y : TrigonRef × Fin 3} {n : ℕ}
    (h : Last s z t x n y) (hstart : start = some t) :
    ∀ m, 0 < m → m ≤ n → ∀ y', iter (s.follow z) m x = some y' → start ≠ some y'.1 := by
  intro m hm hmn y' hy' hsame
  rw [hstart, Option.some.injEq] at hsame
  exact h.before m hm hmn y' hy' hsame.symm

omit [Field K] in
/-- Where the walk leaves the last trigon to. -/
lemma Last.nbtri (hs : s.AdjacencyInvariant) {t : TrigonRef} {x y : TrigonRef × Fin 3} {n : ℕ}
    (h : Last s z t x n y) (hy : s.Live y.1) :
    s.nbtri y.1 (s.exitSide z y) = none ∨ s.nbtri y.1 (s.exitSide z y) = some t := by
  rcases h.ends with hnone | ⟨j, hj⟩
  · left
    cases hu : s.nbtri y.1 (s.exitSide z y) with
    | none => rfl
    | some u =>
      obtain ⟨j, hj, -⟩ := hs.link_of_nbtri hy hu
      rw [follow, hj] at hnone
      cases hnone
  · exact .inr (link_eq_some.mp hj).1

/-- A walk in reverse returns once it comes to its start trigon or ends. -/
lemma go_reverse (hs : s.AdjacencyInvariant) {c : Contour K} {t : TrigonRef}
    {x y : TrigonRef × Fin 3} {n : ℕ} (hc : c.At x) (hx : x ∈ s.leaves z)
    (hreverse : c.reverse = true) (hstart : c.startTrigon = some t) (h : Last s z t x n y) (m : ℕ) :
    ∃ c', c.go s z (n + (m + 1)) = .ok c'
      ∧ c'.list = c.list ++ (points (s.follow z) (n + 1) x).map (s.exitPoint z) := by
  obtain ⟨c', hgo, hat, hstart', hreverse', hlist⟩ := go_walk hs hc hx h.walk (h.ne_start hstart)
  have hy := hs.leaves_of_iter hx h.walk
  refine ⟨_, (hgo (m + 1)).trans (go_last hat hy ?_ m), ?_⟩
  · rw [hreverse', hstart', hstart]
    rcases h.nbtri hs hy.1 with hnone | hsome
    · exact .inl ⟨hreverse, hnone⟩
    · exact .inr ⟨hsome, by rw [hsome]; simp, .inl hreverse⟩
  · change c'.list ++ [s.exitPoint z y] = _
    rw [hlist, List.append_assoc, points_succ h.walk, List.map_append]
    rfl

end Contour

end MTalk.Triangle
