import MTalk.Triangle.InsidePolygon
import MTalk.Triangle.Polygon

/-!
# Runs of vertices on the ray

`Polygon.insidePolygon` counts the edges that cross the segment to its far point properly, and the
runs of vertices on the segment that come from one side of it and go to the other. It looks one or
two vertices ahead, so that a run of three or more is not counted.
-/

namespace MTalk.Triangle

open PlaneGeometry PolygonWinding

variable {K : Type} [Field K] [LinearOrder K]

/-- The segment from the origin crosses an edge inside both. -/
def Proper (d a b : K × K) : Prop :=
  cross d a * cross d b < 0 ∧ cross a b * (cross a b - (cross d b - cross d a)) < 0

/-- The vertices after one of them are on the segment, some number of them, and the line is passed
there. -/
def PassedRun (d : K × K) (a : ℕ → K × K) (i k : ℕ) : Prop :=
  (∀ j < k, a (i + 1 + j) ∈ openSegment K 0 d) ∧ cross d (a i) * cross d (a (i + 1 + k)) < 0

/-- Three or more consecutive vertices on the segment, between vertices on both sides of it. -/
def LongRun (d : K × K) (a : ℕ → K × K) (i : ℕ) : Prop := ∃ k, 3 ≤ k ∧ PassedRun d a i k

section Model

variable [IsStrictOrderedRing K]

omit [IsStrictOrderedRing K] in
lemma interSect1_iff (point far p1 p2 : GVector K) :
    GeoMath.interSect1 point far p1 p2 = true ↔
      Proper (far.xy - point.xy) (p1.xy - point.xy) (p2.xy - point.xy) := by
  have hedge : cross (p2.xy - p1.xy) (point.xy - p1.xy)
      = cross (p1.xy - point.xy) (p2.xy - point.xy) := by
    simp only [cross, Prod.fst_sub, Prod.snd_sub]
    ring
  have hfar : cross (p2.xy - p1.xy) (far.xy - p1.xy)
      = cross (p1.xy - point.xy) (p2.xy - point.xy)
        - (cross (far.xy - point.xy) (p2.xy - point.xy)
          - cross (far.xy - point.xy) (p1.xy - point.xy)) := by
    simp only [cross, Prod.fst_sub, Prod.snd_sub]
    ring
  unfold GeoMath.interSect1 GeoMath.sameSide1 Proper
  rw [GeoMath.sideProduct_eq, GeoMath.sideProduct_eq, hedge, hfar]
  simp only [Bool.and_eq_true, Bool.not_eq_true', decide_eq_false_iff_not, not_le]
  exact and_comm

omit [IsStrictOrderedRing K] in
/-- What one round of the loop counts. -/
lemma crossing_iff {v far p1 p2 p3 p4 : GVector K}
    (h2 : GeoMath.onLine p2 v far = true ↔ p2.xy - v.xy ∈ openSegment K 0 (far.xy - v.xy))
    (h3 : GeoMath.onLine p3 v far = true ↔ p3.xy - v.xy ∈ openSegment K 0 (far.xy - v.xy)) :
    Polygon.crossing v far p1 p2 p3 p4 = true ↔
      Proper (far.xy - v.xy) (p1.xy - v.xy) (p2.xy - v.xy)
      ∨ p2.xy - v.xy ∈ openSegment K 0 (far.xy - v.xy)
        ∧ (cross (far.xy - v.xy) (p1.xy - v.xy) * cross (far.xy - v.xy) (p3.xy - v.xy) < 0
          ∨ p3.xy - v.xy ∈ openSegment K 0 (far.xy - v.xy)
            ∧ cross (far.xy - v.xy) (p1.xy - v.xy) * cross (far.xy - v.xy) (p4.xy - v.xy) < 0) := by
  have hside : ∀ p : GVector K, GeoMath.sameSide1 p1 p v far = false ↔
      cross (far.xy - v.xy) (p1.xy - v.xy) * cross (far.xy - v.xy) (p.xy - v.xy) < 0 := by
    intro p
    rw [GeoMath.sameSide1, GeoMath.sideProduct_eq, decide_eq_false_iff_not, not_le]
  have hoff : cross (far.xy - v.xy) (p1.xy - v.xy) * cross (far.xy - v.xy) (p3.xy - v.xy) < 0 →
      p3.xy - v.xy ∉ openSegment K 0 (far.xy - v.xy) := by
    intro hneg hmem
    rw [cross_of_mem_openSegment hmem, mul_zero] at hneg
    exact lt_irrefl 0 hneg
  unfold Polygon.crossing
  simp only [Bool.or_eq_true, Bool.and_eq_true, Bool.not_eq_true', interSect1_iff, h2, hside,
    ← Bool.not_eq_true, h3]
  tauto

end Model

/-- From a vertex on, the first one off the segment is to the left of it. -/
def Above (d : K × K) (a : ℕ → K × K) (i : ℕ) : Prop :=
  ∃ k, (∀ j < k, a (i + j) ∈ openSegment K 0 d) ∧ a (i + k) ∉ openSegment K 0 d
    ∧ 0 < cross d (a (i + k))

section Runs

variable {d : K × K} {a : ℕ → K × K} {i : ℕ}

lemma above_off (hi : a i ∉ openSegment K 0 d) : Above d a i ↔ 0 < cross d (a i) := by
  constructor
  · rintro ⟨k, hrun, -, hpos⟩
    cases k with
    | zero => exact hpos
    | succ k => exact absurd (hrun 0 (by omega)) hi
  · intro hpos
    exact ⟨0, fun j hj => by omega, hi, hpos⟩

lemma above_on (hi : a i ∈ openSegment K 0 d) : Above d a i ↔ Above d a (i + 1) := by
  have hindex : ∀ k, i + 1 + k = i + (k + 1) := fun k => by omega
  constructor
  · rintro ⟨k, hrun, hoff, hpos⟩
    cases k with
    | zero => exact absurd hi hoff
    | succ k =>
      refine ⟨k, fun j hj => ?_, ?_, ?_⟩
      · rw [hindex]
        exact hrun (j + 1) (by omega)
      · rwa [hindex]
      · rwa [hindex]
  · rintro ⟨k, hrun, hoff, hpos⟩
    rw [hindex] at hoff hpos
    refine ⟨k + 1, fun j hj => ?_, hoff, hpos⟩
    cases j with
    | zero => exact hi
    | succ j =>
      rw [← hindex]
      exact hrun j (by omega)

/-- A run ends at one vertex. -/
lemma onSegment_unique {k m : ℕ} (hk : ∀ j < k, a (i + j) ∈ openSegment K 0 d)
    (hk' : a (i + k) ∉ openSegment K 0 d) (hm : ∀ j < m, a (i + j) ∈ openSegment K 0 d)
    (hm' : a (i + m) ∉ openSegment K 0 d) : k = m := by
  rcases Nat.lt_trichotomy k m with hlt | heq | hgt
  · exact absurd (hm k hlt) hk'
  · exact heq
  · exact absurd (hk m hgt) hm'

lemma PassedRun.off {k : ℕ} (h : PassedRun d a i k) : a (i + 1 + k) ∉ openSegment K 0 d := by
  intro hmem
  have hneg := h.2
  rw [cross_of_mem_openSegment hmem, mul_zero] at hneg
  exact lt_irrefl 0 hneg

lemma PassedRun.start_ne_zero {k : ℕ} (h : PassedRun d a i k) : cross d (a i) ≠ 0 := by
  intro hzero
  have hneg := h.2
  rw [hzero, zero_mul] at hneg
  exact lt_irrefl 0 hneg

lemma PassedRun.unique {k m : ℕ} (hk : PassedRun d a i k) (hm : PassedRun d a i m) : k = m :=
  onSegment_unique hk.1 hk.off hm.1 hm.off

/-- The loop counts an edge that is crossed properly, and a passed run of one or two vertices. -/
def Counted (d : K × K) (a : ℕ → K × K) (i : ℕ) : Prop :=
  Proper d (a i) (a (i + 1)) ∨ PassedRun d a i 1 ∨ PassedRun d a i 2

/-- What should be counted. -/
def Passed (d : K × K) (a : ℕ → K × K) (i : ℕ) : Prop :=
  Proper d (a i) (a (i + 1)) ∨ ∃ k, 1 ≤ k ∧ PassedRun d a i k

lemma passed_iff : Passed d a i ↔ (Counted d a i ↔ ¬ LongRun d a i) := by
  have hproper : Proper d (a i) (a (i + 1)) → ∀ k, 1 ≤ k → ¬ PassedRun d a i k := by
    intro hproper k hk hrun
    have hneg := hproper.1
    have hmem := hrun.1 0 (by omega)
    rw [Nat.add_zero] at hmem
    rw [cross_of_mem_openSegment hmem, mul_zero] at hneg
    exact lt_irrefl 0 hneg
  constructor
  · rintro (hcross | ⟨k, hk, hrun⟩)
    · have hnot : ¬ LongRun d a i := fun ⟨k, hk, hrun⟩ => hproper hcross k (by omega) hrun
      exact ⟨fun _ => hnot, fun _ => .inl hcross⟩
    · have hnot : ¬ Proper d (a i) (a (i + 1)) := fun hcross => hproper hcross k hk hrun
      have hcounted : Counted d a i ↔ k = 1 ∨ k = 2 := by
        constructor
        · rintro (hcross | hone | htwo)
          · exact absurd hcross hnot
          · exact .inl (hrun.unique hone)
          · exact .inr (hrun.unique htwo)
        · rintro (rfl | rfl)
          · exact .inr (.inl hrun)
          · exact .inr (.inr hrun)
      have hlong : LongRun d a i ↔ 3 ≤ k := by
        constructor
        · rintro ⟨m, hm, hrun'⟩
          rw [hrun.unique hrun']
          exact hm
        · exact fun hk => ⟨k, hk, hrun⟩
      rw [hcounted, hlong]
      omega
  · intro h
    by_cases hlong : LongRun d a i
    · obtain ⟨k, hk, hrun⟩ := hlong
      exact .inr ⟨k, by omega, hrun⟩
    · rcases h.mpr hlong with hcross | hone | htwo
      · exact .inl hcross
      · exact .inr ⟨1, le_rfl, hone⟩
      · exact .inr ⟨2, by omega, htwo⟩

variable [IsStrictOrderedRing K]

/-- A neighbour of a vertex on the segment is on the segment or off its line. -/
lemma cross_ne_zero_of_off {u v : K × K} (hd : d ≠ 0) (hnear : (0 : K × K) ∉ segment K u v)
    (hfar : ∀ s : K, 1 ≤ s → s • d ∉ segment K u v) (hu : u ∉ openSegment K 0 d)
    (hv : v ∈ openSegment K 0 d) : cross d u ≠ 0 := by
  intro hzero
  obtain ⟨s, rfl⟩ := exists_smul_of_cross_eq_zero hd hzero
  obtain ⟨r, t, -, ht, -, rfl⟩ := hv
  rw [smul_zero, zero_add] at hnear hfar
  have hs : s ≤ 0 := by
    by_contra hpos
    rw [not_le] at hpos
    rcases le_or_gt 1 s with hs | hs
    · exact hfar s hs (left_mem_segment K _ _)
    · exact hu ⟨1 - s, s, by linarith, hpos, by ring, by rw [smul_zero, zero_add]⟩
  have hlen : 0 < t - s := by linarith
  apply hnear
  refine ⟨t / (t - s), -s / (t - s), div_nonneg ht.le hlen.le, div_nonneg (by linarith) hlen.le,
    ?_, ?_⟩
  · rw [← add_div, ← sub_eq_add_neg, div_self hlen.ne']
  · rw [smul_smul, smul_smul, ← add_smul]
    have hzero : t / (t - s) * s + -s / (t - s) * t = 0 := by ring
    rw [hzero, zero_smul]

/-- A proper crossing, for an edge whose ends are off the line. -/
lemma proper_iff {u v : K × K} (hnear : (0 : K × K) ∉ segment K u v)
    (hfar : ∀ s : K, 1 ≤ s → s • d ∉ segment K u v) (hu : cross d u ≠ 0) (hv : cross d v ≠ 0) :
    Proper d u v ↔ rayCrossing d u v ≠ 0 := by
  have hsides : ∀ {u v : K × K}, (0 : K × K) ∉ segment K u v →
      (∀ s : K, 1 ≤ s → s • d ∉ segment K u v) → cross d u < 0 → 0 < cross d v →
      (Proper d u v ↔ rayCrossing d u v ≠ 0) := by
    intro u v hnear hfar hu hv
    obtain ⟨hX, hX', hcrossed⟩ := sides_bounds hu hv hnear hfar
    rw [hcrossed, Proper]
    constructor
    · rintro ⟨-, hneg⟩
      exact pos_of_mul_neg_left hneg (by linarith)
    · intro hpos
      exact ⟨mul_neg_of_neg_of_pos hu hv, mul_neg_of_pos_of_neg hpos (by linarith)⟩
  have hswap : (Proper d v u ↔ rayCrossing d v u ≠ 0) → (Proper d u v ↔ rayCrossing d u v ≠ 0) := by
    have hsame : Proper d v u ↔ Proper d u v := by
      have hprod : -cross u v * (-cross u v - (cross d u - cross d v))
          = cross u v * (cross u v - (cross d v - cross d u)) := by ring
      rw [Proper, Proper, cross_swap u v, mul_comm (cross d v), hprod]
    rw [hsame, rayCrossing_swap d u v, neg_ne_zero]
    exact id
  rcases lt_or_gt_of_ne hu with hu | hu <;> rcases lt_or_gt_of_ne hv with hv | hv
  · have hnot : ¬ Proper d u v := fun h => h.1.not_gt (mul_pos_of_neg_of_neg hu hv)
    simp [hnot, rayCrossing, hu.not_gt, hv.not_gt]
  · exact hsides hnear hfar hu hv
  · apply hswap
    rw [segment_symm] at hnear
    apply hsides hnear _ hv hu
    intro s hs
    rw [segment_symm]
    exact hfar s hs
  · have hnot : ¬ Proper d u v := fun h => h.1.not_gt (mul_pos hu hv)
    simp [hnot, rayCrossing, hu.not_ge, hv.not_ge]

end Runs

/-- A vertex on the segment from which the polygon leaves it to the left. -/
def LeavesLeft (d : K × K) (a : ℕ → K × K) (i : ℕ) : Prop :=
  a i ∈ openSegment K 0 d ∧ Above d a i

section Count

variable [IsStrictOrderedRing K] {d : K × K} {a : ℕ → K × K}

omit [IsStrictOrderedRing K] in
lemma exists_end {i : ℕ} (h : ∃ k, a (i + k) ∉ openSegment K 0 d) :
    ∃ k, (∀ j < k, a (i + j) ∈ openSegment K 0 d) ∧ a (i + k) ∉ openSegment K 0 d := by
  classical
  refine ⟨Nat.find h, fun j hj => ?_, Nat.find_spec h⟩
  exact not_not.mp (Nat.find_min h hj)

/-- A run is passed when the vertex before it and the one that ends it are on different sides. -/
lemma exists_passedRun_iff (hd : d ≠ 0) (hnear : ∀ i, (0 : K × K) ∉ segment K (a i) (a (i + 1)))
    (hfar : ∀ i, ∀ s : K, 1 ≤ s → s • d ∉ segment K (a i) (a (i + 1)))
    (hoff : ∀ i, ∃ k, a (i + k) ∉ openSegment K 0 d) {i : ℕ} (hi : a i ∉ openSegment K 0 d)
    (hnext : a (i + 1) ∈ openSegment K 0 d) :
    (∃ k, 1 ≤ k ∧ PassedRun d a i k) ↔ ¬ (0 < cross d (a i) ↔ Above d a (i + 1)) := by
  obtain ⟨m, hrun, hend⟩ := exists_end (hoff (i + 1))
  have hm : m ≠ 0 := by
    rintro rfl
    exact hend hnext
  obtain ⟨m, rfl⟩ : ∃ r, m = r + 1 := ⟨m - 1, by omega⟩
  have hstart : cross d (a i) ≠ 0 := cross_ne_zero_of_off hd (hnear i) (hfar i) hi hnext
  have hstop : cross d (a (i + 1 + (m + 1))) ≠ 0 := by
    have hback : ∀ x, x ∉ segment K (a (i + 1 + m)) (a (i + 1 + m + 1)) →
        x ∉ segment K (a (i + 1 + m + 1)) (a (i + 1 + m)) := by
      intro x hx
      rwa [segment_symm]
    exact cross_ne_zero_of_off hd (hback _ (hnear _)) (fun s hs => hback _ (hfar _ s hs)) hend
      (hrun m (by omega))
  have habove : Above d a (i + 1) ↔ 0 < cross d (a (i + 1 + (m + 1))) := by
    constructor
    · rintro ⟨k, hk, hk', hpos⟩
      rw [onSegment_unique hrun hend hk hk']
      exact hpos
    · exact fun hpos => ⟨m + 1, hrun, hend, hpos⟩
  have hpassed : (∃ k, 1 ≤ k ∧ PassedRun d a i k) ↔
      cross d (a i) * cross d (a (i + 1 + (m + 1))) < 0 := by
    constructor
    · rintro ⟨k, -, hk⟩
      rw [onSegment_unique hrun hend hk.1 hk.off]
      exact hk.2
    · exact fun hneg => ⟨m + 1, by omega, hrun, hneg⟩
  rw [hpassed, habove]
  rcases lt_or_gt_of_ne hstart with hs | hs <;> rcases lt_or_gt_of_ne hstop with he | he
  · simp [hs.not_gt, he.not_gt, (mul_pos_of_neg_of_neg hs he).le]
  · simp [hs.not_gt, he, mul_neg_of_neg_of_pos hs he]
  · simp [hs, he.not_gt, mul_neg_of_pos_of_neg hs he]
  · simp [hs, he, (mul_pos hs he).le]

/-- Edge by edge, the crossings of the ray are those that should be counted, but for what the
vertices on the segment pass on. -/
lemma rayCrossing_iff_passed (hd : d ≠ 0)
    (hnear : ∀ i, (0 : K × K) ∉ segment K (a i) (a (i + 1)))
    (hfar : ∀ i, ∀ s : K, 1 ≤ s → s • d ∉ segment K (a i) (a (i + 1)))
    (hoff : ∀ i, ∃ k, a (i + k) ∉ openSegment K 0 d) (i : ℕ) :
    rayCrossing d (a i) (a (i + 1)) ≠ 0 ↔
      (Passed d a i ↔ (LeavesLeft d a i ↔ LeavesLeft d a (i + 1))) := by
  have hback : ∀ x, x ∉ segment K (a i) (a (i + 1)) → x ∉ segment K (a (i + 1)) (a i) := by
    intro x hx
    rwa [segment_symm]
  have hnear' := hback _ (hnear i)
  have hfar' := fun s hs => hback _ (hfar i s hs)
  have hnoRun : a (i + 1) ∉ openSegment K 0 d → ¬ ∃ k, 1 ≤ k ∧ PassedRun d a i k := by
    rintro hoff' ⟨k, hk, hrun⟩
    have hmem := hrun.1 0 (by omega)
    rw [Nat.add_zero] at hmem
    exact hoff' hmem
  have hnoProper : cross d (a i) = 0 ∨ cross d (a (i + 1)) = 0 → ¬ Proper d (a i) (a (i + 1)) := by
    rintro hzero hproper
    have hneg := hproper.1
    rcases hzero with hzero | hzero
    · rw [hzero, zero_mul] at hneg
      exact lt_irrefl 0 hneg
    · rw [hzero, mul_zero] at hneg
      exact lt_irrefl 0 hneg
  by_cases hi : a i ∈ openSegment K 0 d <;> by_cases hnext : a (i + 1) ∈ openSegment K 0 d
  · -- both on the segment
    have hzero := cross_of_mem_openSegment hi
    have hnone : rayCrossing d (a i) (a (i + 1)) = 0 := by
      simp [rayCrossing, hzero, cross_of_mem_openSegment hnext]
    have hnot : ¬ ∃ k, 1 ≤ k ∧ PassedRun d a i k := by
      rintro ⟨k, -, hrun⟩
      exact hrun.start_ne_zero hzero
    simp [hnone, Passed, hnoProper (.inl hzero), hnot, LeavesLeft, hi, hnext, above_on hi]
  · -- the segment is left
    have hzero := cross_of_mem_openSegment hi
    have hside : cross d (a (i + 1)) ≠ 0 :=
      cross_ne_zero_of_off hd hnear' hfar' hnext hi
    have hcrossed := (touches_of_level hd hzero (hnear i) (hfar i) hside).2
    have hnot : ¬ Passed d a i := by
      rintro (hproper | hrun)
      · exact hnoProper (.inl hzero) hproper
      · exact hnoRun hnext hrun
    rw [hcrossed]
    simp [hnot, LeavesLeft, hi, hnext, above_on hi, above_off hnext]
  · -- the segment is come to
    have hzero := cross_of_mem_openSegment hnext
    have hside : cross d (a i) ≠ 0 := cross_ne_zero_of_off hd (hnear i) (hfar i) hi hnext
    have hcrossed := (touches_of_level hd hzero hnear' hfar' hside).2
    rw [rayCrossing_swap d (a i), neg_ne_zero] at hcrossed
    have hrun := exists_passedRun_iff hd hnear hfar hoff hi hnext
    rw [hcrossed, Passed, or_iff_right (hnoProper (.inr hzero)), hrun]
    simp only [LeavesLeft, hi, hnext, true_and, false_and, false_iff]
    tauto
  · -- both off the segment
    have hproper : Proper d (a i) (a (i + 1)) ↔ rayCrossing d (a i) (a (i + 1)) ≠ 0 := by
      by_cases hzero : cross d (a i) = 0
      · by_cases hzero' : cross d (a (i + 1)) = 0
        · simp [hnoProper (.inl hzero), rayCrossing, hzero, hzero']
        · have hcrossed := (touches_of_level hd hzero (hnear i) (hfar i) hzero').2
          rw [hcrossed]
          simp [hnoProper (.inl hzero), hi]
      · by_cases hzero' : cross d (a (i + 1)) = 0
        · have hcrossed := (touches_of_level hd hzero' hnear' hfar' hzero).2
          rw [rayCrossing_swap d (a i), neg_ne_zero] at hcrossed
          rw [hcrossed]
          simp [hnoProper (.inr hzero'), hnext]
        · exact proper_iff (hnear i) (hfar i) hzero hzero'
    rw [Passed, or_iff_left (hnoRun hnext), hproper]
    simp [LeavesLeft, hi, hnext]

omit [Field K] [LinearOrder K] [IsStrictOrderedRing K] in
/-- Round a cycle a predicate changes an even number of times. -/
lemma odd_changes_iff (P : ℕ → Prop) [DecidablePred P] (n : ℕ) :
    Odd ((Finset.range n).filter fun i => ¬ (P i ↔ P (i + 1))).card ↔ ¬ (P 0 ↔ P n) := by
  induction n with
  | zero => simp
  | succ n ih =>
    rw [Finset.range_add_one, Finset.filter_insert]
    by_cases hchange : P n ↔ P (n + 1)
    · rw [if_neg (not_not.mpr hchange), ih, hchange]
    · rw [if_pos hchange, Finset.card_insert_of_notMem (by simp), Nat.odd_add_one, ih]
      tauto

end Count

namespace Polygon

section Polygons

variable {nodes : List (PolygonNode K)} {v : GVector K}

/-- The vertices as seen from a point. -/
def seen (nodes : List (PolygonNode K)) (v : GVector K) (i : ℕ) : K × K :=
  corner (coords nodes) i - v.xy

open Classical in
/-- The number of runs of three or more vertices on the segment to the far point that pass from one
side of it to the other. -/
noncomputable def longRuns (nodes : List (PolygonNode K)) (v : GVector K) : ℕ :=
  ((Finset.range nodes.length).filter fun i =>
    LongRun ((faraway : GVector K).xy - v.xy) (seen nodes v) i).card

omit [Field K] [LinearOrder K] in
lemma length_coords (nodes : List (PolygonNode K)) : (coords nodes).length = nodes.length :=
  List.length_map _

omit [LinearOrder K] in
lemma seen_periodic (nodes : List (PolygonNode K)) (v : GVector K) (i : ℕ) :
    seen nodes v (i + nodes.length) = seen nodes v i := by
  rw [seen, ← length_coords, corner_periodic, seen]

variable [IsStrictOrderedRing K]

omit [IsStrictOrderedRing K] in
lemma corner_lt (hgrid : ∀ w ∈ coords nodes, GridPoint w) (hn : 0 < nodes.length) (i : ℕ) :
    |(corner (coords nodes) i).1| < 10 ^ 6 := by
  rw [← length_coords] at hn
  exact (gridPoint_getD hgrid hn i).small.1

lemma corner_lt_faraway (hgrid : ∀ w ∈ coords nodes, GridPoint w) (hn : 0 < nodes.length)
    (i : ℕ) : (corner (coords nodes) i).1 < (faraway : GVector K).xy.1 := by
  have hsmall := (abs_lt.mp (corner_lt hgrid hn i)).2
  have hlarge : (10 : K) ^ 6 < (faraway : GVector K).xy.1 := by
    simp only [faraway, GVector.xy]
    norm_num
  linarith

omit [LinearOrder K] [IsStrictOrderedRing K] in
lemma half_faraway : HalfPoint (faraway : GVector K) := by
  have hfar := halfPoint_far (K := K) 10000000
  push_cast at hfar
  exact hfar

/-- `OnLine` for a vertex, also where the point is the far point. -/
lemma onLine_seen (hgrid : ∀ w ∈ coords nodes, GridPoint w) (hn : 0 < nodes.length)
    (hv : HalfPoint v) (j : ℕ) :
    GeoMath.onLine ((coords nodes).getD (j % (coords nodes).length) ⟨0, 0, 0⟩) v faraway = true ↔
      seen nodes v j ∈ openSegment K 0 ((faraway : GVector K).xy - v.xy) := by
  by_cases hd : (faraway : GVector K).xy - v.xy = 0
  · have hlt := corner_lt_faraway hgrid hn j
    rw [sub_eq_zero] at hd
    have hx : (faraway : GVector K).x = v.x := congrArg Prod.fst hd
    have hy : (faraway : GVector K).y = v.y := congrArg Prod.snd hd
    rw [hd, sub_self, openSegment_same, Set.mem_singleton_iff, seen, sub_eq_zero]
    constructor
    · intro hline
      simp only [GeoMath.onLine, hx, hy, sub_self, sub_zero, Bool.and_eq_true, Bool.or_eq_true,
        decide_eq_true_eq] at hline
      rcases hline.2 with hneg | hneg
      · exact absurd hneg (mul_self_nonneg _).not_gt
      · exact absurd hneg (mul_self_nonneg _).not_gt
    · intro hsame
      rw [hsame, hd] at hlt
      exact absurd hlt (lt_irrefl _)
  · rw [← length_coords] at hn
    exact onLine_iff hd (half_faraway.quarter (gridPoint_getD hgrid hn j).half hv)

/-- What `insidePolygon` counts. -/
lemma crossing_iff_counted (hgrid : ∀ w ∈ coords nodes, GridPoint w) (hn : 0 < nodes.length)
    (hv : HalfPoint v) (i : ℕ) :
    crossing v faraway ((coords nodes).getD (i % (coords nodes).length) ⟨0, 0, 0⟩)
      ((coords nodes).getD ((i + 1) % (coords nodes).length) ⟨0, 0, 0⟩)
      ((coords nodes).getD ((i + 2) % (coords nodes).length) ⟨0, 0, 0⟩)
      ((coords nodes).getD ((i + 3) % (coords nodes).length) ⟨0, 0, 0⟩) = true ↔
      Counted ((faraway : GVector K).xy - v.xy) (seen nodes v) i := by
  have hline := onLine_seen hgrid hn hv
  rw [crossing_iff (hline _) (hline _)]
  have hone : PassedRun ((faraway : GVector K).xy - v.xy) (seen nodes v) i 1 ↔
      seen nodes v (i + 1) ∈ openSegment K 0 ((faraway : GVector K).xy - v.xy) ∧
      cross ((faraway : GVector K).xy - v.xy) (seen nodes v i)
        * cross ((faraway : GVector K).xy - v.xy) (seen nodes v (i + 2)) < 0 := by
    simp [PassedRun]
  have htwo : PassedRun ((faraway : GVector K).xy - v.xy) (seen nodes v) i 2 ↔
      (seen nodes v (i + 1) ∈ openSegment K 0 ((faraway : GVector K).xy - v.xy) ∧
        seen nodes v (i + 2) ∈ openSegment K 0 ((faraway : GVector K).xy - v.xy)) ∧
      cross ((faraway : GVector K).xy - v.xy) (seen nodes v i)
        * cross ((faraway : GVector K).xy - v.xy) (seen nodes v (i + 3)) < 0 := by
    rw [PassedRun]
    constructor
    · rintro ⟨hrun, hneg⟩
      exact ⟨⟨hrun 0 (by omega), hrun 1 (by omega)⟩, hneg⟩
    · rintro ⟨⟨h1, h2⟩, hneg⟩
      refine ⟨fun j hj => ?_, hneg⟩
      interval_cases j
      · exact h1
      · exact h2
  rw [Counted, hone, htwo]
  simp only [seen, corner]
  tauto

open Classical in
lemma insidePolygon_iff_odd (hgrid : ∀ w ∈ coords nodes, GridPoint w) (hn : 0 < nodes.length)
    (hv : HalfPoint v) : insidePolygon nodes v = true ↔ Odd ((Finset.range nodes.length).filter
      (Counted ((faraway : GVector K).xy - v.xy) (seen nodes v))).card := by
  have hcount : insidePolygon nodes v = true ↔ Odd ((List.range (coords nodes).length).countP
      fun i => crossing v faraway ((coords nodes).getD (i % (coords nodes).length) ⟨0, 0, 0⟩)
        ((coords nodes).getD ((i + 1) % (coords nodes).length) ⟨0, 0, 0⟩)
        ((coords nodes).getD ((i + 2) % (coords nodes).length) ⟨0, 0, 0⟩)
        ((coords nodes).getD ((i + 3) % (coords nodes).length) ⟨0, 0, 0⟩)) := by
    rw [insidePolygon]
    simp only [decide_eq_true_eq, Nat.odd_iff]
    exact Nat.mod_two_ne_zero
  rw [hcount, countP_range_eq_card, length_coords]
  simp only [← length_coords nodes, crossing_iff_counted hgrid hn hv]

/-- `insidePolygon` for a point before the far point. -/
lemma insidePolygon_before (hgrid : ∀ w ∈ coords nodes, GridPoint w) (hv : HalfPoint v)
    (hbefore : v.x < 10000000) (hsimple : SimplePolygon nodes.length (corner (coords nodes)))
    (hoff : OffBoundary nodes.length (corner (coords nodes)) v.xy) :
    (insidePolygon nodes v = true ↔ Inside nodes.length (corner (coords nodes)) v.xy) ↔
      Even (longRuns nodes v) := by
  classical
  have hn : 0 < nodes.length := by
    have := hsimple.three_le
    omega
  have hvfar : v.xy.1 < (faraway : GVector K).xy.1 := hbefore
  have hd : (faraway : GVector K).xy - v.xy ≠ 0 := by
    intro hzero
    rw [sub_eq_zero] at hzero
    exact hvfar.ne (congrArg Prod.fst hzero).symm
  have hnear : ∀ i, (0 : K × K) ∉ segment K (seen nodes v i) (seen nodes v (i + 1)) := by
    intro i
    rw [seen, seen, mem_segment_sub, add_zero]
    exact hoff.chain hsimple.periodic hn i 1 0 one_pos
  have hfar : ∀ i, ∀ s : K, 1 ≤ s → s • ((faraway : GVector K).xy - v.xy)
      ∉ segment K (seen nodes v i) (seen nodes v (i + 1)) := fun i =>
    notMem_beyond hvfar (corner_lt_faraway hgrid hn i) (corner_lt_faraway hgrid hn (i + 1))
  have hends : ∀ i, ∃ k, seen nodes v (i + k)
      ∉ openSegment K 0 ((faraway : GVector K).xy - v.xy) := by
    intro i
    obtain ⟨j, hj⟩ := hsimple.exists_off_line (q := v.xy) hd
    refine ⟨j + nodes.length * i - i, fun hmem => hj ?_⟩
    have hle : i ≤ j + nodes.length * i := by
      have := Nat.le_mul_of_pos_left i hn
      omega
    rw [Nat.add_sub_cancel' hle, periodic_mul (seen_periodic nodes v)] at hmem
    exact cross_of_mem_openSegment hmem
  have hpassed := odd_card_filter (Finset.range nodes.length) fun i _ =>
    passed_iff (d := (faraway : GVector K).xy - v.xy) (a := seen nodes v) (i := i)
  have hcrossed := odd_card_filter (Finset.range nodes.length) (P := fun i =>
    rayCrossing ((faraway : GVector K).xy - v.xy) (seen nodes v i) (seen nodes v (i + 1)) ≠ 0)
    (Q := Passed ((faraway : GVector K).xy - v.xy) (seen nodes v))
    (R := fun i => ¬ (LeavesLeft ((faraway : GVector K).xy - v.xy) (seen nodes v) i ↔
      LeavesLeft ((faraway : GVector K).xy - v.xy) (seen nodes v) (i + 1)))
    fun i _ => by rw [not_not]; exact rayCrossing_iff_passed hd hnear hfar hends i
  have hcycle : LeavesLeft ((faraway : GVector K).xy - v.xy) (seen nodes v) 0 ↔
      LeavesLeft ((faraway : GVector K).xy - v.xy) (seen nodes v) nodes.length := by
    have hshift : ∀ i, seen nodes v (nodes.length + i) = seen nodes v i := by
      intro i
      rw [Nat.add_comm, seen_periodic]
    have hstart : seen nodes v nodes.length = seen nodes v 0 := hshift 0
    simp only [LeavesLeft, Above, hshift, hstart, Nat.zero_add]
  rw [odd_changes_iff, not_not] at hcrossed
  have hcode := insidePolygon_iff_odd hgrid hn hv
  have hinside := hsimple.inside_iff_odd hoff hd
  rw [hcode, hinside, longRuns, ← Nat.not_odd_iff_even]
  change (_ ↔ Odd ((Finset.range nodes.length).filter fun i => rayCrossing
    ((faraway : GVector K).xy - v.xy) (seen nodes v i) (seen nodes v (i + 1)) ≠ 0).card) ↔ _
  rw [hcrossed, hpassed]
  simp only [hcycle, iff_true]
  generalize Odd (Finset.card _) = x
  generalize Odd (Finset.card _) = y
  by_cases x <;> by_cases y <;> simp_all

/-- No vertex, and no edge, is on the segment from a point that is not before the far point. -/
lemma notMem_behind (hgrid : ∀ w ∈ coords nodes, GridPoint w) (hn : 0 < nodes.length)
    (hbehind : 10000000 ≤ v.x) (i : ℕ) {s : K} (hs : s ≤ 1) :
    s • ((faraway : GVector K).xy - v.xy)
      ∉ segment K (seen nodes v i) (seen nodes v (i + 1)) := by
  have hd : (faraway : GVector K).xy.1 - v.xy.1 ≤ 0 := sub_nonpos.mpr hbehind
  have hleft : ∀ j, (seen nodes v j).1 < (faraway : GVector K).xy.1 - v.xy.1 := by
    intro j
    have := corner_lt_faraway hgrid hn j
    rw [seen, Prod.fst_sub]
    linarith
  rintro ⟨u, w, hu, hw, huw, hpoint⟩
  have hfirst := congrArg Prod.fst hpoint
  simp only [Prod.fst_add, Prod.smul_fst, Prod.fst_sub, smul_eq_mul] at hfirst
  have hlow : (faraway : GVector K).xy.1 - v.xy.1
      ≤ s * ((faraway : GVector K).xy.1 - v.xy.1) := by
    have := mul_nonneg_of_nonpos_of_nonpos (sub_nonpos.mpr hs) hd
    linarith
  have hsum : u * ((faraway : GVector K).xy.1 - v.xy.1) + w * ((faraway : GVector K).xy.1 - v.xy.1)
      = (faraway : GVector K).xy.1 - v.xy.1 := by rw [← add_mul, huw, one_mul]
  have h1 := mul_le_mul_of_nonneg_left (hleft i).le hu
  have h2 := mul_le_mul_of_nonneg_left (hleft (i + 1)).le hw
  rcases hu.eq_or_lt with rfl | hpos
  · obtain rfl : w = 1 := by linarith
    have := hleft (i + 1)
    linarith
  · have := mul_lt_mul_of_pos_left (hleft i) hpos
    linarith

/-- `insidePolygon` for a point that is not before the far point: it is outside, and nothing is
counted. -/
lemma insidePolygon_behind (hgrid : ∀ w ∈ coords nodes, GridPoint w) (hv : HalfPoint v)
    (hbehind : 10000000 ≤ v.x) (hn : 0 < nodes.length) :
    insidePolygon nodes v = false ∧ ¬ Inside nodes.length (corner (coords nodes)) v.xy
      ∧ longRuns nodes v = 0 := by
  classical
  have hopen : ∀ i, seen nodes v i ∉ openSegment K 0 ((faraway : GVector K).xy - v.xy) := by
    rintro i ⟨u, s, hu, hs, hus, hpoint⟩
    rw [smul_zero, zero_add] at hpoint
    apply notMem_behind hgrid hn hbehind i (s := s) (by linarith)
    rw [hpoint]
    exact left_mem_segment K _ _
  have hrun : ∀ i k, 1 ≤ k → ¬ PassedRun ((faraway : GVector K).xy - v.xy) (seen nodes v) i k := by
    intro i k hk hrun
    exact hopen _ (hrun.1 0 (by omega))
  have hproper : ∀ i, ¬ Proper ((faraway : GVector K).xy - v.xy) (seen nodes v i)
      (seen nodes v (i + 1)) := by
    have hside : ∀ {a b : K × K}, (∀ s : K, s ≤ 1 →
        s • ((faraway : GVector K).xy - v.xy) ∉ segment K a b) →
        cross ((faraway : GVector K).xy - v.xy) a < 0 →
        0 < cross ((faraway : GVector K).xy - v.xy) b →
        ¬ cross a b * (cross a b - (cross ((faraway : GVector K).xy - v.xy) b
          - cross ((faraway : GVector K).xy - v.xy) a)) < 0 := by
      intro a b hclear ha hb hneg
      have hlen : 0 < cross ((faraway : GVector K).xy - v.xy) b
          - cross ((faraway : GVector K).xy - v.xy) a := by linarith
      have hbounds : 0 < cross a b ∧ cross a b < cross ((faraway : GVector K).xy - v.xy) b
          - cross ((faraway : GVector K).xy - v.xy) a := by
        rcases mul_neg_iff.mp hneg with ⟨h0, h1⟩ | ⟨h0, h1⟩
        · exact ⟨h0, by linarith⟩
        · linarith
      apply hclear _ ((div_le_one hlen).mpr hbounds.2.le)
      exact crossing_mem_segment ha.le hb.le (ha.trans hb)
    intro i hproper
    have hclear := fun s hs => notMem_behind hgrid hn hbehind i (s := s) hs
    rcases mul_neg_iff.mp hproper.1 with ⟨ha, hb⟩ | ⟨ha, hb⟩
    · apply hside (fun s hs => by rw [segment_symm]; exact hclear s hs) hb ha
      rw [cross_swap (seen nodes v i)]
      have hneg := hproper.2
      linarith
    · exact hside hclear ha hb hproper.2
  have hnone : ∀ i, ¬ Counted ((faraway : GVector K).xy - v.xy) (seen nodes v) i := by
    rintro i (hcross | hone | htwo)
    · exact hproper i hcross
    · exact hrun i 1 le_rfl hone
    · exact hrun i 2 (by omega) htwo
  refine ⟨?_, ?_, ?_⟩
  · rw [← Bool.not_eq_true, insidePolygon_iff_odd hgrid hn hv]
    simp [hnone]
  · rw [Inside, not_not, windingNumber, windingAlong]
    apply Finset.sum_eq_zero
    intro k _
    by_contra hcrossed
    obtain ⟨hpos, s, t, hs, ht, hst, hpoint⟩ := mem_of_rayCrossing_ne_zero hcrossed
    have hfirst := congrArg Prod.fst hpoint
    simp only [Prod.fst_add, Prod.smul_fst, Prod.fst_sub, smul_eq_mul, mul_one] at hfirst
    have hleft : ∀ j, (corner (coords nodes) j).1 - v.xy.1 ≤ 0 := by
      intro j
      have hlt := (corner_lt_faraway hgrid hn j).le
      exact sub_nonpos.mpr (hlt.trans hbehind)
    have h1 := mul_nonpos_of_nonneg_of_nonpos hs (hleft (0 + k))
    have h2 := mul_nonpos_of_nonneg_of_nonpos ht (hleft (0 + k + 1))
    linarith
  · rw [longRuns, Finset.card_eq_zero, Finset.filter_eq_empty_iff]
    rintro i - ⟨k, hk, hpassed⟩
    exact hrun i k (by omega) hpassed

/-- `insidePolygon` is right exactly when an even number of runs of three or more vertices are
passed. -/
theorem insidePolygon_right_iff (hgrid : ∀ w ∈ coords nodes, GridPoint w) (hv : HalfPoint v)
    (hsimple : SimplePolygon nodes.length (corner (coords nodes)))
    (hoff : OffBoundary nodes.length (corner (coords nodes)) v.xy) :
    (insidePolygon nodes v = true ↔ Inside nodes.length (corner (coords nodes)) v.xy) ↔
      Even (longRuns nodes v) := by
  rcases lt_or_ge v.x 10000000 with hbefore | hbehind
  · exact insidePolygon_before hgrid hv hbefore hsimple hoff
  · have hn : 0 < nodes.length := by
      have := hsimple.three_le
      omega
    obtain ⟨hfalse, hout, hruns⟩ := insidePolygon_behind hgrid hv hbehind hn
    simp [hfalse, hout, hruns]

end Polygons

/-- A polygon whose right side has four corners on one line. -/
def steppedSide : List (PolygonNode ℚ) :=
  ofVertices [⟨0, 0, ⟨-1, -1, 0⟩⟩, ⟨1, 1, ⟨1, -1, 0⟩⟩, ⟨2, 2, ⟨1, 0, 0⟩⟩, ⟨3, 3, ⟨2, 0, 0⟩⟩,
    ⟨4, 4, ⟨3, 0, 0⟩⟩, ⟨5, 5, ⟨3, 1, 0⟩⟩, ⟨6, 6, ⟨-1, 1, 0⟩⟩]

lemma steppedSide_grid : ∀ w ∈ coords steppedSide, GridPoint w := by
  have hinteger : ∀ w ∈ coords steppedSide, (w.x.num : ℚ) = w.x ∧ (w.y.num : ℚ) = w.y
      ∧ |w.x| < 10 ^ 6 ∧ |w.y| < 10 ^ 6 := by
    decide +kernel
  intro w hw
  obtain ⟨hx, hy, hsmall⟩ := hinteger w hw
  exact ⟨⟨w.x.num, w.y.num, hx.symm, hy.symm⟩, hsmall⟩

lemma steppedSide_simple : SimplePolygon steppedSide.length (corner (coords steppedSide)) :=
  simplePolygon_of_test (by decide) (corner_periodic (coords steppedSide)) (by decide +kernel)
    (by decide +kernel) (by decide +kernel)

/-- A point is off the boundary if every edge either passes it by or is all to its right. -/
lemma offBoundary_of_right [IsStrictOrderedRing K] {n : ℕ} {p : ℕ → K × K} {q : K × K}
    (h : ∀ i < n, orient (p i) (p (i + 1)) q ≠ 0 ∨ q.1 < (p i).1 ∧ q.1 < (p (i + 1)).1) :
    OffBoundary n p q := by
  intro i hi hmem
  rw [Nat.zero_add] at hmem
  rcases h i hi with hline | ⟨hstart, hend⟩
  · exact hline (orient_eq_zero_of_mem hmem)
  · have hright : segment K (p i) (p (i + 1)) ⊆ {x | q.1 < x.1} :=
      (convex_halfSpace_gt (LinearMap.fst K K K).isLinear q.1).segment_subset hstart hend
    exact lt_irrefl _ (hright hmem)

lemma steppedSide_off : OffBoundary steppedSide.length (corner (coords steppedSide)) (0, 0) :=
  offBoundary_of_right (by decide +kernel)

/-- The origin is inside, but the run of its three vertices on the ray is not counted. -/
theorem steppedSide_misses_origin : (∀ w ∈ coords steppedSide, GridPoint w)
    ∧ HalfPoint (⟨0, 0, 0⟩ : GVector ℚ)
    ∧ SimplePolygon steppedSide.length (corner (coords steppedSide))
    ∧ OffBoundary steppedSide.length (corner (coords steppedSide)) (0, 0)
    ∧ Inside steppedSide.length (corner (coords steppedSide)) (0, 0)
    ∧ insidePolygon steppedSide ⟨0, 0, 0⟩ = false := by
  refine ⟨steppedSide_grid, ⟨0, 0, by norm_num, by norm_num⟩, steppedSide_simple,
    steppedSide_off, ?_, by decide +kernel⟩
  unfold Inside
  decide +kernel

/-- The same polygon and point. -/
theorem insidePolygon_right_iff_origin : (insidePolygon steppedSide ⟨0, 0, 0⟩ = true ↔
    Inside steppedSide.length (corner (coords steppedSide)) (0, 0)) ↔
      Even (longRuns steppedSide ⟨0, 0, 0⟩) :=
  insidePolygon_right_iff steppedSide_grid ⟨0, 0, by norm_num, by norm_num⟩ steppedSide_simple
    steppedSide_off

end Polygon

end MTalk.Triangle
