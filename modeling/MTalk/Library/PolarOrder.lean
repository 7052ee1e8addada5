import MTalk.Library.PolygonWinding

/-!
# The order of directions

Vectors of the plane in the order of their polar angles, counter-clockwise from the positive half of
the first axis, as an algebraic relation. `ExactAngle` says that a function measures this order; the
argument of a complex number, taken between `0` and `2 * π`, does.
-/

namespace PlaneGeometry

open PolygonWinding

section Upper

variable {K : Type*} [Field K] [LinearOrder K]

/-- The polar angle is less than a half turn. -/
def Upper (u : K × K) : Prop := 0 < u.2 ∨ u.2 = 0 ∧ 0 < u.1

/-- The polar angle of `u` is less than that of `w`. -/
def Before (u w : K × K) : Prop := Upper u ∧ ¬ Upper w ∨ (Upper u ↔ Upper w) ∧ 0 < cross u w

omit [LinearOrder K] in
/-- Three vectors of the plane are dependent. -/
lemma cross_dependence (a b c : K × K) : cross a c • b = cross b c • a + cross a b • c := by
  ext
  · simp only [cross, Prod.smul_fst, Prod.fst_add, smul_eq_mul]
    ring
  · simp only [cross, Prod.smul_snd, Prod.snd_add, smul_eq_mul]
    ring

variable [IsStrictOrderedRing K] {a b c d u w : K × K}

omit [IsStrictOrderedRing K] in
lemma Upper.ne_zero (h : Upper u) : u ≠ 0 := by
  rintro rfl
  rcases h with h | ⟨-, h⟩ <;> exact lt_irrefl _ h

lemma Upper.add (hu : Upper u) (hw : Upper w) : Upper (u + w) := by
  rcases hu with hu | ⟨hu, hu'⟩ <;> rcases hw with hw | ⟨hw, hw'⟩
  · exact .inl (add_pos hu hw)
  · exact .inl (by simpa [hw] using hu)
  · exact .inl (by simpa [hu] using hw)
  · exact .inr ⟨by simp [hu, hw], add_pos hu' hw'⟩

lemma Upper.smul {t : K} (ht : 0 < t) (hu : Upper u) : Upper (t • u) := by
  rcases hu with hu | ⟨hu, hu'⟩
  · exact .inl (mul_pos ht hu)
  · exact .inr ⟨by simp [hu], mul_pos ht hu'⟩

/-- A sum of two upper vectors, one of them possibly with the weight zero. -/
lemma Upper.combine {s t : K} (hs : 0 ≤ s) (ht : 0 < t) (hu : Upper u) (hw : Upper w) :
    Upper (s • u + t • w) := by
  rcases hs.eq_or_lt with rfl | hs
  · rw [zero_smul, zero_add]
    exact hw.smul ht
  · exact (hu.smul hs).add (hw.smul ht)

lemma upper_neg_iff (hu : u ≠ 0) : Upper (-u) ↔ ¬ Upper u := by
  unfold Upper
  simp only [Prod.snd_neg, Prod.fst_neg, neg_pos, neg_eq_zero]
  rcases lt_trichotomy u.2 0 with hneg | hzero | hpos
  · simp [hneg, hneg.not_gt, hneg.ne]
  · have hne : u.1 ≠ 0 := fun h => hu (Prod.ext h hzero)
    rcases lt_or_gt_of_ne hne with hlt | hgt
    · simp [hzero, hlt, hlt.le]
    · simp [hzero, hgt, hgt.le]
  · simp [hpos, hpos.not_gt, hpos.ne']

lemma Upper.not_neg (h : Upper u) : ¬ Upper (-u) := fun hn => (upper_neg_iff h.ne_zero).mp hn h

lemma Upper.pos_of_smul {t : K} (hu : Upper u) (h : Upper (t • u)) : 0 < t := by
  by_contra hle
  rcases (not_lt.mp hle).eq_or_lt with rfl | hneg
  · exact h.ne_zero (zero_smul K u)
  · have hopp := hu.smul (neg_pos.mpr hneg)
    rw [neg_smul] at hopp
    exact h.not_neg hopp

lemma Upper.of_smul {t : K} (ht : 0 < t) (h : Upper (t • u)) : Upper u := by
  have hback := h.smul (inv_pos.mpr ht)
  rwa [smul_smul, inv_mul_cancel₀ ht.ne', one_smul] at hback

/-- Among upper vectors being further round is transitive. -/
lemma Upper.cross_trans (ha : Upper a) (hb : Upper b) (hc : Upper c) (hab : 0 < cross a b)
    (hbc : 0 ≤ cross b c) : 0 < cross a c := by
  refine hb.pos_of_smul ?_
  rw [cross_dependence]
  exact ha.combine hbc hab hc

lemma Upper.cross_trans' (ha : Upper a) (hb : Upper b) (hc : Upper c) (hab : 0 ≤ cross a b)
    (hbc : 0 < cross b c) : 0 < cross a c := by
  refine hb.pos_of_smul ?_
  rw [cross_dependence, add_comm]
  exact hc.combine hab hbc ha

/-- Vectors of the same half with no angle between them have one direction. -/
lemma exists_smul_of_cross (hu : u ≠ 0) (hw : w ≠ 0) (hhalf : Upper u ↔ Upper w)
    (hcross : cross u w = 0) : ∃ t : K, 0 < t ∧ w = t • u := by
  obtain ⟨t, rfl⟩ := exists_smul_of_cross_eq_zero hu hcross
  refine ⟨t, ?_, rfl⟩
  by_cases hup : Upper u
  · exact hup.pos_of_smul (hhalf.mp hup)
  · have hneg := (upper_neg_iff hu).mpr hup
    have hneg' := (upper_neg_iff hw).mpr fun h => hup (hhalf.mpr h)
    rw [← smul_neg] at hneg'
    exact hneg.pos_of_smul hneg'

omit [IsStrictOrderedRing K] in
lemma ne_zero_of_cross (h : 0 < cross u w) : u ≠ 0 ∧ w ≠ 0 := by
  constructor
  · rintro rfl
    simp [cross] at h
  · rintro rfl
    simp [cross] at h

/-- Of two vectors to the left of `d`, the one that comes first after `d` has the other to its
left. -/
lemma cross_nonneg_of_before (hdu : Before d u) (hdw : 0 ≤ cross d w)
    (hlater : ¬ Before w u ∨ Before w d) : 0 ≤ cross u w := by
  by_contra hneg
  have hwu : 0 < cross w u := by
    rw [cross_swap]
    linarith
  have hdep := cross_dependence d w u
  rcases hlater with hlater | hwd
  · -- Then `u` is upper and `w` is not, but `w` is between `d` and `u`.
    have hhalf : Upper u ∧ ¬ Upper w := by
      by_cases hu : Upper u <;> by_cases hw : Upper w
      · exact absurd (.inr ⟨⟨fun _ => hu, fun _ => hw⟩, hwu⟩) hlater
      · exact ⟨hu, hw⟩
      · exact absurd (.inl ⟨hw, hu⟩) hlater
      · exact absurd (.inr ⟨⟨fun h => absurd h hw, fun h => absurd h hu⟩, hwu⟩) hlater
    obtain ⟨hu, hw⟩ := hhalf
    rcases hdu with ⟨-, hnot⟩ | ⟨hiff, hpos⟩
    · exact hnot hu
    · have hup := hu.combine hdw hwu (hiff.mpr hu)
      rw [add_comm, ← hdep] at hup
      exact hw (hup.of_smul hpos)
  · rcases hwd with ⟨hw, hd⟩ | ⟨-, hpos⟩
    · rcases hdu with ⟨hd', -⟩ | ⟨hiff, hpos⟩
      · exact hd hd'
      · have hne := ne_zero_of_cross hpos
        have hnegd := (upper_neg_iff hne.1).mpr hd
        have hnegu := (upper_neg_iff hne.2).mpr fun h => hd (hiff.mpr h)
        have hup := hnegu.combine hdw hwu hnegd
        rw [smul_neg, smul_neg, ← neg_add, add_comm, ← hdep, ← smul_neg] at hup
        exact hw.not_neg (hup.of_smul hpos)
    · rw [cross_swap] at hpos
      linarith

end Upper

/-- The function is a polar angle: it has the order of the directions, begins with the first axis at
zero and is ten at the zero vector, behind all directions. -/
structure ExactAngle {K : Type*} [Field K] [LinearOrder K] (theta : K × K → K) : Prop where
  zero : theta 0 = 10
  lt_ten : ∀ u, u ≠ 0 → theta u < 10
  right : theta (1, 0) = 0
  lt_iff : ∀ u w, u ≠ 0 → w ≠ 0 → (theta u < theta w ↔ Before u w)

namespace ExactAngle

variable {K : Type*} [Field K] [LinearOrder K] [IsStrictOrderedRing K] {theta : K × K → K}
  (h : ExactAngle theta) {d u w : K × K}

include h

lemma eq_iff (hu : u ≠ 0) (hw : w ≠ 0) : theta u = theta w ↔ ∃ t : K, 0 < t ∧ w = t • u := by
  have huw := h.lt_iff u w hu hw
  have hwu := h.lt_iff w u hw hu
  constructor
  · intro he
    have hnot : ¬ Before u w := fun hb => (huw.mpr hb).ne he
    have hnot' : ¬ Before w u := fun hb => (hwu.mpr hb).ne' he
    have hhalf : Upper u ↔ Upper w :=
      ⟨fun hup => by_contra fun hw' => hnot (.inl ⟨hup, hw'⟩),
        fun hup => by_contra fun hu' => hnot' (.inl ⟨hup, hu'⟩)⟩
    refine exists_smul_of_cross hu hw hhalf (le_antisymm ?_ ?_)
    · exact not_lt.mp fun hpos => hnot (.inr ⟨hhalf, hpos⟩)
    · rw [cross_swap, neg_nonneg]
      exact not_lt.mp fun hpos => hnot' (.inr ⟨hhalf.symm, hpos⟩)
  · rintro ⟨t, ht, rfl⟩
    have hhalf : Upper u ↔ Upper (t • u) := ⟨fun hup => hup.smul ht, fun hup => hup.of_smul ht⟩
    have hzero : cross u (t • u) = 0 := by
      simp only [cross, Prod.smul_fst, Prod.smul_snd, smul_eq_mul]
      ring
    have hnot : ¬ Before u (t • u) := by
      rintro (⟨hup, hnot⟩ | ⟨-, hpos⟩)
      · exact hnot (hhalf.mp hup)
      · exact hpos.ne' hzero
    have hnot' : ¬ Before (t • u) u := by
      rintro (⟨hup, hnot⟩ | ⟨-, hpos⟩)
      · exact hnot (hhalf.mpr hup)
      · rw [cross_swap, hzero, neg_zero] at hpos
        exact hpos.ne' rfl
    exact le_antisymm (not_lt.mp fun hlt => hnot' (hwu.mp hlt))
      (not_lt.mp fun hlt => hnot (huw.mp hlt))

/-- The angle is zero along the positive half of the first axis only. -/
lemma eq_zero_iff (hu : u ≠ 0) : theta u = 0 ↔ 0 < u.1 ∧ u.2 = 0 := by
  have hone : ((1, 0) : K × K) ≠ 0 := by simp
  have hright := h.eq_iff hone hu
  rw [h.right] at hright
  rw [eq_comm, hright]
  constructor
  · rintro ⟨t, ht, rfl⟩
    simpa using ht
  · rintro ⟨hpos, hzero⟩
    exact ⟨u.1, hpos, by ext <;> simp [hzero]⟩

/-- An angle is not negative. -/
lemma nonneg (hu : u ≠ 0) : 0 ≤ theta u := by
  have hone : ((1, 0) : K × K) ≠ 0 := by simp
  rw [← h.right, ← not_lt, h.lt_iff u _ hu hone]
  have hup : Upper ((1, 0) : K × K) := .inr ⟨rfl, one_pos⟩
  rintro (⟨-, hnot⟩ | ⟨hiff, hpos⟩)
  · exact hnot hup
  · rcases hiff.mpr hup with hpos' | ⟨hzero, -⟩
    · simp only [cross, mul_zero, mul_one, zero_sub, neg_pos] at hpos
      exact hpos.not_gt hpos'
    · simp [cross, hzero] at hpos

/-- Of two vectors to the left of `d` with other angles than `d`, the one that comes first has
the other to its left. -/
lemma cross_nonneg (hd : d ≠ 0) (hu : u ≠ 0) (hw : w ≠ 0) (hdu : theta d < theta u)
    (hdw : 0 ≤ cross d w) (hlater : theta u ≤ theta w ∨ theta w < theta d) : 0 ≤ cross u w := by
  refine cross_nonneg_of_before ((h.lt_iff d u hd hu).mp hdu) hdw ?_
  rcases hlater with hle | hlt
  · exact .inl fun hb => hle.not_gt ((h.lt_iff w u hw hu).mpr hb)
  · exact .inr ((h.lt_iff w d hw hd).mp hlt)

end ExactAngle

/-! The argument of a complex number. -/

section Argument

open Real

/-- The polar angle between `0` and `2 * π`, and `10` for the zero vector. -/
noncomputable def polarAngle (u : ℝ × ℝ) : ℝ :=
  if u = 0 then 10
  else if 0 ≤ Complex.arg ⟨u.1, u.2⟩ then Complex.arg ⟨u.1, u.2⟩
  else Complex.arg ⟨u.1, u.2⟩ + 2 * π

/-- A vector in polar coordinates. -/
lemma polarAngle_spec {u : ℝ × ℝ} (hu : u ≠ 0) : 0 ≤ polarAngle u ∧ polarAngle u < 2 * π ∧
    ∃ r, 0 < r ∧ u.1 = r * cos (polarAngle u) ∧ u.2 = r * sin (polarAngle u) := by
  have hz : (⟨u.1, u.2⟩ : ℂ) ≠ 0 := by
    intro h
    exact hu (Prod.ext (congrArg Complex.re h) (congrArg Complex.im h))
  have hcos := Complex.norm_mul_cos_arg ⟨u.1, u.2⟩
  have hsin := Complex.norm_mul_sin_arg ⟨u.1, u.2⟩
  have hlow := Complex.neg_pi_lt_arg ⟨u.1, u.2⟩
  have hhigh := Complex.arg_le_pi ⟨u.1, u.2⟩
  have hpi := pi_pos
  rw [polarAngle, if_neg hu]
  split_ifs with h
  · exact ⟨h, by linarith, _, norm_pos_iff.mpr hz, hcos.symm, hsin.symm⟩
  · refine ⟨by linarith, by linarith, _, norm_pos_iff.mpr hz, ?_, ?_⟩
    · rw [cos_add_two_pi]
      exact hcos.symm
    · rw [sin_add_two_pi]
      exact hsin.symm

lemma upper_iff_polarAngle_lt {u : ℝ × ℝ} (hu : u ≠ 0) : Upper u ↔ polarAngle u < π := by
  obtain ⟨hlow, hhigh, r, hr, hx, hy⟩ := polarAngle_spec hu
  unfold Upper
  rw [hx, hy]
  constructor
  · intro h
    by_contra hge
    have hsin : sin (polarAngle u) ≤ 0 := by
      have := sin_nonneg_of_nonneg_of_le_pi (sub_nonneg.mpr (not_lt.mp hge)) (by linarith)
      rwa [sin_sub_pi, neg_nonneg] at this
    rcases h with hpos | ⟨hzero, hpos⟩
    · exact (mul_nonpos_of_nonneg_of_nonpos hr.le hsin).not_gt hpos
    · have hsin' : sin (polarAngle u - π) = 0 := by
        rw [sin_sub_pi, neg_eq_zero]
        exact (mul_eq_zero.mp hzero).resolve_left hr.ne'
      have heq : polarAngle u - π = 0 :=
        (sin_eq_zero_iff_of_lt_of_lt (by linarith) (by linarith)).mp hsin'
      rw [sub_eq_zero.mp heq, cos_pi] at hpos
      linarith
  · intro h
    rcases hlow.eq_or_lt with hzero | hpos
    · rw [← hzero]
      exact .inr ⟨by simp, by simpa using hr⟩
    · exact .inl (mul_pos hr (sin_pos_of_pos_of_lt_pi hpos h))

/-- The argument has the order of the directions. -/
theorem polarAngle_exact : ExactAngle polarAngle where
  zero := by simp [polarAngle]
  lt_ten := by
    intro u hu
    have hpi := pi_lt_d2
    have := (polarAngle_spec hu).2.1
    linarith
  right := by
    have hone : (⟨1, 0⟩ : ℂ) = 1 := rfl
    simp [polarAngle, hone]
  lt_iff := by
    intro u w hu hw
    obtain ⟨hlow, hhigh, r, hr, hx, hy⟩ := polarAngle_spec hu
    obtain ⟨hlow', hhigh', r', hr', hx', hy'⟩ := polarAngle_spec hw
    have hcross : cross u w = r * r' * sin (polarAngle w - polarAngle u) := by
      rw [cross, hx, hy, hx', hy', sin_sub]
      ring
    rw [Before, upper_iff_polarAngle_lt hu, upper_iff_polarAngle_lt hw, hcross,
      mul_pos_iff_of_pos_left (mul_pos hr hr')]
    constructor
    · intro hlt
      by_cases hhalf : polarAngle u < π ↔ polarAngle w < π
      · refine .inr ⟨hhalf, sin_pos_of_pos_of_lt_pi (sub_pos.mpr hlt) ?_⟩
        by_cases h : polarAngle w < π
        · linarith
        · have := mt hhalf.mp h
          linarith
      · by_cases h : polarAngle w < π
        · exact absurd ⟨fun _ => h, fun _ => hlt.trans h⟩ hhalf
        · refine .inl ⟨?_, h⟩
          by_contra h'
          exact hhalf ⟨fun hu' => absurd hu' h', fun hw' => absurd hw' h⟩
    · rintro (⟨h, h'⟩ | ⟨hhalf, hsin⟩)
      · linarith
      · by_contra hle
        have hnonpos : sin (polarAngle w - polarAngle u) ≤ 0 := by
          refine sin_nonpos_of_nonpos_of_neg_pi_le (by linarith) ?_
          by_cases h : polarAngle u < π
          · linarith
          · have := mt hhalf.mpr h
            linarith
        exact hnonpos.not_gt hsin

end Argument

end PlaneGeometry
