import MTalk.Library.SimplePolygons

/-!
# Crossings of two segments

Two segments that are not parallel have at most one common point. It is the point on the lines of
both, and it is there unless one of them has both ends on one side of the other. The points of a
segment are in the order of their distances from its start.
-/

namespace PolygonWinding

open PlaneGeometry

variable {K : Type*} [Field K] [LinearOrder K] [IsStrictOrderedRing K] {a b c d x y : K × K}

omit [LinearOrder K] [IsStrictOrderedRing K] in
/-- The lines of two edges that are not parallel have one point in common. -/
lemma eq_of_orient_zero (hdet : cross (b - a) (d - c) ≠ 0) (hx : orient a b x = 0)
    (hx' : orient c d x = 0) (hy : orient a b y = 0) (hy' : orient c d y = 0) : x = y := by
  simp only [orient, cross, Prod.fst_sub, Prod.snd_sub] at hdet hx hx' hy hy'
  have h1 : ((b.1 - a.1) * (d.2 - c.2) - (b.2 - a.2) * (d.1 - c.1)) * (x.1 - y.1) = 0 := by
    linear_combination (d.1 - c.1) * (hx - hy) - (b.1 - a.1) * (hx' - hy')
  have h2 : ((b.1 - a.1) * (d.2 - c.2) - (b.2 - a.2) * (d.1 - c.1)) * (x.2 - y.2) = 0 := by
    linear_combination (d.2 - c.2) * (hx - hy) - (b.2 - a.2) * (hx' - hy')
  apply Prod.ext
  · exact sub_eq_zero.mp ((mul_eq_zero.mp h1).resolve_left hdet)
  · exact sub_eq_zero.mp ((mul_eq_zero.mp h2).resolve_left hdet)

omit [LinearOrder K] [IsStrictOrderedRing K] in
lemma orient_sub_orient (a b c d : K × K) :
    orient c d b - orient c d a = -cross (b - a) (d - c) := by
  simp only [orient, cross, Prod.fst_sub, Prod.snd_sub]
  ring

/-- The common point of the lines of two edges is on the first edge if its ends are not on one side
of the second. -/
lemma mem_segment_of_orient_zero (hdet : cross (b - a) (d - c) ≠ 0)
    (hside : ¬ 0 < orient c d a * orient c d b) (hx : orient a b x = 0) (hx' : orient c d x = 0) :
    x ∈ segment K a b := by
  have hdiff := orient_sub_orient a b c d
  set s := orient c d a
  set t := orient c d b
  have hne : s - t ≠ 0 := by
    intro hzero
    apply hdet
    linear_combination hdiff + hzero
  have hends : 0 ≤ s / (s - t) ∧ 0 ≤ -t / (s - t) := by
    rw [not_lt] at hside
    rcases lt_or_gt_of_ne hne with hneg | hpos
    · refine ⟨div_nonneg_of_nonpos ?_ hneg.le, div_nonneg_of_nonpos ?_ hneg.le⟩
      · by_contra hs
        nlinarith
      · by_contra ht
        nlinarith
    · refine ⟨div_nonneg ?_ hpos.le, div_nonneg ?_ hpos.le⟩
      · by_contra hs
        nlinarith
      · by_contra ht
        nlinarith
  have hsum : -t / (s - t) + s / (s - t) = 1 := by
    rw [← add_div, neg_add_eq_sub, div_self hne]
  have hmem : (-t / (s - t)) • a + (s / (s - t)) • b ∈ segment K a b :=
    ⟨_, _, hends.2, hends.1, hsum, rfl⟩
  have hline : orient c d ((-t / (s - t)) • a + (s / (s - t)) • b) = 0 := by
    rw [orient_combine _ _ _ _ hsum]
    change -t / (s - t) * s + s / (s - t) * t = 0
    ring
  rwa [eq_of_orient_zero hdet hx hx' (orient_eq_zero_of_mem hmem) hline]

/-- The common point of the lines of two edges that are not apart is on both. -/
lemma mem_both_of_not_apart (hdet : cross (b - a) (d - c) ≠ 0) (h : ¬ Apart a b c d)
    (hx : orient a b x = 0) (hx' : orient c d x = 0) : x ∈ segment K a b ∩ segment K c d := by
  rw [Apart, not_or] at h
  have hdet' : cross (d - c) (b - a) ≠ 0 := by
    rw [cross_swap]
    exact neg_ne_zero.mpr hdet
  exact ⟨mem_segment_of_orient_zero hdet h.2 hx hx',
    mem_segment_of_orient_zero hdet' h.1 hx' hx⟩

/-- Two points of a line from `a` are in the order of their parameters. -/
lemma dist2_le_iff (hab : a ≠ b) {s t : K} (hs : 0 ≤ s) (ht : 0 ≤ t) :
    dist2 a (a + s • (b - a)) ≤ dist2 a (a + t • (b - a)) ↔ s ≤ t := by
  have hform : ∀ r : K, dist2 a (a + r • (b - a)) = r ^ 2 * dist2 a b := by
    intro r
    simp only [dist2, Prod.fst_add, Prod.snd_add, Prod.smul_fst, Prod.smul_snd, Prod.fst_sub,
      Prod.snd_sub, smul_eq_mul]
    ring
  have hpos : 0 < dist2 a b := by
    have hne : a.1 - b.1 ≠ 0 ∨ a.2 - b.2 ≠ 0 := by
      by_contra hzero
      rw [not_or, not_not, not_not, sub_eq_zero, sub_eq_zero] at hzero
      exact hab (Prod.ext hzero.1 hzero.2)
    rcases hne with h | h
    · exact add_pos_of_pos_of_nonneg (mul_self_pos.mpr h) (mul_self_nonneg _)
    · exact add_pos_of_nonneg_of_pos (mul_self_nonneg _) (mul_self_pos.mpr h)
  rw [hform, hform, mul_le_mul_iff_of_pos_right hpos, sq_le_sq₀ hs ht]

/-- Of two points of a segment the one that is not farther from the start is before the other. -/
lemma mem_segment_of_dist2_le (hx : x ∈ segment K a b) (hy : y ∈ segment K a b)
    (h : dist2 a x ≤ dist2 a y) : x ∈ segment K a y := by
  rw [segment_eq_image'] at hx hy ⊢
  obtain ⟨s, ⟨hs, -⟩, rfl⟩ := hx
  obtain ⟨t, ⟨ht, -⟩, rfl⟩ := hy
  dsimp only at h ⊢
  by_cases hab : a = b
  · refine ⟨0, ⟨le_rfl, zero_le_one⟩, ?_⟩
    simp [hab]
  · rw [dist2_le_iff hab hs ht] at h
    rcases ht.eq_or_lt with rfl | hpos
    · obtain rfl := le_antisymm h hs
      exact ⟨0, ⟨le_rfl, zero_le_one⟩, by simp⟩
    · refine ⟨s / t, ⟨div_nonneg hs ht, (div_le_one hpos).mpr h⟩, ?_⟩
      dsimp only
      rw [add_sub_cancel_left, smul_smul, div_mul_cancel₀ s hpos.ne']

end PolygonWinding
