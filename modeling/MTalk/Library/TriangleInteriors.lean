import MTalk.Library.PlaneGeometry

/-!
# Interiors of triangles

The points strictly inside a positively oriented triangle. They stay inside under small moves, the
parts of a split lie inside the whole, and what meets a triangle of a flipped pair meets one of the
pair before the flip.
-/

namespace PlaneGeometry

variable {K : Type*} [Field K]

/-- The point on the way from `p` to `q`. -/
def toward (p q : K × K) (ε : K) : K × K := ((1 - ε) * p.1 + ε * q.1, (1 - ε) * p.2 + ε * q.2)

lemma orient_toward (a b p q : K × K) (ε : K) :
    orient a b (toward p q ε) = (1 - ε) * orient a b p + ε * orient a b q := by
  simp only [orient, toward]
  ring

/-- How far a point is to the left of a line, by its weights in a triangle. -/
lemma orient_weights (x y a b c p : K × K) : orient a b c * orient x y p =
    orient b c p * orient x y a + orient c a p * orient x y b + orient a b p * orient x y c := by
  simp only [orient]
  ring

@[simp] lemma orient_end (a b : K × K) : orient a b b = 0 := by
  simp only [orient]
  ring

@[simp] lemma orient_start (a b : K × K) : orient a b a = 0 := by
  simp only [orient]
  ring

variable [LinearOrder K]

/-- The point is strictly to the left of the three sides. -/
structure InTriangle (a b c p : K × K) : Prop where
  first : 0 < orient a b p
  second : 0 < orient b c p
  third : 0 < orient c a p

lemma InTriangle.rotate {a b c p : K × K} (h : InTriangle a b c p) : InTriangle b c a p :=
  ⟨h.second, h.third, h.first⟩

variable [IsStrictOrderedRing K] {a b c d p v x y z : K × K}

lemma InTriangle.positive (h : InTriangle a b c p) : 0 < orient a b c := by
  have hsplit := orient_split a b c p
  have hfirst : orient p b c = orient b c p := (orient_rotate p b c).symm
  have hsecond : orient a p c = orient c a p := orient_rotate c a p
  rw [← hsplit, hfirst, hsecond]
  linarith [h.first, h.second, h.third]

/-- A line that has the corners of a triangle to its left has the inner points there too. -/
lemma InTriangle.left (h : InTriangle a b c p) (ha : 0 ≤ orient x y a) (hb : 0 ≤ orient x y b)
    (hc : 0 ≤ orient x y c) (hsome : 0 < orient x y a ∨ 0 < orient x y b ∨ 0 < orient x y c) :
    0 < orient x y p := by
  have hweights := orient_weights x y a b c p
  have hwa := mul_nonneg h.second.le ha
  have hwb := mul_nonneg h.third.le hb
  have hwc := mul_nonneg h.first.le hc
  refine pos_of_mul_pos_right ?_ h.positive.le
  rw [hweights]
  rcases hsome with hpos | hpos | hpos
  · linarith [mul_pos h.second hpos]
  · linarith [mul_pos h.third hpos]
  · linarith [mul_pos h.first hpos]

lemma exists_inTriangle (h : 0 < orient a b c) : ∃ p, InTriangle a b c p := by
  have hthird : (0 : K) < 1 / 3 := by norm_num
  refine ⟨((a.1 + b.1 + c.1) / 3, (a.2 + b.2 + c.2) / 3), ?_, ?_, ?_⟩
  all_goals
    refine (mul_pos hthird h).trans_eq ?_
    simp only [orient]
    ring

/-! Small moves. -/

lemma exists_small {r s : K} (hr : 0 < r) :
    ∃ δ, 0 < δ ∧ δ ≤ 1 ∧ ∀ ε, 0 < ε → ε ≤ δ → 0 < (1 - ε) * r + ε * s := by
  have hden : 0 < r + |s| := by linarith [abs_nonneg s]
  refine ⟨r / (2 * (r + |s|)), by positivity, ?_, fun ε hε hle => ?_⟩
  · rw [div_le_one (by positivity)]
    linarith [abs_nonneg s]
  · have hbound : ε * (2 * (r + |s|)) ≤ r := by
      rwa [le_div_iff₀ (by positivity)] at hle
    have hs : ε * (-s) ≤ ε * |s| := mul_le_mul_of_nonneg_left (neg_le_abs s) hε.le
    have hε' : 0 ≤ ε * |s| := mul_nonneg hε.le (abs_nonneg s)
    nlinarith

lemma InTriangle.near (h : InTriangle a b c p) (q : K × K) :
    ∃ δ, 0 < δ ∧ δ ≤ 1 ∧ ∀ ε, 0 < ε → ε ≤ δ → InTriangle a b c (toward p q ε) := by
  obtain ⟨δ₁, h₁, hle₁, hkeep₁⟩ := exists_small (s := orient a b q) h.first
  obtain ⟨δ₂, h₂, -, hkeep₂⟩ := exists_small (s := orient b c q) h.second
  obtain ⟨δ₃, h₃, -, hkeep₃⟩ := exists_small (s := orient c a q) h.third
  refine ⟨min δ₁ (min δ₂ δ₃), lt_min h₁ (lt_min h₂ h₃), (min_le_left _ _).trans hle₁, ?_⟩
  intro ε hε hle
  obtain ⟨hε₁, hrest⟩ := le_min_iff.mp hle
  obtain ⟨hε₂, hε₃⟩ := le_min_iff.mp hrest
  refine ⟨?_, ?_, ?_⟩
  · rw [orient_toward]
    exact hkeep₁ ε hε hε₁
  · rw [orient_toward]
    exact hkeep₂ ε hε hε₂
  · rw [orient_toward]
    exact hkeep₃ ε hε hε₃

/-- A triangle with a corner inside another one has inner points there too. -/
theorem exists_common_of_corner (h : InTriangle x y z v) (hpos : 0 < orient v b c) :
    ∃ q, InTriangle x y z q ∧ InTriangle v b c q := by
  obtain ⟨p, hp⟩ := exists_inTriangle hpos
  obtain ⟨δ, hδ, hle, hkeep⟩ := h.near p
  refine ⟨toward v p δ, hkeep δ hδ le_rfl, ?_, ?_, ?_⟩
  · rw [orient_toward, orient_start, mul_zero, zero_add]
    exact mul_pos hδ hp.first
  · have hcorner : 0 < orient b c v := by rwa [orient_rotate]
    rw [orient_toward]
    have hfirst := mul_nonneg (sub_nonneg.mpr hle) hcorner.le
    linarith [mul_pos hδ hp.second]
  · rw [orient_toward, orient_end, mul_zero, zero_add]
    exact mul_pos hδ hp.third

/-! Splits and flips. -/

/-- The part of a split that has `v` in the place of `a` lies inside the whole. -/
theorem InTriangle.of_part (hv : InTriangle a b c v) (h : InTriangle v b c p) :
    InTriangle a b c p := by
  have hpos := hv.positive
  refine ⟨?_, h.second, ?_⟩
  · exact h.left hv.first.le (orient_end a b).ge hpos.le (.inl hv.first)
  · have hb : 0 < orient c a b := by rwa [orient_rotate, orient_rotate]
    exact h.left hv.third.le hb.le (orient_start c a).ge (.inl hv.third)

/-- Triangles on the two sides of an edge have no inner point in common. -/
lemma InTriangle.not_across (h : InTriangle a b c p) : ¬ InTriangle b a d p := by
  intro hd
  have hswap := orient_swap a b p
  linarith [h.first, hd.first]

/-- A point inside `abd` that is to the left of the diagonal `bc` is inside `abc`. -/
lemma InTriangle.flip_left (h : InTriangle a b d p) (hcab : 0 < orient a b c)
    (hdca : 0 < orient d c a) (hside : 0 < orient b c p) : InTriangle a b c p := by
  have hb : 0 < orient c a b := by rwa [orient_rotate, orient_rotate]
  have hd : 0 < orient c a d := by rwa [orient_rotate]
  exact ⟨h.first, hside, h.left (orient_end c a).ge hb.le hd.le (.inr (.inl hb))⟩

lemma InTriangle.flip_right (h : InTriangle a b d p) (hdcb : 0 < orient d c b)
    (hdca : 0 < orient d c a) (hside : 0 < orient c b p) : InTriangle d c b p :=
  ⟨h.left hdca.le hdcb.le (orient_start d c).ge (.inl hdca), hside, h.second⟩

/-- In a convex quadrilateral `abdc`, what has an inner point in common with `abd` has one in
common with `abc` or with `dcb`. -/
theorem exists_common_of_flip (habc : 0 < orient a b c) (hdcb : 0 < orient d c b)
    (hdca : 0 < orient d c a) (h : InTriangle a b d p) (hp : InTriangle x y z p) :
    ∃ q, InTriangle x y z q ∧ (InTriangle a b c q ∨ InTriangle d c b q) := by
  rcases lt_trichotomy (orient b c p) 0 with hneg | hzero | hpos
  · have hside : 0 < orient c b p := by
      rw [orient_swap]
      linarith
    exact ⟨p, hp, .inr (h.flip_right hdcb hdca hside)⟩
  · -- The point is on the diagonal: a small step towards `a` leaves it.
    obtain ⟨δ₁, hδ₁, -, hkeep₁⟩ := h.near a
    obtain ⟨δ₂, hδ₂, -, hkeep₂⟩ := hp.near a
    have hδ : 0 < min δ₁ δ₂ := lt_min hδ₁ hδ₂
    have hside : 0 < orient b c (toward p a (min δ₁ δ₂)) := by
      rw [orient_toward, hzero, mul_zero, zero_add, orient_rotate]
      exact mul_pos hδ habc
    refine ⟨toward p a (min δ₁ δ₂), hkeep₂ _ hδ (min_le_right _ _), .inl ?_⟩
    exact (hkeep₁ _ hδ (min_le_left _ _)).flip_left habc hdca hside
  · exact ⟨p, hp, .inl (h.flip_left habc hdca hpos)⟩

end PlaneGeometry
