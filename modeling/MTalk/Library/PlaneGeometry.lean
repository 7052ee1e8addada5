import Mathlib

/-!
# Orientation and in-circle determinants

Twice the signed area of a triangle, the in-circle determinant of four points and the
paraboloid lift, over an arbitrary ordered field. The results are the algebra behind edge
flips: the two ways of cutting a quadrilateral into triangles are compared by the sign of
one determinant.
-/

namespace PlaneGeometry

variable {K : Type*} [Field K]

/-- Twice the signed area of the triangle `a b c`. -/
def orient (a b c : K × K) : K :=
  (b.1 - a.1) * (c.2 - a.2) - (b.2 - a.2) * (c.1 - a.1)

def dist2 (a b : K × K) : K := (a.1 - b.1) * (a.1 - b.1) + (a.2 - b.2) * (a.2 - b.2)

/-- The in-circle determinant of `d` against the triangle `a b c`. -/
def inCircle (a b c d : K × K) : K :=
  ((a.1 - d.1) * (b.2 - d.2) - (b.1 - d.1) * (a.2 - d.2)) * dist2 c d -
    ((a.1 - d.1) * (c.2 - d.2) - (c.1 - d.1) * (a.2 - d.2)) * dist2 b d +
    ((b.1 - d.1) * (c.2 - d.2) - (c.1 - d.1) * (b.2 - d.2)) * dist2 a d

/-- The height of a point on the paraboloid. -/
def lift (a : K × K) : K := a.1 * a.1 + a.2 * a.2

/-- Six times the volume between the plane and the lifted triangle. -/
def lifted (a b c : K × K) : K := orient a b c * (lift a + lift b + lift c)

lemma orient_rotate (a b c : K × K) : orient b c a = orient a b c := by
  simp only [orient]
  ring

lemma orient_swap (a b c : K × K) : orient b a c = -orient a b c := by
  simp only [orient]
  ring

lemma orient_split (a b c v : K × K) :
    orient v b c + orient a v c + orient a b v = orient a b c := by
  simp only [orient]
  ring

lemma inCircle_rotate (a b c d : K × K) : inCircle b c a d = inCircle a b c d := by
  simp only [inCircle, dist2]
  ring

/-- Both triangles at an edge give the edge the same determinant. -/
lemma inCircle_across (x y z w : K × K) : inCircle w z y x = inCircle x y z w := by
  simp only [inCircle, dist2]
  ring

/-- The other diagonal of the quadrilateral has the opposite determinant. -/
lemma inCircle_flip (x y z w : K × K) : inCircle x y w z = -inCircle x y z w := by
  simp only [inCircle, dist2]
  ring

lemma lifted_rotate (a b c : K × K) : lifted b c a = lifted a b c := by
  rw [lifted, orient_rotate, lifted]
  ring

/-- Exchanging the diagonal of a quadrilateral keeps the total signed area. -/
lemma flip_orient (x y z w : K × K) :
    orient x y w + orient w z x = orient x y z + orient w z y := by
  simp only [orient]
  ring

/-- Exchanging the diagonal lowers the lifted volume by the in-circle determinant. -/
lemma flip_lifted (x y z w : K × K) :
    lifted x y w + lifted w z x = lifted x y z + lifted w z y - inCircle x y z w := by
  simp only [lifted, lift, orient, inCircle, dist2]
  ring

lemma flip_product (x y z w : K × K) :
    inCircle x y z w * orient w z y +
        orient x y z * (orient x y w * dist2 z w + orient w z x * dist2 y w) =
      orient x y w * orient w z x * dist2 y z := by
  simp only [inCircle, orient, dist2]
  ring

lemma flip_sum (x y z w : K × K) :
    inCircle x y z w = orient x y w * dist2 z w + orient w z x * dist2 y w -
      orient w z y * dist2 x w := by
  simp only [inCircle, orient, dist2]
  ring

/-- Against a centre at squared distance `r` from `a`, `b` and `c`, the determinant is the
power of `d` scaled by the orientation. -/
lemma inCircle_of_center {o a b c : K × K} {r : K} (ha : dist2 o a = r) (hb : dist2 o b = r)
    (hc : dist2 o c = r) (d : K × K) : inCircle a b c d = orient a b c * (r - dist2 o d) := by
  have hab : dist2 o a - dist2 o b = 0 := by rw [ha, hb, sub_self]
  have hac : dist2 o a - dist2 o c = 0 := by rw [ha, hc, sub_self]
  rw [← ha]
  simp only [dist2] at hab hac
  simp only [inCircle, orient, dist2]
  linear_combination ((c.2 - d.2) * (a.1 - d.1) - (c.1 - d.1) * (a.2 - d.2)) * hab -
    ((b.2 - d.2) * (a.1 - d.1) - (b.1 - d.1) * (a.2 - d.2)) * hac

lemma exists_linear_solution {k11 k12 k21 k22 : K} (h : k11 * k22 - k12 * k21 ≠ 0) (d1 d2 : K) :
    ∃ p q, p * k11 + q * k12 = d1 ∧ p * k21 + q * k22 = d2 := by
  refine ⟨(d1 * k22 - d2 * k12) / (k11 * k22 - k12 * k21),
    (d2 * k11 - d1 * k21) / (k11 * k22 - k12 * k21), ?_, ?_⟩
  · rw [div_mul_eq_mul_div, div_mul_eq_mul_div, ← add_div, div_eq_iff h]
    ring
  · rw [div_mul_eq_mul_div, div_mul_eq_mul_div, ← add_div, div_eq_iff h]
    ring

/-- The point `d` lies strictly inside the circle through `a`, `b` and `c`. -/
def InsideCircumcircle [LT K] (a b c d : K × K) : Prop :=
  ∃ o, dist2 o a = dist2 o b ∧ dist2 o b = dist2 o c ∧ dist2 o d < dist2 o a

section Polygon

def cross (a b : K × K) : K := a.1 * b.2 - a.2 * b.1

/-- The shoelace sum along a path that ends in `last`. -/
def path2 (last : K × K) : List (K × K) → K
  | [] => 0
  | [a] => cross a last
  | a :: b :: rest => cross a b + path2 last (b :: rest)

/-- Twice the signed area of a polygon. -/
def polygon2 : List (K × K) → K
  | [] => 0
  | a :: rest => path2 a (a :: rest)

lemma path2_append (v a : K × K) (pts : List (K × K)) :
    path2 v (pts ++ [a]) = path2 a pts + cross a v := by
  induction pts with
  | nil => simp [path2]
  | cons b pts ih =>
    cases pts with
    | nil => simp [path2]
    | cons c pts =>
      have h : path2 v (b :: c :: pts ++ [a]) = cross b c + path2 v (c :: pts ++ [a]) := rfl
      rw [h, ih, path2, add_assoc]

/-- The area does not depend on where the polygon starts. -/
lemma polygon2_turn (a : K × K) (pts : List (K × K)) :
    polygon2 (pts ++ [a]) = polygon2 (a :: pts) := by
  cases pts with
  | nil => rfl
  | cons b pts =>
    have h : polygon2 (b :: pts ++ [a]) = path2 b (b :: pts ++ [a]) := rfl
    rw [h, path2_append, polygon2, path2, add_comm]

/-- Cutting off a corner takes away the area of its triangle. -/
lemma polygon2_cut (a b c : K × K) (pts : List (K × K)) :
    polygon2 (a :: b :: c :: pts) = orient a b c + polygon2 (a :: c :: pts) := by
  simp only [polygon2, path2, orient, cross]
  ring

lemma polygon2_pair (a b : K × K) : polygon2 [a, b] = 0 := by
  simp only [polygon2, path2, cross]
  ring

end Polygon

section Ordered

variable [LinearOrder K] [IsStrictOrderedRing K]

lemma dist2_nonneg (a b : K × K) : 0 ≤ dist2 a b :=
  add_nonneg (mul_self_nonneg _) (mul_self_nonneg _)

lemma dist2_pos {a b : K × K} (h : a ≠ b) : 0 < dist2 a b := by
  rcases (dist2_nonneg a b).lt_or_eq with hp | hz
  · exact hp
  · have h1 := mul_self_nonneg (a.1 - b.1)
    have h2 := mul_self_nonneg (a.2 - b.2)
    simp only [dist2] at hz
    have e1 : a.1 - b.1 = 0 := mul_self_eq_zero.mp (by linarith)
    have e2 : a.2 - b.2 = 0 := mul_self_eq_zero.mp (by linarith)
    exact absurd (Prod.ext (sub_eq_zero.mp e1) (sub_eq_zero.mp e2)) h

/-- Two positive triangles at an edge whose determinant is not negative form a strictly
convex quadrilateral, so the other diagonal also cuts it into positive triangles. -/
theorem flip_convex {x y z w : K × K} (h1 : 0 < orient x y z) (h2 : 0 < orient w z y)
    (hin : 0 ≤ inCircle x y z w) : 0 < orient x y w ∧ 0 < orient w z x := by
  have hxw : x ≠ w := by
    rintro rfl
    have hs : orient x z y = -orient x y z := by simp only [orient]; ring
    linarith
  have hd := dist2_pos hxw
  have hsum := flip_sum x y z w
  have hprod := flip_product x y z w
  have hyz := dist2_nonneg y z
  have hpos : 0 < orient x y w * dist2 z w + orient w z x * dist2 y w := by
    have := mul_pos h2 hd
    linarith
  have hmul : 0 < orient x y w * orient w z x * dist2 y z := by
    rw [← hprod]
    exact add_pos_of_nonneg_of_pos (mul_nonneg hin h2.le) (mul_pos h1 hpos)
  have hboth : 0 < orient x y w * orient w z x := pos_of_mul_pos_left hmul hyz
  rcases pos_and_pos_or_neg_and_neg_of_mul_pos hboth with h | h
  · exact h
  · have := flip_orient x y z w
    linarith [h.1, h.2]

/-- A spoke from an interior point is never flippable. -/
theorem spoke_inCircle {a b c v : K × K} (ha : 0 < orient v b c) (hb : 0 < orient a v c)
    (hc : 0 < orient a b v) : inCircle b c v a < 0 := by
  by_contra hn
  have hbcv : 0 < orient b c v := by rwa [orient_rotate v b c]
  have hq := (flip_convex hbcv hb (not_lt.mp hn)).2
  have hs : orient a v b = -orient a b v := by simp only [orient]; ring
  linarith

/-- Every proper triangle has a circumcentre. -/
theorem exists_center {a b c : K × K} (h : orient a b c ≠ 0) :
    ∃ o, dist2 o a = dist2 o b ∧ dist2 o b = dist2 o c := by
  have hdet : 2 * (a.1 - b.1) * (2 * (a.2 - c.2)) - 2 * (a.2 - b.2) * (2 * (a.1 - c.1)) ≠ 0 := by
    have he : 2 * (a.1 - b.1) * (2 * (a.2 - c.2)) - 2 * (a.2 - b.2) * (2 * (a.1 - c.1)) =
        4 * orient a b c := by
      simp only [orient]
      ring
    rw [he]
    exact mul_ne_zero four_ne_zero h
  obtain ⟨p, q, e1, e2⟩ := exists_linear_solution hdet (lift a - lift b) (lift a - lift c)
  simp only [lift] at e1 e2
  have h1 : dist2 (p, q) a = dist2 (p, q) b := by
    simp only [dist2]
    linear_combination -e1
  have h2 : dist2 (p, q) a = dist2 (p, q) c := by
    simp only [dist2]
    linear_combination -e2
  exact ⟨(p, q), h1, h1.symm.trans h2⟩

/-- On a positive triangle the sign of the determinant decides the circumcircle. -/
theorem insideCircumcircle_iff {a b c : K × K} (h : 0 < orient a b c) (d : K × K) :
    InsideCircumcircle a b c d ↔ 0 < inCircle a b c d := by
  constructor
  · rintro ⟨o, hab, hbc, hd⟩
    rw [inCircle_of_center (r := dist2 o a) rfl hab.symm (hab.trans hbc).symm]
    exact mul_pos h (sub_pos.mpr hd)
  · intro hpos
    obtain ⟨o, hab, hbc⟩ := exists_center h.ne'
    rw [inCircle_of_center (r := dist2 o a) rfl hab.symm (hab.trans hbc).symm] at hpos
    exact ⟨o, hab, hbc, sub_pos.mp (pos_of_mul_pos_right hpos h.le)⟩

/-- On four points of one circle, the determinant of a fifth point is its power scaled by the
orientation of whichever three of them are asked. -/
theorem inCircle_power {x y z w : K × K} (h : orient x y z ≠ 0) (hw : inCircle x y z w = 0)
    (e : K × K) : ∃ power : K, ∀ a b c, (a = x ∨ a = y ∨ a = z ∨ a = w) →
      (b = x ∨ b = y ∨ b = z ∨ b = w) → (c = x ∨ c = y ∨ c = z ∨ c = w) →
        inCircle a b c e = orient a b c * power := by
  obtain ⟨o, hxy, hyz⟩ := exists_center h
  have hcircle := inCircle_of_center (r := dist2 o x) rfl hxy.symm (hxy.trans hyz).symm
  rw [hcircle w, mul_eq_zero, sub_eq_zero, or_iff_right h] at hw
  have hon : ∀ p, p = x ∨ p = y ∨ p = z ∨ p = w → dist2 o p = dist2 o x := by
    rintro p (rfl | rfl | rfl | rfl)
    · rfl
    · exact hxy.symm
    · exact (hxy.trans hyz).symm
    · exact hw.symm
  exact ⟨dist2 o x - dist2 o e, fun a b c ha hb hc =>
    inCircle_of_center (hon a ha) (hon b hb) (hon c hc) e⟩

end Ordered

end PlaneGeometry
