import MTalk.Library.SimplePolygons
import MTalk.Triangle.GeoMath

/-!
# Points inside a polygon

`GeoMath.InsidePolygon` counts the edges that `InterSect` finds on the segment from the point to a
far point. `InterSect` holds for edges that touch the segment too, and for every edge on its line.
So an edge is counted although it does not cross the ray when it only comes up to the ray from the
right, and when it is on the line; the further tests for vertices on the ray add nothing.
-/

namespace MTalk.Triangle

open PlaneGeometry PolygonWinding

variable {K : Type} [Field K] [LinearOrder K]

namespace GeoMath

/-- The contribution of the edge `p1 p2` to the count of `InsidePolygon`; `p3` and `p4` are the
vertices that follow. -/
def insideCrossing (point faraway p1 p2 p3 p4 : GVector K) : Bool :=
  let b1 := interSect point faraway p1 p2
  let b2 := onLine p2 point faraway
  let b3 := onLine p3 point faraway
  let b4 := sameSide p1 p3 point faraway
  let b5 := onLine p3 point faraway
  let b6 := sameSide p1 p4 point faraway
  let b7 := !b3 && !b4
  let b8 := b5 && !b6
  b1 || (b2 && (b7 || b8))

/-- The far point of `InsidePolygon`. -/
def faraway : GVector K := ⟨1000000, 0, 0⟩

def insidePolygon (poly : List (GVector K)) (point : GVector K) : Bool :=
  let size := poly.length
  let elementAt := fun i => poly.getD (i % size) ⟨0, 0, 0⟩
  let c := (List.range size).countP fun i => insideCrossing point faraway
    (elementAt i) (elementAt (i + 1)) (elementAt (i + 2)) (elementAt (i + 3))
  c % 2 ≠ 0

end GeoMath

/-- The vertices of a polygon in the plane, counted round and round. -/
def corner (poly : List (GVector K)) (i : ℕ) : K × K := (poly.getD (i % poly.length) ⟨0, 0, 0⟩).xy

omit [Field K] [LinearOrder K] in
lemma corner_periodic [Field K] (poly : List (GVector K)) (i : ℕ) :
    corner poly (i + poly.length) = corner poly i := by
  rw [corner, Nat.add_mod_right, corner]

/-- Integer coordinates below a million. -/
structure GridPoint (v : GVector K) : Prop where
  integer : ∃ a b : ℤ, v.x = a ∧ v.y = b
  small : |v.x| < 10 ^ 6 ∧ |v.y| < 10 ^ 6

/-- Integer or half-integer coordinates. -/
def HalfPoint (v : GVector K) : Prop := ∃ a b : ℤ, 2 * v.x = a ∧ 2 * v.y = b

/-- An edge, as seen from the point, that is counted on a segment without crossing the ray: it is on
the line, or it comes up to the segment from the right. -/
def Miscounted (d a b : K × K) : Prop :=
  cross d a = 0 ∧ cross d b = 0 ∨ a ∈ openSegment K 0 d ∧ cross d b < 0
    ∨ b ∈ openSegment K 0 d ∧ cross d a < 0

section Parity

/-- The parity of a count whose predicate is the exclusive or of two others. -/
lemma odd_card_filter {ι : Type*} (s : Finset ι) {P Q R : ι → Prop} [DecidablePred P]
    [DecidablePred Q] [DecidablePred R] (h : ∀ i ∈ s, P i ↔ (Q i ↔ ¬ R i)) :
    Odd (s.filter P).card ↔ (Odd (s.filter Q).card ↔ ¬ Odd (s.filter R).card) := by
  classical
  induction s using Finset.induction_on with
  | empty => simp
  | insert a s ha ih =>
    have hrest := ih fun i hi => h i (Finset.mem_insert_of_mem hi)
    have hfirst := h a (Finset.mem_insert_self a s)
    have hcount : ∀ (T : ι → Prop) [DecidablePred T],
        Odd ((insert a s).filter T).card ↔ (Odd (s.filter T).card ↔ ¬ T a) := by
      intro T _
      rw [Finset.filter_insert]
      by_cases hT : T a
      · rw [if_pos hT, Finset.card_insert_of_notMem (by simp [ha]), Nat.odd_add_one]
        simp [hT]
      · rw [if_neg hT]
        simp [hT]
    have hlogic : ∀ q r x y : Prop,
        ((x ↔ ¬ y) ↔ ¬ (q ↔ ¬ r)) ↔ ((x ↔ ¬ q) ↔ ¬ (y ↔ ¬ r)) := by
      intro q r x y
      by_cases q <;> by_cases r <;> by_cases x <;> by_cases y <;> simp_all
    rw [hcount P, hcount Q, hcount R, hrest, hfirst]
    exact hlogic _ _ _ _

lemma countP_range_eq_card (n : ℕ) (f : ℕ → Bool) :
    (List.range n).countP f = ((Finset.range n).filter fun i => f i = true).card := by
  induction n with
  | zero => rfl
  | succ n ih =>
    rw [List.range_succ, List.countP_append, ih, Finset.range_add_one, Finset.filter_insert]
    by_cases hn : f n = true
    · rw [if_pos hn, Finset.card_insert_of_notMem (by simp)]
      simp [hn]
    · rw [if_neg hn]
      simp [hn]

end Parity

section OneEdge

variable [IsStrictOrderedRing K]

/-- Whether an edge touches the segment from the origin, or is on its line. -/
def Touches (d a b : K × K) : Prop :=
  cross d a * cross d b ≤ 0 ∧ cross a b * (cross a b - (cross d b - cross d a)) ≤ 0

omit [IsStrictOrderedRing K] in
lemma touches_comm (d a b : K × K) : Touches d a b ↔ Touches d b a := by
  unfold Touches
  rw [cross_swap a b, mul_comm (cross d a)]
  have hsame : -cross a b * (-cross a b - (cross d a - cross d b))
      = cross a b * (cross a b - (cross d b - cross d a)) := by ring
  rw [hsame]

omit [LinearOrder K] [IsStrictOrderedRing K] in
lemma GeoMath.sideProduct_eq (v1 v2 l1 l2 : GVector K) : sideProduct v1 v2 l1 l2
    = cross (l2.xy - l1.xy) (v1.xy - l1.xy) * cross (l2.xy - l1.xy) (v2.xy - l1.xy) := by
  simp only [sideProduct, cross, GVector.xy, Prod.fst_sub, Prod.snd_sub]
  ring

omit [IsStrictOrderedRing K] in
/-- `InterSect` of a segment and an edge. -/
lemma interSect_iff [IsStrictOrderedRing K] (point far p1 p2 : GVector K) :
    GeoMath.interSect point far p1 p2 = true ↔
      Touches (far.xy - point.xy) (p1.xy - point.xy) (p2.xy - point.xy) := by
  have hedge : cross (p2.xy - p1.xy) (point.xy - p1.xy)
      = cross (p1.xy - point.xy) (p2.xy - point.xy) := by
    simp only [cross, Prod.fst_sub, Prod.snd_sub]
    ring
  have hfar : cross (p2.xy - p1.xy) (far.xy - p1.xy)
      = cross (p1.xy - point.xy) (p2.xy - point.xy)
        - (cross (far.xy - point.xy) (p2.xy - point.xy)
          - cross (far.xy - point.xy) (p1.xy - point.xy)) := by
    simp only [cross, Prod.fst_sub, Prod.snd_sub]
    ring
  unfold GeoMath.interSect GeoMath.sameSide Touches
  rw [GeoMath.sideProduct_eq, GeoMath.sideProduct_eq, hedge, hfar]
  simp only [Bool.and_eq_true, Bool.not_eq_true', decide_eq_false_iff_not, not_lt]
  exact and_comm

variable {d a b : K × K}

/-- A vertex on the line of the ray. -/
lemma touches_of_level (hd : d ≠ 0) (ha : cross d a = 0) (hnear : (0 : K × K) ∉ segment K a b)
    (hfar : ∀ s : K, 1 ≤ s → s • d ∉ segment K a b) (hb : cross d b ≠ 0) :
    (Touches d a b ↔ a ∈ openSegment K 0 d) ∧
      (rayCrossing d a b ≠ 0 ↔ a ∈ openSegment K 0 d ∧ 0 < cross d b) := by
  obtain ⟨s, rfl⟩ := exists_smul_of_cross_eq_zero hd ha
  have hs : s ≠ 0 := by
    rintro rfl
    rw [zero_smul] at hnear
    exact hnear (left_mem_segment K _ _)
  have hs' : s < 1 := by
    by_contra hle
    exact hfar s (not_lt.mp hle) (left_mem_segment K _ _)
  have hmem : s • d ∈ openSegment K 0 d ↔ 0 < s := by
    constructor
    · rintro ⟨u, v, hu, hv, huv, hpoint⟩
      rw [smul_zero, zero_add, ← sub_eq_zero, ← sub_smul, smul_eq_zero, or_iff_left hd] at hpoint
      linarith
    · intro hpos
      exact ⟨1 - s, s, by linarith, hpos, by ring, by rw [smul_zero, zero_add]⟩
  have hone : 0 < 1 - s := by linarith
  constructor
  · unfold Touches
    rw [ha, smul_cross, zero_mul, sub_zero, hmem]
    have hprod : s * cross d b * (s * cross d b - cross d b)
        = -(s * ((1 - s) * (cross d b * cross d b))) := by ring
    have hsquare : 0 < (1 - s) * (cross d b * cross d b) :=
      mul_pos hone (mul_self_pos.mpr hb)
    rw [hprod, neg_nonpos]
    constructor
    · rintro ⟨-, hnonneg⟩
      exact lt_of_le_of_ne (nonneg_of_mul_nonneg_left hnonneg hsquare) hs.symm
    · intro hpos
      exact ⟨le_rfl, (mul_pos hpos hsquare).le⟩
  · rw [hmem, rayCrossing, ha, smul_cross]
    by_cases hpos : 0 < cross d b
    · simp [hpos, mul_pos_iff_of_pos_right hpos]
    · simp [hpos]

omit [IsStrictOrderedRing K] in
lemma cross_of_mem_openSegment (h : a ∈ openSegment K 0 d) : cross d a = 0 := by
  obtain ⟨u, v, -, -, -, rfl⟩ := h
  rw [smul_zero, zero_add, cross_smul, PolygonWinding.cross_self, mul_zero]

/-- Where the line meets an edge with its ends on both sides of it. -/
lemma sides_bounds (ha : cross d a < 0) (hb : 0 < cross d b)
    (hnear : (0 : K × K) ∉ segment K a b) (hfar : ∀ s : K, 1 ≤ s → s • d ∉ segment K a b) :
    cross a b ≠ 0 ∧ cross a b < cross d b - cross d a
      ∧ (rayCrossing d a b ≠ 0 ↔ 0 < cross a b) := by
  have hpos : 0 < cross d b - cross d a := by linarith
  have hpoint := crossing_mem_segment ha.le hb.le (ha.trans hb)
  have hX : cross a b ≠ 0 := by
    intro hzero
    rw [hzero, zero_div, zero_smul] at hpoint
    exact hnear hpoint
  have hX' : cross a b < cross d b - cross d a := by
    by_contra hle
    apply hfar _ _ hpoint
    rw [le_div_iff₀ hpos, one_mul]
    exact not_lt.mp hle
  have hcrossed : rayCrossing d a b ≠ 0 ↔ 0 < cross a b := by
    rw [rayCrossing]
    by_cases hside : 0 < cross a b
    · simp [ha.le, hb, hside]
    · simp [hb.not_ge, hside]
  exact ⟨hX, hX', hcrossed⟩

/-- An edge with its ends on both sides of the line. -/
lemma touches_of_sides (ha : cross d a < 0) (hb : 0 < cross d b)
    (hnear : (0 : K × K) ∉ segment K a b) (hfar : ∀ s : K, 1 ≤ s → s • d ∉ segment K a b) :
    Touches d a b ↔ rayCrossing d a b ≠ 0 := by
  obtain ⟨hX, hX', hcrossed⟩ := sides_bounds ha hb hnear hfar
  rw [hcrossed, Touches]
  constructor
  · rintro ⟨-, hprod⟩
    apply lt_of_le_of_ne _ hX.symm
    by_contra hneg
    rw [not_le] at hneg
    have := mul_pos_of_neg_of_neg hneg (by linarith : cross a b - (cross d b - cross d a) < 0)
    linarith
  · intro hside
    exact ⟨(mul_neg_of_neg_of_pos ha hb).le,
      (mul_neg_of_pos_of_neg hside (by linarith)).le⟩

omit [IsStrictOrderedRing K] in
lemma miscounted_comm (d a b : K × K) : Miscounted d a b ↔ Miscounted d b a := by
  unfold Miscounted
  tauto

/-- Which edges are counted: those that cross the ray and those that are miscounted. -/
theorem touches_iff (hd : d ≠ 0) (hnear : (0 : K × K) ∉ segment K a b)
    (hfar : ∀ s : K, 1 ≤ s → s • d ∉ segment K a b) :
    Touches d a b ↔ (rayCrossing d a b ≠ 0 ↔ ¬ Miscounted d a b) := by
  have hlevel : ∀ {a b : K × K}, (0 : K × K) ∉ segment K a b →
      (∀ s : K, 1 ≤ s → s • d ∉ segment K a b) → cross d a = 0 → cross d b ≠ 0 →
      (Touches d a b ↔ (rayCrossing d a b ≠ 0 ↔ ¬ Miscounted d a b)) := by
    intro a b hnear hfar ha hb
    obtain ⟨htouches, hcrossed⟩ := touches_of_level hd ha hnear hfar hb
    have hmis : Miscounted d a b ↔ a ∈ openSegment K 0 d ∧ cross d b < 0 := by
      have hb' : b ∉ openSegment K 0 d := fun hmem => hb (cross_of_mem_openSegment hmem)
      simp [Miscounted, hb, hb']
    rw [htouches, hcrossed, hmis]
    rcases lt_or_gt_of_ne hb with hneg | hpos
    · simp [hneg, hneg.not_gt]
    · simp [hpos, hpos.not_gt]
  have hswap : (Touches d b a ↔ (rayCrossing d b a ≠ 0 ↔ ¬ Miscounted d b a)) →
      (Touches d a b ↔ (rayCrossing d a b ≠ 0 ↔ ¬ Miscounted d a b)) := by
    rw [touches_comm d b a, miscounted_comm d b a, rayCrossing_swap d a b, neg_ne_zero]
    exact id
  have hnear' : (0 : K × K) ∉ segment K b a := by rwa [segment_symm]
  have hfar' : ∀ s : K, 1 ≤ s → s • d ∉ segment K b a := by
    intro s hs
    rw [segment_symm]
    exact hfar s hs
  have hnot : cross d a ≠ 0 → cross d b ≠ 0 → ¬ Miscounted d a b := by
    intro ha hb
    rintro (⟨hzero, -⟩ | ⟨hmem, -⟩ | ⟨hmem, -⟩)
    · exact ha hzero
    · exact ha (cross_of_mem_openSegment hmem)
    · exact hb (cross_of_mem_openSegment hmem)
  rcases lt_trichotomy (cross d a) 0 with ha | ha | ha <;>
    rcases lt_trichotomy (cross d b) 0 with hb | hb | hb
  · have hsame : ¬ Touches d a b := fun h => h.1.not_gt (mul_pos_of_neg_of_neg ha hb)
    have hnone : rayCrossing d a b = 0 := by simp [rayCrossing, ha.not_gt, hb.not_gt]
    simp [hsame, hnone, hnot ha.ne hb.ne]
  · exact hswap (hlevel hnear' hfar' hb ha.ne)
  · rw [touches_of_sides ha hb hnear hfar]
    simp [hnot ha.ne hb.ne']
  · exact hlevel hnear hfar ha hb.ne
  · have hline : cross a b = 0 := by
      obtain ⟨s, rfl⟩ := exists_smul_of_cross_eq_zero hd ha
      rw [smul_cross, hb, mul_zero]
    have htouches : Touches d a b := by simp [Touches, ha, hline]
    have hmis : Miscounted d a b := .inl ⟨ha, hb⟩
    simp [htouches, hmis, rayCrossing, hline]
  · exact hlevel hnear hfar ha hb.ne'
  · apply hswap
    rw [touches_of_sides hb ha hnear' hfar']
    simp [← miscounted_comm d a b, hnot ha.ne' hb.ne]
  · exact hswap (hlevel hnear' hfar' hb ha.ne')
  · have hsame : ¬ Touches d a b := fun h => h.1.not_gt (mul_pos ha hb)
    have hnone : rayCrossing d a b = 0 := by simp [rayCrossing, ha.not_ge, hb.not_ge]
    simp [hsame, hnone, hnot ha.ne' hb.ne']

end OneEdge

section Polygons

variable [IsStrictOrderedRing K]

/-- The product that `OnLine` compares with its tolerance is an exact zero if it is a multiple of a
quarter. -/
lemma onLine_iff {v l1 l2 : GVector K} (hd : l2.xy - l1.xy ≠ 0)
    (hquarter : ∃ k : ℤ, 4 * cross (l2.xy - l1.xy) (v.xy - l1.xy) = k) :
    GeoMath.onLine v l1 l2 = true ↔ v.xy - l1.xy ∈ openSegment K 0 (l2.xy - l1.xy) := by
  have hmodel : GeoMath.onLine v l1 l2 = true ↔
      |cross (l2.xy - l1.xy) (v.xy - l1.xy)| ≤ 1 / 10 ^ 8 ∧
      ((v.xy - l1.xy).1 * ((v.xy - l1.xy).1 - (l2.xy - l1.xy).1) < 0
        ∨ (v.xy - l1.xy).2 * ((v.xy - l1.xy).2 - (l2.xy - l1.xy).2) < 0) := by
    simp [GeoMath.onLine, cross, GVector.xy]
  rw [hmodel]
  generalize v.xy - l1.xy = a at *
  generalize l2.xy - l1.xy = d at *
  constructor
  · rintro ⟨hzero, hinner⟩
    have hexact : cross d a = 0 := by
      obtain ⟨k, hk⟩ := hquarter
      have hsmall : |(k : K)| < 1 := by
        rw [← hk, abs_mul, abs_of_pos (by norm_num : (0 : K) < 4)]
        calc 4 * |cross d a| ≤ 4 * (1 / 10 ^ 8) := by linarith
          _ < 1 := by norm_num
      have hk0 : k = 0 := by
        rw [← Int.cast_abs] at hsmall
        have : |k| < 1 := by exact_mod_cast hsmall
        exact Int.abs_lt_one_iff.mp this
      rw [hk0, Int.cast_zero] at hk
      linarith
    obtain ⟨s, rfl⟩ := exists_smul_of_cross_eq_zero hd hexact
    have hbetween : 0 < s ∧ s < 1 := by
      have hpart : ∀ e : K, s * e * (s * e - e) < 0 → 0 < s ∧ s < 1 := by
        intro e he
        have hprod : s * e * (s * e - e) = -(s * (1 - s) * (e * e)) := by ring
        rw [hprod, neg_lt_zero] at he
        have hpos := pos_of_mul_pos_left he (mul_self_nonneg e)
        rcases pos_and_pos_or_neg_and_neg_of_mul_pos hpos with ⟨h0, h1⟩ | ⟨h0, h1⟩
        · exact ⟨h0, by linarith⟩
        · linarith
      exact hinner.elim (hpart d.1) (hpart d.2)
    exact ⟨1 - s, s, by linarith [hbetween.2], hbetween.1, by ring, by rw [smul_zero, zero_add]⟩
  · rintro ⟨u, s, hu, hs, hus, rfl⟩
    rw [smul_zero, zero_add, cross_smul, PolygonWinding.cross_self, mul_zero, abs_zero]
    refine ⟨by positivity, ?_⟩
    have hpart : ∀ e : K, e ≠ 0 → s * e * (s * e - e) < 0 := by
      intro e he
      have hprod : s * e * (s * e - e) = -(s * (1 - s) * (e * e)) := by ring
      rw [hprod, neg_lt_zero]
      exact mul_pos (mul_pos hs (by linarith)) (mul_self_pos.mpr he)
    by_cases hfirst : d.1 = 0
    · exact .inr (hpart d.2 fun hsecond => hd (Prod.ext hfirst hsecond))
    · exact .inl (hpart d.1 hfirst)

/-- The segment to the far point goes beyond the polygon. -/
lemma notMem_beyond {q far a b : K × K} (hq : q.1 < far.1) (ha : a.1 < far.1) (hb : b.1 < far.1)
    (s : K) (hs : 1 ≤ s) : s • (far - q) ∉ segment K (a - q) (b - q) := by
  rintro ⟨u, v, hu, hv, huv, hpoint⟩
  have hfirst := congrArg Prod.fst hpoint
  simp only [Prod.fst_add, Prod.smul_fst, Prod.fst_sub, smul_eq_mul] at hfirst
  have hbehind : u * (a.1 - q.1) + v * (b.1 - q.1) < far.1 - q.1 := by
    have hright : v * (b.1 - q.1) ≤ v * (far.1 - q.1) :=
      mul_le_mul_of_nonneg_left (by linarith) hv
    rcases hu.eq_or_lt with rfl | hpos
    · obtain rfl : v = 1 := by linarith
      linarith
    · have hleft : u * (a.1 - q.1) < u * (far.1 - q.1) :=
        mul_lt_mul_of_pos_left (by linarith) hpos
      calc u * (a.1 - q.1) + v * (b.1 - q.1) < (u + v) * (far.1 - q.1) := by linarith
        _ = far.1 - q.1 := by rw [huv, one_mul]
  have := mul_le_mul_of_nonneg_right hs (by linarith : 0 ≤ far.1 - q.1)
  linarith

open Classical in
/-- The number of edges of a polygon that `InsidePolygon` counts without a crossing. -/
noncomputable def miscounts (poly : List (GVector K)) (point : GVector K) : ℕ :=
  ((Finset.range poly.length).filter fun i => Miscounted (GeoMath.faraway.xy - point.xy)
    (corner poly i - point.xy) (corner poly (i + 1) - point.xy)).card

variable {poly : List (GVector K)} {point : GVector K}

omit [IsStrictOrderedRing K] in
lemma gridPoint_getD (hgrid : ∀ v ∈ poly, GridPoint v) (hn : 0 < poly.length) (i : ℕ) :
    GridPoint (poly.getD (i % poly.length) ⟨0, 0, 0⟩) := by
  have hi := Nat.mod_lt i hn
  rw [List.getD_eq_getElem _ _ hi]
  exact hgrid _ (List.getElem_mem hi)

lemma GridPoint.xy_lt (h : GridPoint point) : point.xy.1 < (GeoMath.faraway (K := K)).xy.1 := by
  have := (abs_lt.mp h.small.1).2
  norm_num at this
  exact this

omit [LinearOrder K] [IsStrictOrderedRing K] in
/-- Products of half-integers are multiples of a quarter. -/
lemma HalfPoint.quarter {u v w : GVector K} (hu : HalfPoint u) (hv : HalfPoint v)
    (hw : HalfPoint w) : ∃ k : ℤ, 4 * cross (u.xy - w.xy) (v.xy - w.xy) = k := by
  obtain ⟨a, b, ha, hb⟩ := hu
  obtain ⟨c, e, hc, he⟩ := hv
  obtain ⟨f, g, hf, hg⟩ := hw
  refine ⟨(a - f) * (e - g) - (b - g) * (c - f), ?_⟩
  have hscaled : 4 * cross (u.xy - w.xy) (v.xy - w.xy)
      = (2 * u.x - 2 * w.x) * (2 * v.y - 2 * w.y) - (2 * u.y - 2 * w.y) * (2 * v.x - 2 * w.x) := by
    simp only [cross, GVector.xy, Prod.fst_sub, Prod.snd_sub]
    ring
  rw [hscaled, ha, hb, hc, he, hf, hg]
  push_cast
  ring

omit [IsStrictOrderedRing K] in
lemma GridPoint.half {v : GVector K} (h : GridPoint v) : HalfPoint v := by
  obtain ⟨a, b, ha, hb⟩ := h.integer
  exact ⟨2 * a, 2 * b, by rw [ha]; push_cast; ring, by rw [hb]; push_cast; ring⟩

omit [LinearOrder K] [IsStrictOrderedRing K] in
lemma halfPoint_far (a : ℤ) : HalfPoint (⟨(a : K), 0, 0⟩ : GVector K) :=
  ⟨2 * a, 0, by push_cast; ring, by simp⟩

/-- What the loop counts. -/
lemma insideCrossing_iff {p1 p2 p3 p4 : GVector K} (hpoint : GridPoint point)
    (h2 : GridPoint p2) : GeoMath.insideCrossing point GeoMath.faraway p1 p2 p3 p4 = true ↔
      Touches (GeoMath.faraway.xy - point.xy) (p1.xy - point.xy) (p2.xy - point.xy) := by
  rw [← interSect_iff]
  have hd : (GeoMath.faraway : GVector K).xy - point.xy ≠ 0 := by
    intro hzero
    rw [sub_eq_zero] at hzero
    exact hpoint.xy_lt.ne (congrArg Prod.fst hzero).symm
  have hextra : GeoMath.onLine p2 point GeoMath.faraway = true →
      GeoMath.interSect point GeoMath.faraway p1 p2 = true := by
    intro hline
    have hfar : HalfPoint (GeoMath.faraway : GVector K) := by
      have hmillion := halfPoint_far (K := K) 1000000
      push_cast at hmillion
      exact hmillion
    rw [onLine_iff hd (hfar.quarter h2.half hpoint.half)] at hline
    rw [interSect_iff, Touches]
    obtain ⟨u, s, hu, hs, hus, hpoint'⟩ := hline
    rw [smul_zero, zero_add] at hpoint'
    generalize p1.xy - point.xy = a at *
    rw [← hpoint', cross_smul, PolygonWinding.cross_self, mul_zero, mul_zero]
    refine ⟨le_rfl, ?_⟩
    have hprod : cross a (s • ((GeoMath.faraway : GVector K).xy - point.xy)) *
        (cross a (s • ((GeoMath.faraway : GVector K).xy - point.xy))
          - (0 - cross ((GeoMath.faraway : GVector K).xy - point.xy) a))
        = -(s * (1 - s) * (cross ((GeoMath.faraway : GVector K).xy - point.xy) a
          * cross ((GeoMath.faraway : GVector K).xy - point.xy) a)) := by
      rw [cross_smul, cross_swap _ a]
      ring
    rw [hprod, neg_nonpos]
    exact mul_nonneg (mul_nonneg hs.le (by linarith)) (mul_self_nonneg _)
  unfold GeoMath.insideCrossing
  simp only [Bool.or_eq_true, Bool.and_eq_true]
  constructor
  · rintro (hsect | ⟨hline, -⟩)
    · exact hsect
    · exact hextra hline
  · exact .inl

/-- `InsidePolygon` is right exactly when an even number of edges are miscounted. -/
theorem insidePolygon_iff (hgrid : ∀ v ∈ poly, GridPoint v) (hpoint : GridPoint point)
    (hsimple : SimplePolygon poly.length (corner poly))
    (hoff : OffBoundary poly.length (corner poly) point.xy) :
    (GeoMath.insidePolygon poly point = true ↔ Inside poly.length (corner poly) point.xy) ↔
      Even (miscounts poly point) := by
  classical
  have hn : 0 < poly.length := by
    have := hsimple.three_le
    omega
  have hd : (GeoMath.faraway : GVector K).xy - point.xy ≠ 0 := by
    intro hzero
    rw [sub_eq_zero] at hzero
    exact hpoint.xy_lt.ne (congrArg Prod.fst hzero).symm
  have hgridAt := gridPoint_getD hgrid hn
  have hedge : ∀ i ∈ Finset.range poly.length,
      GeoMath.insideCrossing point GeoMath.faraway (poly.getD (i % poly.length) ⟨0, 0, 0⟩)
        (poly.getD ((i + 1) % poly.length) ⟨0, 0, 0⟩)
        (poly.getD ((i + 2) % poly.length) ⟨0, 0, 0⟩)
        (poly.getD ((i + 3) % poly.length) ⟨0, 0, 0⟩) = true ↔
      (rayCrossing (GeoMath.faraway.xy - point.xy) (corner poly i - point.xy)
          (corner poly (i + 1) - point.xy) ≠ 0 ↔
        ¬ Miscounted (GeoMath.faraway.xy - point.xy) (corner poly i - point.xy)
          (corner poly (i + 1) - point.xy)) := by
    intro i hi
    rw [insideCrossing_iff hpoint (hgridAt (i + 1))]
    apply touches_iff hd
    · rw [mem_segment_sub, add_zero]
      have := hoff i (Finset.mem_range.mp hi)
      rwa [Nat.zero_add] at this
    · exact notMem_beyond hpoint.xy_lt (hgridAt i).xy_lt (hgridAt (i + 1)).xy_lt
  have hparity := odd_card_filter (Finset.range poly.length) hedge
  rw [hsimple.inside_iff_odd hoff hd]
  have hcode : GeoMath.insidePolygon poly point = true ↔ Odd ((Finset.range poly.length).filter
      fun i => GeoMath.insideCrossing point GeoMath.faraway
        (poly.getD (i % poly.length) ⟨0, 0, 0⟩) (poly.getD ((i + 1) % poly.length) ⟨0, 0, 0⟩)
        (poly.getD ((i + 2) % poly.length) ⟨0, 0, 0⟩)
        (poly.getD ((i + 3) % poly.length) ⟨0, 0, 0⟩) = true).card := by
    rw [GeoMath.insidePolygon]
    simp only [countP_range_eq_card, decide_eq_true_eq, Nat.odd_iff]
    omega
  rw [hcode, hparity, miscounts, ← Nat.not_odd_iff_even]
  generalize Odd (Finset.card _) = x
  generalize Odd (Finset.card _) = y
  by_cases x <;> by_cases y <;> simp_all

end Polygons

/-- A square that stands on a corner. -/
def diamond : List (GVector ℚ) := [⟨1, 0, 0⟩, ⟨0, 1, 0⟩, ⟨-1, 0, 0⟩, ⟨0, -1, 0⟩]

lemma diamond_grid : ∀ v ∈ diamond, GridPoint v := by
  intro v hv
  simp only [diamond, List.mem_cons, List.not_mem_nil, or_false] at hv
  rcases hv with rfl | rfl | rfl | rfl
  · exact ⟨⟨1, 0, by norm_num, by norm_num⟩, by norm_num, by norm_num⟩
  · exact ⟨⟨0, 1, by norm_num, by norm_num⟩, by norm_num, by norm_num⟩
  · exact ⟨⟨-1, 0, by norm_num, by norm_num⟩, by norm_num, by norm_num⟩
  · exact ⟨⟨0, -1, by norm_num, by norm_num⟩, by norm_num, by norm_num⟩

lemma diamond_simple : SimplePolygon diamond.length (corner diamond) :=
  simplePolygon_of_test (by decide) (corner_periodic diamond) (by decide +kernel)
    (by decide +kernel) (by decide +kernel)

/-- A point on no line of an edge is off the boundary. -/
lemma offBoundary_of_orient [IsStrictOrderedRing K] {n : ℕ} {p : ℕ → K × K} {q : K × K}
    (h : ∀ i < n, orient (p i) (p (i + 1)) q ≠ 0) : OffBoundary n p q := by
  intro i hi hmem
  rw [Nat.zero_add] at hmem
  exact h i hi (orient_eq_zero_of_mem hmem)

/-- The centre of the square: both edges at the right corner are counted. -/
theorem centre_is_outside : (∀ v ∈ diamond, GridPoint v) ∧ GridPoint (⟨0, 0, 0⟩ : GVector ℚ)
    ∧ SimplePolygon diamond.length (corner diamond)
    ∧ OffBoundary diamond.length (corner diamond) (0, 0)
    ∧ Inside diamond.length (corner diamond) (0, 0)
    ∧ GeoMath.insidePolygon diamond ⟨0, 0, 0⟩ = false := by
  refine ⟨diamond_grid, ⟨⟨0, 0, by norm_num, by norm_num⟩, by norm_num, by norm_num⟩,
    diamond_simple, offBoundary_of_orient (by decide +kernel), ?_, by decide +kernel⟩
  unfold Inside
  decide +kernel

/-- The same centre. -/
theorem insidePolygon_iff_diamond : (GeoMath.insidePolygon diamond ⟨0, 0, 0⟩ = true ↔
    Inside diamond.length (corner diamond) (0, 0)) ↔ Even (miscounts diamond ⟨0, 0, 0⟩) :=
  insidePolygon_iff diamond_grid
    ⟨⟨0, 0, by norm_num, by norm_num⟩, by norm_num, by norm_num⟩ diamond_simple
    (offBoundary_of_orient (by decide +kernel))

end MTalk.Triangle
