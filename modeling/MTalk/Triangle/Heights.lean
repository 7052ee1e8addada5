import MTalk.Triangle.PointLocation

/-!
# Heights on the surface

`MyMath.Height` gives the height of a point of a trigon, by `GeoMath._Height` on the trigon scaled
to unit size. A point on the first or the second side is interpolated by `x` alone, so that on a
vertical side it gets the height of the side's first end.
-/

namespace MTalk.Triangle

variable {K : Type} [Field K] [LinearOrder K]

namespace GeoMath

def dotMult (v1 v2 : GVector K) : K := v1.x * v2.x + v1.y * v2.y + v1.z * v2.z

def toonear (v : GVector K) (x y : K) : Bool :=
  decide (|v.x - x| < 1 / 10 ^ 8) && decide (|v.y - y| < 1 / 10 ^ 8)

/-- `GetSectZ`: the point of the line at `x`; the `x` of an interpolated point is left zero. -/
def getSectZ (l1 l2 : GVector K) (x : K) : GVector K :=
  let lo := if l2.x < l1.x then l2 else l1
  let hi := if l2.x < l1.x then l1 else l2
  if x = lo.x then lo
  else if x = hi.x then hi
  else
    let k := (x - lo.x) / (hi.x - lo.x)
    ⟨0, k * (hi.y - lo.y) + lo.y, k * (hi.z - lo.z) + lo.z⟩

/-- `_Height`; the third side is tested with `v3` as both ends. -/
def height (v1 v2 v3 : GVector K) (x y : K) : K :=
  if toonear v1 x y then v1.z
  else if toonear v2 x y then v2.z
  else if toonear v3 x y then v3.z
  else
    let v : GVector K := ⟨x, y, 0⟩
    if onLine v v1 v2 then (getSectZ v1 v2 x).z
    else if onLine v v2 v3 then (getSectZ v2 v3 x).z
    else if onLine v v3 v3 then (getSectZ v3 v3 x).z
    else
      let n := crossMult (differance v3 v1) (differance v2 v1)
      if n.z = 0 then (v1.z + v2.z + v3.z) / 3
      else (dotMult n v1 - (n.x * x + n.y * y)) / n.z

end GeoMath

/-- `Trigon.dim`. -/
def dim (vex : Fin 3 → Vertex K) : K :=
  let dx := maxx vex - minx vex
  let dy := maxy vex - miny vex
  if dy < dx then dx else dy

namespace MyMath

/-- A vertex of the trigon, moved to the origin and scaled. -/
def scaled (vex : Fin 3 → Vertex K) (i : Fin 3) : GVector K :=
  ⟨((vex i).coord.x - minx vex) * (1 / dim vex), ((vex i).coord.y - miny vex) * (1 / dim vex),
    (vex i).coord.z⟩

/-- `MyMath.Height` on a trigon. -/
def height (vex : Fin 3 → Vertex K) (vertex : Vertex K) : K :=
  let x := (vertex.coord.x - minx vex) * (1 / dim vex)
  let y := (vertex.coord.y - miny vex) * (1 / dim vex)
  let z := GeoMath.height (scaled vex 0) (scaled vex 1) (scaled vex 2) x y
  let z := if maxz vex < z then maxz vex else z
  if z < minz vex then minz vex else z

end MyMath

section Queries

variable [FloorRing K]

/-- `GetTrigonH`: the first trigon of the vertex's cell that has it inside or on its border. -/
def Net.getTrigonH (s : Net K) (vertex : Vertex K) : Option TrigonRef :=
  let r := s.listp.cellx vertex.coord.x
  let c := s.listp.celly vertex.coord.y
  if s.listp.InRange r c then (s.cells r c).find? fun p => -3 ≤ vexPosition (s.vex p) vertex
  else none

/-- `BasicOperation.GetHeight`. -/
def Net.getHeight (s : Net K) (vertex : Vertex K) : K :=
  match s.getTrigonH vertex with
  | none => -100000
  | some pt => MyMath.height (s.vex pt) vertex

end Queries

open PlaneGeometry

/-! The plane through the vertices. -/

/-- The barycentric coordinates of a point. -/
def weight (vex : Fin 3 → Vertex K) (p : K × K) (i : Fin 3) : K :=
  orient p (vex (i + 1)).xy (vex (i + 2)).xy / area2 vex

/-- The point lies on the plane through the three vertices. -/
def OnPlane (vex : Fin 3 → Vertex K) (q : GVector K) : Prop :=
  let u := (vex 1).coord
  let v := (vex 2).coord
  let o := (vex 0).coord
  ((u.y - o.y) * (v.z - o.z) - (u.z - o.z) * (v.y - o.y)) * (q.x - o.x)
    + ((u.z - o.z) * (v.x - o.x) - (u.x - o.x) * (v.z - o.z)) * (q.y - o.y)
    + ((u.x - o.x) * (v.y - o.y) - (u.y - o.y) * (v.x - o.x)) * (q.z - o.z) = 0

instance (vex : Fin 3 → Vertex K) (q : GVector K) : Decidable (OnPlane vex q) :=
  inferInstanceAs (Decidable (_ = _))

/-- The value of the plane at the point, by its weights. -/
def planeHeight (vex : Fin 3 → Vertex K) (p : K × K) : K :=
  weight vex p 0 * (vex 0).coord.z + weight vex p 1 * (vex 1).coord.z
    + weight vex p 2 * (vex 2).coord.z

omit [LinearOrder K] in
lemma area2_mul_planeHeight {vex : Fin 3 → Vertex K} (harea : area2 vex ≠ 0) (p : K × K) :
    area2 vex * planeHeight vex p = orient p (vex 1).xy (vex 2).xy * (vex 0).coord.z
      + orient p (vex 2).xy (vex 0).xy * (vex 1).coord.z
      + orient p (vex 0).xy (vex 1).xy * (vex 2).coord.z := by
  change area2 vex * (orient p (vex 1).xy (vex 2).xy / area2 vex * (vex 0).coord.z
    + orient p (vex 2).xy (vex 0).xy / area2 vex * (vex 1).coord.z
    + orient p (vex 0).xy (vex 1).xy / area2 vex * (vex 2).coord.z) = _
  field_simp

omit [LinearOrder K] in
lemma onPlane_iff {vex : Fin 3 → Vertex K} (harea : area2 vex ≠ 0) (q : GVector K) :
    OnPlane vex q ↔ q.z = planeHeight vex q.xy := by
  have hsplit : area2 vex * (q.z - planeHeight vex q.xy)
      = (((vex 1).coord.y - (vex 0).coord.y) * ((vex 2).coord.z - (vex 0).coord.z)
          - ((vex 1).coord.z - (vex 0).coord.z) * ((vex 2).coord.y - (vex 0).coord.y))
            * (q.x - (vex 0).coord.x)
        + (((vex 1).coord.z - (vex 0).coord.z) * ((vex 2).coord.x - (vex 0).coord.x)
          - ((vex 1).coord.x - (vex 0).coord.x) * ((vex 2).coord.z - (vex 0).coord.z))
            * (q.y - (vex 0).coord.y)
        + (((vex 1).coord.x - (vex 0).coord.x) * ((vex 2).coord.y - (vex 0).coord.y)
          - ((vex 1).coord.y - (vex 0).coord.y) * ((vex 2).coord.x - (vex 0).coord.x))
            * (q.z - (vex 0).coord.z) := by
    rw [mul_sub, area2_mul_planeHeight harea]
    simp only [area2, orient, Vertex.xy, GVector.xy]
    ring
  rw [OnPlane, ← hsplit, mul_eq_zero, or_iff_right harea, sub_eq_zero]

/-! Points of a triangle by their weights. -/

/-- The point `x`, `y` of the triangle `a b c` with its weights. -/
structure Located (a b c : GVector K) (α β γ x y : K) : Prop where
  area : orient a.xy b.xy c.xy ≠ 0
  sum : α + β + γ = 1
  left : 0 ≤ α
  mid : 0 ≤ β
  right : 0 ≤ γ
  hx : x = α * a.x + β * b.x + γ * c.x
  hy : y = α * a.y + β * b.y + γ * c.y

/-- Zero or above the tolerance. -/
def Coarse (d : K) : Prop := |d| ≤ 1 / 10 ^ 8 → d = 0

/-- The part of a height difference that `differance` drops. -/
def dropped (d : K) : K := d - GeoMath.snap d

/-- What the tolerances do not hide. -/
structure Tellable (a b c : GVector K) (x y : K) : Prop where
  near : ∀ v ∈ [a, b, c], Coarse (v.x - x) ∧ Coarse (v.y - y)
  sides : ∀ v ∈ [b, c], Coarse (v.x - a.x) ∧ Coarse (v.y - a.y)
  first : Coarse (orient a.xy b.xy (x, y))
  second : Coarse (orient b.xy c.xy (x, y))

section Ordered

variable [IsStrictOrderedRing K] {a b c : GVector K} {α β γ x y : K}

namespace GeoMath

lemma toonear_iff (hx : Coarse (a.x - x)) (hy : Coarse (a.y - y)) :
    toonear a x y = true ↔ a.x = x ∧ a.y = y := by
  simp only [toonear, Bool.and_eq_true, decide_eq_true_eq]
  constructor
  · rintro ⟨h, h'⟩
    exact ⟨sub_eq_zero.mp (hx h.le), sub_eq_zero.mp (hy h'.le)⟩
  · rintro ⟨rfl, rfl⟩
    simp

omit [IsStrictOrderedRing K] in
lemma snap_of_coarse {d : K} (h : Coarse d) : snap d = d := by
  unfold snap
  split_ifs with hsmall
  · exact (h hsmall.le).symm
  · rfl

lemma onLine_iff (h : Coarse (orient a.xy b.xy (x, y))) : onLine ⟨x, y, 0⟩ a b = true ↔
    orient a.xy b.xy (x, y) = 0 ∧ ((x - a.x) * (x - b.x) < 0 ∨ (y - a.y) * (y - b.y) < 0) := by
  have hsmall : |orient a.xy b.xy (x, y)| ≤ 1 / 10 ^ 8 ↔ orient a.xy b.xy (x, y) = 0 := by
    refine ⟨h, fun hzero => ?_⟩
    rw [hzero, abs_zero]
    positivity
  have hb : (x - a.x) * (x - a.x - (b.x - a.x)) = (x - a.x) * (x - b.x) := by ring
  have hc : (y - a.y) * (y - a.y - (b.y - a.y)) = (y - a.y) * (y - b.y) := by ring
  simp only [onLine, Bool.and_eq_true, Bool.or_eq_true, decide_eq_true_eq, hb, hc]
  exact and_congr_left' hsmall

omit [IsStrictOrderedRing K] in
/-- On a vertical line every point gets the height of the first end. -/
lemma getSectZ_vertical (h : a.x = b.x) : (getSectZ a b a.x).z = a.z := by
  simp [getSectZ, h]

lemma getSectZ_slanted (h : a.x ≠ b.x) (hsum : α + β = 1) :
    (getSectZ a b (α * a.x + β * b.x)).z = α * a.z + β * b.z := by
  have hne : b.x - a.x ≠ 0 := sub_ne_zero.mpr h.symm
  have hne' : a.x - b.x ≠ 0 := sub_ne_zero.mpr h
  obtain rfl : α = 1 - β := by linear_combination hsum
  have hstart : (1 - β) * a.x + β * b.x = a.x ↔ β = 0 := by
    have heq : (1 - β) * a.x + β * b.x - a.x = β * (b.x - a.x) := by ring
    rw [← sub_eq_zero, heq, mul_eq_zero, or_iff_left hne]
  have hend : (1 - β) * a.x + β * b.x = b.x ↔ β = 1 := by
    have heq : (1 - β) * a.x + β * b.x - b.x = (1 - β) * (a.x - b.x) := by ring
    rw [← sub_eq_zero, heq, mul_eq_zero, or_iff_left hne', sub_eq_zero, eq_comm]
  unfold getSectZ
  dsimp only
  split_ifs with hswap h₁ h₂ h₁ h₂
  · rw [hend.mp h₁]
    ring
  · rw [hstart.mp h₂]
    ring
  · field_simp
    ring
  · rw [hstart.mp h₁]
    ring
  · rw [hend.mp h₂]
    ring
  · field_simp
    ring

end GeoMath

namespace Located

omit [IsStrictOrderedRing K] in
lemma of_sum (h : Located a b c α β γ x y) : α = 1 - β - γ := by
  linear_combination h.sum

omit [IsStrictOrderedRing K] in
lemma rotate (h : Located a b c α β γ x y) : Located b c a β γ α x y where
  area := by
    rw [orient_rotate]
    exact h.area
  sum := by linear_combination h.sum
  left := h.mid
  mid := h.right
  right := h.left
  hx := by linear_combination h.hx
  hy := by linear_combination h.hy

omit [IsStrictOrderedRing K] in
lemma orient_eq (h : Located a b c α β γ x y) :
    orient a.xy b.xy (x, y) = γ * orient a.xy b.xy c.xy := by
  have hα := h.of_sum
  rw [h.hx, h.hy, hα]
  simp only [orient, GVector.xy]
  ring

omit [IsStrictOrderedRing K] in
/-- The ends of a side differ. -/
lemma ne (h : Located a b c α β γ x y) : a.x ≠ b.x ∨ a.y ≠ b.y := by
  by_contra hsame
  rw [not_or, not_not, not_not] at hsame
  apply h.area
  simp only [orient, GVector.xy, hsame.1, hsame.2]
  ring

/-- The point is at a vertex when the other weights are zero. -/
lemma at_left_iff (h : Located a b c α β γ x y) : a.x = x ∧ a.y = y ↔ β = 0 ∧ γ = 0 := by
  constructor
  · rintro ⟨rfl, rfl⟩
    have hγ := h.orient_eq
    have hβ := h.rotate.rotate.orient_eq
    have harea : orient c.xy a.xy b.xy ≠ 0 := h.rotate.rotate.area
    have hzero : orient a.xy b.xy (a.x, a.y) = 0 := by
      simp only [orient, GVector.xy]
      ring
    have hzero' : orient c.xy a.xy (a.x, a.y) = 0 := by
      simp only [orient, GVector.xy]
      ring
    rw [hzero, eq_comm, mul_eq_zero] at hγ
    rw [hzero', eq_comm, mul_eq_zero] at hβ
    exact ⟨hβ.resolve_right harea, hγ.resolve_right h.area⟩
  · rintro ⟨hβ, hγ⟩
    have hα := h.of_sum
    rw [hβ, hγ] at hα
    constructor
    · rw [h.hx, hα, hβ, hγ]
      ring
    · rw [h.hy, hα, hβ, hγ]
      ring

/-- The point is found on a side when it lies strictly inside it. -/
lemma onLine_iff (h : Located a b c α β γ x y) (hcoarse : Coarse (orient a.xy b.xy (x, y))) :
    GeoMath.onLine ⟨x, y, 0⟩ a b = true ↔ γ = 0 ∧ 0 < α ∧ 0 < β := by
  rw [GeoMath.onLine_iff hcoarse, h.orient_eq, mul_eq_zero, or_iff_left h.area]
  refine and_congr_right fun hγ => ?_
  have hα := h.of_sum
  have hdx : (x - a.x) * (x - b.x) = -(α * β * ((b.x - a.x) * (b.x - a.x))) := by
    rw [h.hx, hα, hγ]
    ring
  have hdy : (y - a.y) * (y - b.y) = -(α * β * ((b.y - a.y) * (b.y - a.y))) := by
    rw [h.hy, hα, hγ]
    ring
  rw [hdx, hdy, neg_lt_zero, neg_lt_zero]
  constructor
  · intro hpos
    have hαβ : α * β ≠ 0 := by
      intro hzero
      rw [hzero, zero_mul, zero_mul] at hpos
      rcases hpos with h | h <;> exact h.false
    exact ⟨h.left.lt_of_ne (left_ne_zero_of_mul hαβ).symm,
      h.mid.lt_of_ne (right_ne_zero_of_mul hαβ).symm⟩
  · rintro ⟨hα₀, hβ₀⟩
    have hαβ := mul_pos hα₀ hβ₀
    rcases h.ne with hne | hne
    · exact .inl (mul_pos hαβ (mul_self_pos.mpr (sub_ne_zero.mpr hne.symm)))
    · exact .inr (mul_pos hαβ (mul_self_pos.mpr (sub_ne_zero.mpr hne.symm)))

omit [IsStrictOrderedRing K] in
/-- The formula for the interior, with the differences that `differance` leaves. -/
lemma plane_eq (h : Located a b c α β γ x y) (ht : Tellable a b c x y) :
    let n := GeoMath.crossMult (GeoMath.differance c a) (GeoMath.differance b a)
    n.z ≠ 0 ∧ (GeoMath.dotMult n a - (n.x * x + n.y * y)) / n.z
      = a.z + β * GeoMath.snap (b.z - a.z) + γ * GeoMath.snap (c.z - a.z) := by
  have hb := ht.sides b (by simp)
  have hc := ht.sides c (by simp)
  have hα := h.of_sum
  simp only [GeoMath.crossMult, GeoMath.differance, GeoMath.snap_of_coarse hb.1,
    GeoMath.snap_of_coarse hb.2, GeoMath.snap_of_coarse hc.1, GeoMath.snap_of_coarse hc.2]
  have hn : (c.x - a.x) * (b.y - a.y) - (c.y - a.y) * (b.x - a.x) ≠ 0 := by
    have hneg : (c.x - a.x) * (b.y - a.y) - (c.y - a.y) * (b.x - a.x)
        = -orient a.xy b.xy c.xy := by
      simp only [orient, GVector.xy]
      ring
    rw [hneg]
    exact neg_ne_zero.mpr h.area
  refine ⟨hn, ?_⟩
  rw [div_eq_iff hn, GeoMath.dotMult, h.hx, h.hy, hα]
  ring

/-- What `_Height` gives at each place of the triangle. -/
lemma height_cases (h : Located a b c α β γ x y) (ht : Tellable a b c x y) :
    (GeoMath.height a b c x y = α * a.z + β * b.z + γ * c.z ∧ ¬ (0 < α ∧ 0 < γ)
        ∧ ¬ (0 < α ∧ 0 < β ∧ a.x = b.x) ∧ ¬ (0 < β ∧ 0 < γ ∧ b.x = c.x))
      ∨ (γ = 0 ∧ 0 < α ∧ 0 < β ∧ a.x = b.x ∧ GeoMath.height a b c x y = a.z)
      ∨ (α = 0 ∧ 0 < β ∧ 0 < γ ∧ b.x = c.x ∧ GeoMath.height a b c x y = b.z)
      ∨ (0 < α ∧ 0 < γ ∧ GeoMath.height a b c x y
          = a.z + β * GeoMath.snap (b.z - a.z) + γ * GeoMath.snap (c.z - a.z)) := by
  have hsum := h.sum
  have hnear : ∀ v ∈ [a, b, c], GeoMath.toonear v x y = true ↔ v.x = x ∧ v.y = y :=
    fun v hv => GeoMath.toonear_iff (ht.near v hv).1 (ht.near v hv).2
  have ha := (hnear a (by simp)).trans h.at_left_iff
  have hb := (hnear b (by simp)).trans h.rotate.at_left_iff
  have hc := (hnear c (by simp)).trans h.rotate.rotate.at_left_iff
  have hab := h.onLine_iff ht.first
  have hbc := h.rotate.onLine_iff ht.second
  have hcc : GeoMath.onLine ⟨x, y, 0⟩ c c = false := by
    simp [GeoMath.onLine, mul_self_nonneg]
  unfold GeoMath.height
  dsimp only
  split_ifs with h₁ h₂ h₃ h₄ h₅ h₆ h₇
  · obtain ⟨hβ, hγ⟩ := ha.mp h₁
    refine .inl ⟨?_, by simp [hγ], by simp [hβ], by simp [hβ]⟩
    rw [h.of_sum, hβ, hγ]
    ring
  · obtain ⟨hγ, hα⟩ := hb.mp h₂
    refine .inl ⟨?_, by simp [hγ], by simp [hα], by simp [hγ]⟩
    rw [h.rotate.of_sum, hα, hγ]
    ring
  · obtain ⟨hα, hβ⟩ := hc.mp h₃
    refine .inl ⟨?_, by simp [hα], by simp [hα], by simp [hβ]⟩
    rw [h.rotate.rotate.of_sum, hα, hβ]
    ring
  · obtain ⟨hγ, hα₀, hβ₀⟩ := hab.mp h₄
    have hx : x = α * a.x + β * b.x := by rw [h.hx, hγ, zero_mul, add_zero]
    by_cases hvert : a.x = b.x
    · have hstart : x = a.x := by
        rw [hx, ← hvert, ← add_mul]
        rw [hγ, add_zero] at hsum
        rw [hsum, one_mul]
      rw [hstart]
      exact .inr (.inl ⟨hγ, hα₀, hβ₀, hvert, GeoMath.getSectZ_vertical hvert⟩)
    · refine .inl ⟨?_, by simp [hγ], by simp [hvert], by simp [hγ]⟩
      rw [hx, GeoMath.getSectZ_slanted hvert (by rw [← hsum, hγ, add_zero]), hγ, zero_mul, add_zero]
  · obtain ⟨hα, hβ₀, hγ₀⟩ := hbc.mp h₅
    have hx : x = β * b.x + γ * c.x := by rw [h.hx, hα, zero_mul, zero_add]
    by_cases hvert : b.x = c.x
    · have hstart : x = b.x := by
        rw [hx, ← hvert, ← add_mul]
        rw [hα, zero_add] at hsum
        rw [hsum, one_mul]
      rw [hstart]
      exact .inr (.inr (.inl ⟨hα, hβ₀, hγ₀, hvert, GeoMath.getSectZ_vertical hvert⟩))
    · refine .inl ⟨?_, by simp [hα], by simp [hα], by simp [hvert]⟩
      rw [hx, GeoMath.getSectZ_slanted hvert (by rw [← hsum, hα, zero_add]), hα, zero_mul, zero_add]
  · rw [hcc] at h₆
    cases h₆
  · exact absurd h₇ (h.plane_eq ht).1
  · have hpos : ∀ {w : K}, 0 ≤ w → w ≠ 0 → 0 < w := fun hw hne => hw.lt_of_ne hne.symm
    have hγ₀ : γ ≠ 0 := by
      intro hγ
      have hβ : β ≠ 0 := fun hβ => h₁ (ha.mpr ⟨hβ, hγ⟩)
      have hα : α ≠ 0 := fun hα => h₂ (hb.mpr ⟨hγ, hα⟩)
      exact h₄ (hab.mpr ⟨hγ, hpos h.left hα, hpos h.mid hβ⟩)
    have hα₀ : α ≠ 0 := by
      intro hα
      have hβ : β ≠ 0 := fun hβ => h₃ (hc.mpr ⟨hα, hβ⟩)
      exact h₅ (hbc.mpr ⟨hα, hpos h.mid hβ, hpos h.right hγ₀⟩)
    exact .inr (.inr (.inr ⟨hpos h.left hα₀, hpos h.right hγ₀, (h.plane_eq ht).2⟩))

/-- The height is on the plane except inside a vertical first or second side with ends of different
heights, and where the dropped parts of the differences do not cancel. -/
lemma height_eq_iff (h : Located a b c α β γ x y) (ht : Tellable a b c x y) :
    GeoMath.height a b c x y = α * a.z + β * b.z + γ * c.z ↔
      (γ = 0 → 0 < α → 0 < β → a.x = b.x → a.z = b.z)
        ∧ (α = 0 → 0 < β → 0 < γ → b.x = c.x → b.z = c.z)
        ∧ (0 < α → 0 < γ → β * dropped (b.z - a.z) + γ * dropped (c.z - a.z) = 0) := by
  rcases h.height_cases ht with ⟨heq, hin, hfirst, hsecond⟩ | ⟨hγ, hα₀, hβ₀, hvert, heq⟩
      | ⟨hα, hβ₀, hγ₀, hvert, heq⟩ | ⟨hα₀, hγ₀, heq⟩
  · rw [heq]
    refine iff_of_true rfl ⟨fun _ hα₀ hβ₀ hvert => absurd ⟨hα₀, hβ₀, hvert⟩ hfirst,
      fun _ hβ₀ hγ₀ hvert => absurd ⟨hβ₀, hγ₀, hvert⟩ hsecond,
      fun hα₀ hγ₀ => absurd ⟨hα₀, hγ₀⟩ hin⟩
  · have hdiff : α * a.z + β * b.z + γ * c.z - a.z = β * (b.z - a.z) := by
      rw [h.of_sum, hγ]
      ring
    rw [heq, eq_comm, ← sub_eq_zero, hdiff, mul_eq_zero, or_iff_right hβ₀.ne', sub_eq_zero]
    simp [hγ, hα₀, hβ₀, hvert, hα₀.ne', eq_comm]
  · have hdiff : α * a.z + β * b.z + γ * c.z - b.z = γ * (c.z - b.z) := by
      rw [h.rotate.of_sum, hα]
      ring
    rw [heq, eq_comm, ← sub_eq_zero, hdiff, mul_eq_zero, or_iff_right hγ₀.ne', sub_eq_zero]
    simp [hα, hγ₀, hβ₀, hvert, hγ₀.ne', eq_comm]
  · have hdiff : α * a.z + β * b.z + γ * c.z
        - (a.z + β * GeoMath.snap (b.z - a.z) + γ * GeoMath.snap (c.z - a.z))
        = β * dropped (b.z - a.z) + γ * dropped (c.z - a.z) := by
      rw [h.of_sum, dropped, dropped]
      ring
    rw [heq, eq_comm, ← sub_eq_zero, hdiff]
    simp [hα₀, hγ₀, hα₀.ne', hγ₀.ne']

/-- The height stays between the heights of the vertices. -/
lemma height_mem (h : Located a b c α β γ x y) (ht : Tellable a b c x y) {lo hi : K}
    (hz : ∀ v ∈ [a, b, c], lo ≤ v.z ∧ v.z ≤ hi) :
    lo ≤ GeoMath.height a b c x y ∧ GeoMath.height a b c x y ≤ hi := by
  have ha := hz a (by simp)
  have hb := hz b (by simp)
  have hc := hz c (by simp)
  have hmean : ∀ u v w : K, lo ≤ u ∧ u ≤ hi → lo ≤ v ∧ v ≤ hi → lo ≤ w ∧ w ≤ hi →
      lo ≤ α * u + β * v + γ * w ∧ α * u + β * v + γ * w ≤ hi := by
    intro u v w hu hv hw
    have hlo : α * lo + β * lo + γ * lo = lo := by rw [← add_mul, ← add_mul, h.sum, one_mul]
    have hhi : α * hi + β * hi + γ * hi = hi := by rw [← add_mul, ← add_mul, h.sum, one_mul]
    have hl := h.left
    have hm := h.mid
    have hr := h.right
    constructor
    · rw [← hlo]
      gcongr
      exacts [hu.1, hv.1, hw.1]
    · rw [← hhi]
      gcongr
      exacts [hu.2, hv.2, hw.2]
  rcases h.height_cases ht with ⟨heq, -⟩ | ⟨-, -, -, -, heq⟩ | ⟨-, -, -, -, heq⟩ | ⟨-, -, heq⟩
  · rw [heq]
    exact hmean _ _ _ ha hb hc
  · rw [heq]
    exact ha
  · rw [heq]
    exact hb
  · have hsnap : ∀ v : GVector K, lo ≤ v.z ∧ v.z ≤ hi →
        lo ≤ a.z + GeoMath.snap (v.z - a.z) ∧ a.z + GeoMath.snap (v.z - a.z) ≤ hi := by
      intro v hv
      unfold GeoMath.snap
      split_ifs
      · rw [add_zero]
        exact ha
      · rw [add_sub_cancel]
        exact hv
    have hsplit : GeoMath.height a b c x y = α * a.z + β * (a.z + GeoMath.snap (b.z - a.z))
        + γ * (a.z + GeoMath.snap (c.z - a.z)) := by
      rw [heq, h.of_sum]
      ring
    rw [hsplit]
    exact hmean _ _ _ ha (hsnap b hb) (hsnap c hc)

end Located

/-! Trigons with integer vertices. -/

/-- The coordinates of the vertex in the plane are integers. -/
def Vertex.IsInteger (v : Vertex K) : Prop := ∃ m n : ℤ, v.coord.x = m ∧ v.coord.y = n

/-- A trigon with integer vertices, an area and an extent below `10 ^ 4`. -/
structure Plotted (vex : Fin 3 → Vertex K) : Prop where
  integer : ∀ i, (vex i).IsInteger
  area : area2 vex ≠ 0
  width : maxx vex - minx vex < 10 ^ 4
  height : maxy vex - miny vex < 10 ^ 4

/-- The point of the closed triangle. -/
def Within (vex : Fin 3 → Vertex K) (p : K × K) : Prop := ∀ i, 0 ≤ weight vex p i

variable {vex : Fin 3 → Vertex K} {vertex : Vertex K}

omit [LinearOrder K] [IsStrictOrderedRing K] in
lemma weight_sum (harea : area2 vex ≠ 0) (p : K × K) :
    weight vex p 0 + weight vex p 1 + weight vex p 2 = 1 := by
  change orient p (vex 1).xy (vex 2).xy / area2 vex + orient p (vex 2).xy (vex 0).xy / area2 vex
    + orient p (vex 0).xy (vex 1).xy / area2 vex = 1
  rw [← add_div, ← add_div, div_eq_one_iff_eq harea]
  simp only [area2, orient]
  ring

omit [LinearOrder K] [IsStrictOrderedRing K] in
lemma weight_xy (harea : area2 vex ≠ 0) (p : K × K) :
    p.1 = weight vex p 0 * (vex 0).coord.x + weight vex p 1 * (vex 1).coord.x
        + weight vex p 2 * (vex 2).coord.x
      ∧ p.2 = weight vex p 0 * (vex 0).coord.y + weight vex p 1 * (vex 1).coord.y
        + weight vex p 2 * (vex 2).coord.y := by
  have hweight : ∀ f : Fin 3 → K, weight vex p 0 * f 0 + weight vex p 1 * f 1 + weight vex p 2 * f 2
      = (orient p (vex 1).xy (vex 2).xy * f 0 + orient p (vex 2).xy (vex 0).xy * f 1
        + orient p (vex 0).xy (vex 1).xy * f 2) / area2 vex := by
    intro f
    change orient p (vex 1).xy (vex 2).xy / area2 vex * f 0
      + orient p (vex 2).xy (vex 0).xy / area2 vex * f 1
      + orient p (vex 0).xy (vex 1).xy / area2 vex * f 2 = _
    ring
  have hx := hweight fun i => (vex i).coord.x
  have hy := hweight fun i => (vex i).coord.y
  rw [hx, hy, eq_div_iff harea, eq_div_iff harea]
  simp only [area2, orient, Vertex.xy, GVector.xy]
  constructor
  · ring
  · ring

lemma dim_pos (harea : area2 vex ≠ 0) : 0 < dim vex := by
  by_contra hdim
  have hwidth : maxx vex ≤ minx vex ∧ maxy vex ≤ miny vex := by
    unfold dim at hdim
    dsimp only at hdim
    split_ifs at hdim with h
    · exact ⟨by linarith, by linarith⟩
    · exact ⟨by linarith, by linarith⟩
  have hx : ∀ i, (vex i).coord.x = minx vex := fun i =>
    ((le_largest (fun i => (vex i).coord.x) i).trans hwidth.1).antisymm
      (smallest_le (fun i => (vex i).coord.x) i)
  have hy : ∀ i, (vex i).coord.y = miny vex := fun i =>
    ((le_largest (fun i => (vex i).coord.y) i).trans hwidth.2).antisymm
      (smallest_le (fun i => (vex i).coord.y) i)
  apply harea
  simp only [area2, orient, Vertex.xy, GVector.xy, hx, hy]
  ring

omit [IsStrictOrderedRing K] in
lemma Plotted.dim_lt (h : Plotted vex) : dim vex < 10 ^ 4 := by
  unfold dim
  dsimp only
  split_ifs
  · exact h.width
  · exact h.height

lemma coarse_mul {r : K} (hr : 1 / 10 ^ 8 < r) (n : ℤ) : Coarse ((n : K) * r) := by
  intro hsmall
  by_contra hne
  have hn : n ≠ 0 := by
    rintro rfl
    simp at hne
  have hone : (1 : K) ≤ |(n : K)| := by
    rw [← Int.cast_abs]
    exact_mod_cast Int.one_le_abs hn
  have hr₀ : 0 < r := lt_trans (by positivity) hr
  rw [abs_mul, abs_of_pos hr₀] at hsmall
  have hle : r ≤ |(n : K)| * r := le_mul_of_one_le_left hr₀.le hone
  exact (hr.trans_le (hle.trans hsmall)).false

/-- A point moved and scaled like the trigon. -/
def scaledPoint (vex : Fin 3 → Vertex K) (p : K × K) : K × K :=
  ((p.1 - minx vex) * (1 / dim vex), (p.2 - miny vex) * (1 / dim vex))

omit [IsStrictOrderedRing K] in
lemma orient_scaledPoint (vex : Fin 3 → Vertex K) (p q s : K × K) :
    orient (scaledPoint vex p) (scaledPoint vex q) (scaledPoint vex s)
      = orient p q s * (1 / dim vex * (1 / dim vex)) := by
  simp only [orient, scaledPoint]
  ring

lemma scaled_located (harea : area2 vex ≠ 0) (hin : Within vex vertex.xy) :
    Located (MyMath.scaled vex 0) (MyMath.scaled vex 1) (MyMath.scaled vex 2)
      (weight vex vertex.xy 0) (weight vex vertex.xy 1) (weight vex vertex.xy 2)
      ((vertex.coord.x - minx vex) * (1 / dim vex))
      ((vertex.coord.y - miny vex) * (1 / dim vex)) where
  area := by
    have hr : 1 / dim vex ≠ 0 := (one_div_pos.mpr (dim_pos harea)).ne'
    change orient (scaledPoint vex (vex 0).xy) (scaledPoint vex (vex 1).xy)
      (scaledPoint vex (vex 2).xy) ≠ 0
    rw [orient_scaledPoint]
    exact mul_ne_zero harea (mul_ne_zero hr hr)
  sum := weight_sum harea _
  left := hin 0
  mid := hin 1
  right := hin 2
  hx := by
    have hsum := weight_sum harea vertex.xy
    have hx := (weight_xy harea vertex.xy).1
    change vertex.coord.x = _ at hx
    simp only [MyMath.scaled]
    linear_combination (1 / dim vex) * hx + (1 / dim vex) * minx vex * hsum
  hy := by
    have hsum := weight_sum harea vertex.xy
    have hy := (weight_xy harea vertex.xy).2
    change vertex.coord.y = _ at hy
    simp only [MyMath.scaled]
    linear_combination (1 / dim vex) * hy + (1 / dim vex) * miny vex * hsum

lemma scaled_tellable (h : Plotted vex) (hint : vertex.IsInteger) :
    Tellable (MyMath.scaled vex 0) (MyMath.scaled vex 1) (MyMath.scaled vex 2)
      ((vertex.coord.x - minx vex) * (1 / dim vex))
      ((vertex.coord.y - miny vex) * (1 / dim vex)) := by
  have hdim := dim_pos h.area
  have hr : 1 / 10 ^ 4 < 1 / dim vex := one_div_lt_one_div_of_lt hdim h.dim_lt
  have hr₁ : 1 / 10 ^ 8 < 1 / dim vex := by
    refine lt_trans ?_ hr
    norm_num
  have hr₂ : 1 / 10 ^ 8 < 1 / dim vex * (1 / dim vex) := by
    have hsq : (1 : K) / 10 ^ 8 = 1 / 10 ^ 4 * (1 / 10 ^ 4) := by norm_num
    rw [hsq]
    exact mul_lt_mul'' hr hr (by positivity) (by positivity)
  have hdiff : ∀ x y x₀ : K, (∃ m : ℤ, x = m) → (∃ m : ℤ, y = m) →
      Coarse ((x - x₀) * (1 / dim vex) - (y - x₀) * (1 / dim vex)) := by
    rintro _ _ x₀ ⟨m, rfl⟩ ⟨n, rfl⟩
    have heq : ((m : K) - x₀) * (1 / dim vex) - ((n : K) - x₀) * (1 / dim vex)
        = ((m - n : ℤ) : K) * (1 / dim vex) := by
      push_cast
      ring
    rw [heq]
    exact coarse_mul hr₁ _
  have hline : ∀ v w : Vertex K, v.IsInteger → w.IsInteger →
      Coarse (orient v.xy w.xy vertex.xy * (1 / dim vex * (1 / dim vex))) := by
    rintro v w ⟨m₁, n₁, hm₁, hn₁⟩ ⟨m₂, n₂, hm₂, hn₂⟩
    obtain ⟨m, n, hm, hn⟩ := hint
    have heq : orient v.xy w.xy vertex.xy
        = (((m₂ - m₁) * (n - n₁) - (n₂ - n₁) * (m - m₁) : ℤ) : K) := by
      simp only [orient, Vertex.xy, GVector.xy, hm₁, hn₁, hm₂, hn₂, hm, hn]
      push_cast
      ring
    rw [heq]
    exact coarse_mul hr₂ _
  have hx : ∀ v : Vertex K, v.IsInteger → ∃ m : ℤ, v.coord.x = m :=
    fun v hv => hv.elim fun m hm => hm.elim fun n hn => ⟨m, hn.1⟩
  have hy : ∀ v : Vertex K, v.IsInteger → ∃ m : ℤ, v.coord.y = m :=
    fun v hv => hv.elim fun m hm => hm.elim fun n hn => ⟨n, hn.2⟩
  have hpoint : ∀ i, Coarse ((MyMath.scaled vex i).x - (vertex.coord.x - minx vex) * (1 / dim vex))
      ∧ Coarse ((MyMath.scaled vex i).y - (vertex.coord.y - miny vex) * (1 / dim vex)) :=
    fun i => ⟨hdiff _ _ _ (hx _ (h.integer i)) (hx _ hint),
      hdiff _ _ _ (hy _ (h.integer i)) (hy _ hint)⟩
  have hside : ∀ i, Coarse ((MyMath.scaled vex i).x - (MyMath.scaled vex 0).x)
      ∧ Coarse ((MyMath.scaled vex i).y - (MyMath.scaled vex 0).y) :=
    fun i => ⟨hdiff _ _ _ (hx _ (h.integer i)) (hx _ (h.integer 0)),
      hdiff _ _ _ (hy _ (h.integer i)) (hy _ (h.integer 0))⟩
  constructor
  · simp only [List.forall_mem_cons]
    exact ⟨hpoint 0, hpoint 1, hpoint 2, by simp⟩
  · simp only [List.forall_mem_cons]
    exact ⟨hside 1, hside 2, by simp⟩
  · change Coarse (orient (scaledPoint vex (vex 0).xy) (scaledPoint vex (vex 1).xy)
      (scaledPoint vex vertex.xy))
    rw [orient_scaledPoint]
    exact hline _ _ (h.integer 0) (h.integer 1)
  · change Coarse (orient (scaledPoint vex (vex 1).xy) (scaledPoint vex (vex 2).xy)
      (scaledPoint vex vertex.xy))
    rw [orient_scaledPoint]
    exact hline _ _ (h.integer 1) (h.integer 2)

/-- The clamping to the heights of the vertices changes nothing. -/
lemma myMath_height_eq (h : Plotted vex) (hint : vertex.IsInteger) (hin : Within vex vertex.xy) :
    MyMath.height vex vertex = GeoMath.height (MyMath.scaled vex 0) (MyMath.scaled vex 1)
      (MyMath.scaled vex 2) ((vertex.coord.x - minx vex) * (1 / dim vex))
      ((vertex.coord.y - miny vex) * (1 / dim vex)) := by
  have hz : ∀ v ∈ [MyMath.scaled vex 0, MyMath.scaled vex 1, MyMath.scaled vex 2],
      minz vex ≤ v.z ∧ v.z ≤ maxz vex := by
    have hmem : ∀ i, minz vex ≤ (MyMath.scaled vex i).z ∧ (MyMath.scaled vex i).z ≤ maxz vex :=
      fun i => ⟨smallest_le (fun i => (vex i).coord.z) i, le_largest (fun i => (vex i).coord.z) i⟩
    simp only [List.forall_mem_cons]
    exact ⟨hmem 0, hmem 1, hmem 2, by simp⟩
  have hmem := (scaled_located h.area hin).height_mem (scaled_tellable h hint) hz
  unfold MyMath.height
  dsimp only
  rw [if_neg hmem.2.not_gt, if_neg hmem.1.not_gt]

/-- The point is strictly inside a vertical side whose ends have different heights. -/
def OnSteepSide (vex : Fin 3 → Vertex K) (p : K × K) (i : Fin 3) : Prop :=
  weight vex p (i + 2) = 0 ∧ 0 < weight vex p i ∧ 0 < weight vex p (i + 1)
    ∧ (vex i).coord.x = (vex (i + 1)).coord.x ∧ (vex i).coord.z ≠ (vex (i + 1)).coord.z

/-- What the tolerance takes from the height, which is nothing unless two heights differ by less
than `1e-8`. -/
def droppedHeight (vex : Fin 3 → Vertex K) (p : K × K) : K :=
  weight vex p 1 * dropped ((vex 1).coord.z - (vex 0).coord.z)
    + weight vex p 2 * dropped ((vex 2).coord.z - (vex 0).coord.z)

/-- Neither inside a steep first or second side nor, off these sides, with a dropped height. -/
def Interpolable (vex : Fin 3 → Vertex K) (p : K × K) : Prop :=
  ¬ OnSteepSide vex p 0 ∧ ¬ OnSteepSide vex p 1
    ∧ (0 < weight vex p 0 → 0 < weight vex p 2 → droppedHeight vex p = 0)

lemma height_onPlane_iff (h : Plotted vex) (hint : vertex.IsInteger)
    (hin : Within vex vertex.xy) :
    OnPlane vex ⟨vertex.coord.x, vertex.coord.y, MyMath.height vex vertex⟩ ↔
      Interpolable vex vertex.xy := by
  have hlocated := scaled_located h.area hin
  have hscaled : ∀ i j : Fin 3, (MyMath.scaled vex i).x = (MyMath.scaled vex j).x ↔
      (vex i).coord.x = (vex j).coord.x := by
    intro i j
    have hr : 1 / dim vex ≠ 0 := (one_div_pos.mpr (dim_pos h.area)).ne'
    simp only [MyMath.scaled]
    rw [mul_left_inj' hr, sub_left_inj]
  rw [onPlane_iff h.area, myMath_height_eq h hint hin]
  refine (hlocated.height_eq_iff (scaled_tellable h hint)).trans ?_
  rw [hscaled, hscaled]
  have hsteep : ∀ i j k : Fin 3, i + 1 = j → i + 2 = k →
      ((weight vex vertex.xy k = 0 → 0 < weight vex vertex.xy i → 0 < weight vex vertex.xy j →
        (vex i).coord.x = (vex j).coord.x → (vex i).coord.z = (vex j).coord.z) ↔
          ¬ OnSteepSide vex vertex.xy i) := by
    rintro i _ _ rfl rfl
    rw [OnSteepSide]
    tauto
  exact and_congr (hsteep 0 1 2 rfl rfl) (and_congr_left' (hsteep 1 2 0 rfl rfl))

/-- The height of an integer point of a trigon, by `MyMath.Height` and by `GetHeight` where the
query finds this trigon, is the one of the plane exactly when the point is interpolable. -/
theorem heights_onPlane_iff [FloorRing K] (s : Net K) (t : TrigonRef) (vertex : Vertex K)
    (h : Plotted (s.vex t)) (hint : vertex.IsInteger) (hin : Within (s.vex t) vertex.xy) :
    (OnPlane (s.vex t) ⟨vertex.coord.x, vertex.coord.y, MyMath.height (s.vex t) vertex⟩ ↔
        Interpolable (s.vex t) vertex.xy)
      ∧ (s.getTrigonH vertex = some t →
        (OnPlane (s.vex t) ⟨vertex.coord.x, vertex.coord.y, s.getHeight vertex⟩ ↔
          Interpolable (s.vex t) vertex.xy)) := by
  refine ⟨height_onPlane_iff h hint hin, fun hfound => ?_⟩
  rw [Net.getHeight, hfound]
  exact height_onPlane_iff h hint hin

end Ordered

/-- A trigon whose first side rises from `0` to `2` above one line. -/
def steepFirst (i : Fin 3) : Vertex ℚ :=
  ![⟨0, 0, ⟨0, 0, 0⟩⟩, ⟨1, 1, ⟨0, 2, 2⟩⟩, ⟨2, 2, ⟨2, 0, 0⟩⟩] i

lemma steepFirst_plotted : Plotted steepFirst where
  integer := by
    intro i
    fin_cases i
    · exact ⟨0, 0, by decide +kernel⟩
    · exact ⟨0, 2, by decide +kernel⟩
    · exact ⟨2, 0, by decide +kernel⟩
  area := by decide +kernel
  width := by decide +kernel
  height := by decide +kernel

/-- The middle of the steep side gets the height of its lower end. -/
theorem steep_middle_is_low : Plotted steepFirst ∧ Within steepFirst (0, 1)
    ∧ ¬ OnPlane steepFirst ⟨0, 1, MyMath.height steepFirst ⟨3, 3, ⟨0, 1, 0⟩⟩⟩ := by
  refine ⟨steepFirst_plotted, ?_, by decide +kernel⟩
  intro i
  fin_cases i <;> decide +kernel

/-- A net of that trigon. -/
def steepNet : Net ℚ :=
  QueryList.start QueryList.rootOfFour QueryList.squareExtent fun _ => steepFirst

/-- The middle of the third side. -/
theorem heights_onPlane_iff_steepNet :
    (OnPlane steepFirst ⟨1, 0, MyMath.height steepFirst ⟨3, 3, ⟨1, 0, 0⟩⟩⟩ ↔
        Interpolable steepFirst (1, 0))
      ∧ (steepNet.getTrigonH ⟨3, 3, ⟨1, 0, 0⟩⟩ = some 0 →
        (OnPlane steepFirst ⟨1, 0, steepNet.getHeight ⟨3, 3, ⟨1, 0, 0⟩⟩⟩ ↔
          Interpolable steepFirst (1, 0))) := by
  refine heights_onPlane_iff steepNet 0 ⟨3, 3, ⟨1, 0, 0⟩⟩ steepFirst_plotted
    ⟨1, 0, by decide +kernel⟩ ?_
  intro i
  fin_cases i <;> decide +kernel

end MTalk.Triangle
