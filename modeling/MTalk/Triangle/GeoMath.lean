import MTalk.Library.PlaneGeometry

/-!
# Vectors and predicates of `geomath`

`GVector` and the parts of `GeoMath` that the net, the contours and the surface use, over an
arbitrary ordered field in place of `double`. The constants `1e-10` and `1e-8` are those of
the source.
-/

namespace MTalk.Triangle

/-! The literals of the source, as named instances. -/

instance neZero_three : NeZero (3 : ℕ) := ⟨by decide⟩

instance atLeastTwo_two : Nat.AtLeastTwo 2 := ⟨by decide⟩

instance atLeastTwo_ten : Nat.AtLeastTwo 10 := ⟨by decide⟩

/-- How a run of the program can fail to return normally. `running` marks a loop or a
recursion that has used up the fuel it was given. -/
inductive Stop where
  | nullPointer
  | indexOutOfBounds
  | running
deriving DecidableEq

/-- The functions of `java.lang.Math` that are not exact on an ordered field. -/
structure JavaMath (K : Type) where
  sqrt : K → K
  atan : K → K

@[ext]
structure GVector (K : Type) where
  x : K
  y : K
  z : K
deriving DecidableEq

/-- The projection to the plane. -/
def GVector.xy {K : Type} (v : GVector K) : K × K := (v.x, v.y)

variable {K : Type} [Field K] [LinearOrder K]

namespace GVector

/-- On which side of the line `v1 v2` the point lies, zero within the tolerance. -/
def directZ (v v1 v2 : GVector K) : ℤ :=
  let dPos := (v.x - v1.x) * (v2.y - v1.y) - (v2.x - v1.x) * (v.y - v1.y)
  if |dPos| < 1 / 10 ^ 10 then 0 else if 0 < dPos then 1 else -1

def scale (v : GVector K) (sc : K) : GVector K := ⟨v.x * sc, v.y * sc, v.z * sc⟩

def distance (math : JavaMath K) (v : GVector K) : K :=
  math.sqrt (v.x * v.x + v.y * v.y + v.z * v.z)

/-- The polar angle as the source approximates it; the zero vector gets `10`. -/
def theta (math : JavaMath K) (v : GVector K) : K :=
  if v.x = 0 then
    if v.y = 0 then 10
    else if 0 < v.y then 3.1415926 / 2 else 3.1415926 * 1.5
  else
    let ang := math.atan (v.y / v.x)
    if 0 ≤ v.y then
      if 0 < v.x then ang else 3.1415926 + ang
    else
      if v.x < 0 then 3.1415926 + ang else 3.1415926 * 2 + ang

end GVector

namespace GeoMath

/-- Components below the tolerance are dropped by `differance`. -/
def snap (d : K) : K := if |d| < 1 / 10 ^ 8 then 0 else d

def differance (v1 v2 : GVector K) : GVector K :=
  ⟨snap (v1.x - v2.x), snap (v1.y - v2.y), snap (v1.z - v2.z)⟩

def add (v1 v2 : GVector K) : GVector K := ⟨v1.x + v2.x, v1.y + v2.y, v1.z + v2.z⟩

def mult (v : GVector K) (s : K) : GVector K := v.scale s

def crossMult (v1 v2 : GVector K) : GVector K :=
  ⟨v1.y * v2.z - v1.z * v2.y, v1.z * v2.x - v1.x * v2.z, v1.x * v2.y - v1.y * v2.x⟩

/-- The product of the two sides that `SameSide` and `SameSide1` compare with zero. -/
def sideProduct (v1 v2 l1 l2 : GVector K) : K :=
  let dx := l2.x - l1.x
  let dy := l2.y - l1.y
  let dx1 := v1.x - l1.x
  let dy1 := v1.y - l1.y
  let dx2 := v2.x - l2.x
  let dy2 := v2.y - l2.y
  (dx * dy1 - dy * dx1) * (dx * dy2 - dy * dx2)

def sameSide (v1 v2 l1 l2 : GVector K) : Bool := decide (0 < sideProduct v1 v2 l1 l2)

def sameSide1 (v1 v2 l1 l2 : GVector K) : Bool := decide (0 ≤ sideProduct v1 v2 l1 l2)

def interSect (v1 v2 l1 l2 : GVector K) : Bool :=
  !sameSide v1 v2 l1 l2 && !sameSide l1 l2 v1 v2

def interSect1 (v1 v2 l1 l2 : GVector K) : Bool :=
  !sameSide1 v1 v2 l1 l2 && !sameSide1 l1 l2 v1 v2

def onLine (v l1 l2 : GVector K) : Bool :=
  let dx := l2.x - l1.x
  let dy := l2.y - l1.y
  let dx1 := v.x - l1.x
  let dy1 := v.y - l1.y
  let a := |dx * dy1 - dy * dx1|
  let b := dx1 * (dx1 - dx)
  let c := dy1 * (dy1 - dy)
  decide (a ≤ 1 / 10 ^ 8) && (decide (b < 0) || decide (c < 0))

/-- Whether the level `z` meets the edge from `l1` to `l2`. -/
def isCross (l1 l2 : GVector K) (z : K) : Bool :=
  if l2.z < l1.z then decide (l2.z ≤ z) && decide (z ≤ l1.z)
  else decide (l1.z ≤ z) && decide (z ≤ l2.z)

/-- The point of the edge at level `z`, computed from its lower end. -/
def getSectLevel (l1 l2 : GVector K) (z : K) : GVector K :=
  let lo := if l2.z < l1.z then l2 else l1
  let hi := if l2.z < l1.z then l1 else l2
  if z = lo.z then lo
  else if z = hi.z then hi
  else
    let k := (z - lo.z) / (hi.z - lo.z)
    ⟨k * (hi.x - lo.x) + lo.x, k * (hi.y - lo.y) + lo.y, 0⟩

/-- The intersection of the lines `v1 v2` and `l1 l2`. -/
def getSect (v1 v2 l1 l2 : GVector K) : GVector K :=
  let k11 := v2.y - v1.y
  let k12 := -(v2.x - v1.x)
  let d1 := (v2.y - v1.y) * v1.x - (v2.x - v1.x) * v1.y
  let k21 := l2.y - l1.y
  let k22 := -(l2.x - l1.x)
  let d2 := (l2.y - l1.y) * l1.x - (l2.x - l1.x) * l1.y
  ⟨(d1 * k22 - d2 * k12) / (k11 * k22 - k12 * k21),
    (k11 * d2 - k21 * d1) / (k11 * k22 - k12 * k21), 0⟩

end GeoMath

section Ordered

variable [IsStrictOrderedRing K]

open PlaneGeometry

lemma directZ_eq (v v1 v2 : GVector K) : v.directZ v1 v2 =
    if |orient v1.xy v2.xy v.xy| < 1 / 10 ^ 10 then 0
    else if orient v1.xy v2.xy v.xy < 0 then 1 else -1 := by
  have h : (v.x - v1.x) * (v2.y - v1.y) - (v2.x - v1.x) * (v.y - v1.y) =
      -orient v1.xy v2.xy v.xy := by
    simp only [orient, GVector.xy]
    ring
  simp only [GVector.directZ, h, abs_neg, neg_pos]

lemma directZ_neg {v v1 v2 : GVector K} (h : v.directZ v1 v2 < 0) :
    0 < orient v1.xy v2.xy v.xy := by
  rw [directZ_eq] at h
  split_ifs at h with h1 h2
  · simp at h
  · simp at h
  · rcases (not_lt.mp h2).lt_or_eq with hp | hz
    · exact hp
    · rw [← hz, abs_zero] at h1
      exact absurd (by positivity) h1

lemma directZ_pos {v v1 v2 : GVector K} (h : 0 < v.directZ v1 v2) :
    orient v1.xy v2.xy v.xy < 0 := by
  rw [directZ_eq] at h
  split_ifs at h with h1 h2
  · simp at h
  · exact h2
  · simp at h

end Ordered

end MTalk.Triangle
