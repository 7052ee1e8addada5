import MTalk.Triangle.Areas
import MTalk.Triangle.InsidePolygon

/-!
# Cuts by closed lines

`GeoMath.cutPoly` cuts a polygon and a line at their meeting points, marks the parts of the line that
are inside the polygon, and cuts the polygon along them. For a closed line it begins behind the first
part that is not inside, and looks for it beyond the end of the line when there is none.
-/

namespace MTalk.Triangle

open MTalk.GuardedRuns

namespace Cuts

variable {K : Type}

/-- A vector object in a polygon or a line. Where two edges of one straight line are intersected its
plane coordinates are not numbers, and it has no position. -/
structure Node (K : Type) where
  ref : ℕ
  pos : Option (GVector K)
deriving DecidableEq

structure Segment (K : Type) where
  vex : Node K
  sa : List (Node K)

/-- The two lists of segments during `presect`. -/
structure Cut (K : Type) where
  poly : List (Segment K)
  line : List (Segment K)

def elementAt {α : Type} (l : List α) (i : ℕ) : Except Stop α :=
  match l[i]? with
  | some a => .ok a
  | none => .error .indexOutOfBounds

def trans (l : List (Node K)) : List (Segment K) := l.map fun v => ⟨v, []⟩

def reTrans (l : List (Segment K)) : List (Node K) := l.flatMap fun s => s.vex :: s.sa

section Extraction

/-- The locals of the loops that extract the parts with the tag 1. -/
structure Extraction (K : Type) where
  result : List (List (Node K))
  cur : List (Node K)
  pre : Bool

/-- One round of these loops; a tag is `true` for 1. -/
def extractStep (tag : ℕ → Bool) (s : Extraction K) (v : Node K) : Extraction K :=
  if s.pre && !tag v.ref then ⟨s.result ++ [s.cur ++ [v]], s.cur ++ [v], false⟩
  else
    let cur := if !s.pre && tag v.ref then [] else s.cur
    ⟨s.result, if tag v.ref then cur ++ [v] else cur, tag v.ref⟩

def extractLineSeg (line : List (Node K)) (tag : ℕ → Bool) : Except Stop (List (List (Node K))) := do
  let s ← (List.range (line.length - 1)).foldlM (fun s i => do
    let v ← elementAt line i
    return extractStep tag s v) ⟨[], [], false⟩
  return s.result

def extractCLineSeg (line : List (Node K)) (tag : ℕ → Bool) :
    Except Stop (List (List (Node K))) := do
  let n := line.length
  let k ← match line.findIdx? fun v => !tag v.ref with
    | some k => Except.ok (k + 1)
    | none => .error .indexOutOfBounds
  let s ← (List.range (n + 1)).foldlM (fun s i => do
    let v ← elementAt line ((i + k) % n)
    return extractStep tag s v) ⟨[], [], false⟩
  return s.result

end Extraction

section Pieces

/-- The last place of the object in the polygon, or the first place of all. -/
def lastPlace (poly : List (Node K)) (v : Node K) : ℕ :=
  (List.range poly.length).foldl (fun f i => if poly[i]?.map Node.ref = some v.ref then i else f) 0

/-- The corners from the place `f` round to before the place `l`. -/
def walk (poly : List (Node K)) (f l : ℕ) : Except Stop (List (Node K)) :=
  (List.range ((l + poly.length - f) % poly.length)).mapM fun s =>
    elementAt poly ((f + s) % poly.length)

def cutOne (poly line : List (Node K)) : Except Stop (List (Node K) × List (Node K)) := do
  let first ← elementAt line 0
  let last ← elementAt line (line.length - 1)
  let f := lastPlace poly first
  let l := lastPlace poly last
  let vf ← walk poly f l
  let vl ← walk poly l f
  return (vf ++ line.reverse, vl ++ line)

def intsectpoly (poly line : List (Node K)) : Bool :=
  line.any fun a => poly.any fun b => a.ref = b.ref

/-- One line of `cutLine`: the first piece that meets it is replaced by its two parts. -/
def cutStep (temp : List (List (Node K))) (line : List (Node K)) :
    Except Stop (List (List (Node K))) :=
  match temp.find? fun tp => intsectpoly tp line with
  | none => .ok temp
  | some tp => do
    let parts ← cutOne tp line
    return temp.eraseP (fun q => q.map Node.ref = tp.map Node.ref) ++ [parts.1, parts.2]

def cutLine (pset lset : List (List (Node K))) : Except Stop (List (List (Node K))) :=
  lset.foldlM cutStep pset

end Pieces

variable [Field K] [LinearOrder K]

section Predicates

/-- A test of four vectors that has a fixed result when one of them has no position. -/
def test (otherwise : Bool) (f : GVector K → GVector K → GVector K → GVector K → Bool)
    (a b c d : Option (GVector K)) : Bool :=
  match a, b, c, d with
  | some a, some b, some c, some d => f a b c d
  | _, _, _, _ => otherwise

def interSect (v1 v2 l1 l2 : Option (GVector K)) : Bool :=
  test true GeoMath.interSect v1 v2 l1 l2

def sameSide (v1 v2 l1 l2 : Option (GVector K)) : Bool :=
  test false GeoMath.sameSide v1 v2 l1 l2

def onLine (v l1 l2 : Option (GVector K)) : Bool :=
  test false (fun v l1 l2 _ => GeoMath.onLine v l1 l2) v l1 l2 l2

def insideCrossing (point faraway p1 p2 p3 p4 : Option (GVector K)) : Bool :=
  let b1 := interSect point faraway p1 p2
  let b2 := onLine p2 point faraway
  let b3 := onLine p3 point faraway
  let b4 := sameSide p1 p3 point faraway
  let b5 := onLine p3 point faraway
  let b6 := sameSide p1 p4 point faraway
  let b7 := !b3 && !b4
  let b8 := b5 && !b6
  b1 || (b2 && (b7 || b8))

def insidePolygon (poly : List (Node K)) (point : Option (GVector K)) : Bool :=
  let size := poly.length
  let corner := fun i => (poly.getD (i % size) ⟨0, none⟩).pos
  let c := (List.range size).countP fun i => insideCrossing point (some GeoMath.faraway)
    (corner i) (corner (i + 1)) (corner (i + 2)) (corner (i + 3))
  c % 2 ≠ 0

/-- The intersection with the height of the line, as a new object. -/
def getSect (ref : ℕ) (v1 v2 l1 l2 : Node K) : Node K :=
  ⟨ref, match v1.pos, v2.pos, l1.pos, l2.pos with
    | some v1, some v2, some l1, some l2 =>
      if (v2.y - v1.y) * -(l2.x - l1.x) - -(v2.x - v1.x) * (l2.y - l1.y) = 0 then none
      else some { GeoMath.getSect v1 v2 l1 l2 with z := l1.z }
    | _, _, _, _ => none⟩

/-- Where `InterSect` holds for parallel edges both coordinates of `GetSect` are quotients of zeros. -/
lemma numerators_of_parallel [IsStrictOrderedRing K] {v1 v2 l1 l2 : GVector K}
    (h : GeoMath.interSect v1 v2 l1 l2 = true)
    (hdet : (v2.y - v1.y) * -(l2.x - l1.x) - -(v2.x - v1.x) * (l2.y - l1.y) = 0) :
    ((v2.y - v1.y) * v1.x - (v2.x - v1.x) * v1.y) * -(l2.x - l1.x)
        - ((l2.y - l1.y) * l1.x - (l2.x - l1.x) * l1.y) * -(v2.x - v1.x) = 0 ∧
      (v2.y - v1.y) * ((l2.y - l1.y) * l1.x - (l2.x - l1.x) * l1.y)
        - (l2.y - l1.y) * ((v2.y - v1.y) * v1.x - (v2.x - v1.x) * v1.y) = 0 := by
  have hside : GeoMath.sideProduct v1 v2 l1 l2 ≤ 0 := by
    simp only [GeoMath.interSect, GeoMath.sameSide, Bool.and_eq_true, Bool.not_eq_true',
      decide_eq_false_iff_not, not_lt] at h
    exact h.1
  have hzero : (l2.x - l1.x) * (v1.y - l1.y) - (l2.y - l1.y) * (v1.x - l1.x) = 0 := by
    have hsame : (l2.x - l1.x) * (v2.y - l2.y) - (l2.y - l1.y) * (v2.x - l2.x)
        = (l2.x - l1.x) * (v1.y - l1.y) - (l2.y - l1.y) * (v1.x - l1.x) := by
      linear_combination -hdet
    simp only [GeoMath.sideProduct] at hside
    rw [hsame] at hside
    exact mul_self_eq_zero.mp (le_antisymm hside (mul_self_nonneg _))
  constructor
  · linear_combination (v2.x - v1.x) * hzero + v1.x * hdet
  · linear_combination (v2.y - v1.y) * hzero + v1.y * hdet

/-- The middle of a part of the line. -/
def middle (v1 v2 : Node K) : Option (GVector K) :=
  match v1.pos, v2.pos with
  | some v1, some v2 => some (GeoMath.add v1 ((GeoMath.differance v2 v1).scale (1 / 2)))
  | _, _ => none

end Predicates

variable (math : JavaMath K)

section Cutting

/-- The distance from the first vector, where it is a number. -/
def distanceFrom (vex v : Node K) : Option K :=
  match vex.pos, v.pos with
  | some vex, some v => some ((GeoMath.differance v vex).distance math)
  | _, _ => none

def less : Option K → Option K → Bool
  | some a, some b => a < b
  | _, _ => false

def Segment.add (s : Segment K) (v : Node K) : Segment K :=
  let behind := fun p => less (distanceFrom math s.vex v) (distanceFrom math s.vex p)
  { s with sa := s.sa.takeWhile (fun p => !behind p) ++ v :: s.sa.dropWhile fun p => !behind p }

/-- The edges `i` of the polygon and `j` of the line. The new objects are numbered from `next`. -/
def sectStep (next m n k : ℕ) (s : Cut K) (i j : ℕ) : Except Stop (Cut K) := do
  let p1 ← elementAt s.poly i
  let p2 ← elementAt s.poly ((i + 1) % m)
  let l1 ← elementAt s.line j
  let l2 ← elementAt s.line ((j + 1) % k)
  if interSect p1.vex.pos p2.vex.pos l1.vex.pos l2.vex.pos then
    let p := getSect (next + i * n + j) p1.vex p2.vex l1.vex l2.vex
    return ⟨s.poly.set i (p1.add math p), s.line.set j (l1.add math p)⟩
  else return s

def presect (next : ℕ) (poly line : List (Segment K)) (closed : Bool) : Except Stop (Cut K) :=
  let m := poly.length
  let k := line.length
  let n := if closed then k else k - 1
  (List.range m).foldlM (fun s i =>
    (List.range n).foldlM (fun s j => sectStep math next m n k s i j) s) ⟨poly, line⟩

/-- The tags of the objects after `setTag`. -/
def setTag (poly line : List (Node K)) (closed : Bool) : Except Stop (ℕ → Bool) :=
  let k := line.length
  let n := if closed then k else k - 1
  (List.range n).foldlM (fun tag i => do
    let v1 ← elementAt line i
    let v2 ← elementAt line ((i + 1) % k)
    return Function.update tag v1.ref (insidePolygon poly (middle v1 v2))) fun _ => false

def cutPoly (next : ℕ) (poly line : List (Node K)) (closed : Bool) :
    Except Stop (List (List (Node K))) := do
  let c ← presect math next (trans poly) (trans line) closed
  let poly := reTrans c.poly
  let line := reTrans c.line
  let tag ← setTag poly line closed
  let lset ← if closed then extractCLineSeg line tag else extractLineSeg line tag
  cutLine [poly] lset

end Cutting

section Parts

def nodeAt (l : List (Node K)) (i : ℕ) : Node K := l.getD (i % l.length) ⟨0, none⟩

/-- The meeting point of edge `i` of the polygon with edge `j` of the closed line. -/
def sectAt (next : ℕ) (poly line : List (Node K)) (i j : ℕ) : Option (Node K) :=
  let v1 := nodeAt poly i
  let v2 := nodeAt poly (i + 1)
  let l1 := nodeAt line j
  let l2 := nodeAt line (j + 1)
  if interSect v1.pos v2.pos l1.pos l2.pos then some (getSect (next + i * line.length + j) v1 v2 l1 l2)
  else none

def addSect (s : Segment K) (p : Option (Node K)) : Segment K :=
  match p with
  | some p => s.add math p
  | none => s

/-- Edge `i` of the polygon with its meeting points with the first `n` edges of the line. -/
def polySegment (next : ℕ) (poly line : List (Node K)) (i n : ℕ) : Segment K :=
  (List.range n).foldl (fun s j => addSect math s (sectAt next poly line i j)) ⟨nodeAt poly i, []⟩

/-- Edge `j` of the line with its meeting points with the first `m` edges of the polygon. -/
def lineSegment (next : ℕ) (poly line : List (Node K)) (j m : ℕ) : Segment K :=
  (List.range m).foldl (fun s i => addSect math s (sectAt next poly line i j)) ⟨nodeAt line j, []⟩

/-- The polygon with all its meeting points with the closed line. -/
def polygonWithCuts (next : ℕ) (poly line : List (Node K)) : List (Node K) :=
  reTrans ((List.range poly.length).map fun i => polySegment math next poly line i line.length)

/-- The closed line with all its meeting points with the polygon. -/
def lineWithCuts (next : ℕ) (poly line : List (Node K)) : List (Node K) :=
  reTrans ((List.range line.length).map fun j => lineSegment math next poly line j poly.length)

/-- Some part of the closed line, between two of its corners or meeting points, is not inside the
polygon by the test at its middle. -/
def PartOutside (next : ℕ) (poly line : List (Node K)) : Prop :=
  let parts := lineWithCuts math next poly line
  ∃ i < parts.length, insidePolygon (polygonWithCuts math next poly line)
    (middle (nodeAt parts i) (nodeAt parts (i + 1))) = false

end Parts

section Presect

variable {math : JavaMath K} {next i j m n : ℕ} {poly line : List (Node K)}

omit [Field K] [LinearOrder K] in
lemma nodeAt_of_lt {l : List (Node K)} (hi : i < l.length) : l[i]? = some (nodeAt l i) := by
  rw [nodeAt, Nat.mod_eq_of_lt hi, List.getD_eq_getElem _ _ hi, List.getElem?_eq_getElem hi]

omit [Field K] [LinearOrder K] in
@[simp] lemma nodeAt_mod (l : List (Node K)) : nodeAt l (i % l.length) = nodeAt l i := by
  rw [nodeAt, Nat.mod_mod, nodeAt]

lemma elementAt_map_range {α : Type} {f : ℕ → α} (hi : i < n) :
    elementAt ((List.range n).map f) i = .ok (f i) := by
  simp [elementAt, hi]

lemma set_map_range {α : Type} (f : ℕ → α) (a : α) :
    ((List.range n).map f).set i a = (List.range n).map (Function.update f i a) := by
  apply List.ext_getElem?
  intro k
  by_cases hk : k < n
  · by_cases hki : k = i
    · subst hki
      simp [hk]
    · simp [hk, hki, Ne.symm hki]
  · simp [hk]

@[simp] lemma addSect_vex (s : Segment K) (p : Option (Node K)) :
    (addSect math s p).vex = s.vex := by
  cases p <;> rfl

/-- An edge from a vertex with the first `n` of its meeting points. -/
def segmentWith (math : JavaMath K) (v : Node K) (meet : ℕ → Option (Node K)) (n : ℕ) : Segment K :=
  (List.range n).foldl (fun s j => addSect math s (meet j)) ⟨v, []⟩

/-- The meeting point of edge `i` of the polygon with edge `j` of a line of `n` edges. -/
def meetAt (next n : ℕ) (poly line : List (Node K)) (i j : ℕ) : Option (Node K) :=
  let v1 := nodeAt poly i
  let v2 := nodeAt poly (i + 1)
  let l1 := nodeAt line j
  let l2 := nodeAt line (j + 1)
  if interSect v1.pos v2.pos l1.pos l2.pos then some (getSect (next + i * n + j) v1 v2 l1 l2)
  else none

variable {v : Node K} {meet : ℕ → Option (Node K)}

lemma segmentWith_succ : segmentWith math v meet (n + 1) =
    addSect math (segmentWith math v meet n) (meet n) := by
  simp [segmentWith, List.range_succ]

@[simp] lemma segmentWith_vex : (segmentWith math v meet n).vex = v := by
  induction n with
  | zero => rfl
  | succ n ih => rw [segmentWith_succ, addSect_vex, ih]

@[simp] lemma lineSegment_vex : (lineSegment math next poly line j m).vex = nodeAt line j :=
  segmentWith_vex

lemma lineSegment_succ : lineSegment math next poly line j (m + 1) =
    addSect math (lineSegment math next poly line j m) (sectAt next poly line m j) :=
  segmentWith_succ

/-- A pair of edges adds their meeting point to the segments of both. -/
lemma sectStep_eq {F G : ℕ → Segment K} (hF : ∀ a, (F a).vex = nodeAt poly a)
    (hG : ∀ b, (G b).vex = nodeAt line b) (hi : i < poly.length) (hj : j < line.length) :
    sectStep math next poly.length n line.length
        ⟨(List.range poly.length).map F, (List.range line.length).map G⟩ i j =
      .ok ⟨(List.range poly.length).map
          (Function.update F i (addSect math (F i) (meetAt next n poly line i j))),
        (List.range line.length).map
          (Function.update G j (addSect math (G j) (meetAt next n poly line i j)))⟩ := by
  have hi' : (i + 1) % poly.length < poly.length := Nat.mod_lt _ (by omega)
  have hj' : (j + 1) % line.length < line.length := Nat.mod_lt _ (by omega)
  unfold sectStep
  rw [elementAt_map_range hi, elementAt_map_range hi', elementAt_map_range hj,
    elementAt_map_range hj']
  simp only [ok_bind, hF, hG, nodeAt_mod]
  by_cases hmeet : interSect (nodeAt poly i).pos (nodeAt poly (i + 1)).pos (nodeAt line j).pos
      (nodeAt line (j + 1)).pos = true
  · have hsect : meetAt next n poly line i j = some (getSect (next + i * n + j)
        (nodeAt poly i) (nodeAt poly (i + 1)) (nodeAt line j) (nodeAt line (j + 1))) := if_pos hmeet
    rw [if_pos hmeet, hsect, set_map_range, set_map_range]
    rfl
  · have hsect : meetAt next n poly line i j = none := if_neg hmeet
    rw [if_neg hmeet, hsect, addSect, addSect, Function.update_eq_self, Function.update_eq_self]
    rfl

/-- The meeting points of edge `i` of the polygon with the first edges of the line. -/
lemma row_eq {r : ℕ} (hi : i < poly.length) (hn : n ≤ line.length) (hr : r ≤ n) :
    (List.range r).foldlM (fun s j => sectStep math next poly.length n line.length s i j)
      ⟨(List.range poly.length).map fun a => segmentWith math (nodeAt poly a)
          (fun j => meetAt next n poly line a j) (if a < i then n else 0),
        (List.range line.length).map fun b => segmentWith math (nodeAt line b)
          (fun i => meetAt next n poly line i b) (if b < n then i else 0)⟩ =
      .ok ⟨(List.range poly.length).map fun a => segmentWith math (nodeAt poly a)
          (fun j => meetAt next n poly line a j) (if a < i then n else if a = i then r else 0),
        (List.range line.length).map fun b => segmentWith math (nodeAt line b)
          (fun i => meetAt next n poly line i b)
          (if b < r then i + 1 else if b < n then i else 0)⟩ := by
  induction r with
  | zero =>
    simp only [List.range_zero, List.foldlM_nil, ite_self, Nat.not_lt_zero, if_false]
    rfl
  | succ r ih =>
    rw [List.range_succ, List.foldlM_append, ih (by omega), ok_bind, List.foldlM_cons,
      sectStep_eq (fun _ => segmentWith_vex) (fun _ => segmentWith_vex) hi (by omega), ok_bind]
    refine congrArg Except.ok (congrArg₂ Cut.mk ?_ ?_)
    · refine List.map_congr_left fun a _ => ?_
      by_cases ha : a = i
      · subst ha
        simp [segmentWith_succ]
      · rw [Function.update_of_ne ha]
        simp [ha]
    · refine List.map_congr_left fun b _ => ?_
      by_cases hb : b = r
      · subst hb
        have hlt : b < n := by omega
        simp [segmentWith_succ, hlt]
      · rw [Function.update_of_ne hb]
        have hlt : b < r + 1 ↔ b < r := by omega
        simp only [hlt]

omit [Field K] [LinearOrder K] in
lemma trans_eq (l : List (Node K)) :
    trans l = (List.range l.length).map fun i => ⟨nodeAt l i, []⟩ := by
  apply List.ext_getElem?
  intro k
  by_cases hk : k < l.length
  · have hnode := nodeAt_of_lt hk
    rw [List.getElem?_eq_getElem hk] at hnode
    simp [trans, hk, Option.some.inj hnode]
  · simp [trans, hk]

/-- The edges of a line; an open line has none behind its last vertex. -/
def edgeCount (line : List (Node K)) (closed : Bool) : ℕ :=
  if closed then line.length else line.length - 1

/-- `presect` finds the meeting points of all edges of the polygon with all edges of the line. -/
lemma presect_segments (closed : Bool) (hn : n = edgeCount line closed) :
    presect math next (trans poly) (trans line) closed =
      .ok ⟨(List.range poly.length).map fun i => segmentWith math (nodeAt poly i)
          (fun j => meetAt next n poly line i j) n,
        (List.range line.length).map fun j => segmentWith math (nodeAt line j)
          (fun i => meetAt next n poly line i j) (if j < n then poly.length else 0)⟩ := by
  have hle : n ≤ line.length := by
    rw [hn, edgeCount]
    split_ifs <;> omega
  have hrows : ∀ m ≤ poly.length, (List.range m).foldlM (fun s i => (List.range n).foldlM
      (fun s j => sectStep math next poly.length n line.length s i j) s)
      (⟨trans poly, trans line⟩ : Cut K) =
        .ok ⟨(List.range poly.length).map fun a => segmentWith math (nodeAt poly a)
            (fun j => meetAt next n poly line a j) (if a < m then n else 0),
          (List.range line.length).map fun b => segmentWith math (nodeAt line b)
            (fun i => meetAt next n poly line i b) (if b < n then m else 0)⟩ := by
    intro m hm
    induction m with
    | zero =>
      rw [trans_eq, trans_eq]
      simp only [Nat.not_lt_zero, if_false, ite_self]
      rfl
    | succ m ih =>
      rw [List.range_succ, List.foldlM_append, ih (by omega), ok_bind, List.foldlM_cons,
        row_eq (by omega) hle le_rfl, ok_bind]
      refine congrArg Except.ok (congrArg₂ Cut.mk ?_ ?_)
      · refine List.map_congr_left fun a _ => ?_
        by_cases ha : a < m
        · simp [ha, Nat.lt_succ_of_lt ha]
        · have hlt : a < m + 1 ↔ a = m := by omega
          simp only [ha, hlt, if_false]
      · refine List.map_congr_left fun b _ => ?_
        by_cases hb : b < n
        · simp [hb]
        · simp [hb]
  unfold presect
  have hlen : ∀ l : List (Node K), (trans l).length = l.length := fun l => List.length_map ..
  have hcount : (if closed = true then line.length else line.length - 1) = n := hn.symm
  simp only [hlen, hcount]
  rw [hrows _ le_rfl]
  refine congrArg Except.ok (congrArg₂ Cut.mk ?_ rfl)
  refine List.map_congr_left fun a ha => ?_
  rw [if_pos (List.mem_range.mp ha)]

/-- For a closed line these are the parts of `polygonWithCuts` and `lineWithCuts`. -/
lemma presect_eq : presect math next (trans poly) (trans line) true =
    .ok ⟨(List.range poly.length).map fun i => polySegment math next poly line i line.length,
      (List.range line.length).map fun j => lineSegment math next poly line j poly.length⟩ := by
  rw [presect_segments true rfl]
  refine congrArg Except.ok (congrArg₂ Cut.mk rfl ?_)
  refine List.map_congr_left fun j hj => ?_
  rw [edgeCount, if_pos rfl, if_pos (List.mem_range.mp hj)]
  rfl

end Presect

section Tags

variable {math : JavaMath K} {next i j m n : ℕ} {poly line : List (Node K)} {tag : ℕ → Bool}

/-- The objects of the line are different ones, and the numbers from `next` are free. -/
structure Fresh (next : ℕ) (line : List (Node K)) : Prop where
  nodup : (line.map Node.ref).Nodup
  lt : ∀ v ∈ line, v.ref < next

lemma add_perm (math : JavaMath K) (s : Segment K) (p : Node K) : (s.add math p).sa.Perm (p :: s.sa) := by
  unfold Segment.add
  refine List.perm_middle.trans (List.Perm.cons p ?_)
  rw [List.takeWhile_append_dropWhile]

lemma sectAt_ref {p : Node K} (h : sectAt next poly line i j = some p) :
    p.ref = next + i * line.length + j := by
  unfold sectAt at h
  dsimp only at h
  split_ifs at h
  cases h
  rfl

/-- The new objects of an edge of the line. -/
lemma lineSegment_refs (math : JavaMath K) (next m : ℕ) (poly : List (Node K)) (hj : j < line.length) :
    ((lineSegment math next poly line j m).sa.map Node.ref).Nodup ∧
      ∀ v ∈ (lineSegment math next poly line j m).sa,
        ∃ i < m, v.ref = next + i * line.length + j := by
  induction m with
  | zero => simp [lineSegment]
  | succ m ih =>
    obtain ⟨hnodup, hrefs⟩ := ih
    have hrefs' : ∀ v ∈ (lineSegment math next poly line j m).sa,
        ∃ i < m + 1, v.ref = next + i * line.length + j := by
      intro v hv
      obtain ⟨i, hi, hv⟩ := hrefs v hv
      exact ⟨i, by omega, hv⟩
    rw [lineSegment_succ]
    cases hsect : sectAt next poly line m j with
    | none => exact ⟨hnodup, hrefs'⟩
    | some p =>
      have href := sectAt_ref hsect
      have hperm := add_perm math (lineSegment math next poly line j m) p
      constructor
      · rw [addSect, (hperm.map Node.ref).nodup_iff, List.map_cons, List.nodup_cons]
        refine ⟨fun hmem => ?_, hnodup⟩
        obtain ⟨v, hv, hvp⟩ := List.mem_map.mp hmem
        obtain ⟨i, hi, hvi⟩ := hrefs v hv
        rw [hvi, href] at hvp
        have hmul : i * line.length = m * line.length := by omega
        have := Nat.eq_of_mul_eq_mul_right (by omega) hmul
        omega
      · intro v hv
        rcases List.mem_cons.mp (hperm.mem_iff.mp hv) with rfl | hv
        · exact ⟨m, by omega, href⟩
        · exact hrefs' v hv

/-- No object stands twice in the line with its meeting points. -/
lemma lineWithCuts_nodup (math : JavaMath K) (poly : List (Node K)) (hfresh : Fresh next line) :
    ((lineWithCuts math next poly line).map Node.ref).Nodup := by
  have hline : ∀ j < line.length, nodeAt line j ∈ line := by
    intro j hj
    exact List.mem_of_getElem? (nodeAt_of_lt hj)
  unfold lineWithCuts reTrans
  rw [List.flatMap_map, List.map_flatMap, List.nodup_flatMap]
  constructor
  · intro j hj
    have hj' := List.mem_range.mp hj
    obtain ⟨hnodup, hrefs⟩ := lineSegment_refs math next poly.length poly hj'
    rw [List.map_cons, List.nodup_cons]
    refine ⟨fun hmem => ?_, hnodup⟩
    obtain ⟨v, hv, hvj⟩ := List.mem_map.mp hmem
    obtain ⟨i, -, hvi⟩ := hrefs v hv
    have := hfresh.lt _ (hline j hj')
    rw [lineSegment_vex] at hvj
    omega
  · refine List.nodup_range.imp_of_mem fun {a b} ha hb hab => ?_
    have ha' := List.mem_range.mp ha
    have hb' := List.mem_range.mp hb
    have hkind : ∀ {c r}, c < line.length → r ∈ (((lineSegment math next poly line c poly.length).vex ::
        (lineSegment math next poly line c poly.length).sa).map Node.ref) →
          r = (nodeAt line c).ref ∧ r < next ∨ ∃ i, r = next + i * line.length + c := by
      intro c r hc hr
      rw [List.map_cons, List.mem_cons, lineSegment_vex] at hr
      rcases hr with rfl | hr
      · exact .inl ⟨rfl, hfresh.lt _ (hline c hc)⟩
      · obtain ⟨v, hv, rfl⟩ := List.mem_map.mp hr
        obtain ⟨i, -, hvi⟩ := (lineSegment_refs math next poly.length poly hc).2 v hv
        exact .inr ⟨i, hvi⟩
    intro r hra hrb
    rcases hkind ha' hra with ⟨h1, h1'⟩ | ⟨i, h1⟩ <;> rcases hkind hb' hrb with ⟨h2, h2'⟩ | ⟨k, h2⟩
    · refine hab ?_
      have hget : (line.map Node.ref)[a]? = (line.map Node.ref)[b]? := by
        rw [List.getElem?_map, List.getElem?_map, nodeAt_of_lt ha', nodeAt_of_lt hb',
          Option.map_some, Option.map_some, ← h1, ← h2]
      exact (List.getElem?_inj (by simpa using ha') hfresh.nodup).mp hget
    · omega
    · omega
    · refine hab ?_
      have hmod : (i * line.length + a) % line.length = (k * line.length + b) % line.length := by
        congr 1
        omega
      rwa [Nat.mul_add_mod_self_right, Nat.mul_add_mod_self_right, Nat.mod_eq_of_lt ha',
        Nat.mod_eq_of_lt hb'] at hmod

omit [Field K] [LinearOrder K] in
lemma elementAt_mod (l : List (Node K)) (hl : 0 < l.length) (i : ℕ) :
    elementAt l (i % l.length) = .ok (nodeAt l i) := by
  rw [elementAt, nodeAt_of_lt (Nat.mod_lt _ hl), nodeAt_mod]

/-- The tag of an object that stands once in the line is the test at the middle of its part. -/
lemma setTag_eq (poly : List (Node K)) {line : List (Node K)} (hnodup : (line.map Node.ref).Nodup) :
    ∃ tag, setTag poly line true = .ok tag ∧ ∀ i < line.length,
      tag (nodeAt line i).ref = insidePolygon poly (middle (nodeAt line i) (nodeAt line (i + 1))) := by
  have hprefix : ∀ n ≤ line.length, ∃ tag, (List.range n).foldlM (fun tag i => do
      let v1 ← elementAt line i
      let v2 ← elementAt line ((i + 1) % line.length)
      return Function.update tag v1.ref (insidePolygon poly (middle v1 v2))) (fun _ => false) =
        (Except.ok tag : Except Stop (ℕ → Bool)) ∧ ∀ i < n,
          tag (nodeAt line i).ref =
            insidePolygon poly (middle (nodeAt line i) (nodeAt line (i + 1))) := by
    intro n hn
    induction n with
    | zero => exact ⟨_, rfl, by simp⟩
    | succ n ih =>
      obtain ⟨tag, htag, hvalues⟩ := ih (by omega)
      have hv1 := elementAt_mod line (by omega) n
      rw [Nat.mod_eq_of_lt (by omega)] at hv1
      rw [List.range_succ, List.foldlM_append, htag, ok_bind, List.foldlM_cons, hv1, ok_bind,
        elementAt_mod line (by omega), ok_bind]
      refine ⟨_, rfl, fun i hi => ?_⟩
      rcases (Nat.le_of_lt_succ hi).eq_or_lt with rfl | hi
      · rw [Function.update_self]
      · rw [Function.update_of_ne, hvalues i hi]
        intro heq
        have hget : (line.map Node.ref)[i]? = (line.map Node.ref)[n]? := by
          rw [List.getElem?_map, List.getElem?_map, nodeAt_of_lt (by omega),
            nodeAt_of_lt (by omega), Option.map_some, Option.map_some, heq]
        have := (List.getElem?_inj (by rw [List.length_map]; omega) hnodup).mp hget
        omega
  exact hprefix _ le_rfl

end Tags

section Returning

omit [Field K] [LinearOrder K]

variable {line : List (Node K)} {tag : ℕ → Bool}

lemma extractStep_result {s : Extraction K} (h : ∀ l ∈ s.result, l ≠ []) (v : Node K) :
    ∀ l ∈ (extractStep tag s v).result, l ≠ [] := by
  unfold extractStep
  by_cases hlast : (s.pre && !tag v.ref) = true
  · rw [if_pos hlast]
    intro l hl
    rcases List.mem_append.mp hl with hl | hl
    · exact h l hl
    · rw [List.mem_singleton.mp hl]
      simp
  · rw [if_neg hlast]
    exact h

/-- The extraction from a closed line needs an object with the tag 0. -/
lemma extractCLineSeg_cases (line : List (Node K)) (tag : ℕ → Bool) :
    (∃ v ∈ line, tag v.ref = false) ∧
        Returns (extractCLineSeg line tag) (fun lset => ∀ l ∈ lset, l ≠ []) ∨
      (∀ v ∈ line, tag v.ref = true) ∧ extractCLineSeg line tag = .error .indexOutOfBounds := by
  unfold extractCLineSeg
  cases hfind : line.findIdx? fun v => !tag v.ref with
  | none =>
    have hall := List.findIdx?_eq_none_iff.mp hfind
    exact .inr ⟨fun v hv => by simpa using hall v hv, rfl⟩
  | some k =>
    obtain ⟨hk, htag, -⟩ := List.findIdx?_eq_some_iff_getElem.mp hfind
    have hlen : 0 < line.length := by omega
    have hloop : ∀ (idx : List ℕ) (s : Extraction K), (∀ l ∈ s.result, l ≠ []) →
        Returns (idx.foldlM (fun s i => do
          let v ← elementAt line ((i + (k + 1)) % line.length)
          return extractStep tag s v) s) fun s => ∀ l ∈ s.result, l ≠ [] := by
      intro idx
      induction idx with
      | nil => exact fun s hs => returns_pure.mpr hs
      | cons i idx ih =>
        intro s hs
        rw [List.foldlM_cons, elementAt_mod line hlen, ok_bind]
        exact ih _ (extractStep_result hs _)
    refine .inl ⟨⟨_, List.getElem_mem hk, by simpa using htag⟩, ?_⟩
    simp only [ok_bind]
    refine returns_bind.mpr ((hloop _ _ (by simp)).mono fun s _ hs => ?_)
    exact returns_pure.mpr hs

lemma walk_returns {poly : List (Node K)} (hpoly : poly ≠ []) (f l : ℕ) :
    Returns (walk poly f l) fun _ => True := by
  have hlen := List.length_pos_iff.mpr hpoly
  unfold walk
  induction List.range ((l + poly.length - f) % poly.length) with
  | nil => exact returns_pure.mpr trivial
  | cons s idx ih =>
    rw [List.mapM_cons, elementAt_mod poly hlen, ok_bind]
    exact returns_bind.mpr (ih.mono fun _ _ _ => returns_pure.mpr trivial)

lemma cutOne_returns {poly : List (Node K)} (hpoly : poly ≠ []) (hline : line ≠ []) :
    Returns (cutOne poly line) fun _ => True := by
  have hlen := List.length_pos_iff.mpr hline
  have hfirst := elementAt_mod line hlen 0
  have hlast := elementAt_mod line hlen (line.length - 1)
  rw [Nat.mod_eq_of_lt hlen] at hfirst
  rw [Nat.mod_eq_of_lt (by omega)] at hlast
  unfold cutOne
  rw [hfirst, ok_bind, hlast, ok_bind]
  refine returns_bind.mpr ((walk_returns hpoly _ _).mono fun vf _ _ => ?_)
  refine returns_bind.mpr ((walk_returns hpoly _ _).mono fun vl _ _ => ?_)
  exact returns_pure.mpr trivial

/-- A cut leaves at least one piece. -/
lemma cutStep_returns {temp : List (List (Node K))} (htemp : temp ≠ []) (hline : line ≠ []) :
    Returns (cutStep temp line) (· ≠ []) := by
  unfold cutStep
  cases hfind : temp.find? fun tp => intsectpoly tp line with
  | none => exact returns_ok.mpr htemp
  | some tp =>
    have hmeets := List.find?_some hfind
    have hpoly : tp ≠ [] := by
      rintro rfl
      simp [intsectpoly] at hmeets
    refine returns_bind.mpr ((cutOne_returns hpoly hline).mono fun parts _ _ => ?_)
    exact returns_pure.mpr (by simp)

lemma cutLine_returns {pset lset : List (List (Node K))} (hpset : pset ≠ [])
    (hlset : ∀ l ∈ lset, l ≠ []) : Returns (cutLine pset lset) (· ≠ []) := by
  unfold cutLine
  induction lset generalizing pset with
  | nil => exact returns_pure.mpr hpset
  | cons line lset ih =>
    rw [List.foldlM_cons]
    refine returns_bind.mpr ((cutStep_returns hpset (hlset line (by simp))).mono ?_)
    exact fun temp _ htemp => ih htemp fun l hl => hlset l (by simp [hl])

end Returning

section Relations

def pIntp (p1 p2 : List (Node K)) : Bool :=
  (List.range p1.length).any fun i => (List.range p2.length).any fun j =>
    interSect (nodeAt p1 i).pos (nodeAt p1 (i + 1)).pos (nodeAt p2 j).pos (nodeAt p2 (j + 1)).pos

def pInsp (p1 p2 : List (Node K)) : Bool := insidePolygon p2 (nodeAt p1 0).pos

/-- How two polygons lie to each other: `-1` when they meet, `1` or `2` when the first or the second
is inside the other one. -/
def pRp (p1 p2 : List (Node K)) : ℤ :=
  if p1 = [] ∨ p2 = [] then -2
  else if pIntp p1 p2 then -1
  else if pInsp p1 p2 then 1
  else if pInsp p2 p1 then 2
  else 0

/-- `cutPoly` as `Area.polyInt` calls it. -/
def closedCut (next : ℕ) (poly line : List (Node K)) : Except Stop (List (List (Node K))) :=
  cutPoly math next poly line true

end Relations

section Results

variable {math : JavaMath K} {next : ℕ} {poly line : List (Node K)}

/-- The cut returns normally with at least one piece, and so do the functions of the area. -/
def CutReturns (math : JavaMath K) (next : ℕ) (a : Area (List (Node K))) (line : List (Node K)) :
    Prop :=
  Returns (closedCut math next a.bpoly line) (· ≠ []) ∧
    Returns (a.polyInt pRp (closedCut math next) line) (fun _ => True) ∧
    Returns (a.polyCut pRp (closedCut math next) line) fun _ => True

lemma cutPoly_cases (math : JavaMath K) (poly : List (Node K)) (hfresh : Fresh next line) :
    PartOutside math next poly line ∧ Returns (closedCut math next poly line) (· ≠ []) ∨
      ¬ PartOutside math next poly line ∧
        closedCut math next poly line = .error .indexOutOfBounds := by
  let parts := lineWithCuts math next poly line
  obtain ⟨tag, htag, hvalues⟩ := setTag_eq (polygonWithCuts math next poly line)
    (lineWithCuts_nodup math poly hfresh)
  have hcut : closedCut math next poly line = (do
      let lset ← extractCLineSeg parts tag
      cutLine [polygonWithCuts math next poly line] lset) := by
    rw [closedCut, cutPoly, presect_eq, ok_bind]
    change (do
      let tag ← setTag (polygonWithCuts math next poly line) parts true
      let lset ← extractCLineSeg parts tag
      cutLine [polygonWithCuts math next poly line] lset) = _
    rw [htag, ok_bind]
  have houtside : PartOutside math next poly line ↔ ∃ v ∈ parts, tag v.ref = false := by
    constructor
    · rintro ⟨i, hi, hout⟩
      exact ⟨nodeAt parts i, List.mem_of_getElem? (nodeAt_of_lt hi), (hvalues i hi).trans hout⟩
    · rintro ⟨v, hv, hout⟩
      obtain ⟨i, hi⟩ := List.mem_iff_getElem?.mp hv
      have hlt := (List.getElem?_eq_some_iff.mp hi).1
      have hnode := nodeAt_of_lt hlt
      rw [hi] at hnode
      obtain rfl := Option.some.inj hnode
      exact ⟨i, hlt, (hvalues i hlt).symm.trans hout⟩
  rw [houtside, hcut]
  rcases extractCLineSeg_cases parts tag with ⟨hzero, hreturns⟩ | ⟨hall, herror⟩
  · refine .inl ⟨hzero, returns_bind.mpr (hreturns.mono fun lset _ hlset => ?_)⟩
    exact cutLine_returns (by simp) hlset
  · refine .inr ⟨?_, by rw [herror, error_bind]⟩
    rintro ⟨v, hv, hzero⟩
    rw [hall v hv] at hzero
    cases hzero

/-- A cut by a closed line that meets the polygon returns exactly when some part of the line is not
inside the polygon. -/
theorem cutReturns_iff {a : Area (List (Node K))} (hfresh : Fresh next line)
    (hmeet : pIntp a.bpoly line = true) :
    CutReturns math next a line ↔ PartOutside math next a.bpoly line := by
  have hrel : pRp a.bpoly line = -1 := by
    have hpoly : a.bpoly ≠ [] := by
      intro hnil
      simp [pIntp, hnil] at hmeet
    have hline : line ≠ [] := by
      rintro rfl
      simp [pIntp] at hmeet
    rw [pRp, if_neg (by simp [hpoly, hline]), if_pos hmeet]
  have hcut : a.polyCut pRp (closedCut math next) line =
      a.polyInt pRp (closedCut math next) line := by
    rw [Area.polyCut]
    simp [hrel]
  rw [CutReturns, hcut]
  rcases cutPoly_cases math a.bpoly hfresh with ⟨hout, hreturns⟩ | ⟨hin, herror⟩
  · refine iff_of_true ⟨hreturns, ?_, ?_⟩ hout
    · exact returns_bind.mpr (hreturns.mono fun _ _ _ => returns_pure.mpr trivial)
    · exact returns_bind.mpr (hreturns.mono fun _ _ _ => returns_pure.mpr trivial)
  · refine iff_of_false (fun h => ?_) hin
    rw [herror] at h
    exact returns_error.mp h.1

end Results

/-! A square and two closed lines. -/

/-- The vectors as objects numbered from `next`. -/
def nodes (next : ℕ) (l : List (GVector K)) : List (Node K) := l.mapIdx fun i v => ⟨next + i, some v⟩

omit [Field K] [LinearOrder K] in
lemma getD_nodes (next : ℕ) (l : List (GVector K)) {i : ℕ} (hi : i < l.length) (v : GVector K) :
    ((nodes next l).getD i ⟨0, none⟩).pos = some (l.getD i v) := by
  simp [nodes, hi]

/-- For vectors with positions the test is `GeoMath.InsidePolygon`. -/
lemma insidePolygon_nodes (next : ℕ) (l : List (GVector K)) (v : GVector K) :
    insidePolygon (nodes next l) (some v) = GeoMath.insidePolygon l v := by
  have hlen : (nodes next l).length = l.length := by simp [nodes]
  unfold insidePolygon GeoMath.insidePolygon
  rw [hlen]
  have hcount : ∀ i ∈ List.range l.length, ∀ k, ((nodes next l).getD ((i + k) % l.length)
      ⟨0, none⟩).pos = some (l.getD ((i + k) % l.length) ⟨0, 0, 0⟩) := by
    intro i hi k
    have := List.mem_range.mp hi
    exact getD_nodes next l (Nat.mod_lt _ (by omega)) _
  dsimp only
  rw [List.countP_congr fun i hi => ?_]
  have h0 := hcount i hi 0
  rw [Nat.add_zero] at h0
  rw [h0, hcount i hi, hcount i hi, hcount i hi]
  rfl

def square : List (GVector ℚ) := [⟨0, -3, 0⟩, ⟨6, -3, 0⟩, ⟨6, 3, 0⟩, ⟨0, 3, 0⟩]

/-- A triangle inside the square that touches its right side with one corner. -/
def touching : List (GVector ℚ) := [⟨6, 1, 0⟩, ⟨2, 2, 0⟩, ⟨2, -1, 0⟩]

/-- A triangle that crosses the right side. -/
def crossing : List (GVector ℚ) := [⟨8, 0, 0⟩, ⟨4, 2, 0⟩, ⟨4, -2, 0⟩]

/-- The square roots of the distances between meeting points and the corners before them. -/
def roots : JavaMath ℚ := ⟨fun x => if x = 16 then 4 else if x = 4 then 2 else 0, fun x => x⟩

/-- The crossing line leaves the square. -/
theorem cutReturns_crossing :
    CutReturns roots 7 (.mk (nodes 0 square) none 0) (nodes 4 crossing) :=
  (cutReturns_iff ⟨by decide, by decide⟩ (by decide +kernel)).mpr
    ⟨0, by decide +kernel, by decide +kernel⟩

/-- Every part of the touching line is inside the square, or of length zero on its boundary. -/
theorem cutPoly_fails_touching :
    PolygonWinding.SimplePolygon square.length (corner square) ∧
    PolygonWinding.SimplePolygon touching.length (corner touching) ∧
    Fresh 7 (nodes 4 touching) ∧ pIntp (nodes 0 square) (nodes 4 touching) = true ∧
    closedCut roots 7 (nodes 0 square) (nodes 4 touching) = .error .indexOutOfBounds := by
  refine ⟨?_, ?_, ⟨by decide, by decide⟩, by decide +kernel, by decide +kernel⟩
  · exact PolygonWinding.simplePolygon_of_test (by decide) (corner_periodic square)
      (by decide +kernel) (by decide +kernel) (by decide +kernel)
  · exact PolygonWinding.simplePolygon_of_test (by decide) (corner_periodic touching)
      (by decide +kernel) (by decide +kernel) (by decide +kernel)

end Cuts

end MTalk.Triangle
