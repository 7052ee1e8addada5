import MTalk.Triangle.GeoMath

/-!
# The triangle net

The objects of `triangles`: vertices, trigons, queue nodes and the net that refers to them.
An object reference is a number and each mutable field of `Trigon` is a map from references,
so that a write to one field leaves every other field alone. `null` is `none`, and the index
`-1` that `nbvex` holds for a missing neighbour is `none` too.
-/

namespace MTalk.Triangle

abbrev TrigonRef := ℕ

/-- A vertex object. `ref` is its identity, `id` the number its creator gave it. -/
@[ext]
structure Vertex (K : Type) where
  ref : ℕ
  id : ℤ
  coord : GVector K
deriving DecidableEq

/-- A vertex's position in the plane. -/
abbrev Vertex.xy {K : Type} (v : Vertex K) : K × K := v.coord.xy

/-- A queue node records an edge by one trigon and the side opposite its vertex `vid`.
`ref` is the identity of the node object. -/
structure QueueNode where
  ref : ℕ
  trigon : TrigonRef
  vid : Fin 3
deriving DecidableEq

structure ListParam (K : Type) where
  startx : K
  starty : K
  endx : K
  endy : K
  cellsize : K
  nx : ℤ
  ny : ℤ

structure NetParam where
  nov : ℤ
  not : ℤ

/-- The state of one `TrigonNet` with its `QueryList`, its `VertexSet` and the static queue. -/
structure Net (K : Type) where
  vex : TrigonRef → Fin 3 → Vertex K
  nbtri : TrigonRef → Fin 3 → Option TrigonRef
  nbvex : TrigonRef → Fin 3 → Option (Fin 3)
  etc : TrigonRef → Fin 3 → Option QueueNode
  heart : TrigonRef → GVector K
  visited : TrigonRef → Bool
  trigonCount : ℕ
  nodeCount : ℕ
  queue : List QueueNode
  listp : ListParam K
  cells : ℤ → ℤ → List TrigonRef
  trigonIndex : List TrigonRef
  vcells : ℤ → ℤ → List (Vertex K)
  lnlist : List (Vertex K)
  np : NetParam

/-- One write to a two-dimensional map. -/
def write {α β γ : Type*} [DecidableEq α] [DecidableEq β] (f : α → β → γ) (a : α) (b : β) (c : γ) :
    α → β → γ :=
  fun a' b' => if a' = a ∧ b' = b then c else f a' b'

lemma write_apply {α β γ : Type*} [DecidableEq α] [DecidableEq β] (f : α → β → γ) (a : α) (b : β)
    (c : γ) (a' : α) (b' : β) :
    write f a b c a' b' = if a' = a ∧ b' = b then c else f a' b' := rfl

@[simp] lemma write_same {α β γ : Type*} [DecidableEq α] [DecidableEq β] (f : α → β → γ) (a : α)
    (b : β) (c : γ) : write f a b c a b = c := by
  simp [write]

/-- Dereferences a reference that may be `null`. -/
def deref {α : Type*} : Option α → Except Stop α
  | none => .error .nullPointer
  | some a => .ok a

/-- Uses an array index that may be `-1`. -/
def index {α : Type*} : Option α → Except Stop α
  | none => .error .indexOutOfBounds
  | some a => .ok a

@[simp] lemma deref_some {α : Type*} (a : α) : deref (some a) = .ok a := rfl

@[simp] lemma index_some {α : Type*} (a : α) : index (some a) = .ok a := rfl

/-- A sequence of two computations completes when both do. -/
lemma bind_eq_ok {α β : Type} {x : Except Stop α} {f : α → Except Stop β} {b : β} :
    x >>= f = .ok b ↔ ∃ a, x = .ok a ∧ f a = .ok b := by
  rcases x with e | a <;> simp [bind, Except.bind]

/-- Whether a computation completes with a result that passes a test. -/
def passes {α : Type} (x : Except Stop α) (test : α → Bool) : Bool :=
  match x with
  | .ok a => test a
  | .error _ => false

lemma exists_of_passes {α : Type} {x : Except Stop α} {test : α → Bool} (h : passes x test = true) :
    ∃ a, x = .ok a ∧ test a = true := by
  cases x with
  | error e => simp [passes] at h
  | ok a => exact ⟨a, rfl, h⟩

lemma index_eq_ok {α : Type*} {o : Option α} {a : α} : index o = .ok a ↔ o = some a := by
  cases o <;> simp [index]

lemma deref_eq_ok {α : Type*} {o : Option α} {a : α} : deref o = .ok a ↔ o = some a := by
  cases o <;> simp [deref]

/-! Arithmetic of the side numbers modulo three. -/

lemma side_one_one (i : Fin 3) : i + 1 + 1 = i + 2 := by
  fin_cases i <;> rfl

lemma side_one_two (i : Fin 3) : i + 1 + 2 = i := by
  fin_cases i <;> rfl

lemma side_two_one (i : Fin 3) : i + 2 + 1 = i := by
  fin_cases i <;> rfl

lemma side_two_two (i : Fin 3) : i + 2 + 2 = i + 1 := by
  fin_cases i <;> rfl

lemma side_ne_one (i : Fin 3) : i ≠ i + 1 := by
  fin_cases i <;> decide

lemma side_ne_two (i : Fin 3) : i ≠ i + 2 := by
  fin_cases i <;> decide

/-- The three sides of a trigon, counted from any of them. -/
lemma side_cases (i j : Fin 3) : j = i ∨ j = i + 1 ∨ j = i + 2 := by
  fin_cases i <;> fin_cases j <;> decide

namespace Net

variable {K : Type}

/-- A `Trigon` object with the given vertices and neighbours; its other fields are fresh. -/
def newTrigon [Zero K] (s : Net K) (vex : Fin 3 → Vertex K) (nbtri : Fin 3 → Option TrigonRef)
    (nbvex : Fin 3 → Option (Fin 3)) : Net K :=
  { s with
    vex := Function.update s.vex s.trigonCount vex
    nbtri := Function.update s.nbtri s.trigonCount nbtri
    nbvex := Function.update s.nbvex s.trigonCount nbvex
    etc := Function.update s.etc s.trigonCount (fun _ => none)
    heart := Function.update s.heart s.trigonCount ⟨0, 0, 0⟩
    visited := Function.update s.visited s.trigonCount false
    trigonCount := s.trigonCount + 1 }

/-- The net that `new TrigonNet()` and `Init` leave behind. -/
def create [Zero K] (p : ListParam K) : Net K where
  vex := fun _ _ => ⟨0, 0, ⟨0, 0, 0⟩⟩
  nbtri := fun _ _ => none
  nbvex := fun _ _ => none
  etc := fun _ _ => none
  heart := fun _ => ⟨0, 0, 0⟩
  visited := fun _ => false
  trigonCount := 0
  nodeCount := 0
  queue := []
  listp := p
  cells := fun _ _ => []
  trigonIndex := []
  vcells := fun _ _ => []
  lnlist := []
  np := ⟨0, 0⟩

/-- A trigon is live while it is in `TrigonIndex`. -/
def Live (s : Net K) (t : TrigonRef) : Prop := t ∈ s.trigonIndex

instance (s : Net K) (t : TrigonRef) : Decidable (s.Live t) :=
  inferInstanceAs (Decidable (t ∈ s.trigonIndex))

/-- The vertex occurs in a live trigon. -/
def OnNet (s : Net K) (v : Vertex K) : Prop := ∃ t ∈ s.trigonIndex, ∃ i, s.vex t i = v

end Net

section TrigonGeometry

variable {K : Type} [Field K] [LinearOrder K]

/-- `Trigon.VexPosition` for the three vertices of a trigon. -/
def vexPosition (vex : Fin 3 → Vertex K) (vertex : Vertex K) : ℤ :=
  let v : GVector K := ⟨vertex.coord.x, vertex.coord.y, 0⟩
  let dir01 := v.directZ (vex 0).coord (vex 1).coord
  let dir12 := v.directZ (vex 1).coord (vex 2).coord
  let dir20 := v.directZ (vex 2).coord (vex 0).coord
  if dir20 = 0 ∧ dir01 = 0 then -1
  else if dir01 = 0 ∧ dir12 = 0 then -2
  else if dir12 = 0 ∧ dir20 = 0 then -3
  else if dir01 = 0 ∧ 0 < dir12 * dir20 then 2
  else if dir12 = 0 ∧ 0 < dir20 * dir01 then 0
  else if dir20 = 0 ∧ 0 < dir01 * dir12 then 1
  else if (0 < dir01 ∧ 0 < dir12 ∧ 0 < dir20) ∨ (dir01 < 0 ∧ dir12 < 0 ∧ dir20 < 0) then 3
  else -4

/-- The largest of three numbers, scanned as `maxx`, `maxy` and `maxz` do. -/
def largest (f : Fin 3 → K) : K :=
  let m := if f 0 < f 1 then f 1 else f 0
  if m < f 2 then f 2 else m

/-- The smallest of three numbers, scanned as `minx`, `miny` and `minz` do. -/
def smallest (f : Fin 3 → K) : K :=
  let m := if f 1 < f 0 then f 1 else f 0
  if f 2 < m then f 2 else m

def maxx (vex : Fin 3 → Vertex K) : K := largest fun i => (vex i).coord.x

def maxy (vex : Fin 3 → Vertex K) : K := largest fun i => (vex i).coord.y

def maxz (vex : Fin 3 → Vertex K) : K := largest fun i => (vex i).coord.z

def minx (vex : Fin 3 → Vertex K) : K := smallest fun i => (vex i).coord.x

def miny (vex : Fin 3 → Vertex K) : K := smallest fun i => (vex i).coord.y

def minz (vex : Fin 3 → Vertex K) : K := smallest fun i => (vex i).coord.z

omit [Field K] in
lemma largest_mem (f : Fin 3 → K) : ∃ i, largest f = f i := by
  unfold largest
  dsimp only
  split_ifs
  · exact ⟨2, rfl⟩
  · exact ⟨1, rfl⟩
  · exact ⟨2, rfl⟩
  · exact ⟨0, rfl⟩

omit [Field K] in
lemma smallest_mem (f : Fin 3 → K) : ∃ i, smallest f = f i := by
  unfold smallest
  dsimp only
  split_ifs
  · exact ⟨2, rfl⟩
  · exact ⟨1, rfl⟩
  · exact ⟨2, rfl⟩
  · exact ⟨0, rfl⟩

/-- The circumcentre that `SetHeart` stores. -/
def setHeart (vex : Fin 3 → Vertex K) : GVector K :=
  let x := fun i => (vex i).coord.x
  let y := fun i => (vex i).coord.y
  let k11 := (x 0 - x 1) * 2
  let k12 := (y 0 - y 1) * 2
  let k21 := (x 0 - x 2) * 2
  let k22 := (y 0 - y 2) * 2
  let d1 := (x 0 - x 1) * (x 0 + x 1) + (y 0 - y 1) * (y 0 + y 1)
  let d2 := (x 0 - x 2) * (x 0 + x 2) + (y 0 - y 2) * (y 0 + y 2)
  ⟨(d1 * k22 - d2 * k12) / (k11 * k22 - k12 * k21),
    (d1 * k21 - d2 * k11) / (k12 * k21 - k22 * k11), 0⟩

open PlaneGeometry

/-- Twice the signed area of a trigon. -/
def area2 (vex : Fin 3 → Vertex K) : K := orient (vex 0).xy (vex 1).xy (vex 2).xy

omit [LinearOrder K] in
lemma area2_at (vex : Fin 3 → Vertex K) (i : Fin 3) :
    orient (vex i).xy (vex (i + 1)).xy (vex (i + 2)).xy = area2 vex := by
  fin_cases i
  · rfl
  · exact orient_rotate _ _ _
  · exact (orient_rotate _ _ _).symm

variable [IsStrictOrderedRing K]

/-- A point that `VexPosition` places inside a positive trigon is strictly inside it. -/
lemma vexPosition_inside {vex : Fin 3 → Vertex K} {v : Vertex K} (h : vexPosition vex v = 3)
    (hpos : 0 < area2 vex) (i : Fin 3) : 0 < orient (vex i).xy (vex (i + 1)).xy v.xy := by
  have hxy : (⟨v.coord.x, v.coord.y, 0⟩ : GVector K).xy = v.xy := rfl
  unfold vexPosition at h
  dsimp only at h
  split_ifs at h with h1 h2 h3 h4 h5 h6 h7 <;> try omega
  rcases h7 with ⟨h01, h12, h20⟩ | ⟨h01, h12, h20⟩
  · have e01 := directZ_pos h01
    have e12 := directZ_pos h12
    have e20 := directZ_pos h20
    rw [hxy] at e01 e12 e20
    have hs := orient_split (vex 0).xy (vex 1).xy (vex 2).xy v.xy
    have r12 : orient v.xy (vex 1).xy (vex 2).xy = orient (vex 1).xy (vex 2).xy v.xy :=
      (orient_rotate _ _ _).symm
    have r20 : orient (vex 0).xy v.xy (vex 2).xy = orient (vex 2).xy (vex 0).xy v.xy :=
      orient_rotate (vex 2).xy (vex 0).xy v.xy
    rw [r12, r20] at hs
    unfold area2 at hpos
    linarith
  · have e01 := directZ_neg h01
    have e12 := directZ_neg h12
    have e20 := directZ_neg h20
    fin_cases i
    · exact e01
    · exact e12
    · exact e20

end TrigonGeometry

end MTalk.Triangle
