import MTalk.Triangle.NetRuns
import MTalk.Library.PartialWalks

/-!
# Tracing a contour

`Contour` follows a level through the net. It enters a trigon by one side and leaves it by the first
of the two others that the level crosses. At the boundary of the net it turns round: the list is
cleared and the walk goes the other way from there. When a walk leaves by the second side it tests
for the start trigon too, and the entry side it turns round with is that of the first branch.
-/

namespace MTalk.Triangle

open GeoMath

/-- A point of a contour, with the side that it is on. The source keeps the point alone. -/
structure SidePoint (K : Type) where
  side : TrigonRef × Fin 3
  coord : GVector K
deriving DecidableEq

/-- The fields of `Contour` but for the level and the net. -/
structure Contour (K : Type) where
  list : List (SidePoint K)
  startTrigon : Option TrigonRef
  currentTrigon : Option TrigonRef
  currentVector : SidePoint K
  currentVID : Option (Fin 3)
  reverse : Bool

/-- What `GetNext` ends with: `false`, `true`, or `false` after an inner `go()`. -/
inductive Flow where
  | stop
  | next
  | turn
  deriving DecidableEq

namespace Net

variable {K : Type} [Field K] [LinearOrder K] (s : Net K) (z : K)

/-- Whether the level crosses the side opposite a vertex. -/
def crosses (t : TrigonRef) (i : Fin 3) : Bool :=
  isCross (s.vex t (i + 1)).coord (s.vex t (i + 2)).coord z

/-- The point of the level on the side opposite a vertex. -/
def sect (t : TrigonRef) (i : Fin 3) : SidePoint K :=
  ⟨(t, i), getSectLevel (s.vex t (i + 1)).coord (s.vex t (i + 2)).coord z⟩

/-- `QueryList.GetCrossTrigon`: the first trigon of the cells that is not visited and that the level
meets. -/
def getCrossTrigon : Option TrigonRef :=
  ((indices 0 (s.listp.nx - 1)).flatMap fun i =>
    (indices 0 (s.listp.ny - 1)).flatMap fun j => s.cells i j).find? fun p =>
      minz (s.vex p) ≤ z ∧ z ≤ maxz (s.vex p) ∧ s.visited p = false

/-- The first side that `GetFirst` finds crossed: it looks at the sides from vertex to vertex. -/
def firstSide (p : TrigonRef) : Option (Fin 3) := [2, 0, 1].find? fun i => s.crosses z p i

end Net

namespace Contour

variable {K : Type}

/-- `Insert`. -/
def insert (c : Contour K) : Contour K := { c with list := c.list ++ [c.currentVector] }

/-- The walk turns round in a trigon. -/
def turn (c : Contour K) (temp : TrigonRef) (vid : Fin 3) : Contour K where
  list := [c.currentVector]
  startTrigon := some temp
  currentTrigon := some temp
  currentVector := c.currentVector
  currentVID := some vid
  reverse := true

/-- The end of `GetNext`. -/
def arrive (c : Contour K) : Contour K × Flow :=
  let c := c.insert
  if c.currentTrigon = c.startTrigon then (c, .stop)
  else if c.currentTrigon = none ∧ c.reverse then (c, .stop)
  else (c, .next)

/-- The move across a side. -/
def cross (c : Contour K) (s : Net K) (point : SidePoint K) (t : TrigonRef) (i : Fin 3) :
    Contour K :=
  { c with currentVector := point, currentTrigon := s.nbtri t i, currentVID := s.nbvex t i }

variable [Field K] [LinearOrder K] (s : Net K) (z : K)

/-- `GetFirst`, after `GetCrossTrigon` has given a trigon. Without a crossed side the index stays
`-1`. -/
def getFirst (p : TrigonRef) : Contour K :=
  insert {
    list := []
    startTrigon := some p
    currentTrigon := some p
    currentVector := s.sect z p ((s.firstSide z p).getD 0)
    currentVID := s.firstSide z p
    reverse := false }

/-- `GetNext` up to its inner `go()`. -/
def getNext (c : Contour K) : Except Stop (Contour K × Flow) := do
  let t ← deref c.currentTrigon
  let vid ← index c.currentVID
  let b1 := vid + 1
  let b2 := vid + 2
  if s.crosses z t b2 then
    let c := c.cross s (s.sect z t b2) t b2
    if c.currentTrigon = none ∧ c.reverse = false then .ok (c.turn t b2, .turn)
    else .ok c.arrive
  else if s.crosses z t b1 then
    let c := c.cross s (s.sect z t b1) t b1
    if (c.currentTrigon = none ∨ c.currentTrigon = c.startTrigon) ∧ c.reverse = false then
      .ok (c.turn t b2, .turn)
    else .ok c.arrive
  else .ok c.arrive

/-- `go`. The inner `go()` of a `GetNext` is the rest of the walk, since `GetNext` gives `false`
after it. -/
def go : ℕ → Contour K → Except Stop (Contour K)
  | 0, _ => .error .running
  | n + 1, c => do
    let (c, flow) ← c.getNext s z
    match flow with
    | .stop => .ok c
    | .next => go n c
    | .turn => go n c

/-- `ExtractSegment` from a start trigon. -/
def extractFrom (fuel : ℕ) (p : TrigonRef) : Except Stop (Contour K) := (getFirst s z p).go s z fuel

/-- `ExtractSegment`: the net with the trigon marked, and the contour if there is one. -/
def extractSegment (fuel : ℕ) : Except Stop (Net K × Option (Contour K)) :=
  match s.getCrossTrigon z with
  | none => .ok (s, none)
  | some p => do
    let c ← extractFrom s z fuel p
    .ok ({ s with visited := Function.update s.visited p true }, some c)

end Contour

end MTalk.Triangle
