import MTalk.Triangle.QueryList
import MTalk.Library.WhileLoop

/-!
# Splitting trigons and flipping edges

`Queue`, `QueueNode`, `BasicOperation` and `InsertAlgorithm`. Every operation takes the net
to the net it leaves behind, or to the exception it throws.
-/

namespace MTalk.Triangle

open WhileLoop

namespace Net

variable {K : Type}

def setEtc (s : Net K) (t : TrigonRef) (i : Fin 3) (n : Option QueueNode) : Net K :=
  { s with etc := write s.etc t i n }

/-- Writes `nbtri[i]` and `nbvex[i]` of a trigon. -/
def setNeighbour (s : Net K) (t : TrigonRef) (i : Fin 3) (u : Option TrigonRef)
    (j : Option (Fin 3)) : Net K :=
  { s with nbtri := write s.nbtri t i u, nbvex := write s.nbvex t i j }

/-- Clears the `etc` entry on the far side of the side `i` of `t`. -/
def clearAcross (s : Net K) (t : TrigonRef) (i : Fin 3) : Except Stop (Net K) :=
  match s.nbtri t i with
  | none => pure s
  | some trigon2 => do
    let vid2 ← index (s.nbvex t i)
    pure (s.setEtc trigon2 vid2 none)

/-- `Queue.Delete`. -/
def queueDelete (s : Net K) (node : QueueNode) : Except Stop (Net K) := do
  let s ← (s.setEtc node.trigon node.vid none).clearAcross node.trigon node.vid
  return { s with queue := s.queue.erase node }

/-- `if (etc != null) Queue.Delete(etc)`. -/
def deleteEtc (s : Net K) : Option QueueNode → Except Stop (Net K)
  | none => pure s
  | some node => s.queueDelete node

/-- `Queue.Enter`. -/
def enter (s : Net K) (node : QueueNode) : Net K :=
  match s.nbtri node.trigon node.vid with
  | none => s.setEtc node.trigon node.vid none
  | some _ => { s with queue := s.queue ++ [node] }

/-- A new node for the side `i` of `t`, stored in `etc` and offered to the queue. -/
def enterEdge (s : Net K) (t : TrigonRef) (i : Fin 3) : Net K :=
  let edge : QueueNode := ⟨s.nodeCount, t, i⟩
  let s := { s with nodeCount := s.nodeCount + 1 }
  (s.setEtc t i (some edge)).enter edge

/-- `BasicOperation.DeleteEdge`. -/
def deleteEdge (s : Net K) (trigon : TrigonRef) (vid : Fin 3) : Except Stop (Net K) := do
  let s ← s.deleteEtc (s.etc trigon vid)
  match s.nbtri trigon vid with
  | none => pure s
  | some pt => do
    let vid1 ← index (s.nbvex trigon vid)
    s.deleteEtc (s.etc pt vid1)

/-- One round of the loop in `DeleteTrigon`: the edge leaves the queue and the neighbour
forgets the trigon. -/
def detachSide (trigon : TrigonRef) (s : Net K) (i : Fin 3) : Except Stop (Net K) := do
  let p := s.nbtri trigon i
  let vid := s.nbvex trigon i
  let s ← s.deleteEdge trigon i
  match p with
  | none => pure s
  | some p => do
    let vid ← index vid
    pure (s.setNeighbour p vid none none)

/-- One round of the loop in `InsertTrigon`: the neighbour learns about the trigon. -/
def attachSide (trigon : TrigonRef) (s : Net K) (i : Fin 3) : Except Stop (Net K) :=
  match s.nbtri trigon i with
  | none => pure s
  | some p => do
    let vid ← index (s.nbvex trigon i)
    pure (s.setNeighbour p vid (some trigon) (some i))

/-- One round of the loop in `CheckTrigonEdge`. -/
def checkSide (trigon : TrigonRef) (s : Net K) (i : Fin 3) : Except Stop (Net K) :=
  match s.nbtri trigon i with
  | none => pure s
  | some pn => do
    let vid ← index (s.nbvex trigon i)
    if s.etc trigon i = none ∧ s.etc pn vid = none then pure (s.enterEdge trigon i) else pure s

def checkTrigonEdge (s : Net K) (trigon : TrigonRef) : Except Stop (Net K) :=
  [0, 1, 2].foldlM (checkSide trigon) s

/-- `QueueNode.RemoveEdge`. -/
def removeEdge (s : Net K) (node : QueueNode) : Except Stop (Net K) := do
  let s := if s.etc node.trigon node.vid = some node then s.setEtc node.trigon node.vid none else s
  let t1 ← deref (s.nbtri node.trigon node.vid)
  let vid1 ← index (s.nbvex node.trigon node.vid)
  return if s.etc t1 vid1 = some node then s.setEtc t1 vid1 none else s

section Fresh

variable [Zero K]

/-- The references of the three trigons that `InsertMid` creates. -/
def mids (s : Net K) (i : Fin 3) : TrigonRef := s.trigonCount + i

/-- The `i`th of them: vertex `i` of the old trigon is replaced by `v`. -/
def newMid (s : Net K) (v : Vertex K) (t : TrigonRef) (r : Net K) (i : Fin 3) : Net K :=
  r.newTrigon (fun j => if i ≠ j then s.vex t j else v)
    (fun j => if i ≠ j then some (s.mids j) else s.nbtri t j)
    (fun j => if i ≠ j then some i else s.nbvex t i)

/-- The loops of `InsertMid` that fill the three new trigons. -/
def newMids (s : Net K) (v : Vertex K) (t : TrigonRef) : Net K :=
  [0, 1, 2].foldl (s.newMid v t) s

/-- The assignments of `ChangeEdge` that fill the two new trigons. -/
def newPair (s : Net K) (p1 : TrigonRef) (vid : Fin 3) (p2 : TrigonRef) (vid1 : Fin 3) : Net K :=
  let new1 := s.trigonCount
  let new2 := s.trigonCount + 1
  (s.newTrigon ![s.vex p1 vid, s.vex p1 (vid + 1), s.vex p2 vid1]
      ![s.nbtri p2 (vid1 + 1), some new2, s.nbtri p1 (vid + 2)]
      ![s.nbvex p2 (vid1 + 1), some 1, s.nbvex p1 (vid + 2)]).newTrigon
    ![s.vex p2 vid1, s.vex p2 (vid1 + 1), s.vex p1 vid]
    ![s.nbtri p1 (vid + 1), some new1, s.nbtri p2 (vid1 + 2)]
    ![s.nbvex p1 (vid + 1), some 1, s.nbvex p2 (vid1 + 2)]

end Fresh

variable [Field K] [LinearOrder K] [FloorRing K]

def deleteTrigon (s : Net K) (trigon : TrigonRef) : Except Stop (Net K) := do
  let s ← QueryList.delete s trigon
  let s ← [0, 1, 2].foldlM (detachSide trigon) s
  return { s with np := { s.np with not := s.np.not - 1 } }

def insertTrigon (s : Net K) (trigon : TrigonRef) : Except Stop (Net K) := do
  let s ← [0, 1, 2].foldlM (attachSide trigon) s
  let s ← QueryList.insert s trigon
  return { s with np := { s.np with not := s.np.not + 1 } }

def insertMid (s : Net K) (v : Vertex K) (t : TrigonRef) : Except Stop (Net K) := do
  let pT := s.mids
  let s := s.newMids v t
  let s ← s.deleteTrigon t
  let s ← [0, 1, 2].foldlM (fun s i => s.insertTrigon (pT i)) s
  return [0, 1, 2].foldl (fun s i => s.enterEdge (pT i) i) s

/-- The test of `ChangeEdge` before it re-enters an outer edge. -/
def enterOuter (s : Net K) (t : TrigonRef) (i : Fin 3) : Net K :=
  if s.nbtri t i = none then s else s.enterEdge t i

def changeEdge (s : Net K) (edge : QueueNode) : Except Stop (Net K) := do
  let p1 := edge.trigon
  let vid := edge.vid
  match s.nbtri p1 vid with
  | none => pure s
  | some p2 => do
    let vid1 ← index (s.nbvex p1 vid)
    let new1 := s.trigonCount
    let new2 := s.trigonCount + 1
    let s := s.newPair p1 vid p2 vid1
    let s ← s.deleteTrigon p1
    let s ← s.deleteTrigon p2
    let s ← s.insertTrigon new1
    let s ← s.insertTrigon new2
    return (((s.enterOuter new1 0).enterOuter new1 2).enterOuter new2 0).enterOuter new2 2

/-- `QueueNode.Exchangable`; the vertex across the edge is `vertex`. -/
def exchangable (s : Net K) (node : QueueNode) : Except Stop Bool := do
  let trigon2 ← deref (s.nbtri node.trigon node.vid)
  let vid2 ← index (s.nbvex node.trigon node.vid)
  let vertex := (s.vex trigon2 vid2).coord
  let v := fun i => (s.vex node.trigon i).coord
  let dx0 := (v 0).x - vertex.x
  let dx1 := (v 1).x - vertex.x
  let dx2 := (v 2).x - vertex.x
  let dz0 := (v 0).y - vertex.y
  let dz1 := (v 1).y - vertex.y
  let dz2 := (v 2).y - vertex.y
  let t := (dx0 * dz1 - dx1 * dz0) * (dx2 * dx2 + dz2 * dz2) -
    (dx0 * dz2 - dx2 * dz0) * (dx1 * dx1 + dz1 * dz1) +
    (dx1 * dz2 - dx2 * dz1) * (dx0 * dx0 + dz0 * dz0)
  return if t = 0 then true else if t < 0 then false else true

/-- The body of `Queue.Process`. -/
def processBody (s : Net K) : Except Stop (Option (Net K)) :=
  match s.queue with
  | [] => pure none
  | edge :: rest => do
    let s := { s with queue := rest }
    if ← s.exchangable edge then
      let s ← s.changeEdge edge
      pure (some s)
    else
      let s ← s.removeEdge edge
      pure (some s)

/-- `Queue.Process`. -/
def process (fuel : ℕ) (s : Net K) : Except Stop (Net K) := run .running processBody fuel s

end Net

end MTalk.Triangle
