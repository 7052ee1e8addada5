import MTalk.Triangle.InsertAlgorithm

/-!
# Triangulating the start polygon

The circular list of `Polygon` is the list of its nodes in order from `header`; `vnumber` is
its length. `triangulize` cuts off one trigon at a time and keeps in each node the trigon that
lies behind the edge to the next node.
-/

namespace MTalk.Triangle

open GeoMath

structure PolygonNode (K : Type) where
  vertex : Vertex K
  trigon : Option TrigonRef
  vid : Option (Fin 3)

namespace Polygon

variable {K : Type}

/-- The polygon that `insertNode` builds from its vertices. -/
def ofVertices (vs : List (Vertex K)) : List (PolygonNode K) := vs.map fun v => ⟨v, none, none⟩

/-- `header = header.next`. -/
def turn : List (PolygonNode K) → List (PolygonNode K)
  | [] => []
  | h :: rest => rest ++ [h]

variable [Field K] [LinearOrder K]

/-- The contribution of the edge `p1 p2` to the count of `insidePolygon`; `p3` and `p4` are
the nodes that follow. -/
def crossing (v faraway p1 p2 p3 p4 : GVector K) : Bool :=
  let b1 := interSect1 v faraway p1 p2
  let b2 := onLine p2 v faraway
  let b3 := onLine p3 v faraway
  let b4 := sameSide1 p1 p3 v faraway
  let b5 := onLine p3 v faraway
  let b6 := sameSide1 p1 p4 v faraway
  let b7 := !b3 && !b4
  let b8 := b5 && !b6
  b1 || (b2 && (b7 || b8))

/-- The coordinates of the nodes, in order. -/
def coords (nodes : List (PolygonNode K)) : List (GVector K) := nodes.map fun n => n.vertex.coord

def insidePolygon (nodes : List (PolygonNode K)) (v : GVector K) : Bool :=
  let cs := coords nodes
  let n := cs.length
  let at_ := fun i => cs.getD (i % n) ⟨0, 0, 0⟩
  let faraway : GVector K := ⟨10000000, 0, 0⟩
  let c := (List.range n).countP fun i =>
    crossing v faraway (at_ i) (at_ (i + 1)) (at_ (i + 2)) (at_ (i + 3))
  c % 2 ≠ 0

/-- The far point of `insidePolygon`. -/
def faraway : GVector K := ⟨10000000, 0, 0⟩

/-- Whether the trigon of the first three nodes can be cut off. -/
def cutable (nodes : List (PolygonNode K)) : Bool :=
  let cs := coords nodes
  let n := cs.length
  let at_ := fun i => cs.getD (i % n) ⟨0, 0, 0⟩
  if n = 3 then true
  else
    let v1 := at_ 0
    let v2 := at_ 2
    let temp : GVector K := ⟨(v1.x + v2.x) / 2, (v1.y + v2.y) / 2, 0⟩
    if !insidePolygon nodes temp then false
    else if n = 4 then true
    else (List.range (n - 4)).all fun i => !interSect v1 v2 (at_ (i + 3)) (at_ (i + 4))

variable [FloorRing K]

/-- `appendTrigon`: the trigon of the first three nodes enters the net and its middle node
leaves the polygon. -/
def appendTrigon (s : Net K) (nodes : List (PolygonNode K)) :
    Except Stop (Net K × List (PolygonNode K)) :=
  let pt := s.trigonCount
  match nodes with
  | [h, b, c] => do
    let s := s.newTrigon ![h.vertex, b.vertex, c.vertex] ![b.trigon, c.trigon, h.trigon]
      ![b.vid, c.vid, h.vid]
    let s ← s.insertTrigon pt
    let s ← s.checkTrigonEdge pt
    return (s, [])
  | h :: b :: c :: rest => do
    let s := s.newTrigon ![h.vertex, b.vertex, c.vertex] ![b.trigon, none, h.trigon]
      ![b.vid, none, h.vid]
    let s ← s.insertTrigon pt
    let s ← s.checkTrigonEdge pt
    return (s, { h with trigon := some pt, vid := some 1 } :: c :: rest)
  | _ => .error .nullPointer

/-- One call of `triangulize` up to its recursive call. -/
def triangulizeBody (sp : Net K × List (PolygonNode K)) :
    Except Stop (Option (Net K × List (PolygonNode K))) :=
  if sp.2.length = 0 ∨ sp.2.length = 2 then pure none
  else if cutable sp.2 then do
    let sp ← appendTrigon sp.1 sp.2
    pure (some sp)
  else pure (some (sp.1, turn sp.2))

/-- `triangulize`. -/
def triangulize (fuel : ℕ) (s : Net K) (nodes : List (PolygonNode K)) : Except Stop (Net K) := do
  let sp ← WhileLoop.run .running triangulizeBody fuel (s, nodes)
  return sp.1

end Polygon

/-- `TrigonNet.InitTriang`. -/
def Net.initTriang {K : Type} [Field K] [LinearOrder K] [FloorRing K] (fuel : ℕ) (s : Net K)
    (startpolygon : List (PolygonNode K)) : Except Stop (Net K) := do
  let s ← Polygon.triangulize fuel s startpolygon
  s.process fuel

end MTalk.Triangle
