import MTalk.Library.GuardedRuns
import MTalk.Library.JavaArrays
import MTalk.Triangle.GeoMath

/-!
# Contours of a grid

`Matrix` traces the contours of heights on a grid. Every node owns three edges, to the node in the
next row, to the node across the diagonal and to the node in the next column, and an edge is one
number for its node and its kind. `Next` and `Pre` go by arithmetic on that number to the edges on
either side of it, and the flag `-1` marks the numbers that are no edges. The arithmetic is that of
the integers: on a grid whose flags fit in an array it stays below the size of that array.
-/

namespace MTalk.Triangle.MatrixCon

open MTalk.GuardedRuns JavaArrays

/-- A point of a contour, with the edge that it is on. The source keeps the point alone. -/
structure EdgePoint (K : Type) where
  edge : ℤ
  coord : GVector K
deriving DecidableEq

/-- The fields of `Matrix` that the contours use. -/
structure Matrix (K : Type) where
  state : ℤ
  col : ℤ
  row : ℤ
  data : List (List K)
  flag : List ℤ
  minx : K
  maxx : K
  miny : K
  maxy : K
  curh : K
  cur : ℤ
  prev : ℤ
  start : ℤ
  curCon : List (EdgePoint K)
  conset : List (List (EdgePoint K))
  rev : Bool

namespace Matrix

variable {K : Type}

/-- `new Matrix()`. -/
def new [Zero K] : Matrix K where
  state := 0
  col := 0
  row := 0
  data := []
  flag := []
  minx := 0
  maxx := 0
  miny := 0
  maxy := 0
  curh := 0
  cur := 0
  prev := 0
  start := 0
  curCon := []
  conset := []
  rev := false

/-- One round of the loops of `reset`. -/
def resetNode (row col i j : ℤ) (flag : List ℤ) : Except Stop (List ℤ) := do
  let n := (i * col + j) * 3
  let flag ← store .indexOutOfBounds flag (n + 2) 0
  let flag ← store .indexOutOfBounds flag (n + 1) 0
  let flag ← store .indexOutOfBounds flag n 0
  let flag ←
    if j.tmod col = col - 1 then do
      let flag ← store .indexOutOfBounds flag (n + 1) (-1)
      store .indexOutOfBounds flag (n + 2) (-1)
    else .ok flag
  if i = row - 1 then do
    let flag ← store .indexOutOfBounds flag n (-1)
    store .indexOutOfBounds flag (n + 1) (-1)
  else .ok flag

def reset (m : Matrix K) : Except Stop (Matrix K) := do
  let flag ← (List.range m.row.toNat).foldlM (fun flag (i : ℕ) =>
    (List.range m.col.toNat).foldlM (fun flag (j : ℕ) => resetNode m.row m.col i j flag) flag)
    m.flag
  .ok { m with flag := flag, rev := false, prev := -1 }

/-- `Initiate`. -/
def initiate [Zero K] (m : Matrix K) (x0 y0 x1 y1 : K) (row col : ℕ) :
    Except Stop (Matrix K × Bool) :=
  if m.state ≠ 0 then .ok (m, false)
  else do
    let m ← reset { m with
      row := row
      col := col
      minx := x0
      miny := y0
      maxx := x1
      maxy := y1
      data := List.replicate row (List.replicate col 0)
      flag := List.replicate (col * row * 3) 0 }
    .ok (m, true)

/-- `data[i][j]`. -/
def getZ (m : Matrix K) (i j : ℤ) : Except Stop K := do
  let d ← load .indexOutOfBounds m.data i
  load .indexOutOfBounds d j

def setElement (m : Matrix K) (i j : ℤ) (z : K) : Except Stop (Matrix K) := do
  let d ← load .indexOutOfBounds m.data i
  let d ← store .indexOutOfBounds d j z
  let data ← store .indexOutOfBounds m.data i d
  .ok { m with data := data }

/-- Row and column of the node that owns an edge. -/
def startNode (m : Matrix K) (index : ℤ) : ℤ × ℤ :=
  let n := index.tdiv 3
  (n.tdiv m.col, n.tmod m.col)

/-- Row and column of the other end of an edge. -/
def endNode (m : Matrix K) (index : ℤ) : ℤ × ℤ :=
  let (r, c) := m.startNode index
  match index.tmod 3 with
  | 0 => (r + 1, c)
  | 1 => (r + 1, c + 1)
  | 2 => (r, c + 1)
  | _ => (r, c)

def getStart (m : Matrix K) (index : ℤ) : Except Stop K :=
  m.getZ (m.startNode index).1 (m.startNode index).2

def getEnd (m : Matrix K) (index : ℤ) : Except Stop K :=
  m.getZ (m.endNode index).1 (m.endNode index).2

/-- `Pre`. -/
def preEdge (m : Matrix K) (index order : ℤ) : ℤ :=
  match index.tmod 3 with
  | 0 => if order = 0 then index - 1 else index - 2
  | 1 => if order = 0 then index - 1 else index + 3 * m.col + 1
  | 2 => if order = 0 then index - m.col * 3 - 1 else index - m.col * 3 - 2
  | _ => -2

/-- `Next`; the method `next` is another one. -/
def nextEdge (m : Matrix K) (index order : ℤ) : ℤ :=
  match index.tmod 3 with
  | 0 => if order = 0 then index + m.col * 3 + 2 else index + 1
  | 1 => if order = 0 then index + 2 else index + 1
  | 2 => if order = 0 then index - 1 else index + 1
  | _ => -2

/-- The end of `Candidate`. -/
def accept (m : Matrix K) (c : ℤ) : Except Stop ℤ :=
  if c < 0 then .ok (-1)
  else do
    let f ← load .indexOutOfBounds m.flag c
    if f = -1 then .ok (-1) else .ok c

def candidate (m : Matrix K) (order : ℤ) : Except Stop ℤ :=
  m.accept <|
    if m.prev = m.preEdge m.cur 0 ∨ m.prev = m.preEdge m.cur 1 ∨ m.prev = -1 then
      m.nextEdge m.cur order
    else m.preEdge m.cur order

def addnode (m : Matrix K) (node : EdgePoint K) : Matrix K :=
  { m with curCon := if m.rev then node :: m.curCon else m.curCon ++ [node] }

variable [Field K]

def getX (m : Matrix K) (index : ℤ) : K :=
  m.minx + (m.startNode index).2 * (m.maxx - m.minx) / m.col

def getY (m : Matrix K) (index : ℤ) : K :=
  m.miny + (m.startNode index).1 * (m.maxy - m.miny) / m.row

def getEX (m : Matrix K) (index : ℤ) : K :=
  m.minx + (m.endNode index).2 * (m.maxx - m.minx) / m.col

def getEY (m : Matrix K) (index : ℤ) : K :=
  m.miny + (m.endNode index).1 * (m.maxy - m.miny) / m.row

variable [LinearOrder K]

def intersect (m : Matrix K) (index : ℤ) : Except Stop (Option (GVector K)) :=
  if index < 0 then .ok none
  else do
    let s ← m.getStart index
    let e ← m.getEnd index
    let z1 := if s > e then e else s
    let z2 := if s > e then s else e
    if z1 = z2 ∧ m.curh = z1 then
      .ok (some ⟨(m.getX index + m.getEX index) / 2, (m.getY index + m.getEY index) / 2, m.curh⟩)
    else if m.curh ≥ z1 ∧ m.curh ≤ z2 then
      .ok (some ⟨m.getX index + (m.getEX index - m.getX index) * (m.curh - s) / (e - s),
        m.getY index + (m.getEY index - m.getY index) * (m.curh - s) / (e - s), m.curh⟩)
    else .ok none

/-- The move of `next` to a crossed edge. -/
def move (m : Matrix K) (c : ℤ) (node : GVector K) : Except Stop (Matrix K × Bool) := do
  let flag ← store .indexOutOfBounds m.flag c 1
  let m := { m with flag := flag, prev := m.cur, cur := c }.addnode ⟨c, node⟩
  .ok (m, decide (m.cur ≠ m.start))

def next (m : Matrix K) : Except Stop (Matrix K × Bool) := do
  let c1 ← m.candidate 0
  let c2 ← m.candidate 1
  let nex1 ← m.intersect c1
  let nex2 ← m.intersect c2
  match nex1, nex2 with
  | none, none =>
    if m.rev = false then
      .ok ({ m with start := m.cur, cur := m.start, rev := true, prev := -2 }, false)
    else .ok ({ m with rev := false }, false)
  | some node, _ => m.move c1 node
  | none, some node => m.move c2 node

/-- `while (next());`. -/
def walk : ℕ → Matrix K → Except Stop (Matrix K)
  | 0, _ => .error .running
  | fuel + 1, m => do
    let (m, more) ← m.next
    if more then walk fuel m else .ok m

/-- `GetOneSeg`. -/
def getOneSeg (fuel : ℕ) (m : Matrix K) : Except Stop (Matrix K) := do
  let m ← walk fuel m
  if m.rev then walk fuel m else .ok m

/-- What `GetContourSet` sets before it traces a contour from an edge. -/
def begin (m : Matrix K) (i : ℤ) (sect : GVector K) : Except Stop (Matrix K) := do
  let flag ← store .indexOutOfBounds m.flag i 1
  .ok { m with flag := flag, curCon := [⟨i, sect⟩], cur := i, start := i, prev := -1 }

/-- One round of the loop of `GetContourSet`. -/
def scan (fuel : ℕ) (m : Matrix K) (i : ℤ) : Except Stop (Matrix K) := do
  let f ← load .indexOutOfBounds m.flag i
  if f = 0 then
    match ← m.intersect i with
    | none => .ok m
    | some sect =>
      let m ← m.begin i sect
      let m ← m.getOneSeg fuel
      .ok { m with conset := m.conset ++ [m.curCon], curCon := [] }
  else .ok m

/-- `GetContourSet`; the method `getContourSet` calls it. -/
def contourSet (fuel : ℕ) (m : Matrix K) : Except Stop (Matrix K) := do
  let m ← (List.range (3 * m.col * m.row).toNat).foldlM (fun m (i : ℕ) => m.scan fuel i)
    { m with conset := [] }
  m.reset

def getContourSet (fuel : ℕ) (m : Matrix K) (z : K) :
    Except Stop (Matrix K × List (List (EdgePoint K))) := do
  let m ← contourSet fuel { m with curh := z }
  .ok ({ m with conset := [] }, m.conset)

/-- One round of the loops of `createMesh` that take the heights. -/
def evalueNode (evalue : K → K → K) (m : Matrix K) (i j : ℕ) : Except Stop (Matrix K) :=
  m.setElement i j (evalue (m.minx + j * (m.maxx - m.minx) / m.col)
    (m.miny + i * (m.maxy - m.miny) / m.row))

/-- `createMesh`, where `evalue` is `Evalue` of the surface. -/
def createMesh (m : Matrix K) (evalue : K → K → K) (x0 y0 x1 y1 : K) (r c : ℕ) :
    Except Stop (Matrix K) := do
  let (m, _) ← m.initiate x0 y0 x1 y1 r c
  let m ← (List.range m.row.toNat).foldlM (fun m (i : ℕ) =>
    (List.range m.col.toNat).foldlM (fun m (j : ℕ) => evalueNode evalue m i j) m) m
  .ok { m with state := 2 }

/-- The states of a grid, and whether a contour is traced. `next` is taken while a contour is
traced, and everything else between two contours or two calls. -/
inductive Reachable (row col : ℕ) : Bool → Matrix K → Prop
  | initiate {m₀ m : Matrix K} {b : Bool} (x0 y0 x1 y1 : K) (hstate : m₀.state = 0)
      (h : m₀.initiate x0 y0 x1 y1 row col = .ok (m, b)) : Reachable row col false m
  | setElement {m m' : Matrix K} {i j : ℤ} {z : K} (hm : Reachable row col false m)
      (h : m.setElement i j z = .ok m') : Reachable row col false m'
  | created {m : Matrix K} (hm : Reachable row col false m) :
      Reachable row col false { m with state := 2 }
  | level {m : Matrix K} (z : K) (hm : Reachable row col false m) :
      Reachable row col false { m with curh := z, conset := [] }
  | begin {m m' : Matrix K} {i : ℤ} {sect : GVector K} (hm : Reachable row col false m)
      (hflag : load Stop.indexOutOfBounds m.flag i = .ok 0)
      (hsect : m.intersect i = .ok (some sect)) (h : m.begin i sect = .ok m') :
      Reachable row col true m'
  | next {m m' : Matrix K} {more : Bool} (hm : Reachable row col true m)
      (h : m.next = .ok (m', more)) : Reachable row col true m'
  | collect {m : Matrix K} (hm : Reachable row col true m) :
      Reachable row col false { m with conset := m.conset ++ [m.curCon], curCon := [] }
  | reset {m m' : Matrix K} (hm : Reachable row col false m) (h : m.reset = .ok m') :
      Reachable row col false m'
  | give {m : Matrix K} (hm : Reachable row col false m) :
      Reachable row col false { m with conset := [] }

end Matrix

end MTalk.Triangle.MatrixCon
