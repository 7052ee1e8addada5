import MTalk.Triangle.MatrixCon

/-!
# The edge arithmetic of a grid

`Next` and `Pre` against the triangles of the lattice. An edge is two nodes, and it lies in two
triangles of the lattice. `Next` goes across the one and `Pre` across the other where these are
triangles of the grid, and where they are not the numbers are negative or their flags are `-1`.
-/

namespace MTalk.Triangle.MatrixCon

open MTalk.GuardedRuns JavaArrays

/-- A triangle of the lattice: the half of a cell below or above its diagonal. -/
structure CellTriangle where
  i : ℤ
  j : ℤ
  upper : Bool
deriving DecidableEq

namespace CellTriangle

/-- The corners, as row and column. -/
def corners (T : CellTriangle) : List (ℤ × ℤ) :=
  [(T.i, T.j), if T.upper then (T.i, T.j + 1) else (T.i + 1, T.j), (T.i + 1, T.j + 1)]

end CellTriangle

section Spec

variable {K : Type} (m : Matrix K)

namespace Matrix

/-- The triangle is one of the grid. -/
def HasTriangle (T : CellTriangle) : Prop :=
  0 ≤ T.i ∧ T.i + 1 < m.row ∧ 0 ≤ T.j ∧ T.j + 1 < m.col

/-- The edge numbers. -/
def IsEdge (e : ℤ) : Prop := 0 ≤ e ∧ e < 3 * m.row * m.col

def IsSide (T : CellTriangle) (e : ℤ) : Prop :=
  m.IsEdge e ∧ m.startNode e ∈ T.corners ∧ m.endNode e ∈ T.corners

/-- The two edges that `Next` or `Pre` gives are the other two sides of the triangle. -/
structure OtherSides (go : ℤ → ℤ → ℤ) (T : CellTriangle) (e : ℤ) : Prop where
  distinct : go e 0 ≠ go e 1 ∧ go e 0 ≠ e ∧ go e 1 ≠ e
  sides : ∀ f, m.IsSide T f ↔ f = e ∨ f = go e 0 ∨ f = go e 1

/-- If the triangle is one of the grid the two edges are its other two sides and `Candidate` takes
them, and otherwise `Candidate` rejects them. -/
def Across (go : ℤ → ℤ → ℤ) (T : CellTriangle) (e : ℤ) : Prop :=
  (m.HasTriangle T ∧ m.OtherSides go T e ∧
      ∀ order ∈ [0, 1], m.accept (go e order) = .ok (go e order)) ∨
    (¬ m.HasTriangle T ∧ ∀ order ∈ [0, 1], m.accept (go e order) = .ok (-1))

/-- The edge `f` is reached from `e` across the triangle. -/
def ReachedAcross (T : CellTriangle) (e f : ℤ) : Prop :=
  m.HasTriangle T ∧ ∃ go ∈ [m.nextEdge, m.preEdge], m.OtherSides go T e ∧ ∃ order ∈ [0, 1],
    f = go e order

variable [Field K] [LinearOrder K]

/-- The arithmetic is right at an edge. -/
structure EdgeSound (e : ℤ) : Prop where
  across : ∃ N P : CellTriangle, N ≠ P ∧ (∀ T, m.IsSide T e ↔ T = N ∨ T = P) ∧
    m.Across m.nextEdge N e ∧ m.Across m.preEdge P e
  symmetric : ∀ T f, m.ReachedAcross T e f → m.ReachedAcross T f e
  ends : Returns (m.getStart e) (fun _ => True) ∧ Returns (m.getEnd e) (fun _ => True) ∧
    Returns (m.intersect e) (fun _ => True)
  candidate : ∀ prev, ∀ order ∈ [0, 1],
    Returns ({ m with cur := e, prev := prev }.candidate order) fun c =>
      Returns (m.intersect c) fun _ => True

/-- The arithmetic is right at every edge that the flags leave, and no index that the contours use
is out of range. -/
structure GridSound (tracing : Bool) : Prop where
  edge : ∀ e, m.IsEdge e → load Stop.indexOutOfBounds m.flag e ≠ .ok (-1) → m.EdgeSound e
  next : tracing = true → Returns m.next fun _ => True
  contours : ∀ fuel z, m.getContourSet fuel z ≠ .error .indexOutOfBounds

end Matrix

end Spec

namespace Matrix

variable {K : Type} {m : Matrix K} {i j k e : ℤ}

section Lattice

/-- The number of the edge of kind `k` at a node. -/
def edgeAt (m : Matrix K) (i j k : ℤ) : ℤ := 3 * (i * m.col + j) + k

/-- Row, column and kind are those of an edge number. -/
structure At (m : Matrix K) (i j k : ℤ) : Prop where
  row : 0 ≤ i ∧ i < m.row
  col : 0 ≤ j ∧ j < m.col
  kind : k = 0 ∨ k = 1 ∨ k = 2

lemma At.of_size {m' : Matrix K} (h : m.At i j k) (hrow : m'.row = m.row) (hcol : m'.col = m.col) :
    m'.At i j k := by
  constructor
  · rw [hrow]
    exact h.row
  · rw [hcol]
    exact h.col
  · exact h.kind

lemma At.node_nonneg (h : m.At i j k) : 0 ≤ i * m.col + j := by
  have := mul_nonneg h.row.1 (h.col.1.trans h.col.2.le)
  linarith [h.col.1]

lemma At.tdiv_three (h : m.At i j k) : (m.edgeAt i j k).tdiv 3 = i * m.col + j := by
  have hn := h.node_nonneg
  have hk := h.kind
  rw [edgeAt, Int.tdiv_eq_ediv_of_nonneg (by omega)]
  omega

lemma At.tmod_three (h : m.At i j k) : (m.edgeAt i j k).tmod 3 = k := by
  have hn := h.node_nonneg
  have hk := h.kind
  rw [edgeAt, Int.tmod_eq_emod_of_nonneg (by omega)]
  omega

lemma At.startNode (h : m.At i j k) : m.startNode (m.edgeAt i j k) = (i, j) := by
  have hpos : 0 < m.col := h.col.1.trans_lt h.col.2
  rw [Matrix.startNode, h.tdiv_three]
  ext
  · change (i * m.col + j).tdiv m.col = i
    rw [Int.tdiv_eq_ediv_of_nonneg h.node_nonneg, Int.add_comm, Int.add_mul_ediv_right _ _ hpos.ne',
      Int.ediv_eq_zero_of_lt h.col.1 h.col.2, zero_add]
  · change (i * m.col + j).tmod m.col = j
    rw [Int.tmod_eq_emod_of_nonneg h.node_nonneg, Int.add_comm, Int.add_mul_emod_self_right,
      Int.emod_eq_of_lt h.col.1 h.col.2]

/-- The other end of an edge of a kind. -/
def otherEnd (i j k : ℤ) : ℤ × ℤ := (if k = 2 then i else i + 1, if k = 0 then j else j + 1)

lemma At.endNode (h : m.At i j k) : m.endNode (m.edgeAt i j k) = otherEnd i j k := by
  rw [Matrix.endNode, h.startNode, h.tmod_three]
  obtain rfl | rfl | rfl := h.kind
  · rfl
  · rfl
  · rfl

lemma At.isEdge (h : m.At i j k) : m.IsEdge (m.edgeAt i j k) := by
  have hn := h.node_nonneg
  have hk := h.kind
  have hrow : (i + 1) * m.col ≤ m.row * m.col :=
    mul_le_mul_of_nonneg_right (by linarith [h.row.2]) (h.col.1.trans h.col.2.le)
  have hcol := h.col.2
  constructor
  · rw [edgeAt]
    omega
  · rw [edgeAt, mul_assoc]
    rw [add_mul, one_mul] at hrow
    omega

lemma IsEdge.exists_at (h : m.IsEdge e) (hcol : 0 ≤ m.col) :
    ∃ i j k, m.At i j k ∧ e = m.edgeAt i j k := by
  have hpos : 0 < m.col := by
    rcases hcol.eq_or_lt with h0 | h0
    · have hlt := h.2
      rw [← h0, mul_zero] at hlt
      exact absurd (h.1.trans_lt hlt) (lt_irrefl _)
    · exact h0
  refine ⟨e / 3 / m.col, e / 3 % m.col, e % 3, ⟨?_, ?_, ?_⟩, ?_⟩
  · have hn : 0 ≤ e / 3 := by
      have := h.1
      omega
    constructor
    · exact Int.ediv_nonneg hn hcol
    · apply Int.ediv_lt_of_lt_mul hpos
      have hlt := h.2
      rw [mul_assoc] at hlt
      omega
  · exact ⟨Int.emod_nonneg _ hpos.ne', Int.emod_lt_of_pos _ hpos⟩
  · omega
  · rw [edgeAt, mul_comm (e / 3 / m.col), Int.mul_ediv_add_emod, Int.mul_ediv_add_emod]

/-- An edge number is that of one node and kind. -/
lemma At.inj {i' j' k' : ℤ} (h : m.At i j k) (h' : m.At i' j' k') :
    m.edgeAt i j k = m.edgeAt i' j' k' ↔ i = i' ∧ j = j' ∧ k = k' := by
  constructor
  · intro he
    have hnode := h.startNode
    have hkind := h.tmod_three
    rw [he, h'.startNode, Prod.mk.injEq] at hnode
    rw [he, h'.tmod_three] at hkind
    exact ⟨hnode.1.symm, hnode.2.symm, hkind.symm⟩
  · rintro ⟨rfl, rfl, rfl⟩
    rfl

/-- The triangle that `Next` goes across. -/
def nextTriangle (i j k : ℤ) : CellTriangle := ⟨i, j, decide (k ≠ 0)⟩

/-- The triangle that `Pre` goes across. -/
def preTriangle (i j k : ℤ) : CellTriangle :=
  ⟨if k = 2 then i - 1 else i, if k = 0 then j - 1 else j, decide (k = 0)⟩

/-- An edge lies in two triangles of the lattice. -/
lemma At.isSide_iff (h : m.At i j k) (T : CellTriangle) :
    m.IsSide T (m.edgeAt i j k) ↔ T = nextTriangle i j k ∨ T = preTriangle i j k := by
  obtain ⟨a, b, upper⟩ := T
  rw [IsSide, h.startNode, h.endNode]
  simp only [h.isEdge, true_and, CellTriangle.corners, nextTriangle, preTriangle,
    CellTriangle.mk.injEq]
  obtain rfl | rfl | rfl := h.kind
  · cases upper <;> simp [otherEnd] <;> omega
  · cases upper <;> simp [otherEnd] <;> omega
  · cases upper <;> simp [otherEnd] <;> omega

/-- The other end is a node of the grid too. -/
structure Present (m : Matrix K) (i j k : ℤ) : Prop extends m.At i j k where
  down : k ≠ 2 → i + 1 < m.row
  right : k ≠ 0 → j + 1 < m.col

lemma Present.of_size {m' : Matrix K} (h : m.Present i j k) (hrow : m'.row = m.row)
    (hcol : m'.col = m.col) : m'.Present i j k := by
  constructor
  · exact h.toAt.of_size hrow hcol
  · rw [hrow]
    exact h.down
  · rw [hcol]
    exact h.right

/-- The edge number of a node and a kind. -/
def number (m : Matrix K) (p : ℤ × ℤ × ℤ) : ℤ := m.edgeAt p.1 p.2.1 p.2.2

/-- Node and kind of the edge that `Next` gives. -/
def nextAt (i j k order : ℤ) : ℤ × ℤ × ℤ :=
  if k = 0 then if order = 0 then (i + 1, j, 2) else (i, j, 1)
  else if k = 1 then if order = 0 then (i, j + 1, 0) else (i, j, 2)
  else if order = 0 then (i, j, 1) else (i, j + 1, 0)

/-- Node and kind of the edge that `Pre` gives, if there is one. -/
def preAt (i j k order : ℤ) : ℤ × ℤ × ℤ :=
  if k = 0 then if order = 0 then (i, j - 1, 2) else (i, j - 1, 1)
  else if k = 1 then if order = 0 then (i, j, 0) else (i + 1, j, 2)
  else if order = 0 then (i - 1, j, 1) else (i - 1, j, 0)

lemma At.nextEdge (h : m.At i j k) (order : ℤ) :
    m.nextEdge (m.edgeAt i j k) order = m.number (nextAt i j k order) := by
  rw [Matrix.nextEdge, h.tmod_three]
  obtain rfl | rfl | rfl := h.kind
  · by_cases ho : order = 0
    · simp [nextAt, number, edgeAt, ho]
      ring
    · simp [nextAt, number, edgeAt, ho]
  · by_cases ho : order = 0
    · simp [nextAt, number, edgeAt, ho]
      ring
    · simp [nextAt, number, edgeAt, ho]
      ring
  · by_cases ho : order = 0
    · simp [nextAt, number, edgeAt, ho]
      ring
    · simp [nextAt, number, edgeAt, ho]
      ring

lemma At.preEdge (h : m.At i j k) (order : ℤ) :
    m.preEdge (m.edgeAt i j k) order = m.number (preAt i j k order) := by
  rw [Matrix.preEdge, h.tmod_three]
  obtain rfl | rfl | rfl := h.kind
  · by_cases ho : order = 0
    · simp [preAt, number, edgeAt, ho]
      ring
    · simp [preAt, number, edgeAt, ho]
      ring
  · by_cases ho : order = 0
    · simp [preAt, number, edgeAt, ho]
    · simp [preAt, number, edgeAt, ho]
      ring
  · by_cases ho : order = 0
    · simp [preAt, number, edgeAt, ho]
      ring
    · simp [preAt, number, edgeAt, ho]
      ring

end Lattice

section Triangles

variable {T : CellTriangle} {p q : ℤ × ℤ × ℤ}

/-- The three sides of a triangle. -/
def sides (T : CellTriangle) : List (ℤ × ℤ × ℤ) :=
  if T.upper then [(T.i, T.j, 1), (T.i, T.j, 2), (T.i, T.j + 1, 0)]
  else [(T.i, T.j, 0), (T.i, T.j, 1), (T.i + 1, T.j, 2)]

lemma mem_sides_iff (h : k = 0 ∨ k = 1 ∨ k = 2) :
    (i, j, k) ∈ sides T ↔ T = nextTriangle i j k ∨ T = preTriangle i j k := by
  obtain ⟨a, b, upper⟩ := T
  simp only [nextTriangle, preTriangle, CellTriangle.mk.injEq]
  obtain rfl | rfl | rfl := h
  · cases upper <;> simp [sides] <;> omega
  · cases upper <;> simp [sides] <;> omega
  · cases upper <;> simp [sides] <;> omega

/-- The sides of a triangle of the grid are edges of the grid. -/
lemma HasTriangle.present (h : m.HasTriangle T) (hp : p ∈ sides T) :
    m.Present p.1 p.2.1 p.2.2 := by
  obtain ⟨hi, hi', hj, hj'⟩ := h
  obtain ⟨a, b, upper⟩ := T
  dsimp only at hi hi' hj hj'
  cases upper
  · simp only [sides, Bool.false_eq_true, if_false, List.mem_cons, List.not_mem_nil, or_false] at hp
    obtain rfl | rfl | rfl := hp <;>
      refine ⟨⟨⟨?_, ?_⟩, ⟨?_, ?_⟩, ?_⟩, ?_, ?_⟩ <;> dsimp only <;> omega
  · simp only [sides, if_true, List.mem_cons, List.not_mem_nil, or_false] at hp
    obtain rfl | rfl | rfl := hp <;>
      refine ⟨⟨⟨?_, ?_⟩, ⟨?_, ?_⟩, ?_⟩, ?_, ?_⟩ <;> dsimp only <;> omega

/-- The sides of a triangle of the grid as edge numbers. -/
lemma HasTriangle.isSide_iff (h : m.HasTriangle T) (f : ℤ) :
    m.IsSide T f ↔ ∃ p ∈ sides T, f = m.number p := by
  constructor
  · intro hf
    have hcol : 0 ≤ m.col := by linarith [h.2.2.1, h.2.2.2]
    obtain ⟨i, j, k, hat, rfl⟩ := hf.1.exists_at hcol
    exact ⟨(i, j, k), (mem_sides_iff hat.kind).mpr ((hat.isSide_iff T).mp hf), rfl⟩
  · rintro ⟨p, hp, rfl⟩
    have hat := (h.present hp).toAt
    exact (hat.isSide_iff T).mpr ((mem_sides_iff hat.kind).mp hp)

lemma HasTriangle.number_inj (h : m.HasTriangle T) (hp : p ∈ sides T) (hq : q ∈ sides T) :
    m.number p = m.number q ↔ p = q := by
  rw [number, number, (h.present hp).toAt.inj (h.present hq).toAt, Prod.ext_iff, Prod.ext_iff]

/-- Two edges that are the sides of a triangle of the grid but for a given one. -/
lemma HasTriangle.otherSides (h : m.HasTriangle T) {go : ℤ → ℤ → ℤ} {r : ℤ × ℤ × ℤ}
    (h0 : go (m.number p) 0 = m.number q) (h1 : go (m.number p) 1 = m.number r)
    (hmem : ∀ s, s ∈ sides T ↔ s = p ∨ s = q ∨ s = r) (hqr : q ≠ r) (hqp : q ≠ p) (hrp : r ≠ p) :
    m.OtherSides go T (m.number p) := by
  have hp : p ∈ sides T := (hmem p).mpr (Or.inl rfl)
  have hq : q ∈ sides T := (hmem q).mpr (Or.inr (Or.inl rfl))
  have hr : r ∈ sides T := (hmem r).mpr (Or.inr (Or.inr rfl))
  constructor
  · rw [h0, h1, Ne, Ne, Ne, h.number_inj hq hr, h.number_inj hq hp, h.number_inj hr hp]
    exact ⟨hqr, hqp, hrp⟩
  · intro f
    rw [h.isSide_iff, h0, h1]
    constructor
    · rintro ⟨s, hs, rfl⟩
      obtain rfl | rfl | rfl := (hmem s).mp hs
      · exact Or.inl rfl
      · exact Or.inr (Or.inl rfl)
      · exact Or.inr (Or.inr rfl)
    · rintro (rfl | rfl | rfl)
      · exact ⟨p, hp, rfl⟩
      · exact ⟨q, hq, rfl⟩
      · exact ⟨r, hr, rfl⟩

/-- `Next` gives the other two sides. -/
lemma At.otherSides_nextEdge (h : m.At i j k) (hT : m.HasTriangle (nextTriangle i j k)) :
    m.OtherSides m.nextEdge (nextTriangle i j k) (m.edgeAt i j k) := by
  refine hT.otherSides (p := (i, j, k)) (h.nextEdge 0) (h.nextEdge 1) ?_ ?_ ?_ ?_
  · intro s
    obtain rfl | rfl | rfl := h.kind
    · simp [sides, nextTriangle, nextAt]
      tauto
    · simp [sides, nextTriangle, nextAt]
      tauto
    · simp [sides, nextTriangle, nextAt]
      tauto
  all_goals
    obtain rfl | rfl | rfl := h.kind <;> simp [nextAt]

/-- `Pre` gives the other two sides. -/
lemma At.otherSides_preEdge (h : m.At i j k) (hT : m.HasTriangle (preTriangle i j k)) :
    m.OtherSides m.preEdge (preTriangle i j k) (m.edgeAt i j k) := by
  refine hT.otherSides (p := (i, j, k)) (h.preEdge 0) (h.preEdge 1) ?_ ?_ ?_ ?_
  · intro s
    obtain rfl | rfl | rfl := h.kind
    · simp [sides, preTriangle, preAt]
      tauto
    · simp [sides, preTriangle, preAt]
      tauto
    · simp [sides, preTriangle, preAt]
      tauto
  all_goals
    obtain rfl | rfl | rfl := h.kind <;> simp [preAt]

lemma nextTriangle_ne_preTriangle (h : k = 0 ∨ k = 1 ∨ k = 2) :
    nextTriangle i j k ≠ preTriangle i j k := by
  obtain rfl | rfl | rfl := h
  · simp [nextTriangle, preTriangle]
  · simp [nextTriangle, preTriangle]
  · simp [nextTriangle, preTriangle]

end Triangles

section Flags

/-- The flags and the heights of a grid that has them all. -/
structure Inv (m : Matrix K) : Prop where
  data : (m.data.length : ℤ) = m.row
  line : ∀ d ∈ m.data, (d.length : ℤ) = m.col
  flag : (m.flag.length : ℤ) = 3 * m.row * m.col
  present : ∀ i j k, m.At i j k →
    (load Stop.indexOutOfBounds m.flag (m.edgeAt i j k) ≠ .ok (-1) ↔ m.Present i j k)

lemma accept_neg (he : e < 0) : m.accept e = .ok (-1) := if_pos he

lemma accept_above {k : ℤ} (hcol : 0 ≤ j ∧ j < m.col) (hk : k = 0 ∨ k = 1) :
    m.accept (m.number (-1, j, k)) = .ok (-1) := by
  apply accept_neg
  rw [number, edgeAt]
  dsimp only
  omega

variable (h : m.Inv)

include h

lemma Inv.inRange_iff : InRange m.flag e ↔ m.IsEdge e := by
  rw [InRange, IsEdge, h.flag]

lemma Inv.accept_present (hp : m.Present i j k) :
    m.accept (m.edgeAt i j k) = .ok (m.edgeAt i j k) := by
  have hedge := hp.toAt.isEdge
  obtain ⟨f, hf⟩ : ∃ f, load Stop.indexOutOfBounds m.flag (m.edgeAt i j k) = .ok f :=
    exists_load (h.inRange_iff.mpr hedge)
  have hne := (h.present i j k hp.toAt).mpr hp
  rw [hf] at hne
  rw [accept, if_neg (not_lt.mpr hedge.1), hf, ok_bind, if_neg fun h1 => hne (by rw [h1])]

/-- An edge number whose other end is no node of the grid is rejected. -/
lemma Inv.accept_missing (hat : m.At i j k)
    (hlast : k ≠ 2 ∧ i + 1 = m.row ∨ k ≠ 0 ∧ j + 1 = m.col) :
    m.accept (m.number (i, j, k)) = .ok (-1) := by
  have hp : ¬ m.Present i j k := by
    intro hp
    have hdown := hp.down
    have hright := hp.right
    omega
  have hload := not_ne_iff.mp (mt (h.present i j k hat).mp hp)
  change m.accept (m.edgeAt i j k) = .ok (-1)
  rw [accept, if_neg (not_lt.mpr hat.isEdge.1), hload, ok_bind, if_pos rfl]

omit h in
lemma OtherSides.isSide {go : ℤ → ℤ → ℤ} {T : CellTriangle} (hother : m.OtherSides go T e)
    {order : ℤ} (horder : order ∈ [(0 : ℤ), 1]) : m.IsSide T (go e order) := by
  rw [hother.sides]
  simp only [List.mem_cons, List.not_mem_nil, or_false] at horder
  obtain rfl | rfl := horder
  · exact Or.inr (Or.inl rfl)
  · exact Or.inr (Or.inr rfl)

/-- The sides of a triangle of the grid are taken. -/
lemma Inv.accept_side {T : CellTriangle} (hT : m.HasTriangle T) {f : ℤ} (hf : m.IsSide T f) :
    m.accept f = .ok f := by
  obtain ⟨p, hp, rfl⟩ := (hT.isSide_iff f).mp hf
  exact h.accept_present (hT.present hp)

lemma Inv.across_of {go : ℤ → ℤ → ℤ} {T : CellTriangle}
    (hother : m.HasTriangle T → m.OtherSides go T e)
    (hreject : ¬ m.HasTriangle T → ∀ order, m.accept (go e order) = .ok (-1)) :
    m.Across go T e := by
  by_cases hT : m.HasTriangle T
  · exact Or.inl ⟨hT, hother hT, fun order horder =>
      h.accept_side hT ((hother hT).isSide horder)⟩
  · exact Or.inr ⟨hT, fun order _ => hreject hT order⟩

/-- At the last row and the last column the flags reject what `Next` gives. -/
lemma Inv.across_nextEdge (hp : m.Present i j k) :
    m.Across m.nextEdge (nextTriangle i j k) (m.edgeAt i j k) := by
  apply h.across_of hp.toAt.otherSides_nextEdge
  intro hT order
  have hrow := hp.row
  have hcol := hp.col
  have hdown := hp.down
  have hright := hp.right
  have hlast : ¬ (i + 1 < m.row ∧ j + 1 < m.col) := fun hlt =>
    hT ⟨hrow.1, hlt.1, hcol.1, hlt.2⟩
  rw [hp.toAt.nextEdge]
  obtain rfl | rfl | rfl := hp.kind
  · by_cases ho : order = 0
    · rw [nextAt, if_pos rfl, if_pos ho]
      exact h.accept_missing ⟨by omega, hcol, by omega⟩ (by omega)
    · rw [nextAt, if_pos rfl, if_neg ho]
      exact h.accept_missing ⟨hrow, hcol, by omega⟩ (by omega)
  · omega
  · by_cases ho : order = 0
    · rw [nextAt, if_neg (by decide), if_neg (by decide), if_pos ho]
      exact h.accept_missing ⟨hrow, hcol, by omega⟩ (by omega)
    · rw [nextAt, if_neg (by decide), if_neg (by decide), if_neg ho]
      exact h.accept_missing ⟨hrow, by omega, by omega⟩ (by omega)

/-- Before the first column the numbers are those of the end of the row before, and before the first
row they are negative. -/
lemma Inv.accept_left {k : ℤ} (hrow : 0 ≤ i ∧ i < m.row) (hcol : 0 < m.col)
    (hk : k = 1 ∨ k = 2) : m.accept (m.number (i, -1, k)) = .ok (-1) := by
  have hwrap : m.number (i, -1, k) = m.number (i - 1, m.col - 1, k) := by
    simp only [number, edgeAt]
    ring
  rcases hrow.1.eq_or_lt with h0 | hpos
  · apply accept_neg
    rw [← h0, number, edgeAt]
    dsimp only
    omega
  · rw [hwrap]
    exact h.accept_missing ⟨by omega, by omega, by omega⟩ (by omega)

/-- Before the first row and the first column there is nothing that `Pre` could give. -/
lemma Inv.across_preEdge (hp : m.Present i j k) :
    m.Across m.preEdge (preTriangle i j k) (m.edgeAt i j k) := by
  apply h.across_of hp.toAt.otherSides_preEdge
  intro hT order
  have hrow := hp.row
  have hcol := hp.col
  have hdown := hp.down
  have hright := hp.right
  rw [HasTriangle, preTriangle] at hT
  dsimp only at hT
  rw [hp.toAt.preEdge]
  obtain rfl | rfl | rfl := hp.kind
  · obtain rfl : j = 0 := by omega
    by_cases ho : order = 0
    · rw [preAt, if_pos rfl, if_pos ho]
      exact h.accept_left hrow (by omega) (by omega)
    · rw [preAt, if_pos rfl, if_neg ho]
      exact h.accept_left hrow (by omega) (by omega)
  · omega
  · obtain rfl : i = 0 := by omega
    by_cases ho : order = 0
    · rw [preAt, if_neg (by decide), if_neg (by decide), if_pos ho]
      exact accept_above hcol (by omega)
    · rw [preAt, if_neg (by decide), if_neg (by decide), if_neg ho]
      exact accept_above hcol (by omega)

end Flags

section Heights

lemma Inv.getZ_returns (h : m.Inv) {r c : ℤ} (hr : 0 ≤ r ∧ r < m.row) (hc : 0 ≤ c ∧ c < m.col) :
    Returns (m.getZ r c) fun _ => True := by
  obtain ⟨d, hd⟩ : ∃ d, load Stop.indexOutOfBounds m.data r = .ok d := by
    apply exists_load
    rw [InRange, h.data]
    exact hr
  obtain ⟨z, hz⟩ : ∃ z, load Stop.indexOutOfBounds d c = .ok z := by
    apply exists_load
    rw [InRange, h.line d (mem_of_load hd)]
    exact hc
  exact ⟨z, by rw [getZ, hd, ok_bind, hz], trivial⟩

/-- The two ends of an edge are nodes of the grid. -/
lemma Inv.ends_return (h : m.Inv) (hp : m.Present i j k) :
    Returns (m.getStart (m.edgeAt i j k)) (fun _ => True) ∧
      Returns (m.getEnd (m.edgeAt i j k)) (fun _ => True) := by
  have hrow := hp.row
  have hcol := hp.col
  have hdown := hp.down
  have hright := hp.right
  constructor
  · rw [getStart, hp.toAt.startNode]
    exact h.getZ_returns hrow hcol
  · rw [getEnd, hp.toAt.endNode, otherEnd]
    apply h.getZ_returns
    · dsimp only
      omega
    · dsimp only
      omega

variable [Field K] [LinearOrder K]

lemma Inv.intersect_returns (h : m.Inv) (hp : m.Present i j k) :
    Returns (m.intersect (m.edgeAt i j k)) fun _ => True := by
  obtain ⟨⟨s, hs, -⟩, ⟨e, he, -⟩⟩ := h.ends_return hp
  rw [intersect, if_neg (not_lt.mpr hp.toAt.isEdge.1), hs, ok_bind, he, ok_bind]
  dsimp only
  split_ifs <;> exact returns_ok.mpr trivial

lemma intersect_neg (he : e < 0) : m.intersect e = .ok none := if_pos he

end Heights

section Edges

/-- The number of an edge of the grid. -/
def IsPresent (m : Matrix K) (e : ℤ) : Prop := ∃ i j k, m.Present i j k ∧ e = m.edgeAt i j k

lemma HasTriangle.isPresent {T : CellTriangle} (hT : m.HasTriangle T) (he : m.IsSide T e) :
    m.IsPresent e := by
  obtain ⟨p, hp, rfl⟩ := (hT.isSide_iff e).mp he
  exact ⟨p.1, p.2.1, p.2.2, hT.present hp, rfl⟩

/-- Across a triangle of the grid its other sides are reached. -/
lemma HasTriangle.reachedAcross_iff {T : CellTriangle} (hT : m.HasTriangle T) {f : ℤ} :
    m.ReachedAcross T e f ↔ m.IsSide T e ∧ m.IsSide T f ∧ f ≠ e := by
  constructor
  · rintro ⟨-, go, -, hother, order, horder, rfl⟩
    refine ⟨(hother.sides e).mpr (Or.inl rfl), hother.isSide horder, ?_⟩
    simp only [List.mem_cons, List.not_mem_nil, or_false] at horder
    obtain rfl | rfl := horder
    · exact hother.distinct.2.1
    · exact hother.distinct.2.2
  · rintro ⟨he, hf, hne⟩
    obtain ⟨i, j, k, hp, rfl⟩ := hT.isPresent he
    obtain ⟨go, hgo, hother⟩ : ∃ go ∈ [m.nextEdge, m.preEdge],
        m.OtherSides go T (m.edgeAt i j k) := by
      obtain rfl | rfl := (hp.toAt.isSide_iff T).mp he
      · exact ⟨m.nextEdge, by simp, hp.toAt.otherSides_nextEdge hT⟩
      · exact ⟨m.preEdge, by simp, hp.toAt.otherSides_preEdge hT⟩
    obtain rfl | rfl | rfl := (hother.sides f).mp hf
    · exact absurd rfl hne
    · exact ⟨hT, go, hgo, hother, 0, by simp, rfl⟩
    · exact ⟨hT, go, hgo, hother, 1, by simp, rfl⟩

lemma ReachedAcross.symm {T : CellTriangle} {f : ℤ} (h : m.ReachedAcross T e f) :
    m.ReachedAcross T f e := by
  have hT := h.1
  obtain ⟨he, hf, hne⟩ := hT.reachedAcross_iff.mp h
  exact hT.reachedAcross_iff.mpr ⟨hf, he, hne.symm⟩

/-- What `Candidate` gives across a triangle. -/
lemma Across.accept {go : ℤ → ℤ → ℤ} {T : CellTriangle} (h : m.Across go T e) {order : ℤ}
    (horder : order ∈ [(0 : ℤ), 1]) :
    Returns (m.accept (go e order)) fun c => c = -1 ∨ m.IsPresent c := by
  rcases h with ⟨hT, hother, haccept⟩ | ⟨-, hreject⟩
  · rw [haccept order horder]
    exact returns_ok.mpr (Or.inr (hT.isPresent (hother.isSide horder)))
  · rw [hreject order horder]
    exact returns_ok.mpr (Or.inl rfl)

lemma Inv.candidate_returns (h : m.Inv) (he : m.IsPresent e) (prev : ℤ) {order : ℤ}
    (horder : order ∈ [(0 : ℤ), 1]) :
    Returns ({ m with cur := e, prev := prev }.candidate order) fun c =>
      c = -1 ∨ m.IsPresent c := by
  obtain ⟨i, j, k, hp, rfl⟩ := he
  rw [candidate]
  split
  · exact (h.across_nextEdge hp).accept horder
  · exact (h.across_preEdge hp).accept horder

variable [Field K] [LinearOrder K]

lemma Inv.intersect_candidate (h : m.Inv) (he : e = -1 ∨ m.IsPresent e) :
    Returns (m.intersect e) fun _ => True := by
  obtain rfl | ⟨i, j, k, hp, rfl⟩ := he
  · exact ⟨none, intersect_neg (by decide), trivial⟩
  · exact h.intersect_returns hp

lemma Inv.edgeSound (h : m.Inv) (he : m.IsPresent e) : m.EdgeSound e := by
  obtain ⟨i, j, k, hp, rfl⟩ := he
  constructor
  · exact ⟨nextTriangle i j k, preTriangle i j k, nextTriangle_ne_preTriangle hp.kind,
      hp.toAt.isSide_iff, h.across_nextEdge hp, h.across_preEdge hp⟩
  · exact fun T f => ReachedAcross.symm
  · exact ⟨(h.ends_return hp).1, (h.ends_return hp).2, h.intersect_returns hp⟩
  · intro prev order horder
    exact (h.candidate_returns ⟨i, j, k, hp, rfl⟩ prev horder).mono fun c _ hc =>
      h.intersect_candidate hc

end Edges

end Matrix

end MTalk.Triangle.MatrixCon
