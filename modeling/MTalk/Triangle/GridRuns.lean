import MTalk.Triangle.GridEdges

/-!
# The states of a grid

What `reset` leaves in the flags, and that every step of a trace stays on the edges of the grid. So
the flags mark the same numbers in every state, and no index is out of range.
-/

namespace MTalk.Triangle.MatrixCon

open MTalk.GuardedRuns JavaArrays

namespace Matrix

variable {K : Type} {m : Matrix K} {i j k e : ℤ}

section Reset

/-- What `reset` leaves in the flag of an edge number. -/
def cleared (row col i j k : ℤ) : ℤ :=
  if k ≠ 2 ∧ i = row - 1 ∨ k ≠ 0 ∧ j = col - 1 then -1 else 0

lemma resetNode_returns {row col : ℤ} {flag : List ℤ} (hlength : (flag.length : ℤ) = 3 * row * col)
    (hi : 0 ≤ i ∧ i < row) (hj : 0 ≤ j ∧ j < col) :
    Returns (resetNode row col i j flag) fun flag' => flag'.length = flag.length ∧
      ∀ e, load Stop.indexOutOfBounds flag' e =
        if e / 3 = i * col + j then .ok (cleared row col i j (e % 3))
        else load Stop.indexOutOfBounds flag e := by
  have hmod : j.tmod col = j := Int.tmod_eq_of_lt hj.1 hj.2
  have hn : 0 ≤ i * col + j ∧ i * col + j < row * col := by
    have hle : (i + 1) * col ≤ row * col :=
      mul_le_mul_of_nonneg_right (by omega) (hj.1.trans hj.2.le)
    have hnonneg : 0 ≤ i * col := mul_nonneg hi.1 (hj.1.trans hj.2.le)
    rw [add_mul, one_mul] at hle
    omega
  rw [mul_assoc] at hlength
  rw [resetNode, hmod]
  generalize i * col + j = n at hn ⊢
  have h0 : InRange flag (n * 3) := ⟨by omega, by omega⟩
  have h1 : InRange flag (n * 3 + 1) := ⟨by omega, by omega⟩
  have h2 : InRange flag (n * 3 + 2) := ⟨by omega, by omega⟩
  by_cases hlast : j = col - 1 <;> by_cases hbottom : i = row - 1 <;>
    simp only [hlast, hbottom, if_true, if_false, store_ok, inRange_set, h0, h1, h2, ok_bind,
      returns_ok, List.length_set, load_set, true_and, and_true, and_false, or_false, false_or,
      cleared] <;>
    intro e <;> split_ifs <;> first | rfl | omega

/-- The flags of the nodes before the `n`th are cleared. -/
structure ClearedTo (m : Matrix K) (n : ℤ) (flag : List ℤ) : Prop where
  length : (flag.length : ℤ) = 3 * m.row * m.col
  cleared : ∀ i j k, m.At i j k → i * m.col + j < n →
    load Stop.indexOutOfBounds flag (m.edgeAt i j k) = .ok (cleared m.row m.col i j k)

lemma ClearedTo.resetNode {flag : List ℤ} (hi : 0 ≤ i ∧ i < m.row) (hj : 0 ≤ j ∧ j < m.col)
    (h : m.ClearedTo (i * m.col + j) flag) :
    Returns (resetNode m.row m.col i j flag) (m.ClearedTo (i * m.col + j + 1)) := by
  refine (resetNode_returns h.length hi hj).mono ?_
  rintro flag' - ⟨hlength, hload⟩
  constructor
  · rw [hlength]
    exact h.length
  · intro i' j' k hat hlt
    have hdiv : m.edgeAt i' j' k / 3 = i' * m.col + j' := by
      rw [← Int.tdiv_eq_ediv_of_nonneg hat.isEdge.1]
      exact hat.tdiv_three
    have hmod : m.edgeAt i' j' k % 3 = k := by
      rw [← Int.tmod_eq_emod_of_nonneg hat.isEdge.1]
      exact hat.tmod_three
    rw [hload, hdiv, hmod]
    split
    next heq =>
      have hat' : m.At i j 0 := ⟨hi, hj, Or.inl rfl⟩
      have hat₀ : m.At i' j' 0 := ⟨hat.row, hat.col, Or.inl rfl⟩
      have hsame := (hat₀.inj hat').mp (by rw [edgeAt, edgeAt, heq])
      rw [hsame.1, hsame.2.1]
    next hne => exact h.cleared i' j' k hat (by omega)

lemma reset_returns (hrow : 0 ≤ m.row) (hcol : 0 ≤ m.col)
    (hlength : (m.flag.length : ℤ) = 3 * m.row * m.col) :
    Returns m.reset fun m' => ∃ flag, m.ClearedTo (m.row * m.col) flag ∧
      m' = { m with flag := flag, rev := false, prev := -1 } := by
  have hstart : m.ClearedTo 0 m.flag := by
    refine ⟨hlength, fun i j k hat hlt => ?_⟩
    have hnonneg := hat.node_nonneg
    omega
  have hline : ∀ i < m.row.toNat, ∀ flag, m.ClearedTo (i * m.col) flag →
      Returns ((List.range m.col.toNat).foldlM
        (fun flag (j : ℕ) => resetNode m.row m.col i j flag) flag)
        (m.ClearedTo ((i + 1 : ℕ) * m.col)) := by
    intro i hi flag hflag
    have hfold : Returns ((List.range m.col.toNat).foldlM
        (fun flag (j : ℕ) => resetNode m.row m.col i j flag) flag)
        (m.ClearedTo (i * m.col + m.col.toNat)) := by
      apply foldlM_range_returns (I := fun j => m.ClearedTo (i * m.col + j))
      · intro j hj s hs
        have hnode := hs.resetNode (by omega) (by omega)
        rw [add_assoc] at hnode
        exact_mod_cast hnode
      · simpa using hflag
    rw [Int.toNat_of_nonneg hcol] at hfold
    rw [Nat.cast_add, Nat.cast_one, add_mul, one_mul]
    exact hfold
  have hall : Returns ((List.range m.row.toNat).foldlM (fun flag (i : ℕ) =>
      (List.range m.col.toNat).foldlM (fun flag (j : ℕ) => resetNode m.row m.col i j flag) flag)
      m.flag)
      (m.ClearedTo (m.row.toNat * m.col)) :=
    foldlM_range_returns (I := fun i => m.ClearedTo (i * m.col)) hline (by simpa using hstart)
  rw [Int.toNat_of_nonneg hrow] at hall
  refine returns_bind.mpr (hall.mono fun flag _ hflag => ?_)
  exact returns_ok.mpr ⟨flag, hflag, rfl⟩

end Reset

section Runs

variable {m' : Matrix K}

/-- What the fields that a trace changes have to do with the flags and the heights. -/
lemma Inv.of_fields (h : m.Inv) (hrow : m'.row = m.row) (hcol : m'.col = m.col)
    (hdata : m'.data = m.data) (hflag : m'.flag = m.flag) : m'.Inv := by
  constructor
  · rw [hdata, hrow]
    exact h.data
  · rw [hdata, hcol]
    exact h.line
  · rw [hflag, hrow, hcol]
    exact h.flag
  · intro i j k hat
    have hpresent := h.present i j k (hat.of_size hrow.symm hcol.symm)
    rw [edgeAt, ← hcol] at hpresent
    rw [edgeAt, hflag, hpresent]
    exact ⟨fun hp => hp.of_size hrow hcol, fun hp => hp.of_size hrow.symm hcol.symm⟩

lemma IsPresent.of_size (h : m.IsPresent e) (hrow : m'.row = m.row) (hcol : m'.col = m.col) :
    m'.IsPresent e := by
  obtain ⟨i, j, k, hp, rfl⟩ := h
  refine ⟨i, j, k, hp.of_size hrow hcol, ?_⟩
  rw [edgeAt, edgeAt, hcol]

/-- A grid of some rows and columns. -/
structure Grid (row col : ℕ) (m : Matrix K) : Prop extends m.Inv where
  row_eq : m.row = row
  col_eq : m.col = col

/-- The edge that a contour is at and the one that it started from are edges of the grid. -/
structure Tracing (row col : ℕ) (m : Matrix K) : Prop extends m.Grid row col where
  cur : m.IsPresent m.cur
  start : m.IsPresent m.start

/-- A flag other than `-1` may be written on an edge. -/
lemma Inv.mark (h : m.Inv) (he : m.IsPresent e) {x : ℤ} (hx : x ≠ -1) :
    Returns (store Stop.indexOutOfBounds m.flag e x) fun flag => { m with flag := flag }.Inv := by
  obtain ⟨i, j, k, hp, rfl⟩ := he
  obtain ⟨flag, hflag, hstored⟩ : ∃ flag, store Stop.indexOutOfBounds m.flag (m.edgeAt i j k) x =
      .ok flag ∧ Stored Stop.indexOutOfBounds m.flag (m.edgeAt i j k) x flag :=
    exists_store (h.inRange_iff.mpr hp.toAt.isEdge) x
  refine ⟨flag, hflag, h.data, h.line, ?_, fun i' j' k' hat => ?_⟩
  · rw [hstored.length]
    exact h.flag
  · have hat' : m.At i' j' k' := hat.of_size rfl rfl
    change load Stop.indexOutOfBounds flag (m.edgeAt i' j' k') ≠ .ok (-1) ↔ _
    by_cases heq : m.edgeAt i' j' k' = m.edgeAt i j k
    · rw [heq, hstored.same]
      obtain ⟨rfl, rfl, rfl⟩ := (hat'.inj hp.toAt).mp heq
      exact iff_of_true (fun hx' => hx (Except.ok.inj hx')) (hp.of_size rfl rfl)
    · rw [hstored.other _ heq, h.present i' j' k' hat']
      exact ⟨fun hp' => hp'.of_size rfl rfl, fun hp' => hp'.of_size rfl rfl⟩

variable {row col : ℕ}

lemma Grid.of_fields (h : m.Grid row col) (hrow : m'.row = m.row) (hcol : m'.col = m.col)
    (hdata : m'.data = m.data) (hflag : m'.flag = m.flag) : m'.Grid row col :=
  ⟨h.toInv.of_fields hrow hcol hdata hflag, hrow.trans h.row_eq, hcol.trans h.col_eq⟩

lemma Grid.isPresent (h : m.Grid row col) (he : m.IsEdge e)
    (hload : load Stop.indexOutOfBounds m.flag e ≠ .ok (-1)) : m.IsPresent e := by
  have hcol : 0 ≤ m.col := by
    rw [h.col_eq]
    exact Int.natCast_nonneg col
  obtain ⟨i, j, k, hat, rfl⟩ := he.exists_at hcol
  exact ⟨i, j, k, (h.present i j k hat).mp hload, rfl⟩

/-- The flags that `reset` clears are those of the edges of the grid. -/
lemma reset_grid (hrow : m.row = row) (hcol : m.col = col) (hdata : (m.data.length : ℤ) = m.row)
    (hline : ∀ d ∈ m.data, (d.length : ℤ) = m.col)
    (hlength : (m.flag.length : ℤ) = 3 * m.row * m.col) : Returns m.reset (Grid row col) := by
  have hcol0 : 0 ≤ m.col := by
    rw [hcol]
    exact Int.natCast_nonneg col
  have hrow0 : 0 ≤ m.row := by
    rw [hrow]
    exact Int.natCast_nonneg row
  refine (reset_returns hrow0 hcol0 hlength).mono ?_
  rintro m' - ⟨flag, hflag, rfl⟩
  refine ⟨⟨hdata, hline, hflag.length, fun i j k hat => ?_⟩, hrow, hcol⟩
  have hat' : m.At i j k := hat.of_size rfl rfl
  have hlt : i * m.col + j < m.row * m.col := by
    have hle : (i + 1) * m.col ≤ m.row * m.col :=
      mul_le_mul_of_nonneg_right (by linarith [hat'.row.2]) hcol0
    rw [add_mul, one_mul] at hle
    linarith [hat'.col.2]
  change load Stop.indexOutOfBounds flag (m.edgeAt i j k) ≠ .ok (-1) ↔ _
  rw [hflag.cleared i j k hat' hlt, cleared]
  constructor
  · intro hne
    have hnot : ¬ (k ≠ 2 ∧ i = m.row - 1 ∨ k ≠ 0 ∧ j = m.col - 1) := by
      intro hlast
      rw [if_pos hlast] at hne
      exact hne rfl
    have hi := hat'.row
    have hj := hat'.col
    refine ⟨hat, ?_, ?_⟩
    · change k ≠ 2 → i + 1 < m.row
      omega
    · change k ≠ 0 → j + 1 < m.col
      omega
  · intro hp
    have hdown : k ≠ 2 → i + 1 < m.row := hp.down
    have hright : k ≠ 0 → j + 1 < m.col := hp.right
    rw [if_neg (by omega)]
    simp

lemma Grid.reset (h : m.Grid row col) : Returns m.reset (Grid row col) :=
  reset_grid h.row_eq h.col_eq h.data h.line h.flag

lemma Grid.setElement (h : m.Grid row col) {z : K} (hset : m.setElement i j z = .ok m') :
    m'.Grid row col := by
  obtain ⟨d, hd, hset⟩ := bind_eq_ok.mp hset
  obtain ⟨d', hd', hset⟩ := bind_eq_ok.mp hset
  obtain ⟨data, hdata, hset⟩ := bind_eq_ok.mp hset
  obtain rfl := Except.ok.inj hset
  refine ⟨⟨?_, ?_, h.flag, fun i' j' k' hat => ?_⟩, h.row_eq, h.col_eq⟩
  · rw [(stored_of_store hdata).2.length]
    exact h.data
  · intro d₁ hd₁
    rcases mem_of_store hdata hd₁ with rfl | hmem
    · rw [(stored_of_store hd').2.length]
      exact h.line d (mem_of_load hd)
    · exact h.line d₁ hmem
  · have hpresent := h.present i' j' k' (hat.of_size rfl rfl)
    exact hpresent.trans ⟨fun hp => hp.of_size rfl rfl, fun hp => hp.of_size rfl rfl⟩

/-- In the grid the elements can be set. -/
lemma Grid.setElement_returns (h : m.Grid row col) (hi : 0 ≤ i ∧ i < row) (hj : 0 ≤ j ∧ j < col)
    (z : K) : Returns (m.setElement i j z) (Grid row col) := by
  obtain ⟨d, hd⟩ : ∃ d, load Stop.indexOutOfBounds m.data i = .ok d := by
    apply exists_load
    rw [InRange, h.data, h.row_eq]
    exact hi
  obtain ⟨d', hd', -⟩ : ∃ d', store Stop.indexOutOfBounds d j z = .ok d' ∧
      Stored Stop.indexOutOfBounds d j z d' := by
    apply exists_store
    rw [InRange, h.line d (mem_of_load hd), h.col_eq]
    exact hj
  obtain ⟨data, hdata, -⟩ : ∃ data, store Stop.indexOutOfBounds m.data i d' = .ok data ∧
      Stored Stop.indexOutOfBounds m.data i d' data :=
    exists_store (inRange_of_load hd) d'
  have hset : m.setElement i j z = .ok { m with data := data } := by
    rw [Matrix.setElement, hd, ok_bind, hd', ok_bind, hdata, ok_bind]
  exact ⟨_, hset, h.setElement hset⟩

lemma initiate_grid [Zero K] (hstate : m.state = 0) (x0 y0 x1 y1 : K) :
    Returns (m.initiate x0 y0 x1 y1 row col) fun r => r.1.Grid row col := by
  rw [initiate, if_neg (not_not.mpr hstate)]
  refine returns_bind.mpr (Returns.mono (reset_grid rfl rfl ?_ ?_ ?_) fun m' _ hm' => ?_)
  · simp
  · intro d hd
    rw [List.eq_of_mem_replicate hd]
    simp
  · simp only [List.length_replicate]
    push_cast
    ring
  · exact returns_ok.mpr hm'

lemma Tracing.of_fields (h : m.Tracing row col) (hgrid : m'.Grid row col)
    (hcur : m.IsPresent m'.cur) (hstart : m.IsPresent m'.start) : m'.Tracing row col := by
  have hrow := hgrid.row_eq.trans h.row_eq.symm
  have hcol := hgrid.col_eq.trans h.col_eq.symm
  exact ⟨hgrid, hcur.of_size hrow hcol, hstart.of_size hrow hcol⟩

/-- A flag other than `-1` may be written on an edge. -/
lemma Grid.mark (h : m.Grid row col) (he : m.IsPresent e) {x : ℤ} (hx : x ≠ -1) :
    Returns (store Stop.indexOutOfBounds m.flag e x) fun flag =>
      { m with flag := flag }.Grid row col :=
  (h.toInv.mark he hx).mono fun _ _ hinv => ⟨hinv, h.row_eq, h.col_eq⟩

lemma Grid.begin (h : m.Grid row col) (he : m.IsPresent e) (sect : GVector K) :
    Returns (m.begin e sect) (Tracing row col) := by
  refine returns_bind.mpr ((h.mark he (by decide)).mono fun flag _ hflag => ?_)
  exact returns_ok.mpr ⟨hflag.of_fields rfl rfl rfl rfl, he.of_size rfl rfl, he.of_size rfl rfl⟩

lemma Tracing.move (h : m.Tracing row col) (he : m.IsPresent e) (node : GVector K) :
    Returns (m.move e node) fun r => r.1.Tracing row col := by
  refine returns_bind.mpr ((h.toGrid.mark he (by decide)).mono fun flag _ hflag => ?_)
  exact returns_ok.mpr (h.of_fields (hflag.of_fields rfl rfl rfl rfl) he h.start)

lemma Tracing.candidate_returns (h : m.Tracing row col) {order : ℤ}
    (horder : order ∈ [(0 : ℤ), 1]) :
    Returns (m.candidate order) fun c => c = -1 ∨ m.IsPresent c :=
  h.toInv.candidate_returns h.cur m.prev horder

variable [Field K] [LinearOrder K]

/-- A step of a trace stays on the edges of the grid. -/
lemma Tracing.next (h : m.Tracing row col) : Returns m.next fun r => r.1.Tracing row col := by
  obtain ⟨c1, hc1, he1⟩ := h.candidate_returns List.mem_cons_self
  obtain ⟨c2, hc2, he2⟩ := h.candidate_returns (List.mem_cons_of_mem 0 List.mem_cons_self)
  obtain ⟨nex1, hn1, -⟩ := h.toInv.intersect_candidate he1
  obtain ⟨nex2, hn2, -⟩ := h.toInv.intersect_candidate he2
  have hcrossed : ∀ {c : ℤ} {node : GVector K}, c = -1 ∨ m.IsPresent c →
      m.intersect c = .ok (some node) → m.IsPresent c := by
    intro c node hc hnode
    refine hc.resolve_left fun hneg => ?_
    rw [hneg, intersect_neg (by decide)] at hnode
    cases hnode
  rw [Matrix.next, hc1, ok_bind, hc2, ok_bind, hn1, ok_bind, hn2, ok_bind]
  rcases nex1 with _ | node1
  · rcases nex2 with _ | node2
    · dsimp only
      split
      · exact returns_ok.mpr (h.of_fields (h.toGrid.of_fields rfl rfl rfl rfl) h.start h.cur)
      · exact returns_ok.mpr (h.of_fields (h.toGrid.of_fields rfl rfl rfl rfl) h.cur h.start)
    · exact h.move (hcrossed he2 hn2) node2
  · exact h.move (hcrossed he1 hn1) node1

lemma Tracing.walk (h : m.Tracing row col) (fuel : ℕ) :
    ReturnsUnless .running (walk fuel m) (Tracing row col) := by
  induction fuel generalizing m with
  | zero => exact Or.inl rfl
  | succ fuel ih =>
    apply h.next.unless.bind
    intro r _ hr
    dsimp only
    split
    · exact ih hr
    · exact (returns_ok.mpr hr).unless

lemma Tracing.getOneSeg (h : m.Tracing row col) (fuel : ℕ) :
    ReturnsUnless .running (m.getOneSeg fuel) (Tracing row col) := by
  apply (h.walk fuel).bind
  intro m' _ hm'
  split
  · exact hm'.walk fuel
  · exact (returns_ok.mpr hm').unless

lemma Grid.scan (h : m.Grid row col) (fuel : ℕ) (he : m.IsEdge e) :
    ReturnsUnless .running (m.scan fuel e) (Grid row col) := by
  obtain ⟨f, hf⟩ : ∃ f, load Stop.indexOutOfBounds m.flag e = .ok f :=
    exists_load (h.toInv.inRange_iff.mpr he)
  rw [Matrix.scan, hf, ok_bind]
  split
  next hf0 =>
    have hpresent : m.IsPresent e := by
      apply h.isPresent he
      rw [hf, hf0]
      simp
    obtain ⟨sect, hsect, -⟩ := h.toInv.intersect_candidate (Or.inr hpresent)
    rw [hsect, ok_bind]
    rcases sect with _ | sect
    · exact (returns_ok.mpr h).unless
    · apply (h.begin hpresent sect).unless.bind
      intro m₁ _ h₁
      apply (h₁.getOneSeg fuel).bind
      intro m₂ _ h₂
      refine (returns_ok.mpr ?_).unless
      exact h₂.toGrid.of_fields rfl rfl rfl rfl
  next => exact (returns_ok.mpr h).unless

lemma Grid.scans (h : m.Grid row col) (fuel : ℕ) :
    ReturnsUnless .running
      ((List.range (3 * m.col * m.row).toNat).foldlM (fun m (i : ℕ) => m.scan fuel i)
        { m with conset := [] }) (Grid row col) := by
  have hstart : Grid row col { m with conset := [] } := h.of_fields rfl rfl rfl rfl
  refine foldlM_returnsUnless (fun i hi s hs => hs.scan fuel ⟨Int.natCast_nonneg i, ?_⟩) hstart
  have hlt : i < (3 * m.col * m.row).toNat := List.mem_range.mp hi
  rw [hs.row_eq, hs.col_eq, ← h.row_eq, ← h.col_eq, mul_right_comm]
  omega

lemma Grid.contourSet (h : m.Grid row col) (fuel : ℕ) :
    ReturnsUnless .running (m.contourSet fuel) (Grid row col) :=
  (h.scans fuel).bind fun _ _ hm' => hm'.reset.unless

lemma Grid.getContourSet (h : m.Grid row col) (fuel : ℕ) (z : K) :
    ReturnsUnless .running (m.getContourSet fuel z) fun r => r.1.Grid row col := by
  have hlevel : Grid row col { m with curh := z } := h.of_fields rfl rfl rfl rfl
  apply (hlevel.contourSet fuel).bind
  intro m' _ hm'
  refine (returns_ok.mpr ?_).unless
  exact hm'.of_fields rfl rfl rfl rfl

/-- The invariant of a grid, in a contour with that of the trace. -/
lemma Reachable.grid {tracing : Bool} (h : Reachable row col tracing m) :
    m.Grid row col ∧ (tracing = true → m.Tracing row col) := by
  induction h with
  | initiate x0 y0 x1 y1 hstate hinit =>
    obtain ⟨r, hr, hgrid⟩ := initiate_grid hstate x0 y0 x1 y1
    rw [hr] at hinit
    obtain rfl := congrArg Prod.fst (Except.ok.inj hinit)
    exact ⟨hgrid, by simp⟩
  | setElement hm hset ih => exact ⟨ih.1.setElement hset, by simp⟩
  | created hm ih => exact ⟨ih.1.of_fields rfl rfl rfl rfl, by simp⟩
  | level z hm ih => exact ⟨ih.1.of_fields rfl rfl rfl rfl, by simp⟩
  | begin hm hflag hsect hbegin ih =>
    have hedge := ih.1.toInv.inRange_iff.mp (inRange_of_load hflag)
    have hpresent := ih.1.isPresent hedge (by rw [hflag]; simp)
    obtain ⟨m₁, h₁, htracing⟩ := ih.1.begin hpresent _
    rw [h₁] at hbegin
    obtain rfl := Except.ok.inj hbegin
    exact ⟨htracing.toGrid, fun _ => htracing⟩
  | next hm hnext ih =>
    obtain ⟨r, hr, htracing⟩ := (ih.2 rfl).next
    rw [hr] at hnext
    obtain rfl := congrArg Prod.fst (Except.ok.inj hnext)
    exact ⟨htracing.toGrid, fun _ => htracing⟩
  | collect hm ih => exact ⟨ih.1.of_fields rfl rfl rfl rfl, by simp⟩
  | reset hm hreset ih =>
    obtain ⟨m₁, h₁, hgrid⟩ := ih.1.reset
    rw [h₁] at hreset
    obtain rfl := Except.ok.inj hreset
    exact ⟨hgrid, by simp⟩
  | give hm ih => exact ⟨ih.1.of_fields rfl rfl rfl rfl, by simp⟩

lemma Reachable.walk (h : Reachable row col true m) {fuel : ℕ} (hwalk : walk fuel m = .ok m') :
    Reachable row col true m' := by
  induction fuel generalizing m with
  | zero => cases hwalk
  | succ fuel ih =>
    obtain ⟨⟨m₁, more⟩, hnext, hwalk⟩ := bind_eq_ok.mp hwalk
    have h₁ := h.next hnext
    cases more
    · obtain rfl := Except.ok.inj hwalk
      exact h₁
    · exact ih h₁ hwalk

lemma Reachable.scan (h : Reachable row col false m) {fuel : ℕ} (hscan : m.scan fuel e = .ok m') :
    Reachable row col false m' := by
  obtain ⟨f, hf, hscan⟩ := bind_eq_ok.mp hscan
  split at hscan
  next hf0 =>
    obtain ⟨sect, hsect, hscan⟩ := bind_eq_ok.mp hscan
    rcases sect with _ | sect
    · obtain rfl := Except.ok.inj hscan
      exact h
    · obtain ⟨m₁, hbegin, hscan⟩ := bind_eq_ok.mp hscan
      obtain ⟨m₂, hseg, hscan⟩ := bind_eq_ok.mp hscan
      obtain rfl := Except.ok.inj hscan
      have h₁ := h.begin (by rw [hf, hf0]) hsect hbegin
      obtain ⟨m₃, hwalk, hseg⟩ := bind_eq_ok.mp hseg
      have h₃ := h₁.walk hwalk
      split at hseg
      next => exact (h₃.walk hseg).collect
      next =>
        obtain rfl := Except.ok.inj hseg
        exact h₃.collect
  next =>
    obtain rfl := Except.ok.inj hscan
    exact h

/-- What `getContourSet` leaves is a state of the grid. -/
theorem Reachable.getContourSet (h : Reachable row col false m) (fuel : ℕ) (z : K) :
    ReturnsUnless .running (m.getContourSet fuel z) fun r => Reachable row col false r.1 := by
  rcases h.grid.1.getContourSet fuel z with hrunning | ⟨r, hr, -⟩
  · exact Or.inl hrunning
  · refine Or.inr ⟨r, hr, ?_⟩
    obtain ⟨m₁, hset, hr⟩ := bind_eq_ok.mp hr
    obtain rfl := Except.ok.inj hr
    obtain ⟨m₂, hfold, hreset⟩ := bind_eq_ok.mp hset
    have hscans : Reachable row col false m₂ :=
      foldlM_invariant (fun _ _ _ hs hscan => hs.scan hscan) (h.level z) hfold
    exact (hscans.reset hreset).give

/-- The constructor makes a grid. -/
theorem initiate_reachable (hstate : m.state = 0) (x0 y0 x1 y1 : K) :
    Returns (m.initiate x0 y0 x1 y1 row col) fun r => Reachable row col false r.1 :=
  (initiate_grid hstate x0 y0 x1 y1).mono fun _ hr _ => .initiate x0 y0 x1 y1 hstate hr

/-- `createMesh` makes a grid with the heights of a surface. -/
theorem createMesh_reachable (hstate : m.state = 0) (evalue : K → K → K) (x0 y0 x1 y1 : K) :
    Returns (m.createMesh evalue x0 y0 x1 y1 row col) (Reachable row col false) := by
  refine returns_bind.mpr ((initiate_reachable hstate x0 y0 x1 y1).mono fun r _ hr => ?_)
  have hfold : Returns ((List.range r.1.row.toNat).foldlM (fun m (i : ℕ) =>
      (List.range m.col.toNat).foldlM (fun m (j : ℕ) => evalueNode evalue m i j) m) r.1)
      (Reachable row col false) := by
    refine foldlM_returns (fun i hi s hs => foldlM_returns (fun j hj s' hs' => ?_) hs) hr
    rw [List.mem_range, hr.grid.1.row_eq, Int.toNat_natCast] at hi
    rw [List.mem_range, hs.grid.1.col_eq, Int.toNat_natCast] at hj
    exact (hs'.grid.1.setElement_returns (by omega) (by omega) _).mono fun _ hset _ =>
      hs'.setElement hset
  exact returns_bind.mpr (hfold.mono fun m' _ hm' => returns_ok.mpr hm'.created)

/-- On every grid and in every state the arithmetic on edge numbers goes to the sides of the cell
triangles. -/
theorem Reachable.gridSound {tracing : Bool} (h : Reachable row col tracing m) :
    m.row = row ∧ m.col = col ∧ m.GridSound tracing := by
  have hgrid := h.grid.1
  refine ⟨hgrid.row_eq, hgrid.col_eq, ?_, ?_, ?_⟩
  · exact fun e he hload => hgrid.toInv.edgeSound (hgrid.isPresent he hload)
  · exact fun htracing => (h.grid.2 htracing).next.mono fun _ _ _ => trivial
  · exact fun fuel z => (hgrid.getContourSet fuel z).ne_error (by decide)

/-- Two rows and two columns: five edges, and the flags of the others are `-1`. -/
theorem gridSound_square : ∃ m : Matrix ℚ, (new : Matrix ℚ).initiate 0 0 1 1 2 2 = .ok (m, true) ∧
    m.flag = [0, 0, 0, 0, -1, -1, -1, -1, 0, -1, -1, -1] ∧ m.row = 2 ∧ m.col = 2 ∧
      m.GridSound false := by
  obtain ⟨m, hinit, hflag⟩ : ∃ m : Matrix ℚ, (new : Matrix ℚ).initiate 0 0 1 1 2 2 =
      .ok (m, true) ∧ m.flag = [0, 0, 0, 0, -1, -1, -1, -1, 0, -1, -1, -1] := ⟨_, rfl, rfl⟩
  have hreachable : Reachable 2 2 false m := .initiate 0 0 1 1 rfl hinit
  exact ⟨m, hinit, hflag, hreachable.gridSound⟩

end Runs

end Matrix

end MTalk.Triangle.MatrixCon
