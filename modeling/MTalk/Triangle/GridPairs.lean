import MTalk.Library.TriangleWalks
import MTalk.Triangle.GridRuns

/-!
# Edges with a direction

An edge of the grid with a direction is the pair of its ends. `Next` and `Pre` go across the
triangle on the one hand of such a pair: the first of the two edges is the one at its head and the
second is the one at its tail, and the pair that is entered has its own triangle on the same hand.
So the trace of a contour is a walk across triangles.
-/

namespace MTalk.Triangle.MatrixCon

open MTalk.GuardedRuns JavaArrays TriangleWalks

namespace Matrix

variable {K : Type}

section Pairs

variable (m : Matrix K)

def InGrid (v : ℤ × ℤ) : Prop := (0 ≤ v.1 ∧ v.1 < m.row) ∧ (0 ≤ v.2 ∧ v.2 < m.col)

instance (v : ℤ × ℤ) : Decidable (m.InGrid v) := inferInstanceAs (Decidable (_ ∧ _))

/-- The way from the first node to the second one. -/
def way (p : (ℤ × ℤ) × (ℤ × ℤ)) : ℤ × ℤ := (p.2.1 - p.1.1, p.2.2 - p.1.2)

/-- Two nodes of the grid with an edge between them. -/
def IsPair (p : (ℤ × ℤ) × (ℤ × ℤ)) : Prop :=
  m.InGrid p.1 ∧ m.InGrid p.2 ∧
    way p ∈ [((1 : ℤ), (0 : ℤ)), (1, 1), (0, 1), (-1, 0), (-1, -1), (0, -1)]

instance (p : (ℤ × ℤ) × (ℤ × ℤ)) : Decidable (m.IsPair p) := inferInstanceAs (Decidable (_ ∧ _))

/-- The third corner of the triangle on one hand of a pair. -/
def corner (p : (ℤ × ℤ) × (ℤ × ℤ)) : ℤ × ℤ :=
  (p.1.1 + (way p).1 - (way p).2, p.1.2 + (way p).1)

def apex (p : (ℤ × ℤ) × (ℤ × ℤ)) : Option (ℤ × ℤ) :=
  if m.IsPair p ∧ m.InGrid (corner p) then some (corner p) else none

/-- `Next` goes across the triangle of the pair, not `Pre`. -/
def forward (p : (ℤ × ℤ) × (ℤ × ℤ)) : Bool := way p ∈ [((1 : ℤ), (0 : ℤ)), (1, 1), (0, -1)]

/-- The edge number of a pair: that of the end with the lesser row and column. -/
def pairEdge (p : (ℤ × ℤ) × (ℤ × ℤ)) : ℤ :=
  let owner := if 0 < (way p).1 ∨ 0 < (way p).2 then p.1 else p.2
  m.edgeAt owner.1 owner.2 (if (way p).2 = 0 then 0 else if (way p).1 = 0 then 2 else 1)

end Pairs

variable {m : Matrix K} {p q : (ℤ × ℤ) × (ℤ × ℤ)}

/-- A pair is one edge in one of two directions. -/
lemma IsPair.cases (h : m.IsPair p) : ∃ i j k, m.Present i j k ∧
    (p = ((i, j), otherEnd i j k) ∨ p = (otherEnd i j k, (i, j))) := by
  obtain ⟨⟨a, b⟩, ⟨c, d⟩⟩ := p
  obtain ⟨h1, h2, hway⟩ := h
  simp only [InGrid, way, List.mem_cons, Prod.mk.injEq, List.not_mem_nil, or_false] at h1 h2 hway
  rcases hway with h | h | h | h | h | h
  · refine ⟨a, b, 0, ⟨⟨h1.1, h1.2, by omega⟩, by omega, by omega⟩, ?_⟩
    simp [otherEnd]
    omega
  · refine ⟨a, b, 1, ⟨⟨h1.1, h1.2, by omega⟩, by omega, by omega⟩, ?_⟩
    simp [otherEnd]
    omega
  · refine ⟨a, b, 2, ⟨⟨h1.1, h1.2, by omega⟩, by omega, by omega⟩, ?_⟩
    simp [otherEnd]
    omega
  · refine ⟨c, d, 0, ⟨⟨h2.1, h2.2, by omega⟩, by omega, by omega⟩, ?_⟩
    simp [otherEnd]
    omega
  · refine ⟨c, d, 1, ⟨⟨h2.1, h2.2, by omega⟩, by omega, by omega⟩, ?_⟩
    simp [otherEnd]
    omega
  · refine ⟨c, d, 2, ⟨⟨h2.1, h2.2, by omega⟩, by omega, by omega⟩, ?_⟩
    simp [otherEnd]
    omega

lemma Present.isPair {i j k : ℤ} (h : m.Present i j k) :
    m.IsPair ((i, j), otherEnd i j k) ∧ m.IsPair (otherEnd i j k, (i, j)) := by
  have hrow := h.row
  have hcol := h.col
  have hdown := h.down
  have hright := h.right
  have hstart : m.InGrid (i, j) := ⟨hrow, hcol⟩
  have hend : m.InGrid (otherEnd i j k) := by
    simp only [InGrid, otherEnd]
    omega
  refine ⟨⟨hstart, hend, ?_⟩, ⟨hend, hstart, ?_⟩⟩
  · obtain rfl | rfl | rfl := h.kind <;> simp [way, otherEnd]
  · obtain rfl | rfl | rfl := h.kind <;> simp [way, otherEnd]

lemma pairEdge_start {i j k : ℤ} (hk : k = 0 ∨ k = 1 ∨ k = 2) :
    m.pairEdge ((i, j), otherEnd i j k) = m.edgeAt i j k := by
  obtain rfl | rfl | rfl := hk <;> simp [pairEdge, way, otherEnd]

lemma pairEdge_end {i j k : ℤ} (hk : k = 0 ∨ k = 1 ∨ k = 2) :
    m.pairEdge (otherEnd i j k, (i, j)) = m.edgeAt i j k := by
  obtain rfl | rfl | rfl := hk <;> simp [pairEdge, way, otherEnd]

lemma forward_start {i j k : ℤ} (hk : k = 0 ∨ k = 1 ∨ k = 2) :
    forward ((i, j), otherEnd i j k) = decide (k ≠ 2) := by
  obtain rfl | rfl | rfl := hk <;> simp [forward, way, otherEnd]

lemma forward_end {i j k : ℤ} (hk : k = 0 ∨ k = 1 ∨ k = 2) :
    forward (otherEnd i j k, (i, j)) = decide (k = 2) := by
  obtain rfl | rfl | rfl := hk <;> simp [forward, way, otherEnd]

lemma IsPair.swap (h : m.IsPair p) : m.IsPair p.swap := by
  obtain ⟨i, j, k, hp, rfl | rfl⟩ := h.cases
  · exact hp.isPair.2
  · exact hp.isPair.1

lemma pairEdge_swap (h : m.IsPair p) : m.pairEdge p.swap = m.pairEdge p := by
  obtain ⟨i, j, k, hp, rfl | rfl⟩ := h.cases
  · exact (pairEdge_end hp.kind).trans (pairEdge_start hp.kind).symm
  · exact (pairEdge_start hp.kind).trans (pairEdge_end hp.kind).symm

lemma forward_swap (h : m.IsPair p) : forward p.swap = !forward p := by
  obtain ⟨i, j, k, hp, rfl | rfl⟩ := h.cases
  · rw [Prod.swap_prod_mk, forward_start hp.kind, forward_end hp.kind]
    simp
  · rw [Prod.swap_prod_mk, forward_start hp.kind, forward_end hp.kind]
    simp

lemma IsPair.isPresent (h : m.IsPair p) : m.IsPresent (m.pairEdge p) := by
  obtain ⟨i, j, k, hp, rfl | rfl⟩ := h.cases
  · exact ⟨i, j, k, hp, pairEdge_start hp.kind⟩
  · exact ⟨i, j, k, hp, pairEdge_end hp.kind⟩

/-- An edge is that of a pair and of the pair turned round only. -/
lemma pairEdge_inj (hp : m.IsPair p) (hq : m.IsPair q) :
    m.pairEdge p = m.pairEdge q ↔ q = p ∨ q = p.swap := by
  constructor
  · intro heq
    obtain ⟨i, j, k, hat, hcase⟩ := hp.cases
    obtain ⟨i', j', k', hat', hcase'⟩ := hq.cases
    have hnumber : m.pairEdge p = m.edgeAt i j k := by
      obtain rfl | rfl := hcase
      · exact pairEdge_start hat.kind
      · exact pairEdge_end hat.kind
    have hnumber' : m.pairEdge q = m.edgeAt i' j' k' := by
      obtain rfl | rfl := hcase'
      · exact pairEdge_start hat'.kind
      · exact pairEdge_end hat'.kind
    rw [hnumber, hnumber', hat.toAt.inj hat'.toAt] at heq
    obtain ⟨rfl, rfl, rfl⟩ := heq
    obtain rfl | rfl := hcase <;> obtain rfl | rfl := hcase'
    · exact Or.inl rfl
    · exact Or.inr rfl
    · exact Or.inr rfl
    · exact Or.inl rfl
  · rintro (rfl | rfl)
    · rfl
    · exact (pairEdge_swap hp).symm

/-- Every edge of the grid is a pair whose triangle `Next` goes across. -/
lemma IsPresent.exists_forward {e : ℤ} (h : m.IsPresent e) :
    ∃ p, m.IsPair p ∧ m.pairEdge p = e ∧ forward p = true := by
  obtain ⟨i, j, k, hp, rfl⟩ := h
  by_cases hk : k = 2
  · refine ⟨_, hp.isPair.2, pairEdge_end hp.kind, ?_⟩
    rw [forward_end hp.kind, decide_eq_true hk]
  · refine ⟨_, hp.isPair.1, pairEdge_start hp.kind, ?_⟩
    rw [forward_start hp.kind, decide_eq_true hk]

/-- The method that goes across the triangle of a pair. -/
def go (m : Matrix K) (p : (ℤ × ℤ) × (ℤ × ℤ)) : ℤ → ℤ → ℤ :=
  if forward p = true then m.nextEdge else m.preEdge

/-- The triangle of a pair, in the grid or not. -/
structure TriangleOf (m : Matrix K) (T : CellTriangle) (p : (ℤ × ℤ) × (ℤ × ℤ)) : Prop where
  across : m.Inv → m.Across (m.go p) T (m.pairEdge p)
  other : m.HasTriangle T → m.OtherSides (m.go p) T (m.pairEdge p)
  grid : m.HasTriangle T ↔ m.InGrid (corner p)

lemma IsPair.exists_triangle (h : m.IsPair p) : ∃ T, m.TriangleOf T p := by
  obtain ⟨i, j, k, hp, hcase⟩ := h.cases
  have hrow := hp.row
  have hcol := hp.col
  have hdown := hp.down
  have hright := hp.right
  have hpair : m.pairEdge p = m.edgeAt i j k := by
    obtain rfl | rfl := hcase
    · exact pairEdge_start hp.kind
    · exact pairEdge_end hp.kind
  by_cases hforward : forward p = true
  · refine ⟨nextTriangle i j k, ?_, ?_, ?_⟩
    · rw [go, if_pos hforward, hpair]
      exact fun hinv => hinv.across_nextEdge hp
    · rw [go, if_pos hforward, hpair]
      exact hp.toAt.otherSides_nextEdge
    · obtain rfl | rfl := hcase
      · rw [forward_start hp.kind, decide_eq_true_eq] at hforward
        simp only [HasTriangle, InGrid, corner, way, otherEnd, nextTriangle]
        omega
      · rw [forward_end hp.kind, decide_eq_true_eq] at hforward
        simp only [HasTriangle, InGrid, corner, way, otherEnd, nextTriangle]
        omega
  · refine ⟨preTriangle i j k, ?_, ?_, ?_⟩
    · rw [go, if_neg hforward, hpair]
      exact fun hinv => hinv.across_preEdge hp
    · rw [go, if_neg hforward, hpair]
      exact hp.toAt.otherSides_preEdge
    · obtain rfl | rfl := hcase
      · rw [forward_start hp.kind, decide_eq_true_eq] at hforward
        simp only [HasTriangle, InGrid, corner, way, otherEnd, preTriangle]
        omega
      · rw [forward_end hp.kind, decide_eq_true_eq] at hforward
        simp only [HasTriangle, InGrid, corner, way, otherEnd, preTriangle]
        omega

lemma go_zero (h : m.IsPair p) : m.go p (m.pairEdge p) 0 = m.pairEdge (corner p, p.2) := by
  obtain ⟨i, j, k, hp, rfl | rfl⟩ := h.cases
  · rw [go, forward_start hp.kind, pairEdge_start hp.kind]
    obtain rfl | rfl | rfl := hp.kind
    · simp [hp.toAt.nextEdge, nextAt, number, pairEdge, corner, way, otherEnd]
    · simp [hp.toAt.nextEdge, nextAt, number, pairEdge, corner, way, otherEnd]
    · simp [hp.toAt.preEdge, preAt, number, pairEdge, corner, way, otherEnd]
  · rw [go, forward_end hp.kind, pairEdge_end hp.kind]
    obtain rfl | rfl | rfl := hp.kind
    · simp [hp.toAt.preEdge, preAt, number, pairEdge, corner, way, otherEnd, sub_eq_add_neg]
    · simp [hp.toAt.preEdge, preAt, number, pairEdge, corner, way, otherEnd]
    · simp [hp.toAt.nextEdge, nextAt, number, pairEdge, corner, way, otherEnd]

lemma go_one (h : m.IsPair p) : m.go p (m.pairEdge p) 1 = m.pairEdge (p.1, corner p) := by
  obtain ⟨i, j, k, hp, rfl | rfl⟩ := h.cases
  · rw [go, forward_start hp.kind, pairEdge_start hp.kind]
    obtain rfl | rfl | rfl := hp.kind
    · simp [hp.toAt.nextEdge, nextAt, number, pairEdge, corner, way, otherEnd]
    · simp [hp.toAt.nextEdge, nextAt, number, pairEdge, corner, way, otherEnd]
    · simp [hp.toAt.preEdge, preAt, number, pairEdge, corner, way, otherEnd]
  · rw [go, forward_end hp.kind, pairEdge_end hp.kind]
    obtain rfl | rfl | rfl := hp.kind
    · simp [hp.toAt.preEdge, preAt, number, pairEdge, corner, way, otherEnd, sub_eq_add_neg]
    · simp [hp.toAt.preEdge, preAt, number, pairEdge, corner, way, otherEnd]
    · simp [hp.toAt.nextEdge, nextAt, number, pairEdge, corner, way, otherEnd]

/-- Each side of the triangle of a pair has the third corner across. -/
lemma IsPair.round (h : m.IsPair p) (hcorner : m.InGrid (corner p)) :
    (m.IsPair (p.2, corner p) ∧ corner (p.2, corner p) = p.1) ∧
      (m.IsPair (corner p, p.1) ∧ corner (corner p, p.1) = p.2) := by
  obtain ⟨⟨a, b⟩, ⟨c, d⟩⟩ := p
  obtain ⟨h1, h2, hway⟩ := h
  simp only [way, List.mem_cons, Prod.mk.injEq, List.not_mem_nil, or_false] at hway
  refine ⟨⟨⟨h2, hcorner, ?_⟩, ?_⟩, ⟨⟨hcorner, h1, ?_⟩, ?_⟩⟩
  · simp only [corner, way, List.mem_cons, Prod.mk.injEq, List.not_mem_nil, or_false]
    omega
  · simp only [corner, way, Prod.mk.injEq]
    omega
  · simp only [corner, way, List.mem_cons, Prod.mk.injEq, List.not_mem_nil, or_false]
    omega
  · simp only [corner, way, Prod.mk.injEq]
    omega

lemma apex_eq_some {x : ℤ × ℤ} :
    m.apex p = some x ↔ m.IsPair p ∧ m.InGrid (corner p) ∧ x = corner p := by
  rw [apex]
  split_ifs with h
  · rw [Option.some.injEq, eq_comm]
    simp [h]
  · simp only [false_iff]
    exact fun hx => h ⟨hx.1, hx.2.1⟩

lemma apex_eq_none (h : m.IsPair p) : m.apex p = none ↔ ¬ m.InGrid (corner p) := by
  rw [apex]
  split_ifs with hc
  · simp [hc.2]
  · simp only [true_iff]
    exact fun hcorner => hc ⟨h, hcorner⟩

lemma rotates_apex (m : Matrix K) : Rotates m.apex := by
  intro u w x hx
  obtain ⟨hp, hcorner, rfl⟩ := apex_eq_some.mp hx
  have hround := (hp.round hcorner).1
  refine apex_eq_some.mpr ⟨hround.1, ?_, hround.2.symm⟩
  rw [hround.2]
  exact hp.1

section Crossings

variable [Field K]

/-- The height of a node. -/
def height (m : Matrix K) (v : ℤ × ℤ) : K :=
  match m.getZ v.1 v.2 with
  | .ok z => z
  | .error _ => 0

lemma Inv.getZ_eq (h : m.Inv) {v : ℤ × ℤ} (hv : m.InGrid v) :
    m.getZ v.1 v.2 = .ok (m.height v) := by
  obtain ⟨z, hz, -⟩ := h.getZ_returns hv.1 hv.2
  rw [height, hz]

variable [LinearOrder K]

/-- The level meets the edge between two nodes. -/
def crossed (m : Matrix K) (p : (ℤ × ℤ) × (ℤ × ℤ)) : Prop :=
  m.IsPair p ∧ min (m.height p.1) (m.height p.2) ≤ m.curh ∧
    m.curh ≤ max (m.height p.1) (m.height p.2)

instance (m : Matrix K) : DecidablePred m.crossed := fun _ => inferInstanceAs (Decidable (_ ∧ _))

/-- The point of the level on an edge. -/
def point (m : Matrix K) (e : ℤ) : GVector K :=
  match m.intersect e with
  | .ok (some v) => v
  | _ => ⟨0, 0, 0⟩

lemma crossed_swap (h : m.crossed p) : m.crossed p.swap := by
  refine ⟨h.1.swap, ?_⟩
  rw [Prod.fst_swap, Prod.snd_swap, min_comm, max_comm]
  exact h.2

lemma crossing (m : Matrix K) : Crossing m.apex m.crossed :=
  ⟨m.rotates_apex, fun _ => crossed_swap⟩

omit [LinearOrder K] in
/-- The heights that `getStart` and `getEnd` give are those of the two nodes. -/
lemma Inv.ends_pair (h : m.Inv) (hp : m.IsPair p) : ∃ s t,
    m.getStart (m.pairEdge p) = .ok s ∧ m.getEnd (m.pairEdge p) = .ok t ∧
      (m.height p.1 = s ∧ m.height p.2 = t ∨ m.height p.1 = t ∧ m.height p.2 = s) := by
  obtain ⟨i, j, k, hat, hcase⟩ := hp.cases
  have hpair := hat.isPair.1
  have hs : m.getStart (m.edgeAt i j k) = .ok (m.height (i, j)) := by
    rw [getStart, hat.toAt.startNode]
    exact h.getZ_eq hpair.1
  have he : m.getEnd (m.edgeAt i j k) = .ok (m.height (otherEnd i j k)) := by
    rw [getEnd, hat.toAt.endNode]
    exact h.getZ_eq hpair.2.1
  obtain rfl | rfl := hcase
  · rw [pairEdge_start hat.kind]
    exact ⟨_, _, hs, he, Or.inl ⟨rfl, rfl⟩⟩
  · rw [pairEdge_end hat.kind]
    exact ⟨_, _, hs, he, Or.inr ⟨rfl, rfl⟩⟩

/-- `intersect` gives a point on the edges that the level meets. -/
lemma Inv.intersect_pair (h : m.Inv) (hp : m.IsPair p) :
    m.intersect (m.pairEdge p) =
      .ok (if m.crossed p then some (m.point (m.pairEdge p)) else none) := by
  have hexists : ∃ v, m.intersect (m.pairEdge p) = .ok (if m.crossed p then some v else none) := by
    obtain ⟨s, t, hs, ht, hst⟩ := h.ends_pair hp
    have hcrossed : m.crossed p ↔ min s t ≤ m.curh ∧ m.curh ≤ max s t := by
      obtain ⟨h1, h2⟩ | ⟨h1, h2⟩ := hst
      · rw [crossed, h1, h2]
        simp [hp]
      · rw [crossed, h1, h2, min_comm, max_comm]
        simp [hp]
    have hneg : ¬ m.pairEdge p < 0 := by
      obtain ⟨i, j, k, hat, heq⟩ := hp.isPresent
      have := hat.toAt.isEdge.1
      omega
    simp only [hcrossed]
    rw [intersect, if_neg hneg, hs, ok_bind, ht, ok_bind]
    have hmin : (if s > t then t else s) = min s t := by
      split_ifs with hlt
      · exact (min_eq_right hlt.le).symm
      · exact (min_eq_left (not_lt.mp hlt)).symm
    have hmax : (if s > t then s else t) = max s t := by
      split_ifs with hlt
      · exact (max_eq_left hlt.le).symm
      · exact (max_eq_right (not_lt.mp hlt)).symm
    rw [hmin, hmax]
    by_cases hmeet : min s t ≤ m.curh ∧ m.curh ≤ max s t
    · simp only [ge_iff_le, if_pos hmeet]
      split_ifs
      · exact ⟨_, rfl⟩
      · exact ⟨_, rfl⟩
    · have hflat : ¬ (min s t = max s t ∧ m.curh = min s t) := by
        rintro ⟨hsame, hlevel⟩
        exact hmeet ⟨hlevel.ge, (hlevel.trans hsame).le⟩
      simp only [ge_iff_le, if_neg hmeet, if_neg hflat]
      exact ⟨⟨0, 0, 0⟩, trivial⟩
  obtain ⟨v, hv⟩ := hexists
  by_cases hmeet : m.crossed p
  · rw [if_pos hmeet] at hv ⊢
    rw [point, hv]
  · rw [if_neg hmeet] at hv ⊢
    exact hv

/-- The step of a trace. -/
abbrev follow (m : Matrix K) (p : (ℤ × ℤ) × (ℤ × ℤ)) : Option ((ℤ × ℤ) × (ℤ × ℤ)) :=
  step m.apex m.crossed p

/-- The trace is at an edge, and `Candidate` goes across the triangle of the pair. -/
structure AtPair (m : Matrix K) (p : (ℤ × ℤ) × (ℤ × ℤ)) : Prop where
  inv : m.Inv
  crossed : m.crossed p
  cur : m.cur = m.pairEdge p
  heads : (m.prev = m.preEdge m.cur 0 ∨ m.prev = m.preEdge m.cur 1 ∨ m.prev = -1) ↔
    forward p = true

/-- A move of the trace. -/
def moved (m : Matrix K) (q : (ℤ × ℤ) × (ℤ × ℤ)) : Matrix K :=
  { m with
    flag := m.flag.set (m.pairEdge q).toNat 1
    prev := m.cur
    cur := m.pairEdge q }.addnode ⟨m.pairEdge q, m.point (m.pairEdge q)⟩

/-- What `next` does at the end of a line. -/
def turned (m : Matrix K) : Matrix K :=
  if m.rev = false then { m with start := m.cur, cur := m.start, rev := true, prev := -2 }
  else { m with rev := false }

lemma AtPair.candidate (h : m.AtPair p) (order : ℤ) :
    m.candidate order = m.accept (m.go p (m.pairEdge p) order) := by
  rw [Matrix.candidate, go, ← h.cur]
  by_cases hforward : forward p = true
  · rw [if_pos (h.heads.mpr hforward), if_pos hforward]
  · rw [if_neg (mt h.heads.mp hforward), if_neg hforward]

omit [LinearOrder K] [Field K] in
lemma IsPair.corners_ne (h : m.IsPair p) : p.1 ≠ p.2 ∧ corner p ≠ p.1 ∧ corner p ≠ p.2 ∧
    corner (corner p, p.2) ≠ p.1 ∧ corner (p.1, corner p) ≠ p.2 := by
  have hway : ¬ ((way p).1 = 0 ∧ (way p).2 = 0) := by
    have hmem := h.2.2
    generalize way p = v at hmem ⊢
    simp only [List.mem_cons, List.not_mem_nil, or_false] at hmem
    obtain rfl | rfl | rfl | rfl | rfl | rfl := hmem <;> simp
  obtain ⟨⟨a, b⟩, ⟨c, d⟩⟩ := p
  simp only [way] at hway
  simp only [corner, way, Ne, Prod.mk.injEq]
  refine ⟨?_, ?_, ?_, ?_, ?_⟩ <;> omega

omit [LinearOrder K] [Field K] in
/-- A triangle that is entered is not the one of the pair that leads on. -/
lemma Inv.not_onward (h : m.Inv) (hp : m.IsPair p) (hcorner : m.InGrid (corner p))
    (hq : m.IsPair q) (hcase : q = (corner p, p.2) ∨ q = (p.1, corner p)) :
    ¬ ∃ order ∈ [(0 : ℤ), 1], m.pairEdge p = m.go q (m.pairEdge q) order := by
  rintro ⟨order, horder, heq⟩
  obtain ⟨T, hT⟩ := hq.exists_triangle
  obtain ⟨hgrid, -, -⟩ | ⟨-, hreject⟩ := hT.across h
  · have hround := hq.round (hT.grid.mp hgrid)
    have hside : m.pairEdge p = m.pairEdge (q.2, corner q) ∨
        m.pairEdge p = m.pairEdge (corner q, q.1) := by
      simp only [List.mem_cons, List.not_mem_nil, or_false] at horder
      obtain rfl | rfl := horder
      · left
        rw [heq, go_zero hq, ← pairEdge_swap hround.1.1, Prod.swap_prod_mk]
      · right
        rw [heq, go_one hq, ← pairEdge_swap hround.2.1, Prod.swap_prod_mk]
    rw [pairEdge_inj hp hround.1.1, pairEdge_inj hp hround.2.1] at hside
    obtain ⟨hne, h1, h2, hc1, hc2⟩ := hp.corners_ne
    obtain ⟨u, w⟩ := p
    dsimp only at hne h1 h2 hc1 hc2
    obtain rfl | rfl := hcase
    · simp only [Prod.swap_prod_mk, Prod.mk.injEq] at hside
      tauto
    · simp only [Prod.swap_prod_mk, Prod.mk.injEq] at hside
      tauto
  · obtain ⟨i, j, k, hat, hedge⟩ := hp.isPresent
    have haccept := h.accept_present hat
    rw [← hedge, heq, hreject order horder, Except.ok.injEq, ← heq, hedge] at haccept
    have := hat.toAt.isEdge.1
    omega

/-- The pair that a step leads to is not left towards the one it came from. -/
lemma AtPair.heads_next (h : m.AtPair p) (hq : m.follow p = some q) :
    (m.cur = m.preEdge (m.pairEdge q) 0 ∨ m.cur = m.preEdge (m.pairEdge q) 1 ∨ m.cur = -1) ↔
      forward q = true := by
  obtain ⟨x, hx, hcase⟩ := step_eq_some.mp hq
  obtain ⟨hp, hcorner, rfl⟩ := apex_eq_some.mp hx
  have hround := hp.round hcorner
  have hqpair : m.IsPair q := (m.crossing.crossed_step hq).1
  have hback : corner q.swap = p.1 ∧ q.swap.1 = p.2 ∨ corner q.swap = p.2 ∧ q.swap.2 = p.1 := by
    obtain ⟨-, rfl⟩ | ⟨-, -, rfl⟩ := hcase
    · exact Or.inl ⟨hround.1.2, rfl⟩
    · exact Or.inr ⟨hround.2.2, rfl⟩
  rw [h.cur]
  constructor
  · intro hpre
    by_contra hforward
    have hneg : m.pairEdge p ≠ -1 := by
      obtain ⟨i, j, k, hat, heq⟩ := hp.isPresent
      have := hat.toAt.isEdge.1
      omega
    have honward : ∃ order ∈ [(0 : ℤ), 1], m.pairEdge p = m.go q (m.pairEdge q) order := by
      rw [go, if_neg hforward]
      obtain h0 | h1 | h2 := hpre
      · exact ⟨0, by simp, h0⟩
      · exact ⟨1, by simp, h1⟩
      · exact absurd h2 hneg
    exact h.inv.not_onward hp hcorner hqpair (hcase.imp And.right fun hc => hc.2.2) honward
  · intro hforward
    have hnot : forward q.swap ≠ true := by
      rw [forward_swap hqpair, hforward]
      simp
    have hzero := go_zero hqpair.swap
    have hone := go_one hqpair.swap
    rw [go, if_neg hnot, pairEdge_swap hqpair] at hzero hone
    obtain ⟨hc, hs⟩ | ⟨hc, hs⟩ := hback
    · right
      left
      rw [hone, hc, hs]
      exact (pairEdge_swap hp).symm
    · left
      rw [hzero, hc, hs]
      exact (pairEdge_swap hp).symm

/-- The two edges that `next` looks at, where the triangle is one of the grid. -/
lemma AtPair.candidate_grid (h : m.AtPair p) (hcorner : m.InGrid (corner p)) :
    m.candidate 0 = .ok (m.pairEdge (corner p, p.2)) ∧
      m.candidate 1 = .ok (m.pairEdge (p.1, corner p)) := by
  have hp := h.crossed.1
  obtain ⟨T, hT⟩ := hp.exists_triangle
  have hgrid := hT.grid.mpr hcorner
  have hother := hT.other hgrid
  rw [h.candidate, h.candidate, ← go_zero hp, ← go_one hp]
  exact ⟨h.inv.accept_side hgrid (hother.isSide (by simp)),
    h.inv.accept_side hgrid (hother.isSide (by simp))⟩

lemma AtPair.candidate_outside (h : m.AtPair p) (hcorner : ¬ m.InGrid (corner p)) :
    m.candidate 0 = .ok (-1) ∧ m.candidate 1 = .ok (-1) := by
  obtain ⟨T, hT⟩ := h.crossed.1.exists_triangle
  obtain ⟨hgrid, -, -⟩ | ⟨-, hreject⟩ := hT.across h.inv
  · exact absurd (hT.grid.mp hgrid) hcorner
  · rw [h.candidate, h.candidate]
    exact ⟨hreject 0 (by simp), hreject 1 (by simp)⟩

lemma Inv.intersect_swap (h : m.Inv) {u w : ℤ × ℤ} (hp : m.IsPair (u, w)) :
    m.intersect (m.pairEdge (w, u)) =
      .ok (if m.crossed (u, w) then some (m.point (m.pairEdge (w, u))) else none) := by
  have hiff : m.crossed (w, u) ↔ m.crossed (u, w) := ⟨crossed_swap, crossed_swap⟩
  have hpoint : m.intersect (m.pairEdge (w, u)) =
      .ok (if m.crossed (w, u) then some (m.point (m.pairEdge (w, u))) else none) :=
    h.intersect_pair hp.swap
  rw [hpoint]
  simp only [hiff]

/-- At the end of a line the trace turns round. -/
lemma AtPair.next_none (h : m.AtPair p) (hnone : m.follow p = none) :
    m.next = .ok (m.turned, false) := by
  have hnodes : ∃ c1 c2, m.candidate 0 = .ok c1 ∧ m.candidate 1 = .ok c2 ∧
      m.intersect c1 = .ok none ∧ m.intersect c2 = .ok none := by
    by_cases hcorner : m.InGrid (corner p)
    · have hround := h.crossed.1.round hcorner
      have hapex := apex_eq_some.mpr ⟨h.crossed.1, hcorner, rfl⟩
      have hfirst : ¬ m.crossed (p.2, corner p) := by
        intro hc
        have hsome : m.follow p = some _ := step_eq_some.mpr ⟨_, hapex, .inl ⟨hc, rfl⟩⟩
        rw [hnone] at hsome
        cases hsome
      have hsecond : ¬ m.crossed (corner p, p.1) := by
        intro hc
        have hsome : m.follow p = some _ := step_eq_some.mpr ⟨_, hapex, .inr ⟨hfirst, hc, rfl⟩⟩
        rw [hnone] at hsome
        cases hsome
      refine ⟨_, _, (h.candidate_grid hcorner).1, (h.candidate_grid hcorner).2, ?_, ?_⟩
      · rw [h.inv.intersect_swap hround.1.1, if_neg hfirst]
      · rw [h.inv.intersect_swap hround.2.1, if_neg hsecond]
    · exact ⟨-1, -1, (h.candidate_outside hcorner).1, (h.candidate_outside hcorner).2,
        intersect_neg (by decide), intersect_neg (by decide)⟩
  obtain ⟨c1, c2, hc1, hc2, hn1, hn2⟩ := hnodes
  rw [Matrix.next, hc1, ok_bind, hc2, ok_bind, hn1, ok_bind, hn2, ok_bind]
  dsimp only
  rw [turned]
  split
  · rfl
  · rfl

/-- A move marks its edge. -/
lemma Inv.moved (h : m.Inv) (hq : m.IsPair q) : (m.moved q).Inv ∧ InRange m.flag (m.pairEdge q) ∧
    Stored Stop.indexOutOfBounds m.flag (m.pairEdge q) 1 (m.moved q).flag := by
  have hrange : InRange m.flag (m.pairEdge q) := by
    obtain ⟨i, j, k, hat, hedge⟩ := hq.isPresent
    rw [h.inRange_iff, hedge]
    exact hat.toAt.isEdge
  obtain ⟨flag, hflag, hinv⟩ := h.mark hq.isPresent (show (1 : ℤ) ≠ -1 by decide)
  rw [store_ok hrange, Except.ok.injEq] at hflag
  subst hflag
  exact ⟨hinv.of_fields rfl rfl rfl rfl, hrange, stored_set hrange⟩

lemma AtPair.move_eq (h : m.AtPair p) {q : (ℤ × ℤ) × (ℤ × ℤ)} (hq : m.IsPair q) :
    m.move (m.pairEdge q) (m.point (m.pairEdge q)) =
      .ok (m.moved q, decide (m.pairEdge q ≠ m.start)) := by
  rw [Matrix.move, store_ok (h.inv.moved hq).2.1, ok_bind]
  rfl

lemma AtPair.next_some (h : m.AtPair p) (hq : m.follow p = some q) :
    m.next = .ok (m.moved q, decide (m.pairEdge q ≠ m.start)) := by
  obtain ⟨x, hx, hcase⟩ := step_eq_some.mp hq
  obtain ⟨hp, hcorner, rfl⟩ := apex_eq_some.mp hx
  have hround := hp.round hcorner
  have hqpair : m.IsPair q := (m.crossing.crossed_step hq).1
  have hcand := h.candidate_grid hcorner
  rw [Matrix.next, hcand.1, ok_bind, hcand.2, ok_bind, h.inv.intersect_swap hround.1.1, ok_bind,
    h.inv.intersect_swap hround.2.1, ok_bind]
  obtain ⟨hfirst, rfl⟩ | ⟨hfirst, hsecond, rfl⟩ := hcase
  · rw [if_pos hfirst]
    exact h.move_eq hqpair
  · rw [if_neg hfirst, if_pos hsecond]
    exact h.move_eq hqpair

/-- After a move the trace is at the pair that the step leads to. -/
lemma AtPair.moved (h : m.AtPair p) (hq : m.follow p = some q) : (m.moved q).AtPair q := by
  have hcrossed := m.crossing.crossed_step hq
  exact ⟨(h.inv.moved hcrossed.1).1, hcrossed, rfl, h.heads_next hq⟩

end Crossings

end Matrix

end MTalk.Triangle.MatrixCon
