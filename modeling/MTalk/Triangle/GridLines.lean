import MTalk.Triangle.GridPairs

/-!
# The lines of a level

At a level that is the height of no node the edges that the level crosses make up open lines and
closed loops. A trace from an edge follows a loop once round, and a line to its end and then from
the edge to the other end.
-/

namespace MTalk.Triangle.MatrixCon

open MTalk.GuardedRuns JavaArrays TriangleWalks PartialWalks

namespace Matrix

section Spec

variable {K : Type} [Field K] [LinearOrder K]

/-- The level is the height of no node. -/
def AvoidsHeights (m : Matrix K) (z : K) : Prop := ∀ i j h, m.getZ i j = .ok h → h ≠ z

/-- Two edges are sides of one triangle of the grid. -/
def CommonTriangle (m : Matrix K) (e f : ℤ) : Prop :=
  ∃ T, m.HasTriangle T ∧ m.IsSide T e ∧ m.IsSide T f

/-- The edges that a polyline visits: a closed one has its first edge at the end again. -/
inductive Visits : List ℤ → List ℤ → Prop
  | once (es : List ℤ) : Visits es es
  | closed (e : ℤ) (es : List ℤ) (hlength : 2 ≤ es.length) : Visits (e :: es ++ [e]) (e :: es)

end Spec

variable {K : Type} [Field K] [LinearOrder K] {m : Matrix K} {p q : (ℤ × ℤ) × (ℤ × ℤ)}

section Moves

/-- Several moves. -/
def moves (m : Matrix K) (qs : List ((ℤ × ℤ) × (ℤ × ℤ))) : Matrix K := qs.foldl moved m

/-- The point of a contour on the edge of a pair. -/
def node (m : Matrix K) (q : (ℤ × ℤ) × (ℤ × ℤ)) : EdgePoint K :=
  ⟨m.pairEdge q, m.point (m.pairEdge q)⟩

/-- The states of a trace differ in these fields only. -/
def Same (m s : Matrix K) : Prop :=
  s = { m with
    flag := s.flag
    cur := s.cur
    prev := s.prev
    start := s.start
    curCon := s.curCon
    conset := s.conset
    rev := s.rev }

omit [Field K] [LinearOrder K] in
lemma Same.trans {s t : Matrix K} (h : Same m s) (h' : Same s t) : Same m t := by
  rw [Same, h', h]

lemma Same.eqs {s : Matrix K} (h : Same m s) : s.crossed = m.crossed ∧ s.follow = m.follow ∧
    s.pairEdge = m.pairEdge ∧ s.preEdge = m.preEdge ∧ s.node = m.node := by
  rw [h]
  exact ⟨rfl, rfl, rfl, rfl, rfl⟩

omit [Field K] [LinearOrder K] in
lemma Same.commonTriangle {s : Matrix K} (h : Same m s) : s.CommonTriangle = m.CommonTriangle := by
  rw [h]
  rfl

lemma same_moves (m : Matrix K) (qs : List ((ℤ × ℤ) × (ℤ × ℤ))) : Same m (m.moves qs) := by
  induction qs generalizing m with
  | nil => rfl
  | cons q qs ih => exact Same.trans (s := m.moved q) rfl (ih (m.moved q))

lemma node_swap (h : m.IsPair p) : m.node p.swap = m.node p := by
  rw [node, pairEdge_swap h]
  rfl

/-- What several moves do to the fields that they change. -/
lemma moves_fields (m : Matrix K) (qs : List ((ℤ × ℤ) × (ℤ × ℤ))) :
    (m.moves qs).rev = m.rev ∧ (m.moves qs).start = m.start ∧ (m.moves qs).conset = m.conset ∧
      (m.moves qs).curCon =
        if m.rev then (qs.map m.node).reverse ++ m.curCon else m.curCon ++ qs.map m.node := by
  induction qs generalizing m with
  | nil => simp [moves]
  | cons q qs ih =>
    obtain ⟨hrev, hstart, hconset, hcon⟩ := ih (m.moved q)
    refine ⟨hrev, hstart, hconset, hcon.trans ?_⟩
    have hmoved : (m.moved q).curCon =
        if m.rev then m.node q :: m.curCon else m.curCon ++ [m.node q] := rfl
    have hnode : (m.moved q).node = m.node := rfl
    have hrev' : (m.moved q).rev = m.rev := rfl
    rw [hmoved, hnode, hrev']
    cases m.rev
    · simp
    · simp

lemma load_moves (hinv : m.Inv) {qs : List ((ℤ × ℤ) × (ℤ × ℤ))} (hqs : ∀ q ∈ qs, m.IsPair q)
    (e : ℤ) : load Stop.indexOutOfBounds (m.moves qs).flag e =
      if e ∈ qs.map m.pairEdge then .ok 1 else load Stop.indexOutOfBounds m.flag e := by
  induction qs generalizing m with
  | nil => simp [moves]
  | cons q qs ih =>
    obtain ⟨hinv', -, hstored⟩ := hinv.moved (hqs q List.mem_cons_self)
    have hrest : load Stop.indexOutOfBounds (m.moves (q :: qs)).flag e =
        if e ∈ qs.map m.pairEdge then .ok 1
        else load Stop.indexOutOfBounds (m.moved q).flag e :=
      ih hinv' fun r hr => hqs r (List.mem_cons_of_mem q hr)
    rw [hrest, List.map_cons]
    by_cases heq : e = m.pairEdge q
    · subst heq
      rw [hstored.same, if_pos List.mem_cons_self]
      split
      · rfl
      · rfl
    · rw [hstored.other e heq]
      simp only [List.mem_cons, heq, false_or]

lemma Inv.moves (h : m.Inv) {qs : List ((ℤ × ℤ) × (ℤ × ℤ))} (hqs : ∀ q ∈ qs, m.IsPair q) :
    (m.moves qs).Inv := by
  induction qs generalizing m with
  | nil => exact h
  | cons q qs ih =>
    exact ih (h.moved (hqs q List.mem_cons_self)).1 fun r hr => hqs r (List.mem_cons_of_mem q hr)

end Moves

section Walks

/-- The walk of a contour is the walk across the triangles, as long as it does not come to the edge
where it stops. -/
lemma AtPair.walk_along (h : m.AtPair p) {n : ℕ} (hn : iter m.follow n p = some q)
    (hstart : ∀ k < n, ∀ r, iter m.follow (k + 1) p = some r → m.pairEdge r ≠ m.start) (fuel : ℕ) :
    walk (n + fuel) m = walk fuel (m.moves (points m.follow (n + 1) p).tail) ∧
      (m.moves (points m.follow (n + 1) p).tail).AtPair q := by
  induction n generalizing m p with
  | zero =>
    cases hn
    have htail : (points m.follow (0 + 1) q).tail = [] := by
      cases hnext : m.follow q with
      | none => simp [points, hnext]
      | some r => simp [points, hnext]
    rw [htail, Nat.zero_add]
    exact ⟨rfl, h⟩
  | succ n ih =>
    obtain ⟨r, hr, hn⟩ := Option.bind_eq_some_iff.mp hn
    have hfirst := hstart 0 (by omega) r (by rw [iter_one]; exact hr)
    have hmoved := h.moved hr
    have hrest := ih hmoved hn (by
      intro k hk s hs
      apply hstart (k + 1) (by omega) s
      rw [iter_succ_of_next hr]
      exact hs)
    have htail : (points m.follow (n + 1 + 1) p).tail = points m.follow (n + 1) r := by
      rw [points, hr]
      rfl
    have hmoves : m.moves (points m.follow (n + 1) r) =
        (m.moved r).moves (points m.follow (n + 1) r).tail := rfl
    rw [htail, hmoves]
    refine ⟨?_, hrest.2⟩
    rw [Nat.add_right_comm, walk, h.next_some hr, ok_bind]
    dsimp only
    rw [if_pos (decide_eq_true hfirst)]
    exact hrest.1

/-- A walk that comes to the end of a line. -/
lemma AtPair.walk_end (h : m.AtPair p) {n : ℕ} (hn : iter m.follow n p = some q)
    (hend : m.follow q = none)
    (hstart : ∀ k < n, ∀ r, iter m.follow (k + 1) p = some r → m.pairEdge r ≠ m.start) {fuel : ℕ}
    (hfuel : n < fuel) :
    walk fuel m = .ok (m.moves (points m.follow (n + 1) p).tail).turned := by
  obtain ⟨d, rfl⟩ : ∃ d, fuel = n + (d + 1) := ⟨fuel - n - 1, by omega⟩
  obtain ⟨hwalk, hat⟩ := h.walk_along hn hstart (d + 1)
  have hfollow : (m.moves (points m.follow (n + 1) p).tail).follow = m.follow := by
    rw [same_moves m (points m.follow (n + 1) p).tail]
    rfl
  have hnone : (m.moves (points m.follow (n + 1) p).tail).follow q = none := by
    rw [hfollow]
    exact hend
  rw [hwalk, walk, hat.next_none hnone, ok_bind]
  rfl

/-- A walk that comes to the edge where it stops. -/
lemma AtPair.walk_stop (h : m.AtPair p) {n : ℕ} (hn : iter m.follow (n + 1) p = some q)
    (hstop : m.pairEdge q = m.start)
    (hstart : ∀ k < n, ∀ r, iter m.follow (k + 1) p = some r → m.pairEdge r ≠ m.start) {fuel : ℕ}
    (hfuel : n < fuel) :
    walk fuel m = .ok (m.moves (points m.follow (n + 1 + 1) p).tail) := by
  obtain ⟨d, rfl⟩ : ∃ d, fuel = n + (d + 1) := ⟨fuel - n - 1, by omega⟩
  obtain ⟨r, hr⟩ : ∃ r, iter m.follow n p = some r := by
    apply Option.ne_none_iff_exists'.mp
    apply iter_ne_none_of_le n.le_succ
    rw [hn]
    simp
  obtain ⟨hwalk, hat⟩ := h.walk_along hr hstart (d + 1)
  have hsame := same_moves m (points m.follow (n + 1) p).tail
  have hedge : (m.moves (points m.follow (n + 1) p).tail).pairEdge = m.pairEdge := by
    rw [hsame]
    rfl
  have hnext : (m.moves (points m.follow (n + 1) p).tail).follow r = some q := by
    rw [iter_succ, hr] at hn
    rw [hsame]
    exact hn
  have hlist : (points m.follow (n + 1 + 1) p).tail = (points m.follow (n + 1) p).tail ++ [q] := by
    rw [points_succ hn, List.tail_append_of_ne_nil]
    exact List.cons_ne_nil _ _
  have hmoves : m.moves (points m.follow (n + 1 + 1) p).tail =
      (m.moves (points m.follow (n + 1) p).tail).moved q := by
    rw [hlist, moves, List.foldl_append]
    rfl
  rw [hwalk, walk, hat.next_some hnext, ok_bind, hmoves]
  dsimp only
  rw [if_neg]
  simpa [hedge, (moves_fields m _).2.1] using hstop

end Walks

section Levels

/-- The level does not meet a node, so it passes between the ends of the edges that it meets. -/
lemma Inv.separates (h : m.Inv) (hz : m.AvoidsHeights m.curh) :
    Separates m.apex m.crossed fun v => m.height v < m.curh := by
  have hne : ∀ v, m.InGrid v → m.height v ≠ m.curh := fun v hv => hz v.1 v.2 _ (h.getZ_eq hv)
  refine ⟨m.crossing, ?_, ?_⟩
  · rintro ⟨u, w⟩ ⟨hp, hmin, hmax⟩
    have hu := hne u hp.1
    have hw := hne w hp.2.1
    rw [min_le_iff] at hmin
    rw [le_max_iff] at hmax
    rcases lt_or_gt_of_ne hu with hu | hu <;> rcases lt_or_gt_of_ne hw with hw | hw
    · exact absurd hmax (by simp [hu, hw])
    · simp [hu, hw.not_gt]
    · simp [hu.not_gt, hw]
    · exact absurd hmin (by simp [hu, hw])
  · intro u w x hx hapart
    refine ⟨(apex_eq_some.mp hx).1, ?_⟩
    by_cases hu : m.height u < m.curh
    · have hw : ¬ m.height w < m.curh := fun hw => hapart (iff_of_true hu hw)
      exact ⟨(min_le_left _ _).trans hu.le, (not_lt.mp hw).trans (le_max_right _ _)⟩
    · have hw : m.height w < m.curh := by
        by_contra hw
        exact hapart (iff_of_false hu hw)
      exact ⟨(min_le_right _ _).trans hw.le, (not_lt.mp hu).trans (le_max_left _ _)⟩

lemma finite_crossed (m : Matrix K) : {p | m.crossed p}.Finite := by
  apply (Set.finite_Icc (((0 : ℤ), (0 : ℤ)), ((0 : ℤ), (0 : ℤ)))
    ((m.row, m.col), (m.row, m.col))).subset
  rintro ⟨⟨a, b⟩, ⟨c, d⟩⟩ ⟨hp, -⟩
  obtain ⟨⟨⟨h1, h2⟩, ⟨h3, h4⟩⟩, ⟨⟨h5, h6⟩, ⟨h7, h8⟩⟩, -⟩ := hp
  exact ⟨⟨⟨h1, h3⟩, ⟨h5, h7⟩⟩, ⟨⟨h2.le, h4.le⟩, ⟨h6.le, h8.le⟩⟩⟩

/-- A closed line has at least three edges. -/
lemma three_le_of_return {n : ℕ} (hn : 0 < n) (hback : iter m.follow n p = some p) : 3 ≤ n := by
  have hstep : ∀ {a b : (ℤ × ℤ) × (ℤ × ℤ)}, m.follow a = some b →
      m.IsPair a ∧ (b = (corner a, a.2) ∨ b = (a.1, corner a)) := by
    intro a b hb
    obtain ⟨x, hx, hcase⟩ := step_eq_some.mp hb
    obtain ⟨ha, -, rfl⟩ := apex_eq_some.mp hx
    exact ⟨ha, hcase.imp And.right fun hc => hc.2.2⟩
  by_contra hlt
  obtain rfl | rfl : n = 1 ∨ n = 2 := by omega
  · rw [iter_one] at hback
    obtain ⟨hp, hcase⟩ := hstep hback
    obtain ⟨-, h1, h2, -, -⟩ := hp.corners_ne
    obtain ⟨u, w⟩ := p
    simp only [Prod.mk.injEq] at hcase h1 h2
    tauto
  · obtain ⟨q, hq, hback⟩ := Option.bind_eq_some_iff.mp hback
    rw [iter_one] at hback
    obtain ⟨hp, hcase⟩ := hstep hq
    obtain ⟨-, hcase'⟩ := hstep hback
    obtain ⟨hne, h1, h2, h3, h4⟩ := hp.corners_ne
    obtain ⟨u, w⟩ := p
    dsimp only at hne h1 h2 h3 h4
    obtain rfl | rfl := hcase
    · simp only [Prod.mk.injEq] at hcase'
      tauto
    · simp only [Prod.mk.injEq] at hcase'
      tauto

/-- Two edges that follow each other are sides of a triangle. -/
lemma commonTriangle_of_follow (hq : m.follow p = some q) :
    m.CommonTriangle (m.pairEdge p) (m.pairEdge q) := by
  obtain ⟨x, hx, hcase⟩ := step_eq_some.mp hq
  obtain ⟨hp, hcorner, rfl⟩ := apex_eq_some.mp hx
  obtain ⟨T, hT⟩ := hp.exists_triangle
  have hgrid := hT.grid.mpr hcorner
  have hother := hT.other hgrid
  refine ⟨T, hgrid, (hother.sides _).mpr (Or.inl rfl), ?_⟩
  obtain ⟨-, rfl⟩ | ⟨-, -, rfl⟩ := hcase
  · rw [← go_zero hp]
    exact hother.isSide (by simp)
  · rw [← go_one hp]
    exact hother.isSide (by simp)

omit [Field K] [LinearOrder K] in
lemma CommonTriangle.symm {e f : ℤ} (h : m.CommonTriangle e f) : m.CommonTriangle f e := by
  obtain ⟨T, hT, he, hf⟩ := h
  exact ⟨T, hT, hf, he⟩

omit [Field K] [LinearOrder K] in
/-- Only the edge `0` has `-2` for an edge that `Pre` gives. -/
lemma preEdge_ne (hp : m.IsPair p) (h0 : m.pairEdge p ≠ 0) (order : ℤ) :
    m.preEdge (m.pairEdge p) order ≠ -2 := by
  obtain ⟨i, j, k, hat, hedge⟩ := hp.isPresent
  rw [hedge] at h0 ⊢
  have hrow := hat.row
  have hcol := hat.col
  have hdown := hat.down
  have hright := hat.right
  have hnode := hat.toAt.node_nonneg
  have habove : 0 < i → 0 ≤ (i - 1) * m.col + j := by
    intro hi
    exact add_nonneg (mul_nonneg (by omega) (by omega)) hcol.1
  rw [hat.toAt.preEdge, number, edgeAt]
  rw [edgeAt] at h0
  obtain rfl | rfl | rfl := hat.kind
  · rw [preAt, if_pos rfl]
    split
    · dsimp only
      omega
    · dsimp only
      omega
  · rw [preAt, if_neg (by decide), if_pos rfl]
    split
    · dsimp only
      omega
    · dsimp only
      rw [add_mul, one_mul]
      omega
  · rw [preAt, if_neg (by decide), if_neg (by decide)]
    rcases hrow.1.eq_or_lt with h | h
    · rw [← h]
      split
      · dsimp only
        omega
      · dsimp only
        omega
    · have hpos := habove h
      split
      · dsimp only
        omega
      · dsimp only
        omega

end Levels

section Lines

/-- A contour has just been begun at the edge of a pair. -/
structure Begun (m : Matrix K) (p : (ℤ × ℤ) × (ℤ × ℤ)) : Prop extends m.AtPair p where
  start : m.start = m.pairEdge p
  curCon : m.curCon = [m.node p]
  rev : m.rev = false
  forward : forward p = true
  flag : load Stop.indexOutOfBounds m.flag (m.pairEdge p) = .ok 1

/-- What `GetOneSeg` leaves when it has followed a whole line. -/
structure Traced (m s : Matrix K) (line : List ((ℤ × ℤ) × (ℤ × ℤ))) : Prop where
  same : Same m s
  inv : s.Inv
  rev : s.rev = false
  conset : s.conset = m.conset
  flag : ∀ e, load Stop.indexOutOfBounds s.flag e =
    if e ∈ line.map m.pairEdge then .ok 1 else load Stop.indexOutOfBounds m.flag e
  visits : Visits (s.curCon.map EdgePoint.edge) (line.map m.pairEdge)
  nodes : ∀ q ∈ s.curCon, ∃ r ∈ line, q = m.node r
  consecutive : s.curCon.IsChain fun q r => m.CommonTriangle q.edge r.edge

lemma walk_isPair (h : m.crossed p) {n : ℕ} :
    ∀ q ∈ points m.follow n p, m.crossed q := by
  intro q hq
  obtain ⟨k, -, hk⟩ := mem_points.mp hq
  exact m.crossing.injective_step.mem_of_iter h hk

lemma isChain_nodes (n : ℕ) (p : (ℤ × ℤ) × (ℤ × ℤ)) :
    ((points m.follow n p).map m.node).IsChain fun q r => m.CommonTriangle q.edge r.edge := by
  rw [List.isChain_map]
  exact (isChain_points n p).imp fun a b hab => commonTriangle_of_follow hab

/-- The trace of a closed line. -/
lemma Begun.traced_loop (h : m.Begun p) (hz : m.AvoidsHeights m.curh) {n : ℕ}
    (hback : iter m.follow (n + 1) p = some p)
    (hfirst : ∀ k, 0 < k → k < n + 1 → iter m.follow k p ≠ some p) :
    ∃ s, (∀ fuel, n < fuel → m.getOneSeg fuel = .ok s) ∧
      m.Traced s (points m.follow (n + 1) p) := by
  have hsep := h.inv.separates hz
  have hstart : ∀ k < n, ∀ r, iter m.follow (k + 1) p = some r → m.pairEdge r ≠ m.start := by
    intro k hk r hr heq
    rw [h.start] at heq
    rcases (pairEdge_inj h.crossed.1 (hsep.crossed_iter h.crossed hr).1).mp heq.symm with rfl | rfl
    · exact hfirst (k + 1) (by omega) (by omega) hr
    · exact hsep.ne_swap h.crossed hr rfl
  have hlist : points m.follow (n + 1 + 1) p = points m.follow (n + 1) p ++ [p] := points_succ hback
  have hcrossed : ∀ q ∈ points m.follow (n + 1 + 1) p, m.crossed q := walk_isPair h.crossed
  obtain ⟨hrev, -, hconset, hcon⟩ := moves_fields m (points m.follow (n + 1 + 1) p).tail
  obtain ⟨rest, hrest⟩ : ∃ rest, points m.follow (n + 1) p = p :: rest := ⟨_, rfl⟩
  have htail : (points m.follow (n + 1 + 1) p).tail = rest ++ [p] := by
    rw [hlist, hrest]
    rfl
  have hcon' : (m.moves (points m.follow (n + 1 + 1) p).tail).curCon =
      (points m.follow (n + 1 + 1) p).map m.node := by
    rw [hcon, h.rev, h.curCon, htail, hlist, hrest]
    simp
  have hedges : (m.moves (points m.follow (n + 1 + 1) p).tail).curCon.map EdgePoint.edge =
      (points m.follow (n + 1 + 1) p).map m.pairEdge := by
    rw [hcon', List.map_map]
    rfl
  have hmem : ∀ q, q ∈ (points m.follow (n + 1 + 1) p).tail ↔ q ∈ points m.follow (n + 1) p := by
    intro q
    rw [htail, hrest, List.mem_append, List.mem_singleton, List.mem_cons, or_comm]
  have hpairs : ∀ q ∈ (points m.follow (n + 1 + 1) p).tail, m.IsPair q := fun q hq =>
    (hcrossed q (List.mem_of_mem_tail hq)).1
  refine ⟨m.moves (points m.follow (n + 1 + 1) p).tail, fun fuel hfuel => ?_, ?_⟩
  · rw [getOneSeg, h.walk_stop hback h.start.symm hstart hfuel, ok_bind, hrev, h.rev]
    rfl
  · refine ⟨same_moves m _, h.inv.moves hpairs, hrev.trans h.rev, hconset, fun e => ?_, ?_, ?_, ?_⟩
    · rw [load_moves h.inv hpairs]
      simp only [List.mem_map, hmem]
    · have hlength : 3 ≤ n + 1 := three_le_of_return (by omega) hback
      have hrest' : (rest.map m.pairEdge).length = n := by
        have hsome : iter m.follow (n + 1) p ≠ none := by
          rw [hback]
          simp
        have hpoints := length_points hsome
        rw [hrest, List.length_cons] at hpoints
        rw [List.length_map]
        omega
      rw [hedges, hlist, hrest, List.map_append, List.map_cons]
      exact Visits.closed _ _ (by omega)
    · intro q hq
      rw [hcon', List.mem_map] at hq
      obtain ⟨r, hr, rfl⟩ := hq
      rw [hlist, List.mem_append, List.mem_singleton] at hr
      rcases hr with hr | rfl
      · exact ⟨r, hr, rfl⟩
      · exact ⟨r, mem_points.mpr ⟨0, by omega, rfl⟩, rfl⟩
    · rw [hcon']
      exact isChain_nodes _ _

/-- The state after the first walk along a line with an end. -/
structure FirstWalk (m u : Matrix K) (p t : (ℤ × ℤ) × (ℤ × ℤ)) (n : ℕ) : Prop where
  same : Same m u
  inv : u.Inv
  cur : u.cur = m.pairEdge p
  start : u.start = m.pairEdge t
  prev : u.prev = -2
  rev : u.rev = true
  conset : u.conset = m.conset
  curCon : u.curCon = (points m.follow (n + 1) p).map m.node
  flag : ∀ e, load Stop.indexOutOfBounds u.flag e =
    if e ∈ (points m.follow (n + 1) p).map m.pairEdge then .ok 1
    else load Stop.indexOutOfBounds m.flag e

lemma Begun.first_walk (h : m.Begun p) (hz : m.AvoidsHeights m.curh) {n : ℕ}
    {t : (ℤ × ℤ) × (ℤ × ℤ)} (hn : iter m.follow n p = some t) (hend : m.follow t = none) :
    ∃ u, (∀ fuel, n < fuel → walk fuel m = .ok u) ∧ m.FirstWalk u p t n := by
  have hsep := h.inv.separates hz
  have hnone : iter m.follow (n + 1) p = none := by
    rw [iter_succ, hn]
    exact hend
  have hstart : ∀ k < n, ∀ r, iter m.follow (k + 1) p = some r → m.pairEdge r ≠ m.start := by
    intro k hk r hr heq
    rw [h.start] at heq
    rcases (pairEdge_inj h.crossed.1 (hsep.crossed_iter h.crossed hr).1).mp heq.symm with rfl | rfl
    · exact iter_ne_none_of_return (by omega) hr (n + 1) hnone
    · exact hsep.ne_swap h.crossed hr rfl
  have hpairs : ∀ q ∈ (points m.follow (n + 1) p).tail, m.IsPair q := fun q hq =>
    (walk_isPair h.crossed q (List.mem_of_mem_tail hq)).1
  obtain ⟨hrev, hstart', hconset, hcon⟩ := moves_fields m (points m.follow (n + 1) p).tail
  have hsame := same_moves m (points m.follow (n + 1) p).tail
  have hat := (h.walk_along hn hstart 0).2
  have hturned : (m.moves (points m.follow (n + 1) p).tail).turned =
      { m.moves (points m.follow (n + 1) p).tail with
        start := (m.moves (points m.follow (n + 1) p).tail).cur
        cur := (m.moves (points m.follow (n + 1) p).tail).start
        rev := true
        prev := -2 } := by
    rw [turned, if_pos (hrev.trans h.rev)]
  refine ⟨(m.moves (points m.follow (n + 1) p).tail).turned,
    fun fuel hfuel => h.walk_end hn hend hstart hfuel, ?_⟩
  rw [hturned]
  constructor
  · exact hsame.trans rfl
  · exact (h.inv.moves hpairs).of_fields rfl rfl rfl rfl
  · exact hstart'.trans h.start
  · refine hat.cur.trans ?_
    rw [hsame.eqs.2.2.1]
  · rfl
  · rfl
  · exact hconset
  · refine hcon.trans ?_
    rw [h.rev, h.curCon]
    rfl
  · intro e
    refine (load_moves h.inv hpairs e).trans ?_
    have hlist : points m.follow (n + 1) p = p :: (points m.follow (n + 1) p).tail := rfl
    rw [hlist, List.map_cons, List.tail_cons]
    by_cases he : e = m.pairEdge p
    · subst he
      rw [h.flag, if_pos List.mem_cons_self]
      split
      · rfl
      · rfl
    · simp only [List.mem_cons, he, false_or]

/-- The points of the two walks, in the order of the contour. -/
lemma map_node_joined (hp : m.crossed p) (n n' : ℕ) :
    (joined (points m.follow (n' + 1) p.swap) (points m.follow (n + 1) p)).map m.node =
      ((points m.follow (n' + 1) p.swap).tail.map m.node).reverse ++
        (points m.follow (n + 1) p).map m.node := by
  rw [joined, List.map_append, List.map_reverse, List.map_map]
  congr 2
  apply List.map_congr_left
  intro q hq
  exact node_swap (walk_isPair (crossed_swap hp) q (List.mem_of_mem_tail hq)).1

lemma mem_edges_joined (hp : m.crossed p) (n n' : ℕ) (e : ℤ) :
    e ∈ (joined (points m.follow (n' + 1) p.swap) (points m.follow (n + 1) p)).map m.pairEdge ↔
      e ∈ (points m.follow (n' + 1) p.swap).tail.map m.pairEdge ∨
        e ∈ (points m.follow (n + 1) p).map m.pairEdge := by
  have hedges := congrArg (List.map EdgePoint.edge) (map_node_joined hp n n')
  rw [List.map_map, List.map_append, List.map_reverse, List.map_map, List.map_map] at hedges
  change List.map m.pairEdge _ = (List.map m.pairEdge _).reverse ++ List.map m.pairEdge _ at hedges
  rw [hedges, List.mem_append, List.mem_reverse]

lemma isChain_joined (hp : m.crossed p) (n n' : ℕ) :
    ((joined (points m.follow (n' + 1) p.swap) (points m.follow (n + 1) p)).map m.node).IsChain
      fun q r => m.CommonTriangle q.edge r.edge := by
  rw [map_node_joined hp, List.isChain_append]
  refine ⟨?_, isChain_nodes _ _, ?_⟩
  · rw [List.isChain_reverse, List.map_tail]
    exact (isChain_nodes (n' + 1) p.swap).tail.imp fun a b hab => hab.symm
  · intro x hx y hy
    rw [List.getLast?_reverse, List.head?_map, Option.mem_def, Option.map_eq_some_iff] at hx
    obtain ⟨q, hq, rfl⟩ := hx
    obtain rfl : m.node p = y := Option.some.inj hy
    have hback := commonTriangle_of_follow (next_of_head_tail hq)
    rw [pairEdge_swap hp.1] at hback
    exact hback.symm

/-- The trace of a line that ends in both directions. -/
lemma Begun.traced_open (h : m.Begun p) (hz : m.AvoidsHeights m.curh) (h0 : m.pairEdge p ≠ 0)
    {n n' : ℕ} {t t' : (ℤ × ℤ) × (ℤ × ℤ)} (hn : iter m.follow n p = some t)
    (hend : m.follow t = none) (hn' : iter m.follow n' p.swap = some t')
    (hend' : m.follow t' = none) :
    ∃ s, (∀ fuel, n < fuel → n' < fuel → m.getOneSeg fuel = .ok s) ∧
      m.Traced s (joined (points m.follow (n' + 1) p.swap) (points m.follow (n + 1) p)) := by
  have hsep := h.inv.separates hz
  have hcrossed' : m.crossed p.swap := crossed_swap h.crossed
  have hnone : iter m.follow (n + 1) p = none := by
    rw [iter_succ, hn]
    exact hend
  obtain ⟨u, hwalk, hu⟩ := h.first_walk hz hn hend
  obtain ⟨heq, hfollow, hedge, hpre, hnode⟩ := hu.same.eqs
  have hat : u.AtPair p.swap := by
    refine ⟨hu.inv, ?_, ?_, ?_⟩
    · rw [heq]
      exact hcrossed'
    · rw [hedge, pairEdge_swap h.crossed.1, hu.cur]
    · rw [hu.prev, hpre, hu.cur, forward_swap h.crossed.1, h.forward]
      refine iff_of_false ?_ (by simp)
      rintro (h1 | h1 | h1)
      · exact preEdge_ne h.crossed.1 h0 0 h1.symm
      · exact preEdge_ne h.crossed.1 h0 1 h1.symm
      · exact absurd h1 (by decide)
  -- the second walk does not come to the edge where the first one turned
  have hstart : ∀ k < n', ∀ r, iter u.follow (k + 1) p.swap = some r → u.pairEdge r ≠ u.start := by
    intro k hk r hr hsame
    rw [hfollow] at hr
    rw [hedge, hu.start] at hsame
    have hne := hsep.ne_of_ends h.crossed hnone hr hn
    rcases (pairEdge_inj (hsep.crossed_iter hcrossed' hr).1
      (hsep.crossed_iter h.crossed hn).1).mp hsame with h1 | h1
    · exact hne.1 h1
    · exact hne.2 h1
  have hpairs : ∀ q ∈ (points m.follow (n' + 1) p.swap).tail, m.crossed q := fun q hq =>
    walk_isPair hcrossed' q (List.mem_of_mem_tail hq)
  have hpairs' : ∀ q ∈ (points m.follow (n' + 1) p.swap).tail, u.IsPair q := by
    intro q hq
    have hcrossed := hpairs q hq
    rw [← heq] at hcrossed
    exact hcrossed.1
  have hwalk' : ∀ fuel, n' < fuel →
      walk fuel u = .ok (u.moves (points m.follow (n' + 1) p.swap).tail).turned := by
    intro fuel hfuel
    rw [← hfollow]
    exact hat.walk_end (by rw [hfollow]; exact hn') (by rw [hfollow]; exact hend') hstart hfuel
  obtain ⟨hrev, -, hconset, hcon⟩ := moves_fields u (points m.follow (n' + 1) p.swap).tail
  have hturned : (u.moves (points m.follow (n' + 1) p.swap).tail).turned =
      { u.moves (points m.follow (n' + 1) p.swap).tail with rev := false } := by
    rw [turned, if_neg]
    rw [hrev, hu.rev]
    simp
  have hcon' : (u.moves (points m.follow (n' + 1) p.swap).tail).turned.curCon =
      (joined (points m.follow (n' + 1) p.swap) (points m.follow (n + 1) p)).map m.node := by
    rw [hturned, map_node_joined h.crossed]
    refine hcon.trans ?_
    rw [hu.rev, if_pos rfl, hu.curCon, hnode]
  have hload : ∀ e, load Stop.indexOutOfBounds
      (u.moves (points m.follow (n' + 1) p.swap).tail).turned.flag e =
        if e ∈ (joined (points m.follow (n' + 1) p.swap) (points m.follow (n + 1) p)).map m.pairEdge
        then .ok 1 else load Stop.indexOutOfBounds m.flag e := by
    intro e
    rw [hturned]
    refine (load_moves hu.inv hpairs' e).trans ?_
    rw [hedge, hu.flag]
    simp only [mem_edges_joined h.crossed]
    by_cases h1 : e ∈ (points m.follow (n' + 1) p.swap).tail.map m.pairEdge
    · simp only [h1, if_true, true_or]
    · simp only [h1, if_false, false_or]
  refine ⟨(u.moves (points m.follow (n' + 1) p.swap).tail).turned, fun fuel hfuel hfuel' => ?_, ?_⟩
  · rw [getOneSeg, hwalk fuel hfuel, ok_bind, if_pos hu.rev]
    exact hwalk' fuel hfuel'
  · constructor
    · rw [hturned]
      exact (hu.same.trans (same_moves u _)).trans rfl
    · rw [hturned]
      exact (hu.inv.moves hpairs').of_fields rfl rfl rfl rfl
    · rw [hturned]
    · rw [hturned]
      exact hconset.trans hu.conset
    · exact hload
    · rw [hcon', List.map_map]
      exact Visits.once _
    · intro q hq
      rw [hcon', List.mem_map] at hq
      obtain ⟨r, hr, rfl⟩ := hq
      exact ⟨r, hr, rfl⟩
    · rw [hcon']
      exact isChain_joined h.crossed n n'

/-- Every line from an edge other than `0` is followed whole. -/
lemma Begun.traced (h : m.Begun p) (hz : m.AvoidsHeights m.curh) (h0 : m.pairEdge p ≠ 0) :
    ∃ N s line, (∀ fuel, N ≤ fuel → m.getOneSeg fuel = .ok s) ∧ m.Traced s line ∧
      Whole m.apex m.crossed p line := by
  have hsep := h.inv.separates hz
  have hcrossed' : m.crossed p.swap := crossed_swap h.crossed
  have hinj := m.crossing.injective_step
  by_cases hback : ∃ n, 0 < n ∧ iter m.follow n p = some p
  · obtain ⟨hpos, hreturn⟩ := Nat.find_spec hback
    have hleast := fun k => Nat.find_min hback (m := k)
    obtain ⟨n, hn⟩ : ∃ n, Nat.find hback = n + 1 := ⟨Nat.find hback - 1, by omega⟩
    rw [hn] at hreturn hleast
    have hfirst : ∀ k, 0 < k → k < n + 1 → iter m.follow k p ≠ some p :=
      fun k hk hlt hsame => hleast k hlt ⟨hk, hsame⟩
    obtain ⟨s, hrun, htraced⟩ := h.traced_loop hz hreturn hfirst
    exact ⟨n + 1, s, _, fun fuel hfuel => hrun fuel hfuel, htraced,
      hsep.whole_loop n.succ_pos h.crossed hreturn hfirst⟩
  · have hends : ∀ a, m.crossed a → (¬ ∃ n, 0 < n ∧ iter m.follow n a = some a) →
        ∃ n t, iter m.follow n a = some t ∧ m.follow t = none := by
      intro a ha hnot
      have hexists : ∃ n, iter m.follow n a = none := by
        obtain ⟨n, hn, hend | hsame⟩ := hinj.exists_end_or_return m.finite_crossed ha
        · exact ⟨n, hend⟩
        · exact absurd ⟨n, hn, hsame⟩ hnot
      obtain ⟨n, hn⟩ : ∃ n, Nat.find hexists = n + 1 := by
        refine ⟨Nat.find hexists - 1, ?_⟩
        have hne : Nat.find hexists ≠ 0 := by
          intro hzero
          have hspec := Nat.find_spec hexists
          rw [hzero] at hspec
          cases hspec
        omega
      have hspec := Nat.find_spec hexists
      rw [hn] at hspec
      obtain ⟨t, ht⟩ := Option.ne_none_iff_exists'.mp (Nat.find_min hexists (m := n) (by omega))
      refine ⟨n, t, ht, ?_⟩
      rw [iter_succ, ht] at hspec
      exact hspec
    have hnot : ¬ ∃ n, 0 < n ∧ iter m.follow n p.swap = some p.swap := by
      rintro ⟨n, hn, hsame⟩
      have hturn := hsep.iter_swap hcrossed' hsame
      rw [Prod.swap_swap] at hturn
      exact hback ⟨n, hn, hturn⟩
    obtain ⟨n, t, hn, hend⟩ := hends p h.crossed hback
    obtain ⟨n', t', hn', hend'⟩ := hends p.swap hcrossed' hnot
    obtain ⟨s, hrun, htraced⟩ := h.traced_open hz h0 hn hend hn' hend'
    refine ⟨n + n' + 1, s, _, fun fuel hfuel => hrun fuel (by omega) (by omega), htraced, ?_⟩
    apply hsep.whole_open h.crossed
    · rw [iter_succ, hn]
      exact hend
    · rw [iter_succ, hn']
      exact hend'

end Lines

end Matrix

end MTalk.Triangle.MatrixCon
