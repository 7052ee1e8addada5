import MTalk.Triangle.Triangulation

/-!
# Runs of insertions and flips

`Edited` are the nets that a sequence of `InsertMid` and `ChangeEdge` makes of a start net,
where `split` and `flip` say which calls are made. On the nets that begin with the
triangulation of a start polygon the adjacency invariant holds as long as no flip is made at
an edge whose two trigons share a second side.
-/

namespace MTalk.Triangle

open WhileLoop

namespace Net

variable {K : Type} [Field K] [LinearOrder K] [FloorRing K]

/-- The net comes from `s₀` by calls of `InsertMid` and `ChangeEdge` on live trigons. -/
inductive Edited (split : Net K → Vertex K → TrigonRef → Prop) (flip : Net K → QueueNode → Prop)
    (s₀ : Net K) : Net K → Prop
  | start : Edited split flip s₀ s₀
  | insertMid {s s' : Net K} {v : Vertex K} {t : TrigonRef} : Edited split flip s₀ s → s.Live t →
      split s v t → s.insertMid v t = .ok s' → Edited split flip s₀ s'
  | changeEdge {s s' : Net K} {edge : QueueNode} : Edited split flip s₀ s → s.Live edge.trigon →
      flip s edge → s.changeEdge edge = .ok s' → Edited split flip s₀ s'

/-- A side with a neighbour is the neighbour's neighbour across the same two vertices, and
`np.not` counts the trigons. -/
structure AdjacencyInvariant (s : Net K) : Prop where
  back : ∀ t, s.Live t → ∀ i u, s.nbtri t i = some u → s.Live u ∧ ∃ j, s.nbvex t i = some j ∧
    s.nbtri u j = some t ∧ s.nbvex u j = some i ∧
    s.vex u (j + 1) = s.vex t (i + 2) ∧ s.vex u (j + 2) = s.vex t (i + 1)
  count : s.np.not = s.trigonIndex.length

omit [Field K] [LinearOrder K] [FloorRing K] in
lemma Adjacent.adjacencyInvariant {s : Net K} (h : s.Adjacent) : s.AdjacencyInvariant := by
  refine ⟨fun t ht i u hu => ?_, h.count⟩
  obtain ⟨j, hl⟩ := h.link_of_nbtri hu
  obtain ⟨hlive, hback⟩ := h.symmetric (t, i) (u, j) ht hl
  obtain ⟨h1, h2⟩ := link_eq_some.mp hback
  exact ⟨hlive, j, (link_eq_some.mp hl).2, h1, h2, h.ends t i u j hl⟩

omit [LinearOrder K] [FloorRing K] in
lemma create_adjacent (p : ListParam K) : (create p).Adjacent := by
  have hnull : ∀ a, (create p).link a = none := fun a => rfl
  refine ⟨⟨fun t i hne => absurd rfl hne, fun t i u j hl => ?_, fun t i u j hl => ?_⟩, fun a b _ hl => ?_,
    List.nodup_nil, fun t ht => ?_, rfl⟩
  · rw [hnull] at hl
    exact absurd hl (by simp)
  · rw [hnull] at hl
    exact absurd hl (by simp)
  · rw [hnull] at hl
    exact absurd hl (by simp)
  · exact absurd ht (List.not_mem_nil)

/-- One call of `triangulize` keeps the adjacency of the net and the outline of the polygon. -/
lemma triangulizeBody_adjacent {sp sp' : Net K × List (PolygonNode K)}
    (h : sp.1.Adjacent ∧ sp.1.Outline sp.2) (hr : Iteration Polygon.triangulizeBody sp sp') :
    sp'.1.Adjacent ∧ sp'.1.Outline sp'.2 := by
  unfold Iteration Polygon.triangulizeBody at hr
  split_ifs at hr
  · simp [pure, Except.pure] at hr
  · simp only [bind_eq_ok, pure, Except.pure, Except.ok.injEq, Option.some.injEq] at hr
    obtain ⟨sp1, h1, rfl⟩ := hr
    obtain ⟨hadj, hout, -⟩ := appendTrigon_adjacent h.1 h.2 h1
    exact ⟨hadj, hout⟩
  · simp only [pure, Except.pure, Except.ok.injEq, Option.some.injEq] at hr
    subst hr
    exact ⟨h.1, h.2.turn⟩

/-- The triangulation of a start polygon is adjacent, whatever the polygon. -/
theorem triangulize_adjacent {p : ListParam K} {vs : List (Vertex K)} {fuel : ℕ} {s : Net K}
    (h : Polygon.triangulize fuel (create p) (Polygon.ofVertices vs) = .ok s) : s.Adjacent := by
  simp only [Polygon.triangulize, bind_eq_ok, pure, Except.pure, Except.ok.injEq] at h
  obtain ⟨sp, hrun, rfl⟩ := h
  exact (invariant_of_run (I := fun sp => sp.1.Adjacent ∧ sp.1.Outline sp.2)
    (fun _ _ => triangulizeBody_adjacent) hrun
    ⟨create_adjacent p, outline_ofVertices _ vs⟩).1.1

/-- Splits and flips keep a net adjacent as long as the flips share one side only. -/
theorem Edited.adjacent {split : Net K → Vertex K → TrigonRef → Prop} {s₀ s : Net K}
    (h : Edited split (fun s edge => s.SharesOneSide edge.trigon edge.vid) s₀ s)
    (h₀ : s₀.Adjacent) : s.Adjacent := by
  induction h with
  | start => exact h₀
  | insertMid _ ht _ hr ih => exact (insertMid_ok ih ht hr).1
  | @changeEdge s s' edge _ ht hone hr ih =>
    cases hl : s.link (edge.trigon, edge.vid) with
    | none =>
      -- `ChangeEdge` returns at once on a boundary edge
      have hnull := ih.link_eq_none.mp hl
      simp only [Net.changeEdge, hnull, pure, Except.pure, Except.ok.injEq] at hr
      exact hr ▸ ih
    | some b => exact (changeEdge_ok ih ht hl hone hr).1

/-- In every net that splits and flips make of the triangulation of a start polygon, where no
flip is made at an edge whose trigons share a second side, the adjacency invariant holds. -/
theorem adjacency_invariant {p : ListParam K} {vs : List (Vertex K)} {fuel : ℕ} {s₀ s : Net K}
    (h₀ : Polygon.triangulize fuel (create p) (Polygon.ofVertices vs) = .ok s₀)
    (h : Edited (fun _ _ _ => True) (fun s edge => s.SharesOneSide edge.trigon edge.vid) s₀ s) :
    s.AdjacencyInvariant :=
  (h.adjacent (triangulize_adjacent h₀)).adjacencyInvariant

/-- A grid of one cell around the origin. -/
def unitGrid : ListParam ℚ := ⟨-10, -10, 10, 10, 20, 1, 1⟩

/-- The corners of a right triangle and a point inside it. -/
def rightTriangle : List (Vertex ℚ) :=
  [⟨0, 0, ⟨0, 0, 0⟩⟩, ⟨1, 1, ⟨4, 0, 0⟩⟩, ⟨2, 2, ⟨0, 4, 0⟩⟩]

def midpoint : Vertex ℚ := ⟨3, 3, ⟨1, 2, 0⟩⟩

/-- A square whose triangulation has a diagonal to flip. -/
def square : List (Vertex ℚ) :=
  [⟨0, 0, ⟨0, 0, 0⟩⟩, ⟨1, 1, ⟨4, 0, 0⟩⟩, ⟨2, 2, ⟨4, 4, 0⟩⟩, ⟨4, 4, ⟨0, 4, 0⟩⟩]

theorem adjacency_invariant_square : ∃ s₀ s₁ s,
    Polygon.triangulize 4 (create unitGrid) (Polygon.ofVertices square) = .ok s₀ ∧
      s₀.insertMid midpoint 1 = .ok s₁ ∧ s₁.changeEdge ⟨10, 0, 1⟩ = .ok s ∧
      s.AdjacencyInvariant := by
  have h : passes (Polygon.triangulize 4 (create unitGrid) (Polygon.ofVertices square))
      (fun s₀ => passes (s₀.insertMid midpoint 1) fun s₁ => passes (s₁.changeEdge ⟨10, 0, 1⟩) fun _ =>
        decide (s₀.Live 1 ∧ s₁.Live 0 ∧ s₁.nbtri 0 1 ≠ none ∧ s₁.SharesOneSide 0 1)) = true := by
    decide +kernel
  obtain ⟨s₀, h₀, h⟩ := exists_of_passes h
  obtain ⟨s₁, h₁, h⟩ := exists_of_passes h
  obtain ⟨s, hs, h⟩ := exists_of_passes h
  obtain ⟨hl₀, hl₁, -, hone⟩ := of_decide_eq_true h
  exact ⟨s₀, s₁, s, h₀, h₁, hs, adjacency_invariant h₀
    (.changeEdge (.insertMid .start hl₀ trivial h₁) hl₁ hone hs)⟩

/-- Without that condition a flip can leave a live trigon next to a deleted one: flipping a
spoke of the split triangle folds the net, and the second flip is at a doubly shared edge. -/
theorem adjacency_needs_one_shared_side : ¬∀ (p : ListParam ℚ) (vs : List (Vertex ℚ)) (fuel : ℕ)
    (s₀ s : Net ℚ), Polygon.triangulize fuel (create p) (Polygon.ofVertices vs) = .ok s₀ →
      Edited (fun _ _ _ => True) (fun _ _ => True) s₀ s → s.AdjacencyInvariant := by
  intro hall
  have h : passes (Polygon.triangulize 3 (create unitGrid) (Polygon.ofVertices rightTriangle))
      (fun s₀ => passes (s₀.insertMid midpoint 0) fun s₁ =>
        passes (s₁.changeEdge ⟨10, 1, 1⟩) fun s₂ => passes (s₂.changeEdge ⟨11, 5, 0⟩) fun s =>
          decide (s₀.Live 0 ∧ s₁.Live 1 ∧ s₂.Live 5 ∧
            ∃ t ∈ s.trigonIndex, ∃ i, ∃ u ∈ s.nbtri t i, u ∉ s.trigonIndex)) = true := by
    decide +kernel
  obtain ⟨s₀, h₀, h⟩ := exists_of_passes h
  obtain ⟨s₁, h₁, h⟩ := exists_of_passes h
  obtain ⟨s₂, h₂, h⟩ := exists_of_passes h
  obtain ⟨s, hs, h⟩ := exists_of_passes h
  obtain ⟨hl₀, hl₁, hl₂, t, ht, i, u, hu, hdead⟩ := of_decide_eq_true h
  have hrun : Edited (fun _ _ _ => True) (fun _ _ => True) s₀ s :=
    .changeEdge (.changeEdge (.insertMid .start hl₀ trivial h₁) hl₁ trivial h₂) hl₂ trivial hs
  exact hdead ((hall _ _ _ s₀ s h₀ hrun).back t ht i u hu).1

end Net

end MTalk.Triangle
