import MTalk.Triangle.QueueRuns
import MTalk.Triangle.Vertices

/-!
# Operations that complete

`DeleteTrigon` and `InsertTrigon` throw only where the grid has no cell for a vertex. As long
as the grid covers the vertices of the net, `ChangeEdge` and every iteration of `Process`
complete.
-/

namespace MTalk.Triangle

open WhileLoop

namespace Net

variable {K : Type} [Field K] [LinearOrder K] [FloorRing K]

/-- The grid has a cell for every vertex on the net. -/
def OnGrid (s : Net K) : Prop := ∀ v, s.OnNet v → s.listp.Covers v

instance (p : ListParam K) (v : Vertex K) : Decidable (p.Covers v) :=
  inferInstanceAs (Decidable (p.InRange _ _))

section Operations

variable {s s' : Net K} {out : QueueNode → Prop}

omit [Field K] [LinearOrder K] [FloorRing K] in
/-- The neighbours learn about a trigon whose own fields are paired. -/
lemma attachSides_completes {t : TrigonRef} {is : List (Fin 3)}
    (hself : ∀ i j, s.link (t, i) ≠ some (t, j))
    (hpaired : ∀ i, s.nbtri t i ≠ none → s.nbvex t i ≠ none) :
    ∃ s', is.foldlM (attachSide t) s = .ok s' := by
  induction is generalizing s with
  | nil => exact ⟨s, rfl⟩
  | cons i is ih =>
    cases hu : s.nbtri t i with
    | none =>
      obtain ⟨s', hs'⟩ := ih hself hpaired
      refine ⟨s', ?_⟩
      rw [List.foldlM_cons, bind_eq_ok]
      exact ⟨s, by simp only [attachSide, hu]; rfl, hs'⟩
    | some p =>
      obtain ⟨vid, hv⟩ := Option.ne_none_iff_exists'.mp (hpaired i (by simp [hu]))
      have hpt : ¬t = p := by
        rintro rfl
        exact hself i vid (link_eq_some.mpr ⟨hu, hv⟩)
      -- the write goes to the neighbour, so the trigon's own fields stay
      have hown : ∀ k, (s.setNeighbour p vid (some t) (some i)).nbtri t k = s.nbtri t k ∧
          (s.setNeighbour p vid (some t) (some i)).nbvex t k = s.nbvex t k := by
        intro k
        simp [setNeighbour, write_apply, hpt]
      obtain ⟨s', hs'⟩ := ih (s := s.setNeighbour p vid (some t) (some i))
        (fun k j => by rw [link_congr (hown k).1 (hown k).2]; exact hself k j)
        (fun k => by rw [(hown k).1, (hown k).2]; exact hpaired k)
      refine ⟨s', ?_⟩
      rw [List.foldlM_cons, bind_eq_ok]
      exact ⟨_, by simp only [attachSide, hu, hv, index_some, bind, Except.bind]; rfl, hs'⟩

lemma deleteTrigon_completes (h : s.Adjacent) (hq : s.QueueInv out) {t : TrigonRef} (ht : s.Live t)
    (hg : ∀ i, s.listp.Covers (s.vex t i)) : ∃ s', s.deleteTrigon t = .ok s' := by
  obtain ⟨cells, hc⟩ := QueryList.deleteCells_total (fun _ => ListParam.box_inRange hg) t s.cells
  have hrec : ∀ i ∈ ([0, 1, 2] : List (Fin 3)), ({ s with
      cells := cells, trigonIndex := s.trigonIndex.erase t } : Net K).EdgeRecorded (t, i) := by
    intro i _
    have hi := hq.edgeRecorded h (a := (t, i)) ht
    exact ⟨hi.back, hi.slots, hi.nodup, hi.here, hi.across, hi.once⟩
  obtain ⟨s1, h1, -, -⟩ := detachSides_queue (s := { s with
      cells := cells, trigonIndex := s.trigonIndex.erase t }) ⟨h.paired, h.known, h.ends⟩ (by simp) hrec
  refine ⟨{ s1 with np := { s1.np with not := s1.np.not - 1 } }, ?_⟩
  unfold deleteTrigon QueryList.delete
  simp only [bind_eq_ok, hc, pure, Except.pure, Except.ok.injEq, exists_eq_left']
  exact ⟨s1, h1, rfl⟩

lemma deleteTrigons_completes {ts : List TrigonRef} (h : s.Adjacent) (hq : s.QueueInv out)
    (hts : ∀ t ∈ ts, s.Live t) (hnd : ts.Nodup)
    (hg : ∀ t ∈ ts, ∀ i, s.listp.Covers (s.vex t i)) : ∃ s', ts.foldlM deleteTrigon s = .ok s' := by
  induction ts generalizing s out with
  | nil => exact ⟨s, rfl⟩
  | cons t ts ih =>
    obtain ⟨htn, hnd'⟩ := List.nodup_cons.mp hnd
    have ht := hts t (by simp)
    obtain ⟨s1, h1⟩ := deleteTrigon_completes h hq ht (hg t (by simp))
    obtain ⟨hadj, hreb⟩ := deleteTrigon_rebuilt h ht h1
    have hlive : ∀ u ∈ ts, s1.Live u := by
      intro u hu
      refine (hreb.live_iff h.nodup u).mpr (.inl ⟨hts u (by simp [hu]), ?_⟩)
      rw [List.mem_singleton]
      rintro rfl
      exact htn hu
    obtain ⟨s', hs'⟩ := ih hadj (deleteTrigon_queue h hq ht h1).1 hlive hnd' fun u hu i => by
      rw [hreb.listp, hreb.vex]
      exact hg u (by simp [hu]) i
    exact ⟨s', by rw [List.foldlM_cons, bind_eq_ok]; exact ⟨s1, h1, hs'⟩⟩

lemma insertTrigon_completes (hw : s.Wired) {t : TrigonRef}
    (hg : ∀ i, s.listp.Covers (s.vex t i)) : ∃ s', s.insertTrigon t = .ok s' := by
  obtain ⟨s1, h1⟩ : ∃ s1, [0, 1, 2].foldlM (attachSide t) s = .ok s1 :=
    attachSides_completes (hw.no_self t) (hw.paired t)
  obtain ⟨nb, nv, rfl, -⟩ := attachSides_ok (hw.no_self t) h1
  obtain ⟨cells, hc⟩ := QueryList.insertCells_total (fun _ => ListParam.box_inRange hg) t s.cells
  unfold insertTrigon QueryList.insert
  simp only [h1, hc, bind, Except.bind, pure, Except.pure, Except.ok.injEq, exists_eq']

lemma insertTrigons_completes {ts : List TrigonRef} (hw : s.Wired)
    (hg : ∀ t ∈ ts, ∀ i, s.listp.Covers (s.vex t i)) : ∃ s', ts.foldlM insertTrigon s = .ok s' := by
  induction ts generalizing s with
  | nil => exact ⟨s, rfl⟩
  | cons t ts ih =>
    obtain ⟨s1, h1⟩ := insertTrigon_completes hw (hg t (by simp))
    have hlist : [t].foldlM insertTrigon s = .ok s1 := by
      rw [List.foldlM_cons, bind_eq_ok]
      exact ⟨s1, h1, rfl⟩
    obtain ⟨cells, heart, nb, nv, rfl, hw1, -⟩ := insertTrigons_ok hw hlist
    obtain ⟨s', hs'⟩ := ih hw1 fun u hu => hg u (by simp [hu])
    exact ⟨s', by rw [List.foldlM_cons, bind_eq_ok]; exact ⟨_, h1, hs'⟩⟩

/-- A flip of an interior edge completes when the grid covers the net. -/
theorem changeEdge_completes {edge : QueueNode} {p2 : TrigonRef} {vid1 : Fin 3} (h : s.Adjacent)
    (hq : s.QueueInv out) (hg : s.OnGrid) (ht : s.Live edge.trigon)
    (hl : s.link (edge.trigon, edge.vid) = some (p2, vid1)) : ∃ s', s.changeEdge edge = .ok s' := by
  have hp2 := (h.symmetric _ _ ht hl).1
  have hne : p2 ≠ edge.trigon := (h.known _ _ _ _ hl).2.2
  have hlive : ∀ u ∈ [edge.trigon, p2], s.Live u := by
    simp only [List.mem_cons, List.not_mem_nil, or_false, forall_eq_or_imp, forall_eq]
    exact ⟨ht, hp2⟩
  have hold : ∀ {u}, s.Live u → u ≠ s.trigonCount ∧ u ≠ s.trigonCount + 1 := fun hu =>
    ⟨(h.old _ hu).ne, (Nat.lt_add_right 1 (h.old _ hu)).ne⟩
  obtain ⟨-, hverts⟩ := newPair_vertices h.toWired hl
  have hq0 : (s.newPair edge.trigon edge.vid p2 vid1).QueueInv out :=
    hq.of_new h rfl rfl fun a ha => by
      obtain ⟨h0, h1⟩ := hold ha
      exact ⟨newPair_link_old _ _ _ _ h0 h1, congrFun (s.newPair_old _ _ _ _ h0 h1).2.2.2 a.2⟩
  have hnd : [edge.trigon, p2].Nodup := by simp [hne.symm]
  obtain ⟨s1, h1⟩ := deleteTrigons_completes (h.newPair hl) hq0 hlive hnd fun u hu i => by
    obtain ⟨h0, h1⟩ := hold (hlive u hu)
    rw [(s.newPair_old _ _ _ _ h0 h1).1]
    exact hg _ ⟨u, hlive u hu, i, rfl⟩
  obtain ⟨cells, e, q, nb, nv, hs1, -, hw1, -⟩ := deleteTrigons_ok (newPair_wired h.toWired hl) h1
  have hgnew : ∀ u ∈ [s.trigonCount, s.trigonCount + 1], ∀ j, s1.listp.Covers (s1.vex u j) := by
    intro u hu j
    obtain ⟨t, htl, i, hi⟩ := hverts u hu j
    rw [hs1]
    change s.listp.Covers ((s.newPair edge.trigon edge.vid p2 vid1).vex u j)
    rw [hi]
    exact hg _ ⟨t, hlive t htl, i, rfl⟩
  obtain ⟨s2, h2⟩ := insertTrigons_completes hw1 hgnew
  exact ⟨_, (changeEdge_eq_ok hl).mpr ⟨s1, s2, h1, h2, rfl⟩⟩

/-- A flip keeps the vertices on the net. -/
lemma changeEdge_onNet {edge : QueueNode} {p2 : TrigonRef} {vid1 : Fin 3} (h : s.Adjacent)
    (ht : s.Live edge.trigon) (hl : s.link (edge.trigon, edge.vid) = some (p2, vid1))
    (hr : s.changeEdge edge = .ok s') (v : Vertex K) : s'.OnNet v ↔ s.OnNet v := by
  have hlive : ∀ u ∈ [edge.trigon, p2], s.Live u := by
    simp only [List.mem_cons, List.not_mem_nil, or_false, forall_eq_or_imp, forall_eq]
    exact ⟨ht, (h.symmetric _ _ ht hl).1⟩
  have hold : ∀ {u}, s.Live u → (s.newPair edge.trigon edge.vid p2 vid1).vex u = s.vex u := fun hu =>
    (s.newPair_old _ _ _ _ (h.old _ hu).ne (Nat.lt_add_right 1 (h.old _ hu)).ne).1
  obtain ⟨hcover, hverts⟩ := newPair_vertices h.toWired hl
  rw [(changeEdge_reindexed h.toWired hl hr).onNet_iff fun t htm i => by
    rw [hold (hlive t htm)]
    exact hcover t htm i]
  constructor
  · rintro (⟨t, htl, i, rfl⟩ | ⟨u, hu, j, rfl⟩)
    · exact ⟨t, htl, i, by rw [hold htl]⟩
    · obtain ⟨t, htm, i, hi⟩ := hverts u hu j
      exact ⟨t, hlive t htm, i, hi.symm⟩
  · rintro ⟨t, htl, i, rfl⟩
    exact .inl ⟨t, htl, i, by rw [hold htl]⟩

end Operations

section Process

variable {s s' : Net K}

/-- A net that `Process` can work on: positively oriented trigons with symmetric adjacency, a
queue of interior edges and a grid that covers the vertices. -/
structure Valid (s : Net K) : Prop where
  adjacent : s.Adjacent
  positive : s.Positive
  queued : s.Queued
  onGrid : s.OnGrid

/-- With edges in the queue another iteration of `Process` completes. -/
theorem processBody_completes (h : s.Valid) (hne : s.queue ≠ []) :
    ∃ s', Iteration processBody s s' := by
  obtain ⟨edge, rest, hs⟩ := List.exists_cons_of_ne_nil hne
  obtain ⟨hl, hlinked, he⟩ := h.queued.recorded edge (by simp [hs])
  obtain ⟨⟨p2, vid1⟩, hlink⟩ := Option.ne_none_iff_exists'.mp hlinked
  have hx : ({ s with queue := rest } : Net K).exchangable edge =
      .ok (decide (0 ≤ s.determinant edge.trigon p2 vid1)) := exchangable_eq hlink
  unfold Iteration processBody
  simp only [hs, hx, bind_eq_ok, Except.ok.injEq, exists_eq_left', decide_eq_true_eq]
  split_ifs
  · obtain ⟨s', hs'⟩ := changeEdge_completes (h.adjacent.of_queue s.nodeCount s.etc rest)
      (h.queued.out hs) h.onGrid hl hlink
    exact ⟨s', by simp only [bind_eq_ok]; exact ⟨s', hs', rfl⟩⟩
  · exact ⟨_, by simp only [bind_eq_ok]; exact ⟨_, removeEdge_eq (h.queued.out hs) hl hlink he, rfl⟩⟩

/-- `Process` leaves its loop exactly when the queue is empty. -/
lemma processBody_exit : processBody s = .ok none ↔ s.queue = [] := by
  unfold processBody
  cases hs : s.queue with
  | nil => simp [pure, Except.pure]
  | cons edge rest =>
    simp only [bind_eq_ok, reduceCtorEq, iff_false, not_exists, not_and]
    intro b _ hexit
    split_ifs at hexit
    · simp only [bind_eq_ok, pure, Except.pure, Except.ok.injEq] at hexit
      obtain ⟨_, -, hexit⟩ := hexit
      exact absurd hexit (by simp)
    · simp only [bind_eq_ok, pure, Except.pure, Except.ok.injEq] at hexit
      obtain ⟨_, -, hexit⟩ := hexit
      exact absurd hexit (by simp)

variable [IsStrictOrderedRing K]

/-- An iteration of `Process` keeps the vertices on the net. -/
lemma processBody_onNet (h : s.Valid) (hr : Iteration processBody s s') (v : Vertex K) :
    s'.OnNet v ↔ s.OnNet v := by
  obtain ⟨edge, rest, p2, vid1, hs, hl, hlink, ⟨hdet, hr⟩ | ⟨-, rfl⟩⟩ := processBody_cases h.queued hr
  · exact changeEdge_onNet (h.adjacent.of_queue s.nodeCount s.etc rest) hl hlink hr v
  · exact Iff.rfl

lemma processBody_listp (h : s.Valid) (hr : Iteration processBody s s') : s'.listp = s.listp := by
  obtain ⟨edge, rest, p2, vid1, hs, hl, hlink, ⟨hdet, hr⟩ | ⟨-, rfl⟩⟩ := processBody_cases h.queued hr
  · exact (changeEdge_reindexed (h.adjacent.of_queue s.nodeCount s.etc rest).toWired hlink hr).listp
  · rfl

/-- An iteration of `Process` keeps a net valid. -/
theorem Valid.iteration (h : s.Valid) (hr : Iteration processBody s s') : s'.Valid := by
  obtain ⟨ha, hp, hq⟩ := processBody_inv h.adjacent h.positive h.queued hr
  refine ⟨ha, hp, hq, fun v hv => ?_⟩
  rw [processBody_listp h hr]
  exact h.onGrid v ((processBody_onNet h hr v).mp hv)

end Process

end Net

end MTalk.Triangle
