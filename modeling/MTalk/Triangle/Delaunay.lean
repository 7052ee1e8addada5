import MTalk.Triangle.QueueConsistency
import MTalk.Triangle.Completion

/-!
# The Delaunay postcondition

The loop invariant of `Process` is that an interior edge which is not locally Delaunay is in the
queue. A split adds spokes that are never flippable and queues its outer edges; a flip turns the
sign of its own edge and queues its outer edges; an edge that is dropped was locally Delaunay.
-/

namespace MTalk.Triangle

open PlaneGeometry SideGluing WhileLoop

namespace Net

variable {K : Type} [Field K] [LinearOrder K]

/-- No vertex across an interior edge lies strictly inside the circumcircle. -/
def LocallyDelaunay (s : Net K) : Prop := ∀ t, s.Live t → ∀ i u j, s.nbtri t i = some u →
  s.nbvex t i = some j →
    ¬InsideCircumcircle (s.vex t 0).xy (s.vex t 1).xy (s.vex t 2).xy (s.vex u j).xy

/-- An interior edge is in the queue or its determinant is not positive. -/
def DelaunayUpToQueue (s : Net K) : Prop := ∀ a b, s.Live a.1 → s.link a = some b →
  (∃ n ∈ s.queue, n.side = a ∨ n.side = b) ∨ s.determinant a.1 b.1 b.2 ≤ 0

/-- An interior edge is in the queue. -/
def AllQueued (s : Net K) : Prop := ∀ a b, s.Live a.1 → s.link a = some b →
  ∃ n ∈ s.queue, n.side = a ∨ n.side = b

section Geometry

variable {s : Net K}

omit [LinearOrder K] in
/-- Both trigons at an edge give it the same determinant. -/
lemma determinant_across (hw : s.Wired) {t u : TrigonRef} {i j : Fin 3}
    (hl : s.link (t, i) = some (u, j)) : s.determinant u t i = s.determinant t u j := by
  obtain ⟨e1, e2⟩ := hw.ends t i u j hl
  rw [← determinant_at s u t j i, ← determinant_at s t u i j, e1, e2]
  exact inCircle_across _ _ _ _

variable [IsStrictOrderedRing K]

/-- With an empty queue the invariant is the Delaunay property. -/
theorem DelaunayUpToQueue.locallyDelaunay (hd : s.DelaunayUpToQueue) (hp : s.Positive)
    (hqueue : s.queue = []) : s.LocallyDelaunay := by
  intro t ht i u j hu hj
  rw [insideCircumcircle_iff (hp t ht), not_lt]
  refine (hd (t, i) (u, j) ht (link_eq_some.mpr ⟨hu, hj⟩)).resolve_left ?_
  rintro ⟨n, hn, -⟩
  simp [hqueue] at hn

end Geometry

section Steps

variable {s s' : Net K}

omit [Field K] [LinearOrder K] in
/-- The nodes of edges away from the old trigons stay in the list. -/
lemma Enqueued.kept {q : List QueueNode} {olds : List TrigonRef}
    {sides : List (TrigonRef × Fin 3)}
    (henq : s'.Enqueued (q.filter fun n => ¬s.Near olds n.side) sides s') {a b : TrigonRef × Fin 3}
    (hab : s.link a = some b) (hba : s.link b = some a) (ha : a.1 ∉ olds) (hb : b.1 ∉ olds)
    (hin : ∃ n ∈ q, n.side = a ∨ n.side = b) : ∃ n ∈ s'.queue, n.side = a ∨ n.side = b := by
  obtain ⟨new, hqueue, -, -⟩ := henq
  obtain ⟨n, hn, hside⟩ := hin
  refine ⟨n, ?_, hside⟩
  rw [hqueue, List.mem_append, List.mem_filter]
  refine .inl ⟨hn, decide_eq_true ?_⟩
  rcases hside with hside | hside <;> rw [hside]
  · rintro (hin | ⟨c, hc, hin⟩)
    · exact ha hin
    · rw [Option.mem_def, hab] at hc
      exact hb (Option.some.inj hc ▸ hin)
  · rintro (hin | ⟨c, hc, hin⟩)
    · exact hb hin
    · rw [Option.mem_def, hba] at hc
      exact ha (Option.some.inj hc ▸ hin)

omit [Field K] [LinearOrder K] in
/-- A glued side among those that were offered is in the list. -/
lemma Enqueued.offered {q : List QueueNode} {sides : List (TrigonRef × Fin 3)}
    (henq : s'.Enqueued q sides s') {a b : TrigonRef × Fin 3} (ha : a ∈ sides)
    (hab : s'.link a = some b) : ∃ n ∈ s'.queue, n.side = a := by
  obtain ⟨new, hqueue, -, hall⟩ := henq
  obtain ⟨n, hn, hside⟩ := hall a ha (by simp [hab])
  exact ⟨n, by rw [hqueue]; exact List.mem_append_right _ hn, hside⟩

omit [LinearOrder K] in
lemma determinant_congr {t u : TrigonRef} (ht : s'.vex t = s.vex t) (hu : s'.vex u = s.vex u)
    (j : Fin 3) : s'.determinant t u j = s.determinant t u j := by
  unfold determinant
  rw [ht, hu]

/-- It is enough to look at an edge from one of its sides. -/
lemma edge_symm (hw : s.Wired) {a b : TrigonRef × Fin 3} (hab : s.link a = some b)
    (h : (∃ n ∈ s.queue, n.side = a ∨ n.side = b) ∨ s.determinant a.1 b.1 b.2 ≤ 0) :
    (∃ n ∈ s.queue, n.side = b ∨ n.side = a) ∨ s.determinant b.1 a.1 a.2 ≤ 0 := by
  rcases h with ⟨n, hn, hside⟩ | hdet
  · exact .inl ⟨n, hn, hside.symm⟩
  · exact .inr ((determinant_across hw (i := a.2) (j := b.2) hab).trans_le hdet)

variable [FloorRing K]

/-- All interior edges are queued while the start polygon is cut up. -/
theorem appendTrigon_allQueued {nodes nodes' : List (PolygonNode K)} (h : s.Adjacent)
    (hq : s.Queued) (ho : s.Outline nodes) (hall : s.AllQueued)
    (hr : Polygon.appendTrigon s nodes = .ok (s', nodes')) : s'.AllQueued := by
  obtain ⟨h', -, edge, -, hreb⟩ := appendTrigon_adjacent h ho hr
  obtain ⟨-, henq⟩ := appendTrigon_queue h hq ho hr
  have hside : ∀ c : TrigonRef × Fin 3, c.1 = s.trigonCount →
      c ∈ [(s.trigonCount, (0 : Fin 3)), (s.trigonCount, 1), (s.trigonCount, 2)] := by
    rintro ⟨u, j⟩ rfl
    fin_cases j <;> simp
  intro a b ha hab
  have hback := (h'.symmetric a b ha hab)
  by_cases ha' : a.1 = s.trigonCount
  · obtain ⟨n, hn, hs⟩ := henq.offered (hside a ha') hab
    exact ⟨n, hn, .inl hs⟩
  · by_cases hb' : b.1 = s.trigonCount
    · obtain ⟨n, hn, hs⟩ := henq.offered (hside b hb') hback.2
      exact ⟨n, hn, .inr hs⟩
    · have hlive : ∀ u, s'.Live u → u ≠ s.trigonCount → s.Live u := by
        intro u hu hne
        rcases (hreb.live_iff h.nodup u).mp hu with ⟨hl, -⟩ | hn
        · exact hl
        · exact absurd (List.mem_singleton.mp hn) hne
      have hla := hlive _ ha ha'
      rw [hreb.links.kept a b hla (by simp) (by simp) (by simpa using hb'),
        appended_link_old ha'] at hab
      obtain ⟨n, hn, hs⟩ := hall a b hla hab
      obtain ⟨new, hqueue, -, -⟩ := henq
      exact ⟨n, by rw [hqueue]; exact List.mem_append_left _ hn, hs⟩

variable [IsStrictOrderedRing K]

/-- A split keeps the loop invariant. -/
theorem insertMid_delaunay {v : Vertex K} {t : TrigonRef} (h : s.Adjacent) (hp : s.Positive)
    (hq : s.Queued) (hd : s.DelaunayUpToQueue) (ht : s.Live t) (hv : vexPosition (s.vex t) v = 3)
    (hr : s.insertMid v t = .ok s') : s'.DelaunayUpToQueue := by
  obtain ⟨h', hreb⟩ := insertMid_ok h ht hr
  obtain ⟨-, henq⟩ := insertMid_queue h hq ht hr
  have hmids : ∀ u, u ∈ [s.mids 0, s.mids 1, s.mids 2] ↔ ∃ i, u = s.mids i := by
    intro u
    simp [Fin.exists_fin_succ]
  -- the edges of a new trigon: its outer edge is queued, its spokes have negative determinants
  have hnew : ∀ a b i, a.1 = s.mids i → s'.link a = some b →
      (∃ n ∈ s'.queue, n.side = a ∨ n.side = b) ∨ s'.determinant a.1 b.1 b.2 ≤ 0 := by
    rintro ⟨u, j⟩ b i rfl hab
    by_cases hij : i = j
    · subst hij
      obtain ⟨n, hn, hs⟩ := henq.offered (a := (s.mids i, i)) (by fin_cases i <;> simp) hab
      exact .inl ⟨n, hn, .inl hs⟩
    · right
      rw [hreb.links.new _ ((hmids _).mpr ⟨i, rfl⟩), newMids_link, if_pos hij] at hab
      obtain rfl := Option.some.inj hab
      rw [← determinant_at s' _ _ i, hreb.vex, (s.newMids_new v t i).1, (s.newMids_new v t j).1]
      simp only [ne_eq, not_true_eq_false, if_false, side_ne_one, side_ne_two, not_false_eq_true,
        if_true, Ne.symm hij]
      have h0 := vexPosition_inside hv (hp t ht) i
      have h1 := vexPosition_inside hv (hp t ht) (i + 1)
      have h2 := vexPosition_inside hv (hp t ht) (i + 2)
      rw [side_one_one, orient_rotate] at h1
      rw [side_two_one, ← orient_rotate] at h2
      exact ((inCircle_rotate _ _ _ _).symm.trans_lt (spoke_inCircle h1 h2 h0)).le
  intro a b ha hab
  obtain ⟨hb, hback⟩ := h'.symmetric a b ha hab
  by_cases ha' : ∃ i, a.1 = s.mids i
  · obtain ⟨i, hi⟩ := ha'
    exact hnew a b i hi hab
  · by_cases hb' : ∃ i, b.1 = s.mids i
    · obtain ⟨i, hi⟩ := hb'
      exact edge_symm h'.toWired hback (hnew b a i hi hback)
    · have hold : ∀ u, s'.Live u → (¬∃ i, u = s.mids i) → s.Live u ∧ u ∉ [t] := fun u hu hne =>
        ((hreb.live_iff h.nodup u).mp hu).resolve_right fun hn => hne ((hmids u).mp hn)
      obtain ⟨hla, hat⟩ := hold _ ha ha'
      obtain ⟨hlb, hbt⟩ := hold _ hb hb'
      rw [hreb.links.kept a b hla hat hbt (fun hn => hb' ((hmids _).mp hn)),
        newMids_link_old v t fun i hi => ha' ⟨i, hi⟩] at hab
      rcases hd a b hla hab with hin | hdet
      · exact .inl (henq.kept hab (h.symmetric a b hla hab).2 hat hbt hin)
      · right
        rw [determinant_congr (s := s)]
        · exact hdet
        · rw [hreb.vex, (s.newMids_old v t fun i hi => ha' ⟨i, hi⟩).1]
        · rw [hreb.vex, (s.newMids_old v t fun i hi => hb' ⟨i, hi⟩).1]

omit [LinearOrder K] [FloorRing K] [IsStrictOrderedRing K] in
/-- The diagonal that a flip puts in is not flippable back. -/
lemma flip_determinant {edge : QueueNode} {p2 : TrigonRef} {vid1 : Fin 3} (hw : s.Wired)
    (hl : s.link (edge.trigon, edge.vid) = some (p2, vid1))
    (hvex : s'.vex = (s.newPair edge.trigon edge.vid p2 vid1).vex) :
    s'.determinant s.trigonCount (s.trigonCount + 1) 1 = -s.determinant edge.trigon p2 vid1 := by
  obtain ⟨e1, e2⟩ := hw.ends _ _ _ _ hl
  rw [← determinant_at s _ _ edge.vid, ← e1, ← e2]
  unfold determinant
  rw [hvex, (s.newPair_first _ _ _ _).1, (s.newPair_second _ _ _ _).1]
  simp only [Matrix.cons_val_zero, Matrix.cons_val_one, Matrix.cons_val_two, Matrix.tail_cons,
    Matrix.head_cons]
  rw [← e2]
  exact inCircle_flip _ _ _ _

/-- A flip keeps the loop invariant. -/
theorem changeEdge_delaunay {edge : QueueNode} {p2 : TrigonRef} {vid1 : Fin 3}
    {out : QueueNode → Prop} (h : s.Adjacent) (hq : s.QueueInv out) (ht : s.Live edge.trigon)
    (hl : s.link (edge.trigon, edge.vid) = some (p2, vid1))
    (hone : s.SharesOneSide edge.trigon edge.vid)
    (hd : ∀ a b, s.Live a.1 → s.link a = some b → a.1 ∉ [edge.trigon, p2] →
      b.1 ∉ [edge.trigon, p2] →
        (∃ n ∈ s.queue, n.side = a ∨ n.side = b) ∨ s.determinant a.1 b.1 b.2 ≤ 0)
    (hdet : 0 ≤ s.determinant edge.trigon p2 vid1) (hr : s.changeEdge edge = .ok s') :
    s'.DelaunayUpToQueue := by
  obtain ⟨h', hreb⟩ := changeEdge_ok h ht hl hone hr
  obtain ⟨-, henq⟩ := changeEdge_queue h hq ht hl hone hr
  have hpair : ∀ u, u ∈ [s.trigonCount, s.trigonCount + 1] ↔
      u = s.trigonCount ∨ u = s.trigonCount + 1 := by simp
  have hdiag := flip_determinant h.toWired hl hreb.vex
  have hmid : s'.link (s.trigonCount, 1) = some (s.trigonCount + 1, 1) := by
    rw [hreb.links.new _ (by simp), newPair_link_first]
    rfl
  -- the outer edges of a new trigon are queued, the new diagonal has the opposite determinant
  have hnew : ∀ a b, a.1 ∈ [s.trigonCount, s.trigonCount + 1] → s'.Live a.1 → s'.link a = some b →
      (∃ n ∈ s'.queue, n.side = a ∨ n.side = b) ∨ s'.determinant a.1 b.1 b.2 ≤ 0 := by
    rintro ⟨u, j⟩ b hu hlive hab
    have hout : (u, j) ∈ s.outerSides → (∃ n ∈ s'.queue, n.side = (u, j) ∨ n.side = b) := by
      intro hin
      obtain ⟨n, hn, hs⟩ := henq.offered hin hab
      exact ⟨n, hn, .inl hs⟩
    by_cases hj : j = 1
    · right
      subst hj
      rcases (hpair u).mp hu with rfl | rfl
      · obtain rfl := Option.some.inj (hmid.symm.trans hab)
        rw [hdiag]
        exact neg_nonpos.mpr hdet
      · have hback := (h'.symmetric _ _ ((hreb.live_iff (h.newPair hl).nodup _).mpr
          (.inr (by simp))) hmid).2
        obtain rfl := Option.some.inj (hback.symm.trans hab)
        exact ((determinant_across h'.toWired hmid).trans hdiag).trans_le (neg_nonpos.mpr hdet)
    · refine .inl (hout ?_)
      rcases (hpair u).mp hu with rfl | rfl
      · fin_cases j <;> simp_all [outerSides]
      · fin_cases j <;> simp_all [outerSides]
  intro a b ha hab
  obtain ⟨hb, hback⟩ := h'.symmetric a b ha hab
  by_cases ha' : a.1 ∈ [s.trigonCount, s.trigonCount + 1]
  · exact hnew a b ha' ha hab
  · by_cases hb' : b.1 ∈ [s.trigonCount, s.trigonCount + 1]
    · exact edge_symm h'.toWired hback (hnew b a hb' hb hback)
    · have hold : ∀ u, s'.Live u → u ∉ [s.trigonCount, s.trigonCount + 1] →
          s.Live u ∧ u ∉ [edge.trigon, p2] := fun u hu hne =>
        ((hreb.live_iff (h.newPair hl).nodup u).mp hu).resolve_right hne
      obtain ⟨hla, hao⟩ := hold _ ha ha'
      obtain ⟨hlb, hbo⟩ := hold _ hb hb'
      have hne : ∀ {u}, u ∉ [s.trigonCount, s.trigonCount + 1] →
          u ≠ s.trigonCount ∧ u ≠ s.trigonCount + 1 := fun hu =>
        not_or.mp ((hpair _).not.mp hu)
      rw [hreb.links.kept a b hla hao hbo hb', newPair_link_old _ _ _ _ (hne ha').1 (hne ha').2]
        at hab
      rcases hd a b hla hab hao hbo with hin | hle
      · exact .inl (henq.kept hab (h.symmetric a b hla hab).2 hao hbo hin)
      · right
        rw [determinant_congr (s := s)]
        · exact hle
        · rw [hreb.vex, (s.newPair_old _ _ _ _ (hne ha').1 (hne ha').2).1]
        · rw [hreb.vex, (s.newPair_old _ _ _ _ (hne hb').1 (hne hb').2).1]

/-- An iteration of `Process` keeps the loop invariant. -/
theorem processBody_delaunay (h : s.Adjacent) (hp : s.Positive) (hq : s.Queued)
    (hd : s.DelaunayUpToQueue) (hr : Iteration processBody s s') : s'.DelaunayUpToQueue := by
  obtain ⟨edge, rest, p2, vid1, hs, hl, hlink, ⟨hdet, hr⟩ | ⟨hdet, rfl⟩⟩ := processBody_cases hq hr
  · have h1 : ({ s with queue := rest } : Net K).Adjacent := h.of_queue s.nodeCount s.etc rest
    have hp1 : ({ s with queue := rest } : Net K).Positive := hp
    refine changeEdge_delaunay h1 (hq.out hs) hl hlink (hp1.sharesOneSide h1 hl edge.vid)
      (fun a b ha hab hao hbo => ?_) hdet hr
    refine (hd a b ha hab).imp_left ?_
    rintro ⟨n, hn, hside⟩
    rw [hs, List.mem_cons] at hn
    refine ⟨n, hn.resolve_left ?_, hside⟩
    -- the edge that was taken out belongs to an old trigon
    rintro rfl
    rcases hside with rfl | rfl
    · exact hao (by simp [QueueNode.side])
    · exact hbo (by simp [QueueNode.side])
  · intro a b ha hab
    have hab' : s.link a = some b := hab
    rcases hd a b ha hab' with ⟨n, hn, hside⟩ | hle
    · rw [hs, List.mem_cons] at hn
      rcases hn with rfl | hn
      · -- the dropped edge was locally Delaunay
        right
        have hlink' : s.link n.side = some (p2, vid1) := hlink
        rcases hside with rfl | rfl
        · obtain rfl := Option.some.inj (hlink'.symm.trans hab')
          exact hdet.le
        · have hback := (h.symmetric a n.side ha hab').2
          obtain rfl := Option.some.inj (hlink'.symm.trans hback)
          exact ((determinant_across h.toWired hab').symm.trans_lt hdet).le
      · exact .inl ⟨n, hn, hside⟩
    · exact .inr hle

end Steps

section Runs

variable [FloorRing K] {s s' : Net K}

/-- A call of `triangulize` leaves every interior edge in the queue. -/
lemma triangulizeBody_allQueued {sp sp' : Net K × List (PolygonNode K)} (h : sp.1.Adjacent)
    (ho : sp.1.Outline sp.2) (hq : sp.1.Queued) (hall : sp.1.AllQueued)
    (hr : Iteration Polygon.triangulizeBody sp sp') : sp'.1.AllQueued := by
  unfold Iteration Polygon.triangulizeBody at hr
  split_ifs at hr
  · simp [pure, Except.pure] at hr
  · simp only [bind_eq_ok, pure, Except.pure, Except.ok.injEq, Option.some.injEq] at hr
    obtain ⟨⟨s1, nodes1⟩, h1, rfl⟩ := hr
    exact appendTrigon_allQueued h hq ho hall h1
  · simp only [pure, Except.pure, Except.ok.injEq, Option.some.injEq] at hr
    subst hr
    exact hall

/-- After the triangulation of a start polygon all its interior edges are queued. -/
theorem triangulize_queued {p : ListParam K} {vs : List (Vertex K)} {fuel : ℕ}
    (h : Polygon.triangulize fuel (create p) (Polygon.ofVertices vs) = .ok s) :
    s.Adjacent ∧ s.Queued ∧ s.AllQueued := by
  simp only [Polygon.triangulize, bind_eq_ok, pure, Except.pure, Except.ok.injEq] at h
  obtain ⟨sp, hrun, rfl⟩ := h
  obtain ⟨⟨⟨⟨ha, -⟩, hq⟩, hall⟩, -⟩ := invariant_of_run
    (I := fun sp => ((sp.1.Adjacent ∧ sp.1.Outline sp.2) ∧ sp.1.Queued) ∧ sp.1.AllQueued)
    (fun _ _ hi hr => ⟨⟨triangulizeBody_adjacent hi.1.1 hr,
        triangulizeBody_queue hi.1.1.1 hi.1.1.2 hi.1.2 hr⟩,
      triangulizeBody_allQueued hi.1.1.1 hi.1.1.2 hi.1.2 hi.2 hr⟩) hrun
    ⟨⟨⟨create_adjacent p, outline_ofVertices _ vs⟩, create_queued p⟩,
      fun a _ ha => absurd ha List.not_mem_nil⟩
  exact ⟨ha, hq, hall⟩

/-- `InitTriang` on the start polygon, then insertions that `split` admits, each followed by a
`Process` that returns. -/
inductive Legalised (split : Net K → Vertex K → TrigonRef → Prop) (p : ListParam K)
    (vs : List (Vertex K)) : Net K → Prop
  | initTriang {s : Net K} {fuel : ℕ} :
    (create p).initTriang fuel (Polygon.ofVertices vs) = .ok s → Legalised split p vs s
  | insertMid {s s1 s' : Net K} {v : Vertex K} {t : TrigonRef} {fuel : ℕ} :
    Legalised split p vs s → s.Live t → split s v t → s.insertMid v t = .ok s1 →
      s1.process fuel = .ok s' → Legalised split p vs s'

/-- The start polygon is triangulated into positively oriented trigons. -/
def PositiveStart (p : ListParam K) (vs : List (Vertex K)) : Prop := ∀ fuel s₀,
  Polygon.triangulize fuel (create p) (Polygon.ofVertices vs) = .ok s₀ →
    ∀ t, s₀.Live t → 0 < signedArea (s₀.vex t)

lemma positiveStart_of_run {p : ListParam K} {vs : List (Vertex K)} {fuel : ℕ} {s₀ : Net K}
    (h : Polygon.triangulize fuel (create p) (Polygon.ofVertices vs) = .ok s₀)
    (hpos : ∀ t, s₀.Live t → 0 < signedArea (s₀.vex t)) : PositiveStart p vs := by
  intro fuel' s₁ h₁
  simp only [Polygon.triangulize, bind_eq_ok, pure, Except.pure, Except.ok.injEq] at h h₁
  obtain ⟨sp, hrun, rfl⟩ := h
  obtain ⟨sp', hrun', rfl⟩ := h₁
  rw [run_unique hrun' hrun]
  exact hpos

variable [IsStrictOrderedRing K]

/-- A `Process` that returns leaves a locally Delaunay net with an empty queue. -/
theorem process_delaunay {fuel : ℕ} (h : s.Adjacent) (hp : s.Positive) (hq : s.Queued)
    (hd : s.DelaunayUpToQueue) (hr : s.process fuel = .ok s') :
    (s'.Adjacent ∧ s'.Positive ∧ s'.Queued) ∧ s'.queue = [] ∧ s'.DelaunayUpToQueue := by
  obtain ⟨⟨hinv, hd'⟩, hexit⟩ := invariant_of_run
    (I := fun s => (s.Adjacent ∧ s.Positive ∧ s.Queued) ∧ s.DelaunayUpToQueue)
    (fun _ _ hi hr => ⟨processBody_inv hi.1.1 hi.1.2.1 hi.1.2.2 hr,
      processBody_delaunay hi.1.1 hi.1.2.1 hi.1.2.2 hi.2 hr⟩) hr ⟨⟨h, hp, hq⟩, hd⟩
  exact ⟨hinv, processBody_exit.mp hexit, hd'⟩

/-- Along a legalised run of inner insertions the net stays positive and Delaunay. -/
theorem Legalised.inv {p : ListParam K} {vs : List (Vertex K)} (h : Legalised Inner p vs s)
    (hpos : PositiveStart p vs) :
    (s.Adjacent ∧ s.Positive ∧ s.Queued) ∧ s.queue = [] ∧ s.DelaunayUpToQueue := by
  induction h with
  | @initTriang s fuel hr =>
    simp only [Net.initTriang, bind_eq_ok] at hr
    obtain ⟨s₀, h₀, hr⟩ := hr
    obtain ⟨ha, hq, hall⟩ := triangulize_queued h₀
    exact process_delaunay ha (positive_of_signedArea (hpos fuel s₀ h₀)) hq
      (fun a b hl hab => .inl (hall a b hl hab)) hr
  | insertMid _ ht hv hi hr ih =>
    obtain ⟨⟨ha, hp, hq⟩, -, hd⟩ := ih
    exact process_delaunay (insertMid_ok ha ht hi).1 (insertMid_positive ha hp ht hv hi)
      (insertMid_queue ha hq ht hi).1 (insertMid_delaunay ha hp hq hd ht hv hi) hr

/-- Whenever `Process` returns, on a positively triangulated start polygon and after any
insertions of inner points, every interior edge is locally Delaunay. -/
theorem locally_delaunay {p : ListParam K} {vs : List (Vertex K)} (hpos : PositiveStart p vs)
    (h : Legalised Inner p vs s) : s.LocallyDelaunay := by
  obtain ⟨⟨-, hp, -⟩, hqueue, hd⟩ := h.inv hpos
  exact hd.locallyDelaunay hp hqueue

theorem locally_delaunay_square : ∃ s₀ s₁ s : Net ℚ,
    (create unitGrid).initTriang 9 (Polygon.ofVertices square) = .ok s₀ ∧
      s₀.insertMid midpoint 2 = .ok s₁ ∧ s₁.process 20 = .ok s ∧ s.trigonIndex.length = 4 ∧
      s.LocallyDelaunay := by
  have h : passes (Polygon.triangulize 9 (create unitGrid) (Polygon.ofVertices square)) (fun s =>
      decide (∀ t ∈ s.trigonIndex, 0 < signedArea (s.vex t)) && passes (s.process 9) fun s₀ =>
        passes (s₀.insertMid midpoint 2) fun s₁ => passes (s₁.process 20) fun s =>
          decide (s₀.Live 2 ∧ Inner s₀ midpoint 2 ∧ s.trigonIndex.length = 4)) = true := by
    decide +kernel
  obtain ⟨s, hs, h⟩ := exists_of_passes h
  obtain ⟨hpos, h⟩ := Bool.and_eq_true_iff.mp h
  have hpos' : ∀ t ∈ s.trigonIndex, 0 < signedArea (s.vex t) := of_decide_eq_true hpos
  obtain ⟨s₀, h₀, h⟩ := exists_of_passes h
  obtain ⟨s₁, h₁, h⟩ := exists_of_passes h
  obtain ⟨s₂, h₂, h⟩ := exists_of_passes h
  obtain ⟨hl, hv, hlen⟩ := of_decide_eq_true h
  have hinit : (create unitGrid).initTriang 9 (Polygon.ofVertices square) = .ok s₀ := by
    rw [initTriang, hs]
    exact h₀
  exact ⟨s₀, s₁, s₂, hinit, h₁, h₂, hlen,
    locally_delaunay (positiveStart_of_run hs hpos')
      (.insertMid (.initTriang hinit) hl hv h₁ h₂)⟩

/-- A vertex of the neighbour inside the circle around `o` through the vertices of a trigon. -/
def Encroached (s : Net K) (t : TrigonRef) (i : Fin 3) (u : TrigonRef) (j : Fin 3) (o : K × K) :
    Prop :=
  s.Live t ∧ s.nbtri t i = some u ∧ s.nbvex t i = some j ∧
    dist2 o (s.vex t 0).xy = dist2 o (s.vex t 1).xy ∧
    dist2 o (s.vex t 1).xy = dist2 o (s.vex t 2).xy ∧
    dist2 o (s.vex u j).xy < dist2 o (s.vex t 0).xy

instance (s : Net K) (t : TrigonRef) (i : Fin 3) (u : TrigonRef) (j : Fin 3) (o : K × K) :
    Decidable (s.Encroached t i u j o) :=
  inferInstanceAs (Decidable (_ ∧ _ ∧ _ ∧ _ ∧ _ ∧ _))

omit [FloorRing K] [IsStrictOrderedRing K] in
lemma Encroached.not_locallyDelaunay {t u : TrigonRef} {i j : Fin 3} {o : K × K}
    (h : s.Encroached t i u j o) : ¬s.LocallyDelaunay := by
  obtain ⟨ht, hu, hj, h1, h2, h3⟩ := h
  exact fun hld => hld t ht i u j hu hj ⟨o, h1, h2, h3⟩

/-- A rhombus that is entered clockwise. -/
def clockwiseRhombus : List (Vertex ℚ) :=
  [⟨0, 0, ⟨-4, 0, 0⟩⟩, ⟨1, 1, ⟨0, 1, 0⟩⟩, ⟨2, 2, ⟨4, 0, 0⟩⟩, ⟨3, 3, ⟨0, -1, 0⟩⟩]

/-- Both conditions are needed: a vertex outside the trigon that is split leaves an edge that
the queue has dropped, and on clockwise trigons `Exchangable` has the opposite sense. -/
theorem delaunay_needs_inner_and_positive :
    (¬∀ (p : ListParam ℚ) (vs : List (Vertex ℚ)) (s : Net ℚ), PositiveStart p vs →
      Legalised (fun _ _ _ => True) p vs s → s.LocallyDelaunay) ∧
    ¬∀ (p : ListParam ℚ) (vs : List (Vertex ℚ)) (s : Net ℚ),
      Legalised Inner p vs s → s.LocallyDelaunay := by
  constructor
  · intro hall
    have h : passes (Polygon.triangulize 3 (create unitGrid) (Polygon.ofVertices rightTriangle))
        (fun s => decide (∀ t ∈ s.trigonIndex, 0 < signedArea (s.vex t)) &&
          passes (s.process 3) fun s₀ => passes (s₀.insertMid ⟨3, 3, ⟨5, 5, 0⟩⟩ 0) fun s₁ =>
            passes (s₁.process 9) fun s₂ => decide (s₀.Live 0 ∧ s₂.Encroached 3 1 2 2 (2, 3))) =
        true := by
      decide +kernel
    obtain ⟨s, hs, h⟩ := exists_of_passes h
    obtain ⟨hpos, h⟩ := Bool.and_eq_true_iff.mp h
    have hpos' : ∀ t ∈ s.trigonIndex, 0 < signedArea (s.vex t) := of_decide_eq_true hpos
    obtain ⟨s₀, h₀, h⟩ := exists_of_passes h
    obtain ⟨s₁, h₁, h⟩ := exists_of_passes h
    obtain ⟨s₂, h₂, h⟩ := exists_of_passes h
    obtain ⟨hl, henc⟩ := of_decide_eq_true h
    have hinit : (create unitGrid).initTriang 3 (Polygon.ofVertices rightTriangle) = .ok s₀ := by
      rw [initTriang, hs]
      exact h₀
    exact henc.not_locallyDelaunay (hall _ _ s₂ (positiveStart_of_run hs hpos')
      (.insertMid (.initTriang hinit) hl trivial h₁ h₂))
  · intro hall
    have h : passes ((create unitGrid).initTriang 9 (Polygon.ofVertices clockwiseRhombus))
        (fun s => decide (s.Encroached 0 1 1 2 (0, -15 / 2))) = true := by
      decide +kernel
    obtain ⟨s, hs, h⟩ := exists_of_passes h
    exact (of_decide_eq_true h).not_locallyDelaunay (hall _ _ s (.initTriang hs))

end Runs

end Net

end MTalk.Triangle
