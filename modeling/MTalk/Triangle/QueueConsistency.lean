import MTalk.Triangle.QueueRuns

/-!
# Consistency of the edge queue

Along the triangulation of a start polygon, and on a positively oriented triangulation along any
insertions of inner points and iterations of `Process`, the list and the `etc` slots agree and
no operation on the first edge meets `null`.
-/

namespace MTalk.Triangle

open WhileLoop

section NoNull

variable {α β : Type}

/-- The computation does not dereference `null`. -/
def NoNull (x : Except Stop α) : Prop := x ≠ .error .nullPointer

lemma NoNull.ok (a : α) : NoNull (.ok a : Except Stop α) := by
  simp [NoNull]

lemma NoNull.index (o : Option α) : NoNull (index o) := by
  cases o <;> simp [NoNull, MTalk.Triangle.index]

lemma NoNull.bind {x : Except Stop α} {f : α → Except Stop β} (hx : NoNull x)
    (hf : ∀ a, NoNull (f a)) : NoNull (x >>= f) := by
  cases x with
  | error e =>
    intro he
    apply hx
    change Except.error e = Except.error Stop.nullPointer at he
    exact congrArg Except.error (Except.error.inj he)
  | ok a => exact hf a

lemma NoNull.foldlM {f : β → α → Except Stop β} (hf : ∀ b a, NoNull (f b a)) (l : List α) (b : β) :
    NoNull (l.foldlM f b) := by
  induction l generalizing b with
  | nil => exact .ok b
  | cons a l ih =>
    rw [List.foldlM_cons]
    exact (hf b a).bind ih

end NoNull

namespace Net

variable {K : Type}

lemma noNull_clearAcross (s : Net K) (t : TrigonRef) (i : Fin 3) : NoNull (s.clearAcross t i) := by
  unfold clearAcross
  split
  · exact .ok _
  · exact (NoNull.index _).bind fun _ => .ok _

lemma noNull_queueDelete (s : Net K) (n : QueueNode) : NoNull (s.queueDelete n) :=
  (noNull_clearAcross _ _ _).bind fun _ => .ok _

lemma noNull_deleteEtc (s : Net K) (o : Option QueueNode) : NoNull (s.deleteEtc o) := by
  cases o with
  | none => exact .ok _
  | some n => exact noNull_queueDelete s n

lemma noNull_deleteEdge (s : Net K) (t : TrigonRef) (i : Fin 3) : NoNull (s.deleteEdge t i) := by
  refine (noNull_deleteEtc _ _).bind fun s => ?_
  split
  · exact .ok _
  · exact (NoNull.index _).bind fun _ => noNull_deleteEtc _ _

lemma noNull_detachSide (t : TrigonRef) (s : Net K) (i : Fin 3) : NoNull (detachSide t s i) := by
  refine (noNull_deleteEdge _ _ _).bind fun s => ?_
  split
  · exact .ok _
  · exact (NoNull.index _).bind fun _ => .ok _

lemma noNull_attachSide (t : TrigonRef) (s : Net K) (i : Fin 3) : NoNull (attachSide t s i) := by
  unfold attachSide
  split
  · exact .ok _
  · exact (NoNull.index _).bind fun _ => .ok _

lemma noNull_insertCell (p : ListParam K) (t : TrigonRef) (cells : ℤ → ℤ → List TrigonRef)
    (rc : ℤ × ℤ) : NoNull (QueryList.insertCell p t cells rc) := by
  unfold QueryList.insertCell
  split_ifs <;> simp [NoNull]

lemma noNull_deleteCell (p : ListParam K) (t : TrigonRef) (cells : ℤ → ℤ → List TrigonRef)
    (rc : ℤ × ℤ) : NoNull (QueryList.deleteCell p t cells rc) := by
  unfold QueryList.deleteCell
  split_ifs <;> simp [NoNull]

variable [Field K] [LinearOrder K] [FloorRing K]

lemma noNull_deleteTrigon (s : Net K) (t : TrigonRef) : NoNull (s.deleteTrigon t) := by
  refine NoNull.bind ?_ fun s => (NoNull.foldlM (noNull_detachSide t) _ s).bind fun _ => .ok _
  exact (NoNull.foldlM (noNull_deleteCell _ _) _ _).bind fun _ => .ok _

lemma noNull_insertTrigon (s : Net K) (t : TrigonRef) : NoNull (s.insertTrigon t) := by
  refine (NoNull.foldlM (noNull_attachSide t) _ s).bind fun s => NoNull.bind ?_ fun _ => .ok _
  exact (NoNull.foldlM (noNull_insertCell _ _) _ _).bind fun _ => .ok _

/-- `ChangeEdge` guards every reference that can be `null`. -/
lemma noNull_changeEdge (s : Net K) (edge : QueueNode) : NoNull (s.changeEdge edge) := by
  unfold changeEdge
  dsimp only
  split
  · exact .ok _
  · refine (NoNull.index _).bind fun _ => ?_
    refine (noNull_deleteTrigon _ _).bind fun _ => (noNull_deleteTrigon _ _).bind fun _ => ?_
    exact (noNull_insertTrigon _ _).bind fun _ => (noNull_insertTrigon _ _).bind fun _ => .ok _

omit [Field K] [LinearOrder K] [FloorRing K] in
/-- The list and the slots agree, and an edge has at most one node in the list. -/
structure QueueConsistent (s : Net K) : Prop where
  names : ∀ n ∈ s.queue, s.Live n.trigon ∧ s.nbtri n.trigon n.vid ≠ none ∧
    s.etc n.trigon n.vid = some n
  entries : ∀ t i n, s.Live t → s.etc t i = some n → n ∈ s.queue
  single : ∀ t i u j, s.Live t → s.nbtri t i = some u → s.nbvex t i = some j →
    s.queue.countP (fun n => n.side = (t, i) ∨ n.side = (u, j)) ≤ 1

/-- On the first edge of the list, `Exchangable` and `RemoveEdge` complete and `ChangeEdge`
does not dereference `null`. -/
def FirstEdgeSafe (s : Net K) : Prop := ∀ edge rest, s.queue = edge :: rest →
  (∃ b, ({ s with queue := rest } : Net K).exchangable edge = .ok b) ∧
    (∃ s', ({ s with queue := rest } : Net K).removeEdge edge = .ok s') ∧
    NoNull (({ s with queue := rest } : Net K).changeEdge edge)

/-- A list without repetitions holds a unique element at most once. -/
lemma countP_le_one {α : Type} {l : List α} {p : α → Bool} (hnd : l.Nodup)
    (h : ∀ a ∈ l, ∀ b ∈ l, p a = true → p b = true → a = b) : l.countP p ≤ 1 := by
  rw [List.countP_eq_length_filter]
  have hfil := hnd.filter p
  have hmem : ∀ a ∈ l.filter p, a ∈ l ∧ p a = true := fun a ha => List.mem_filter.mp ha
  generalize l.filter p = l' at hfil hmem
  match l', hfil, hmem with
  | [], _, _ => simp
  | [_], _, _ => simp
  | a :: b :: _, hfil, hmem =>
    have he := h a (hmem a (by simp)).1 b (hmem b (by simp)).1 (hmem a (by simp)).2
      (hmem b (by simp)).2
    simp [he] at hfil

omit [Field K] [LinearOrder K] [FloorRing K] in
lemma QueueInv.queueConsistent {s : Net K} (hq : s.Queued) (hw : s.Wired) : s.QueueConsistent := by
  refine ⟨fun n hn => ?_, fun t i n ht hn => (hq.listed t i n ht hn).resolve_right id,
    fun t i u j ht hu hj => ?_⟩
  · obtain ⟨hl, hne, he⟩ := hq.recorded n hn
    exact ⟨hl, fun hnull => hne (hw.link_eq_none.mpr hnull), he⟩
  · have hlink : s.link (t, i) = some (u, j) := link_eq_some.mpr ⟨hu, hj⟩
    -- a node sits in the slot of its side, and one of the two slots is empty
    have hslot : ∀ n ∈ s.queue, ∀ a : TrigonRef × Fin 3, n.side = a → s.etc a.1 a.2 = some n := by
      rintro n hn _ rfl
      exact (hq.recorded n hn).2.2
    have hone : ∀ n ∈ s.queue, ∀ m ∈ s.queue, n.side = (t, i) ∨ n.side = (u, j) →
        m.side = (t, i) ∨ m.side = (u, j) → n = m := by
      have hsame : ∀ n ∈ s.queue, ∀ m ∈ s.queue, ∀ a, n.side = a → m.side = a → n = m := by
        intro n hn m hm a hna hma
        have h1 := hslot n hn a hna
        rw [hslot m hm a hma] at h1
        exact (Option.some.inj h1).symm
      have hdiff : ∀ n ∈ s.queue, ∀ m ∈ s.queue, n.side = (t, i) → m.side = (u, j) → False := by
        intro n hn m hm hna hmb
        have h1 := hq.once (t, i) (u, j) ht hlink (by rw [hslot n hn _ hna]; simp)
        rw [hslot m hm _ hmb] at h1
        exact absurd h1 (by simp)
      rintro n hn m hm (hna | hnb) (hma | hmb)
      · exact hsame n hn m hm _ hna hma
      · exact (hdiff n hn m hm hna hmb).elim
      · exact (hdiff m hm n hn hma hnb).elim
      · exact hsame n hn m hm _ hnb hmb
    exact countP_le_one hq.nodup fun n hn m hm hna hma =>
      hone n hn m hm (of_decide_eq_true hna) (of_decide_eq_true hma)

lemma QueueInv.firstEdgeSafe {s : Net K} (hq : s.Queued) : s.FirstEdgeSafe := by
  intro edge rest hs
  obtain ⟨hl, hne, he⟩ := hq.recorded edge (by simp [hs])
  obtain ⟨⟨p2, vid1⟩, hlink⟩ := Option.ne_none_iff_exists'.mp hne
  exact ⟨⟨_, exchangable_eq (s := { s with queue := rest }) hlink⟩,
    ⟨_, removeEdge_eq (hq.out hs) hl hlink he⟩, noNull_changeEdge _ _⟩

/-- The net comes from `s₀` by insertions that `split` admits and iterations of `Process`, in
any order. -/
inductive ProcessRun (split : Net K → Vertex K → TrigonRef → Prop) (s₀ : Net K) : Net K → Prop
  | start : ProcessRun split s₀ s₀
  | insertMid {s s' : Net K} {v : Vertex K} {t : TrigonRef} : ProcessRun split s₀ s → s.Live t →
      split s v t → s.insertMid v t = .ok s' → ProcessRun split s₀ s'
  | iteration {s s' : Net K} : ProcessRun split s₀ s → Iteration processBody s s' →
      ProcessRun split s₀ s'

lemma ProcessRun.iterates {split : Net K → Vertex K → TrigonRef → Prop} {s₀ s s' : Net K}
    (h : ProcessRun split s₀ s) (hr : Iterates processBody s s') : ProcessRun split s₀ s' := by
  induction hr with
  | refl => exact h
  | tail _ hstep ih => exact ih.iteration hstep

/-- Insertions of points that `VexPosition` places inside the trigon. -/
abbrev Inner (s : Net K) (v : Vertex K) (t : TrigonRef) : Prop := vexPosition (s.vex t) v = 3

omit [LinearOrder K] [FloorRing K] in
lemma create_queued (p : ListParam K) : (create p).Queued := by
  refine ⟨fun n hn => absurd hn List.not_mem_nil, fun t i n ht => absurd ht List.not_mem_nil,
    fun a b ha => absurd ha List.not_mem_nil, List.nodup_nil, fun t i n ht => absurd ht List.not_mem_nil⟩

/-- A call of `triangulize` keeps the queue invariant. -/
lemma triangulizeBody_queue {sp sp' : Net K × List (PolygonNode K)} (h : sp.1.Adjacent)
    (ho : sp.1.Outline sp.2) (hq : sp.1.Queued) (hr : Iteration Polygon.triangulizeBody sp sp') :
    sp'.1.Queued := by
  unfold Iteration Polygon.triangulizeBody at hr
  split_ifs at hr
  · simp [pure, Except.pure] at hr
  · simp only [bind_eq_ok, pure, Except.pure, Except.ok.injEq, Option.some.injEq] at hr
    obtain ⟨⟨s1, nodes1⟩, h1, rfl⟩ := hr
    exact (appendTrigon_queue h hq ho h1).1
  · simp only [pure, Except.pure, Except.ok.injEq, Option.some.injEq] at hr
    subst hr
    exact hq

theorem triangulizing_inv {p : ListParam K} {vs : List (Vertex K)}
    {sp : Net K × List (PolygonNode K)}
    (h : Iterates Polygon.triangulizeBody (create p, Polygon.ofVertices vs) sp) :
    (sp.1.Adjacent ∧ sp.1.Outline sp.2) ∧ sp.1.Queued :=
  h.invariant (I := fun sp => (sp.1.Adjacent ∧ sp.1.Outline sp.2) ∧ sp.1.Queued)
    (fun _ _ hi hr => ⟨triangulizeBody_adjacent hi.1 hr, triangulizeBody_queue hi.1.1 hi.1.2 hi.2 hr⟩)
    ⟨⟨create_adjacent p, outline_ofVertices _ vs⟩, create_queued p⟩

variable [IsStrictOrderedRing K]

/-- Insertions of inner points and iterations of `Process` keep a positive net adjacent and its
queue consistent. -/
theorem ProcessRun.inv {s₀ s : Net K} (h : ProcessRun Inner s₀ s) (hadj : s₀.Adjacent)
    (hpos : s₀.Positive) (hq : s₀.Queued) : s.Adjacent ∧ s.Positive ∧ s.Queued := by
  induction h with
  | start => exact ⟨hadj, hpos, hq⟩
  | insertMid _ ht hv hr ih =>
    obtain ⟨ha, hp, hqs⟩ := ih
    exact ⟨(insertMid_ok ha ht hr).1, insertMid_positive ha hp ht hv hr,
      (insertMid_queue ha hqs ht hr).1⟩
  | iteration _ hr ih =>
    obtain ⟨ha, hp, hqs⟩ := ih
    exact processBody_inv ha hp hqs hr

/-- The queue is consistent after every call of `triangulize`, and on a positive triangulation
after every insertion of an inner point and every iteration of `Process`. -/
theorem queue_consistent {p : ListParam K} {vs : List (Vertex K)} {s₀ : Net K}
    {nodes : List (PolygonNode K)}
    (h₀ : Iterates Polygon.triangulizeBody (create p, Polygon.ofVertices vs) (s₀, nodes)) :
    (s₀.QueueConsistent ∧ s₀.FirstEdgeSafe) ∧
      (Polygon.triangulizeBody (s₀, nodes) = .ok none →
        (∀ t, s₀.Live t → 0 < signedArea (s₀.vex t)) → ∀ s, ProcessRun Inner s₀ s →
          s.QueueConsistent ∧ s.FirstEdgeSafe) := by
  obtain ⟨⟨hadj, -⟩, hq⟩ := triangulizing_inv h₀
  refine ⟨⟨hq.queueConsistent hadj.toWired, hq.firstEdgeSafe⟩, fun _ hpos s hrun => ?_⟩
  obtain ⟨ha, -, hqs⟩ := hrun.inv hadj (positive_of_signedArea hpos) hq
  exact ⟨hqs.queueConsistent ha.toWired, hqs.firstEdgeSafe⟩

section Scripts

omit [IsStrictOrderedRing K]

/-- Inserts a vertex where `split` admits it and then lets `Process` iterate. -/
def insertThenProcess (split : Net K → Vertex K → TrigonRef → Bool) (s : Net K)
    (c : Vertex K × TrigonRef × ℕ) : Except Stop (Net K) :=
  if s.Live c.2.1 ∧ split s c.1 c.2.1 = true then do
    let s ← s.insertMid c.1 c.2.1
    advance processBody c.2.2 s
  else .error .running

lemma ProcessRun.script {split : Net K → Vertex K → TrigonRef → Bool} {s₀ s s' : Net K}
    {cs : List (Vertex K × TrigonRef × ℕ)}
    (h : ProcessRun (fun s v t => split s v t = true) s₀ s)
    (hr : cs.foldlM (insertThenProcess split) s = .ok s') :
    ProcessRun (fun s v t => split s v t = true) s₀ s' := by
  induction cs generalizing s with
  | nil =>
    obtain rfl := Except.ok.inj hr
    exact h
  | cons c cs ih =>
    rw [List.foldlM_cons, bind_eq_ok] at hr
    obtain ⟨s1, h1, h2⟩ := hr
    unfold insertThenProcess at h1
    split_ifs at h1 with hc
    rw [bind_eq_ok] at h1
    obtain ⟨s2, hi, ha⟩ := h1
    exact ih ((h.insertMid hc.1 hc.2 hi).iterates (iterates_of_advance ha)) h2

lemma ProcessRun.mono {split split' : Net K → Vertex K → TrigonRef → Prop} {s₀ s : Net K}
    (h : ProcessRun split s₀ s) (hs : ∀ s v t, split s v t → split' s v t) :
    ProcessRun split' s₀ s := by
  induction h with
  | start => exact .start
  | insertMid _ ht hv hr ih => exact ih.insertMid ht (hs _ _ _ hv) hr
  | iteration _ hr ih => exact ih.iteration hr

end Scripts

theorem queue_consistent_square : ∃ (s₀ s : Net ℚ),
    Iterates Polygon.triangulizeBody (create unitGrid, Polygon.ofVertices square) (s₀, []) ∧
      ProcessRun Inner s₀ s ∧ s.queue ≠ [] ∧ s.QueueConsistent ∧ s.FirstEdgeSafe := by
  have h : passes (advance Polygon.triangulizeBody 4 (create unitGrid, Polygon.ofVertices square))
      (fun sp => passes ([(midpoint, 1, 1)].foldlM
        (insertThenProcess fun s v t => decide (Inner s v t)) sp.1) fun s =>
          decide (sp.2.length = 0 ∧ (∀ t ∈ sp.1.trigonIndex, 0 < signedArea (sp.1.vex t)) ∧
            s.queue ≠ [])) = true := by
    decide +kernel
  obtain ⟨⟨s₀, nodes⟩, h₀, h⟩ := exists_of_passes h
  obtain ⟨s, hs, h⟩ := exists_of_passes h
  obtain ⟨hnodes, hpos, hne⟩ := of_decide_eq_true h
  obtain rfl := List.length_eq_zero_iff.mp hnodes
  have hrun : ProcessRun Inner s₀ s :=
    (ProcessRun.start.script hs).mono fun _ _ _ hv => of_decide_eq_true hv
  exact ⟨s₀, s, iterates_of_advance h₀, hrun, hne,
    (queue_consistent (iterates_of_advance h₀)).2 rfl hpos s hrun⟩

/-- A node of the list whose edge has a second node there. -/
lemma not_queueConsistent {K : Type} {s : Net K} {n m : QueueNode} (hn : n ∈ s.queue)
    (hm : m ∈ s.queue) (hnm : n ≠ m) (hl : s.link n.side = some m.side) : ¬s.QueueConsistent := by
  intro hcons
  obtain ⟨hu, hj⟩ := link_eq_some (t := n.trigon) (i := n.vid).mp hl
  have hle := hcons.single n.trigon n.vid m.side.1 m.side.2 (hcons.names n hn).1 hu hj
  have hsub : List.Subperm [n, m] (s.queue.filter fun k =>
      k.side = (n.trigon, n.vid) ∨ k.side = (m.side.1, m.side.2)) := by
    refine List.Nodup.subperm (by simp [hnm]) ?_
    intro k hk
    rw [List.mem_filter]
    simp only [List.mem_cons, List.not_mem_nil, or_false] at hk
    rcases hk with rfl | rfl
    · exact ⟨hn, by simp [QueueNode.side]⟩
    · exact ⟨hm, by simp⟩
  have hlen := hsub.length_le
  rw [← List.countP_eq_length_filter] at hlen
  simp only [List.length_cons, List.length_nil] at hlen
  omega

/-- A grid of one cell for the runs below. -/
def wideGrid : ListParam ℚ := ⟨-100, -100, 100, 100, 200, 1, 1⟩

/-- Neither condition can be dropped: a vertex inserted from outside the trigon, or a start
polygon that runs clockwise, leads to an edge with two nodes in the list. -/
theorem queue_needs_inner_and_positive :
    (¬∀ (p : ListParam ℚ) (vs : List (Vertex ℚ)) (s₀ : Net ℚ) (nodes : List (PolygonNode ℚ)),
      Iterates Polygon.triangulizeBody (create p, Polygon.ofVertices vs) (s₀, nodes) →
        Polygon.triangulizeBody (s₀, nodes) = .ok none →
          (∀ t, s₀.Live t → 0 < signedArea (s₀.vex t)) →
            ∀ s, ProcessRun (fun _ _ _ => True) s₀ s → s.QueueConsistent) ∧
      ¬∀ (p : ListParam ℚ) (vs : List (Vertex ℚ)) (s₀ : Net ℚ) (nodes : List (PolygonNode ℚ)),
        Iterates Polygon.triangulizeBody (create p, Polygon.ofVertices vs) (s₀, nodes) →
          Polygon.triangulizeBody (s₀, nodes) = .ok none →
            ∀ s, ProcessRun Inner s₀ s → s.QueueConsistent := by
  constructor
  · intro hall
    have h : passes (advance Polygon.triangulizeBody 3
        (create wideGrid, Polygon.ofVertices rightTriangle)) (fun sp =>
          passes ([((⟨3, 3, ⟨2, 0, 0⟩⟩ : Vertex ℚ), 0, 50), (⟨4, 4, ⟨0, 6, 0⟩⟩, 2, 50),
            (⟨5, 5, ⟨5, 3, 0⟩⟩, 1, 50), (⟨6, 6, ⟨1, 1, 0⟩⟩, 7, 27)].foldlM
              (insertThenProcess fun _ _ _ => true) sp.1) fun s =>
            decide (sp.2.length = 0 ∧ (∀ t ∈ sp.1.trigonIndex, 0 < signedArea (sp.1.vex t)) ∧
              ∃ n ∈ s.queue, ∃ m ∈ s.queue, n ≠ m ∧ s.link n.side = some m.side)) = true := by
      decide +kernel
    obtain ⟨⟨s₀, nodes⟩, h₀, h⟩ := exists_of_passes h
    obtain ⟨s, hs, h⟩ := exists_of_passes h
    obtain ⟨hnodes, hpos, n, hn, m, hm, hnm, hl⟩ := of_decide_eq_true h
    obtain rfl := List.length_eq_zero_iff.mp hnodes
    exact not_queueConsistent hn hm hnm hl (hall _ _ s₀ [] (iterates_of_advance h₀) rfl hpos s
      ((ProcessRun.start.script hs).mono fun _ _ _ _ => trivial))
  · intro hall
    have h : passes (advance Polygon.triangulizeBody 3 (create wideGrid, Polygon.ofVertices
        [(⟨0, 0, ⟨0, 0, 0⟩⟩ : Vertex ℚ), ⟨1, 1, ⟨0, 30, 0⟩⟩, ⟨2, 2, ⟨30, 0, 0⟩⟩])) (fun sp =>
          passes ([((⟨3, 3, ⟨2, 4, 0⟩⟩ : Vertex ℚ), 0, 50), (⟨4, 4, ⟨19, 1, 0⟩⟩, 2, 50),
            (⟨5, 5, ⟨18, 10, 0⟩⟩, 1, 50), (⟨6, 6, ⟨5, 10, 0⟩⟩, 23, 50),
            (⟨7, 7, ⟨17, 9, 0⟩⟩, 26, 31)].foldlM
              (insertThenProcess fun s v t => decide (Inner s v t)) sp.1) fun s =>
            decide (sp.2.length = 0 ∧
              ∃ n ∈ s.queue, ∃ m ∈ s.queue, n ≠ m ∧ s.link n.side = some m.side)) = true := by
      decide +kernel
    obtain ⟨⟨s₀, nodes⟩, h₀, h⟩ := exists_of_passes h
    obtain ⟨s, hs, h⟩ := exists_of_passes h
    obtain ⟨hnodes, n, hn, m, hm, hnm, hl⟩ := of_decide_eq_true h
    obtain rfl := List.length_eq_zero_iff.mp hnodes
    exact not_queueConsistent hn hm hnm hl (hall _ _ s₀ [] (iterates_of_advance h₀) rfl s
      ((ProcessRun.start.script hs).mono fun _ _ _ hv => of_decide_eq_true hv))

end Net

end MTalk.Triangle
