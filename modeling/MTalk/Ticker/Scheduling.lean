import MTalk.Ticker.Filters
import MTalk.Library.WhileLoop
import MTalk.Library.GuardedRuns

/-!
# One tick of a ticker

`run_graphs` and what it calls: the filters of the execution list have their turns first, then what
they feed, and the filters of loops are called anyway in the end.
-/

namespace MTalk.Ticker

/-- Why a call does not return: it has not come to an end so far, or `ms_fatal` has been called. -/
inductive Stop
  | running
  | fatal
deriving DecidableEq

variable {F M D : Type} {desc : F → MSFilterDesc}

def msFilterInputsHaveData (g : Wiring desc) (w : World F M D) (f : F) : Bool :=
  (g.inputQueues f).any fun q => decide (0 < (w.messages q).length)

/-- The calls of `process` in one turn of a filter. -/
def callProcess (m : Methods desc M D) (g : Wiring desc) (rounds : ℕ) (f : F) (w : World F M D) :
    Except Stop (World F M D) :=
  if (desc f).ninputs = 0 ∨ (desc f).isPump then .ok (m.process g f w)
  else WhileLoop.run .running (fun w =>
    if msFilterInputsHaveData g w f then .ok (some (m.process g f w)) else .ok none) rounds w

/-- Whether the filters before this one have run. -/
def filterCanProcess (g : Wiring desc) (lastTick : F → BitVec 32) (tick : BitVec 32) (f : F) :
    Bool :=
  (g.inputQueues f).all fun l => lastTick l.prev.filter == tick

/-- A tick under way. `called` lists the filters that have had their turn, the latest first, which
the source does not keep. -/
structure Round (F M D : Type) where
  world : World F M D
  lastTick : F → BitVec 32
  called : List F
  unschedulable : List F

lemma callProcess_of_le {m : Methods desc M D} {g : Wiring desc} {rounds rounds' : ℕ}
    (hr : rounds ≤ rounds') {f : F} {w w' : World F M D}
    (h : callProcess m g rounds f w = .ok w') : callProcess m g rounds' f w = .ok w' := by
  unfold callProcess at h ⊢
  split_ifs at h ⊢ with hone
  · exact h
  · exact WhileLoop.run_of_le h hr

variable [DecidableEq F]

def Round.enter (s : Round F M D) (ticks : BitVec 32) (f : F) (w : World F M D) : Round F M D :=
  { s with world := w, lastTick := Function.update s.lastTick f ticks, called := f :: s.called }

def Round.putOff (s : Round F M D) (f : F) : Round F M D :=
  { s with unschedulable := f :: s.unschedulable }

def runGraph (m : Methods desc M D) (g : Wiring desc) (ticks : BitVec 32) (rounds : ℕ)
    (forceSchedule : Bool) : ℕ → F → Round F M D → Except Stop (Round F M D)
  | 0, _, _ => .error .running
  | fuel + 1, f, s =>
    if s.lastTick f ≠ ticks then
      if filterCanProcess g s.lastTick ticks f || forceSchedule then do
        let w ← callProcess m g rounds f s.world
        (g.outputQueues f).foldlM
          (fun s l => runGraph m g ticks rounds forceSchedule fuel l.next.filter s)
          (s.enter ticks f w)
      else .ok (s.putOff f)
    else .ok s

def runGraphs (m : Methods desc M D) (g : Wiring desc) (ticks : BitVec 32) (rounds : ℕ) :
    ℕ → List F → Bool → Round F M D → Except Stop (Round F M D)
  | 0, _, _, _ => .error .running
  | fuel + 1, executionList, forceSchedule, s => do
    let s ← executionList.foldlM
      (fun s f => runGraph m g ticks rounds forceSchedule fuel f s) { s with unschedulable := [] }
    if s.unschedulable.isEmpty then .ok s
    else runGraphs m g ticks rounds fuel s.unschedulable true s

variable {m : Methods desc M D} {g : Wiring desc} {ticks : BitVec 32} {rounds : ℕ}

/-- A fold completes if another one does whose steps complete with the same results. -/
lemma foldlM_of_foldlM {σ α : Type} {step step' : σ → α → Except Stop σ} {as : List α} {s s' : σ}
    (hstep : ∀ s a s', step s a = .ok s' → step' s a = .ok s') (h : as.foldlM step s = .ok s') :
    as.foldlM step' s = .ok s' := by
  induction as generalizing s with
  | nil => exact h
  | cons a as ih =>
    rw [List.foldlM_cons, GuardedRuns.bind_eq_ok] at h ⊢
    obtain ⟨s₁, h₁, h⟩ := h
    exact ⟨s₁, hstep s a s₁ h₁, ih h⟩

/-- More fuel does not change what a call returns. -/
lemma runGraph_of_le {rounds' fuel fuel' : ℕ} {force : Bool} (hr : rounds ≤ rounds')
    (hf : fuel ≤ fuel') {f : F} {s s' : Round F M D}
    (h : runGraph m g ticks rounds force fuel f s = .ok s') :
    runGraph m g ticks rounds' force fuel' f s = .ok s' := by
  induction fuel generalizing fuel' f s s' with
  | zero => cases h
  | succ fuel ih =>
    obtain ⟨fuel', rfl⟩ : ∃ n, fuel' = n + 1 := ⟨fuel' - 1, by omega⟩
    unfold runGraph at h ⊢
    split_ifs at h ⊢
    · rw [GuardedRuns.bind_eq_ok] at h ⊢
      obtain ⟨w, hw, h⟩ := h
      refine ⟨w, callProcess_of_le hr hw, foldlM_of_foldlM (fun s l s' h => ?_) h⟩
      exact ih (by omega) h
    · exact h
    · exact h

lemma runGraphs_of_le {rounds' fuel fuel' : ℕ} {force : Bool} (hr : rounds ≤ rounds')
    (hf : fuel ≤ fuel') {fs : List F} {s s' : Round F M D}
    (h : runGraphs m g ticks rounds fuel fs force s = .ok s') :
    runGraphs m g ticks rounds' fuel' fs force s = .ok s' := by
  induction fuel generalizing fuel' fs force s s' with
  | zero => cases h
  | succ fuel ih =>
    obtain ⟨fuel', rfl⟩ : ∃ n, fuel' = n + 1 := ⟨fuel' - 1, by omega⟩
    unfold runGraphs at h ⊢
    rw [GuardedRuns.bind_eq_ok] at h ⊢
    obtain ⟨s₁, h₁, h⟩ := h
    refine ⟨s₁, foldlM_of_foldlM (fun s l s' h => runGraph_of_le hr (by omega) h) h₁, ?_⟩
    split_ifs at h ⊢
    · exact h
    · exact ih (by omega) h

/-- What entering and putting off keep, `run_graph` keeps. -/
theorem runGraph_rule {force : Bool} {I : Round F M D → Prop}
    (henter : ∀ f s w, I s → s.lastTick f ≠ ticks →
      (filterCanProcess g s.lastTick ticks f = true ∨ force = true) →
      callProcess m g rounds f s.world = .ok w → I (s.enter ticks f w))
    (hput : ∀ f s, I s → force = false → I (s.putOff f)) {fuel : ℕ} {f : F} {s s' : Round F M D}
    (h : runGraph m g ticks rounds force fuel f s = .ok s') (hs : I s) : I s' := by
  induction fuel generalizing f s s' with
  | zero => cases h
  | succ fuel ih =>
    unfold runGraph at h
    split_ifs at h with htick hcan
    · obtain ⟨w, hw, h⟩ := GuardedRuns.bind_eq_ok.mp h
      refine GuardedRuns.foldlM_invariant (fun s l s' hs h => ih h hs) ?_ h
      exact henter f s w hs htick (Bool.or_eq_true_iff.mp hcan) hw
    · obtain rfl := Except.ok.inj h
      exact hput f s hs (Bool.eq_false_iff.mpr fun hf => hcan (by rw [hf, Bool.or_true]))
    · obtain rfl := Except.ok.inj h
      exact hs

/-- A set of filters with all that feeds them and all that they feed. -/
def Wiring.Closed (g : Wiring desc) (A : F → Prop) : Prop :=
  ∀ f, A f → (∀ p ∈ g.feeders f, A p) ∧ ∀ p ∈ g.followers f, A p

variable {A : F → Prop}

omit [DecidableEq F] in
lemma Wiring.Closed.of_reached (hA : g.Closed A) {fs : List F} (hfs : ∀ f ∈ fs, A f) {f : F}
    (h : GuardedSearch.Reached g.followers fs f) : A f := by
  obtain ⟨w, hw, hreach⟩ := h
  induction hreach with
  | refl => exact hfs w hw
  | tail _ hstep ih => exact (hA _ ih).2 _ hstep

/-- The filters that have had their turn are marked with the tick, and of some filters only these
are. -/
structure Round.Marked (A : F → Prop) (ticks : BitVec 32) (s : Round F M D) : Prop where
  marked : ∀ f ∈ s.called, s.lastTick f = ticks
  only : ∀ f, A f → s.lastTick f = ticks → f ∈ s.called

omit [DecidableEq F] in
lemma Round.Marked.iff {s : Round F M D} (hs : s.Marked A ticks) {f : F} (hf : A f) :
    s.lastTick f = ticks ↔ f ∈ s.called := ⟨hs.only f hf, hs.marked f⟩

lemma Round.Marked.enter {s : Round F M D} (hs : s.Marked A ticks) (f : F) (w : World F M D) :
    (s.enter ticks f w).Marked A ticks := by
  unfold Round.enter
  constructor
  · intro f' hf'
    by_cases hf : f' = f
    · simp [hf]
    · simpa [hf] using hs.marked f' (by simpa [hf] using hf')
  · intro f' hA hf'
    by_cases hf : f' = f
    · simp [hf]
    · simpa [hf] using hs.only f' hA (by simpa [hf] using hf')

lemma Round.Marked.of_runGraph {force : Bool} {fuel : ℕ} {f : F} {s s' : Round F M D}
    (hs : s.Marked A ticks) (h : runGraph m g ticks rounds force fuel f s = .ok s') :
    s'.Marked A ticks :=
  runGraph_rule (I := Round.Marked A ticks) (fun f _ w hs _ _ _ => hs.enter f w)
    (fun _ _ hs _ => ⟨hs.marked, hs.only⟩) h hs

/-- The search that the turns of a tick are. -/
def Round.visits (s : Round F M D) : GuardedSearch.Visits F := ⟨s.called, s.unschedulable⟩

omit [DecidableEq F] in
@[simp] lemma Round.visits_visited (s : Round F M D) : s.visits.visited = s.called := rfl

omit [DecidableEq F] in
@[simp] lemma Round.visits_postponed (s : Round F M D) : s.visits.postponed = s.unschedulable := rfl

@[simp] lemma Round.visits_enter (s : Round F M D) (f : F) (w : World F M D) :
    (s.enter ticks f w).visits = s.visits.enter f := rfl

omit [DecidableEq F] in
@[simp] lemma Round.visits_putOff (s : Round F M D) (f : F) :
    (s.putOff f).visits = s.visits.postpone f := rfl

/-- Whether the feeders of a filter have all had their turn, or this does not matter. -/
def fedOrForced (g : Wiring desc) (force : Bool) (called : List F) (f : F) : Bool :=
  (g.feeders f).all (fun p => decide (p ∈ called)) || force

lemma filterCanProcess_eq {s : Round F M D} (hs : s.Marked A ticks) {f : F}
    (hf : ∀ p ∈ g.feeders f, A p) (force : Bool) :
    (filterCanProcess g s.lastTick ticks f || force) = fedOrForced g force s.called f := by
  unfold filterCanProcess fedOrForced Wiring.feeders
  rw [List.all_map]
  congr 1
  rw [Bool.eq_iff_iff, List.all_eq_true, List.all_eq_true]
  refine forall₂_congr fun l hl => ?_
  rw [beq_iff_eq, Function.comp_apply, decide_eq_true_iff]
  exact hs.iff (hf _ (List.mem_map_of_mem hl))

omit [DecidableEq F] in
lemma foldlM_simulates {σ τ α : Type} {step : σ → α → Except Stop σ} {step' : τ → α → Option τ}
    (abs : σ → τ) {I : σ → Prop} {as : List α}
    (hstep : ∀ a ∈ as, ∀ s s', I s → step s a = .ok s' →
      I s' ∧ step' (abs s) a = some (abs s'))
    {s s' : σ} (h : as.foldlM step s = .ok s') (hs : I s) :
    as.foldlM step' (abs s) = some (abs s') := by
  induction as generalizing s with
  | nil =>
    obtain rfl := Except.ok.inj h
    rfl
  | cons a as ih =>
    rw [List.foldlM_cons, GuardedRuns.bind_eq_ok] at h
    obtain ⟨s₁, h₁, h⟩ := h
    obtain ⟨hs₁, h₁'⟩ := hstep a List.mem_cons_self s s₁ hs h₁
    rw [List.foldlM_cons, h₁', Option.bind_eq_bind, Option.bind_some]
    exact ih (fun b hb => hstep b (List.mem_cons_of_mem a hb)) h hs₁

/-- `run_graph` refines the search from the filter along its output queues. -/
theorem visit_of_runGraph (hA : g.Closed A) {force : Bool} {fuel : ℕ} {f : F} (hf : A f)
    {s s' : Round F M D} (h : runGraph m g ticks rounds force fuel f s = .ok s')
    (hs : s.Marked A ticks) :
    GuardedSearch.visit g.followers (fedOrForced g force) fuel f s.visits = some s'.visits := by
  induction fuel generalizing f s s' with
  | zero => cases h
  | succ fuel ih =>
    unfold runGraph at h
    unfold GuardedSearch.visit
    rw [filterCanProcess_eq hs (hA f hf).1] at h
    rw [Round.visits_visited]
    by_cases htick : s.lastTick f = ticks
    · rw [if_neg (not_not.mpr htick)] at h
      obtain rfl := Except.ok.inj h
      exact if_pos (hs.only f hf htick)
    · rw [if_pos htick] at h
      rw [if_neg (fun hc => htick (hs.marked f hc))]
      by_cases hready : fedOrForced g force s.called f = true
      · rw [if_pos hready] at h
        obtain ⟨w, -, h⟩ := GuardedRuns.bind_eq_ok.mp h
        rw [if_pos hready, Wiring.followers, List.foldlM_map, ← Round.visits_enter s f w]
        refine foldlM_simulates Round.visits (I := Round.Marked A ticks)
          (fun l hl s s' hs h => ⟨hs.of_runGraph h, ih ?_ h hs⟩) h (hs.enter f w)
        exact (hA f hf).2 _ (List.mem_map_of_mem hl)
      · rw [if_neg hready] at h ⊢
        obtain rfl := Except.ok.inj h
        rfl

/-- Turns that come to an end however they are started. -/
def Methods.Ends (m : Methods desc M D) : Prop :=
  ∀ g f w, ∃ rounds w', callProcess m g rounds f w = .ok w'

section

variable {force : Bool} {fuel : ℕ}

lemma exists_foldlM_runGraph
    (hone : ∀ f, A f → ∀ (s : Round F M D) v, s.Marked A ticks →
      GuardedSearch.visit g.followers (fedOrForced g force) fuel f s.visits = some v →
      ∃ rounds s', runGraph m g ticks rounds force fuel f s = .ok s')
    (hA : g.Closed A) {fs : List F} (hfs : ∀ f ∈ fs, A f) {s : Round F M D}
    {v : GuardedSearch.Visits F} (hs : s.Marked A ticks)
    (h : GuardedSearch.visitAll g.followers (fedOrForced g force) fuel fs s.visits = some v) :
    ∃ rounds s', fs.foldlM (fun s f => runGraph m g ticks rounds force fuel f s) s = .ok s' := by
  unfold GuardedSearch.visitAll at h
  induction fs generalizing s with
  | nil => exact ⟨0, s, rfl⟩
  | cons f fs ih =>
    rw [List.foldlM_cons, Option.bind_eq_bind, Option.bind_eq_some_iff] at h
    obtain ⟨v₁, h₁, h⟩ := h
    have hf := hfs f List.mem_cons_self
    obtain ⟨rounds₁, s₁, hrun⟩ := hone f hf s v₁ hs h₁
    obtain rfl := Option.some.inj (h₁.symm.trans (visit_of_runGraph hA hf hrun hs))
    obtain ⟨rounds₂, s', hall⟩ := ih (fun f' hf' => hfs f' (List.mem_cons_of_mem f hf'))
      (hs.of_runGraph hrun) h
    refine ⟨max rounds₁ rounds₂, s', ?_⟩
    rw [List.foldlM_cons, GuardedRuns.bind_eq_ok]
    refine ⟨s₁, runGraph_of_le (le_max_left _ _) le_rfl hrun, foldlM_of_foldlM ?_ hall⟩
    intro s f s' h
    exact runGraph_of_le (le_max_right _ _) le_rfl h

/-- `run_graph` returns when the search does and the turns end. -/
lemma exists_runGraph (hends : m.Ends) (hA : g.Closed A) {f : F} (hf : A f) {s : Round F M D}
    {v : GuardedSearch.Visits F} (hs : s.Marked A ticks)
    (h : GuardedSearch.visit g.followers (fedOrForced g force) fuel f s.visits = some v) :
    ∃ rounds s', runGraph m g ticks rounds force fuel f s = .ok s' := by
  induction fuel generalizing f s v with
  | zero => cases h
  | succ fuel ih =>
    unfold GuardedSearch.visit at h
    rw [Round.visits_visited] at h
    by_cases htick : s.lastTick f = ticks
    · refine ⟨0, s, ?_⟩
      unfold runGraph
      rw [if_neg (not_not.mpr htick)]
    · rw [if_neg (fun hc => htick (hs.marked f hc))] at h
      by_cases hready : fedOrForced g force s.called f = true
      · rw [if_pos hready] at h
        obtain ⟨rounds₁, w, hw⟩ := hends g f s.world
        obtain ⟨rounds₂, s', hall⟩ := exists_foldlM_runGraph (fun f hf s v hs h => ih hf hs h) hA
          (hA f hf).2 (hs.enter f w) h
        refine ⟨max rounds₁ rounds₂, s', ?_⟩
        unfold runGraph
        rw [if_pos htick, filterCanProcess_eq hs (hA f hf).1, if_pos hready,
          GuardedRuns.bind_eq_ok]
        refine ⟨w, callProcess_of_le (le_max_left _ _) hw, ?_⟩
        rw [Wiring.followers, List.foldlM_map] at hall
        refine foldlM_of_foldlM (fun s l s' h => ?_) hall
        exact runGraph_of_le (le_max_right _ _) le_rfl h
      · refine ⟨0, s.putOff f, ?_⟩
        unfold runGraph
        rw [if_pos htick, filterCanProcess_eq hs (hA f hf).1, if_neg hready]

end

lemma Round.Marked.of_foldlM {force : Bool} {fuel : ℕ} {fs : List F} {s s' : Round F M D}
    (hs : s.Marked A ticks)
    (h : fs.foldlM (fun s f => runGraph m g ticks rounds force fuel f s) s = .ok s') :
    s'.Marked A ticks :=
  GuardedRuns.foldlM_invariant (fun _ _ _ hs h => hs.of_runGraph h) hs h

lemma visitAll_of_foldlM (hA : g.Closed A) {force : Bool} {fuel : ℕ} {fs : List F}
    (hfs : ∀ f ∈ fs, A f) {s s' : Round F M D} (hs : s.Marked A ticks)
    (h : fs.foldlM (fun s f => runGraph m g ticks rounds force fuel f s) s = .ok s') :
    GuardedSearch.visitAll g.followers (fedOrForced g force) fuel fs s.visits =
      some s'.visits :=
  foldlM_simulates Round.visits (I := Round.Marked A ticks)
    (fun f hf _ _ hs h => ⟨hs.of_runGraph h, visit_of_runGraph hA (hfs f hf) h hs⟩) h hs

lemma fedOrForced_true (g : Wiring desc) : fedOrForced g true = fun _ _ => true := by
  funext called f
  exact Bool.or_true _

lemma fedOrForced_false {called : List F} {f : F} :
    fedOrForced g false called f = true ↔ GuardedSearch.Fed g.feeders called f := by
  unfold fedOrForced GuardedSearch.Fed
  simp

/-- The forced pass leaves nothing unschedulable. -/
lemma unschedulable_of_foldlM {fuel : ℕ} {fs : List F} {s s' : Round F M D}
    (hnone : s.unschedulable = [])
    (h : fs.foldlM (fun s f => runGraph m g ticks rounds true fuel f s) s = .ok s') :
    s'.unschedulable = [] := by
  refine GuardedRuns.foldlM_invariant (I := fun s : Round F M D => s.unschedulable = [])
    (fun s f s' hs h => ?_) hnone h
  exact runGraph_rule (I := fun s : Round F M D => s.unschedulable = []) (fun _ _ _ hs _ _ _ => hs)
    (fun _ _ _ hf => by cases hf) h hs

/-- `run_graphs` is two passes, the second one over what the first one could not schedule. -/
lemma runGraphs_eq_ok {fuel : ℕ} {fs : List F} {s s' : Round F M D}
    (h : runGraphs m g ticks rounds fuel fs false s = .ok s') :
    ∃ fuel₁ fuel₂ s₁,
      fs.foldlM (fun s f => runGraph m g ticks rounds false fuel₁ f s)
        { s with unschedulable := [] } = .ok s₁ ∧
      s₁.unschedulable.foldlM (fun s f => runGraph m g ticks rounds true fuel₂ f s)
        { s₁ with unschedulable := [] } = .ok s' := by
  cases fuel with
  | zero => cases h
  | succ fuel =>
    unfold runGraphs at h
    obtain ⟨s₁, h₁, h⟩ := GuardedRuns.bind_eq_ok.mp h
    split_ifs at h with hnone
    · obtain rfl := Except.ok.inj h
      rw [List.isEmpty_iff] at hnone
      refine ⟨fuel, 0, s₁, h₁, ?_⟩
      rw [hnone, List.foldlM_nil, ← hnone]
      rfl
    · cases fuel with
      | zero => cases h
      | succ fuel =>
        unfold runGraphs at h
        obtain ⟨s₂, h₂, h⟩ := GuardedRuns.bind_eq_ok.mp h
        have hnone₂ := unschedulable_of_foldlM (s := { s₁ with unschedulable := [] }) rfl h₂
        rw [hnone₂] at h
        obtain rfl := Except.ok.inj h
        exact ⟨fuel + 1, fuel, s₁, h₁, h₂⟩

/-- What every turn and every filter put off keep, `run_graphs` keeps. -/
lemma runGraphs_rule {I : Round F M D → Prop}
    (henter : ∀ f s w, I s → callProcess m g rounds f s.world = .ok w → I (s.enter ticks f w))
    (hput : ∀ s unschedulable, I s → I { s with unschedulable := unschedulable })
    {fuel : ℕ} {fs : List F} {s s' : Round F M D}
    (h : runGraphs m g ticks rounds fuel fs false s = .ok s') (hs : I s) : I s' := by
  obtain ⟨fuel₁, fuel₂, s₁, h₁, h₂⟩ := runGraphs_eq_ok h
  have hone : ∀ force fuel s f s', I s → runGraph m g ticks rounds force fuel f s = .ok s' →
      I s' := fun force fuel s f s' hs h =>
    runGraph_rule (fun f s w hs _ _ hw => henter f s w hs hw) (fun f s hs _ => hput s _ hs) h hs
  have hs₁ := GuardedRuns.foldlM_invariant (hone false fuel₁) (hput s [] hs) h₁
  exact GuardedRuns.foldlM_invariant (hone true fuel₂) (hput s₁ [] hs₁) h₂

/-- A filter that has no turn keeps its mark. -/
lemma lastTick_of_runGraphs {fuel : ℕ} {fs : List F} {s s' : Round F M D}
    (h : runGraphs m g ticks rounds fuel fs false s = .ok s') {f : F} (hf : f ∉ s'.called) :
    s'.lastTick f = s.lastTick f := by
  refine runGraphs_rule (I := fun s' => f ∉ s'.called → s'.lastTick f = s.lastTick f)
    (fun f' s₁ w hs₁ _ hf => ?_) (fun _ _ hs => hs) h (fun _ => rfl) hf
  have hne : f ≠ f' := fun heq => hf (heq ▸ List.mem_cons_self)
  have hlast := hs₁ fun hmem => hf (List.mem_cons_of_mem f' hmem)
  simpa [Round.enter, hne] using hlast

/-- None of some filters has had its turn in this tick. -/
structure Round.Fresh (A : F → Prop) (ticks : BitVec 32) (s : Round F M D) : Prop where
  unmarked : ∀ f, A f → s.lastTick f ≠ ticks
  called : s.called = []

omit [DecidableEq F] in
lemma Round.Fresh.marked {s : Round F M D} (hs : s.Fresh A ticks) : s.Marked A ticks where
  marked f hf := by simp [hs.called] at hf
  only f hA hf := absurd hf (hs.unmarked f hA)

section

variable (hA : g.Closed A) {fs : List F} (hfs : ∀ f ∈ fs, A f) {s s₁ s' : Round F M D}
  (hs : s.Fresh A ticks)

include hA hfs hs

lemma closed_of_foldlM {fuel₁ : ℕ}
    (h₁ : fs.foldlM (fun s f => runGraph m g ticks rounds false fuel₁ f s)
      { s with unschedulable := [] } = .ok s₁) : ∀ f ∈ s₁.unschedulable, A f := by
  intro f hf
  have hs₀ : Round.Marked A ticks { s with unschedulable := [] } := ⟨hs.marked.1, hs.marked.2⟩
  have he := GuardedSearch.explored_of_visitAll (visitAll_of_foldlM hA hfs hs₀ h₁)
  rcases he.put_off f hf with hf | ⟨hreach, -⟩
  · exact absurd hf List.not_mem_nil
  · exact hA.of_reached hfs hreach

/-- The two passes refine the search with a guard and the search from what it has put off. -/
theorem search_of_passes {fuel₁ fuel₂ : ℕ}
    (h₁ : fs.foldlM (fun s f => runGraph m g ticks rounds false fuel₁ f s)
      { s with unschedulable := [] } = .ok s₁)
    (h₂ : s₁.unschedulable.foldlM (fun s f => runGraph m g ticks rounds true fuel₂ f s)
      { s₁ with unschedulable := [] } = .ok s') :
    GuardedSearch.Search g.followers g.feeders fs s₁.called s'.called := by
  have hs₀ : Round.Marked A ticks { s with unschedulable := [] } := ⟨hs.marked.1, hs.marked.2⟩
  have hm₁ : s₁.Marked A ticks := hs₀.of_foldlM h₁
  have hs₁ : Round.Marked A ticks { s₁ with unschedulable := [] } := ⟨hm₁.1, hm₁.2⟩
  have hv₁ := visitAll_of_foldlM hA hfs hs₀ h₁
  have hv₂ := visitAll_of_foldlM hA (closed_of_foldlM hA hfs hs h₁) hs₁ h₂
  unfold Round.visits at hv₁ hv₂
  rw [fedOrForced_true] at hv₂
  dsimp only at hv₁ hv₂
  rw [hs.called] at hv₁
  exact (GuardedSearch.search_of_visitAll (fun x y => Wiring.mem_feeders_iff)
    (fun r x => fedOrForced_false) hv₁ hv₂).1

/-- A tick marks the filters that have had their turn, and these are those of a search. -/
theorem search_of_runGraphs {fuel : ℕ} (h : runGraphs m g ticks rounds fuel fs false s = .ok s') :
    s'.Marked A ticks ∧
      ∃ first, GuardedSearch.Search g.followers g.feeders fs first s'.called := by
  obtain ⟨fuel₁, fuel₂, s₁, h₁, h₂⟩ := runGraphs_eq_ok h
  have hs₀ : Round.Marked A ticks { s with unschedulable := [] } := ⟨hs.marked.1, hs.marked.2⟩
  have hm₁ : s₁.Marked A ticks := hs₀.of_foldlM h₁
  have hs₁ : Round.Marked A ticks { s₁ with unschedulable := [] } := ⟨hm₁.1, hm₁.2⟩
  exact ⟨hs₁.of_foldlM h₂, s₁.called, search_of_passes hA hfs hs h₁ h₂⟩

end

/-- The filters a list of filters can reach are finitely many. -/
lemma exists_closed (g : Wiring desc) (fs : List F) :
    ∃ U : Finset F, (∀ f ∈ fs, f ∈ U) ∧ ∀ f ∈ U, ∀ f' ∈ g.followers f, f' ∈ U := by
  refine ⟨fs.toFinset ∪ g.finite_queues.toFinset.image (·.next.filter), ?_, ?_⟩
  · intro f hf
    exact Finset.mem_union_left _ (List.mem_toFinset.mpr hf)
  · intro f _ f' hf'
    obtain ⟨l, hl, rfl⟩ := List.mem_map.mp hf'
    apply Finset.mem_union_right
    exact Finset.mem_image_of_mem _ (g.finite_queues.mem_toFinset.mpr ⟨f, hl⟩)

/-- A tick returns when the turns of the filters end, whatever the graph is. -/
theorem exists_runGraphs (hends : m.Ends) (hA : g.Closed A) {fs : List F} (hfs : ∀ f ∈ fs, A f)
    {s : Round F M D} (hs : s.Fresh A ticks) :
    ∃ rounds fuel s', runGraphs m g ticks rounds fuel fs false s = .ok s' := by
  obtain ⟨U, hsub, hU⟩ := exists_closed g fs
  have hs₀ : Round.Marked A ticks { s with unschedulable := [] } := ⟨hs.marked.1, hs.marked.2⟩
  obtain ⟨v₁, hv₁⟩ : ∃ v, GuardedSearch.visitAll g.followers (fedOrForced g false) (U.card + 1) fs
      (Round.visits { s with unschedulable := [] }) = some v :=
    GuardedSearch.exists_visitAll hU (Nat.lt_succ_self U.card) hsub _
  obtain ⟨rounds₁, s₁, h₁⟩ := exists_foldlM_runGraph
    (fun f hf s v hs h => exists_runGraph hends hA hf hs h) hA hfs hs₀ hv₁
  have hm₁ : s₁.Marked A ticks := hs₀.of_foldlM h₁
  have hs₁ : Round.Marked A ticks { s₁ with unschedulable := [] } := ⟨hm₁.1, hm₁.2⟩
  have hmem : ∀ f ∈ s₁.unschedulable, f ∈ U := by
    intro f hf
    have he := GuardedSearch.explored_of_visitAll (visitAll_of_foldlM hA hfs hs₀ h₁)
    rcases he.put_off f hf with hf | ⟨⟨w, hw, hreach⟩, -⟩
    · exact absurd hf List.not_mem_nil
    · clear hf
      induction hreach with
      | refl => exact hsub w hw
      | tail _ hstep ih => exact hU _ ih _ hstep
  obtain ⟨v₂, hv₂⟩ : ∃ v, GuardedSearch.visitAll g.followers (fedOrForced g true) (U.card + 1)
      s₁.unschedulable (Round.visits { s₁ with unschedulable := [] }) = some v :=
    GuardedSearch.exists_visitAll hU (Nat.lt_succ_self U.card) hmem _
  obtain ⟨rounds₂, s₂, h₂⟩ := exists_foldlM_runGraph
    (fun f hf s v hs h => exists_runGraph hends hA hf hs h) hA
    (closed_of_foldlM hA hfs hs h₁) hs₁ hv₂
  have hnone := unschedulable_of_foldlM rfl h₂
  have hpass₁ := foldlM_of_foldlM (fun s f s' h => runGraph_of_le (le_max_left rounds₁ rounds₂)
    (Nat.le_succ (U.card + 1)) h) h₁
  have hpass₂ := foldlM_of_foldlM (fun s f s' h => runGraph_of_le (le_max_right rounds₁ rounds₂)
    le_rfl h) h₂
  by_cases hempty : s₁.unschedulable.isEmpty
  · refine ⟨max rounds₁ rounds₂, U.card + 3, s₁, ?_⟩
    unfold runGraphs
    exact GuardedRuns.bind_eq_ok.mpr ⟨s₁, hpass₁, if_pos hempty⟩
  · refine ⟨max rounds₁ rounds₂, U.card + 3, s₂, ?_⟩
    unfold runGraphs
    refine GuardedRuns.bind_eq_ok.mpr ⟨s₁, hpass₁, ?_⟩
    rw [if_neg hempty]
    unfold runGraphs
    refine GuardedRuns.bind_eq_ok.mpr ⟨s₂, hpass₂, ?_⟩
    rw [hnone]
    rfl

end MTalk.Ticker
