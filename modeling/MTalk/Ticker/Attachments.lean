import MTalk.Ticker.Scheduling

/-!
# Attaching filters to tickers

`ms_ticker_attach` and `ms_ticker_detach` act on a filter and all that is linked with it, which
`ms_filter_find_neighbours` collects.
-/

namespace MTalk.Ticker

variable {F : Type} {desc : F → MSFilterDesc}

/-- The filters linked with a filter: up the stream, then down the stream. -/
def Wiring.neighbours (g : Wiring desc) (f : F) : List F := g.feeders f ++ g.followers f

/-- Links lead from one filter to the other, up or down the stream. -/
def Wiring.Connected (g : Wiring desc) : F → F → Prop :=
  Relation.ReflTransGen fun f f' => f' ∈ g.neighbours f

/-- One of the outputs of the filter is connected, if it has any. -/
def Wiring.Sound (g : Wiring desc) (f : F) : Prop :=
  (desc f).noutputs = 0 ∨ g.outputQueues f ≠ []

/-- The filters found so far, with the marks that they have been seen. -/
structure Found (F : Type) where
  filters : List F
  seen : F → Bool

variable [DecidableEq F]

def Found.add (s : Found F) (f : F) : Found F :=
  ⟨s.filters ++ [f], Function.update s.seen f true⟩

def findFilters (g : Wiring desc) : ℕ → F → Found F → Except Stop (Found F)
  | 0, _, _ => .error .running
  | fuel + 1, f, s =>
    if s.seen f then .ok s
    else do
      let s ← (g.inputQueues f).foldlM (fun s l => findFilters g fuel l.prev.filter s) (s.add f)
      let s ← (g.outputQueues f).foldlM (fun s l => findFilters g fuel l.next.filter s) s
      if 1 ≤ (desc f).noutputs ∧ (g.outputQueues f).length = 0 then .error .fatal else .ok s

/-- The filters found, with the marks reset for further lookups. -/
def msFilterFindNeighbours (g : Wiring desc) (fuel : ℕ) (me : F) (seen : F → Bool) :
    Except Stop (Found F) := do
  let s ← findFilters g fuel me ⟨[], seen⟩
  .ok { s with seen := s.filters.foldl (fun seen f => Function.update seen f false) s.seen }

variable {g : Wiring desc}

/-- The filters found are those that are marked. -/
def Found.Marked (s : Found F) : Prop := ∀ f, s.seen f = true ↔ f ∈ s.filters

def Found.visits (s : Found F) : GuardedSearch.Visits F := ⟨s.filters.reverse, []⟩

omit [DecidableEq F] in
lemma Found.Marked.seen_iff {s : Found F} (hs : s.Marked) (f : F) :
    f ∈ s.visits.visited ↔ s.seen f = true := List.mem_reverse.trans (hs f).symm

@[simp] lemma Found.visits_add (s : Found F) (f : F) : (s.add f).visits = s.visits.enter f := by
  simp [Found.visits, Found.add, GuardedSearch.Visits.enter]

lemma Found.Marked.add {s : Found F} (hs : s.Marked) (f : F) : (s.add f).Marked := by
  intro f'
  unfold Found.add
  by_cases hf : f' = f
  · simp [hf]
  · simp [hf, hs f']

/-- What one call does: two folds over the filters linked with it, and the check of its outputs. -/
lemma findFilters_eq_ok {fuel : ℕ} {f : F} {s s' : Found F} :
    findFilters g (fuel + 1) f s = .ok s' ↔
      s.seen f = true ∧ s' = s ∨ s.seen f = false ∧
        (g.neighbours f).foldlM (fun s f' => findFilters g fuel f' s) (s.add f) = .ok s' ∧
        g.Sound f := by
  rw [findFilters, Wiring.neighbours, Wiring.feeders, Wiring.followers, List.foldlM_append]
  simp only [List.foldlM_map]
  cases hseen : s.seen f with
  | true =>
    rw [if_pos rfl, Except.ok.injEq]
    simp [eq_comm]
  | false =>
    rw [if_neg Bool.false_ne_true, GuardedRuns.bind_eq_ok, GuardedRuns.bind_eq_ok]
    constructor
    · rintro ⟨s₁, h₁, h⟩
      obtain ⟨s₂, h₂, h⟩ := GuardedRuns.bind_eq_ok.mp h
      split_ifs at h with hbad
      obtain rfl := Except.ok.inj h
      refine Or.inr ⟨rfl, ⟨s₁, h₁, h₂⟩, ?_⟩
      rcases Nat.eq_zero_or_pos (desc f).noutputs with hzero | hpos
      · exact Or.inl hzero
      · exact Or.inr fun hnil => hbad ⟨hpos, List.length_eq_zero_iff.mpr hnil⟩
    · rintro (⟨h, -⟩ | ⟨-, ⟨s₁, h₁, h₂⟩, hsound⟩)
      · cases h
      · refine ⟨s₁, h₁, GuardedRuns.bind_eq_ok.mpr ⟨s', h₂, if_neg ?_⟩⟩
        rintro ⟨hpos, hnil⟩
        rcases hsound with hzero | hsome
        · omega
        · exact hsome (List.length_eq_zero_iff.mp hnil)

lemma Found.Marked.of_findFilters {fuel : ℕ} {f : F} {s s' : Found F} (hs : s.Marked)
    (h : findFilters g fuel f s = .ok s') : s'.Marked := by
  induction fuel generalizing f s s' with
  | zero => cases h
  | succ fuel ih =>
    rcases findFilters_eq_ok.mp h with ⟨-, rfl⟩ | ⟨-, h, -⟩
    · exact hs
    · exact GuardedRuns.foldlM_invariant (I := Found.Marked) (fun _ _ _ hs h => ih hs h)
        (hs.add f) h

/-- `find_filters` refines the search along the links. -/
theorem visit_of_findFilters {fuel : ℕ} {f : F} {s s' : Found F} (hs : s.Marked)
    (h : findFilters g fuel f s = .ok s') :
    GuardedSearch.visit g.neighbours (fun _ _ => true) fuel f s.visits = some s'.visits := by
  induction fuel generalizing f s s' with
  | zero => cases h
  | succ fuel ih =>
    unfold GuardedSearch.visit
    rcases findFilters_eq_ok.mp h with ⟨hseen, rfl⟩ | ⟨hseen, h, -⟩
    · rw [if_pos ((hs.seen_iff f).mpr hseen)]
    · rw [if_neg (fun hf => Bool.eq_false_iff.mp hseen ((hs.seen_iff f).mp hf)), if_pos rfl,
        ← Found.visits_add]
      exact foldlM_simulates Found.visits (I := Found.Marked)
        (fun f _ s s' hs h => ⟨hs.of_findFilters h, ih hs h⟩) h (hs.add f)

/-- The filters that are found have passed the check. -/
lemma sound_of_findFilters {fuel : ℕ} {f : F} {s s' : Found F}
    (h : findFilters g fuel f s = .ok s') :
    ∀ x ∈ s'.filters, x ∈ s.filters ∨ g.Sound x := by
  induction fuel generalizing f s s' with
  | zero => cases h
  | succ fuel ih =>
    rcases findFilters_eq_ok.mp h with ⟨-, rfl⟩ | ⟨-, h, hsound⟩
    · exact fun x hx => Or.inl hx
    · refine GuardedRuns.foldlM_invariant
        (I := fun s' => ∀ x ∈ s'.filters, x ∈ s.filters ∨ g.Sound x)
        (fun s₁ f s₂ hs₁ h x hx => ?_) (fun x hx => ?_) h
      · rcases ih h x hx with hx | hx
        · exact hs₁ x hx
        · exact Or.inr hx
      · rcases List.mem_append.mp hx with hx | hx
        · exact Or.inl hx
        · obtain rfl := List.mem_singleton.mp hx
          exact Or.inr hsound

/-- `find_filters` returns when the search does and the filters pass the check. -/
lemma exists_findFilters {fuel : ℕ} {f : F} {s : Found F} {v : GuardedSearch.Visits F}
    (hs : s.Marked) (hsound : ∀ x, g.Connected f x → g.Sound x)
    (h : GuardedSearch.visit g.neighbours (fun _ _ => true) fuel f s.visits = some v) :
    ∃ s', findFilters g fuel f s = .ok s' := by
  induction fuel generalizing f s v with
  | zero => cases h
  | succ fuel ih =>
    unfold GuardedSearch.visit at h
    cases hseen : s.seen f with
    | true => exact ⟨s, findFilters_eq_ok.mpr (Or.inl ⟨hseen, rfl⟩)⟩
    | false =>
      rw [if_neg (fun hf => Bool.eq_false_iff.mp hseen ((hs.seen_iff f).mp hf)), if_pos rfl,
        ← Found.visits_add] at h
      have hfold : ∀ fs : List F, (∀ f' ∈ fs, f' ∈ g.neighbours f) → ∀ s : Found F, ∀ v, s.Marked →
          fs.foldlM (fun s w => GuardedSearch.visit g.neighbours (fun _ _ => true) fuel w s)
            s.visits = some v →
          ∃ s', fs.foldlM (fun s f' => findFilters g fuel f' s) s = .ok s' := by
        intro fs
        induction fs with
        | nil => exact fun _ s _ _ _ => ⟨s, rfl⟩
        | cons f' fs ihfs =>
          intro hfs s v hs h
          rw [List.foldlM_cons, Option.bind_eq_bind, Option.bind_eq_some_iff] at h
          obtain ⟨v₁, h₁, h⟩ := h
          have hf' := hfs f' List.mem_cons_self
          obtain ⟨s₁, hs₁⟩ := ih hs (fun x hx => hsound x (.head hf' hx)) h₁
          obtain rfl := Option.some.inj (h₁.symm.trans (visit_of_findFilters hs hs₁))
          obtain ⟨s', hs'⟩ := ihfs (fun f hf => hfs f (List.mem_cons_of_mem f' hf)) s₁ v
            (hs.of_findFilters hs₁) h
          exact ⟨s', by rw [List.foldlM_cons, hs₁]; exact hs'⟩
      obtain ⟨s', hs'⟩ := hfold _ (fun _ hf => hf) _ v (hs.add f) h
      exact ⟨s', findFilters_eq_ok.mpr (Or.inr ⟨hseen, hs', hsound f .refl⟩)⟩

lemma foldl_unseen (fs : List F) (seen : F → Bool) (f : F) :
    fs.foldl (fun seen f => Function.update seen f false) seen f =
      (seen f && decide (f ∉ fs)) := by
  induction fs generalizing seen with
  | nil => simp
  | cons f' fs ih =>
    rw [List.foldl_cons, ih]
    by_cases hf : f = f'
    · simp [hf]
    · simp [hf]

/-- `ms_filter_find_neighbours` finds all that is linked with the filter, each filter once, and
leaves no mark behind. -/
theorem neighbours_of_msFilterFindNeighbours {fuel : ℕ} {me : F} {seen : F → Bool} {s : Found F}
    (hseen : ∀ f, seen f = false) (h : msFilterFindNeighbours g fuel me seen = .ok s) :
    s.filters.Nodup ∧ (∀ x, x ∈ s.filters ↔ g.Connected me x) ∧ (∀ x ∈ s.filters, g.Sound x) ∧
      ∀ f, s.seen f = false := by
  obtain ⟨s', h', h⟩ := GuardedRuns.bind_eq_ok.mp h
  obtain rfl := Except.ok.inj h
  have hstart : Found.Marked ⟨[], seen⟩ := by
    intro f
    simp [hseen f]
  obtain ⟨hnodup, hmem⟩ := GuardedSearch.reached_of_visit (visit_of_findFilters hstart h')
  refine ⟨List.nodup_reverse.mp hnodup, fun x => ?_, fun x hx => ?_, fun f => ?_⟩
  · rw [← List.mem_reverse]
    exact hmem x
  · exact (sound_of_findFilters h' x hx).resolve_left List.not_mem_nil
  · dsimp only
    rw [foldl_unseen]
    have hmarked := (hstart.of_findFilters h') f
    by_cases hf : f ∈ s'.filters
    · simp [hf]
    · simpa [hf] using hmarked

/-- It returns when the filters linked with the filter pass the check. -/
theorem exists_msFilterFindNeighbours {me : F} {seen : F → Bool} (hseen : ∀ f, seen f = false)
    (hsound : ∀ x, g.Connected me x → g.Sound x) :
    ∃ fuel s, msFilterFindNeighbours g fuel me seen = .ok s := by
  have hstart : Found.Marked ⟨[], seen⟩ := by
    intro f
    simp [hseen f]
  let U : Finset F := {me} ∪ (g.finite_queues.toFinset.image (·.next.filter) ∪
    g.finite_queues.toFinset.image (·.prev.filter))
  have hU : ∀ f ∈ U, ∀ f' ∈ g.neighbours f, f' ∈ U := by
    intro f _ f' hf'
    apply Finset.mem_union_right
    rcases List.mem_append.mp hf' with hf' | hf'
    · apply Finset.mem_union_right
      obtain ⟨l, hl, rfl⟩ := List.mem_map.mp hf'
      have hl := (Wiring.mem_inputQueues_iff.mp hl).2
      exact Finset.mem_image_of_mem _ (g.finite_queues.mem_toFinset.mpr ⟨_, hl⟩)
    · apply Finset.mem_union_left
      obtain ⟨l, hl, rfl⟩ := List.mem_map.mp hf'
      exact Finset.mem_image_of_mem _ (g.finite_queues.mem_toFinset.mpr ⟨f, hl⟩)
  have hcard : (GuardedSearch.unvisited U (Found.visits ⟨[], seen⟩)).card < U.card + 1 :=
    Nat.lt_succ_of_le (Finset.card_le_card (Finset.filter_subset _ _))
  obtain ⟨v, hv⟩ : ∃ v, GuardedSearch.visit g.neighbours (fun _ _ => true) (U.card + 1) me
      (Found.visits ⟨[], seen⟩) = some v :=
    GuardedSearch.exists_visit hU (Finset.mem_union_left _ (Finset.mem_singleton_self me)) hcard
  obtain ⟨s, hs⟩ := exists_findFilters hstart hsound hv
  exact ⟨U.card + 1, _, GuardedRuns.bind_eq_ok.mpr ⟨s, hs, rfl⟩⟩

/-- The filters, and the tickers that schedule them. `called` are the filters that had their turn
in the last tick, the latest first, which the source does not keep. -/
structure Host (desc : F → MSFilterDesc) (T M D : Type) extends Graph desc M D where
  lastTick : F → BitVec 32
  seen : F → Bool
  ticker : F → Option T
  executionList : T → List F
  ticks : T → BitVec 32
  called : List F

variable {T M D : Type}

def msFilterPreprocess (m : Methods desc M D) (t : T) (h : Host desc T M D) (f : F) :
    Host desc T M D :=
  { h with
    lastTick := Function.update h.lastTick f 0
    ticker := Function.update h.ticker f (some t)
    world := m.preprocess h.wiring f h.world }

def msFilterPostprocess (m : Methods desc M D) (h : Host desc T M D) (f : F) : Host desc T M D :=
  { h with
    world := m.postprocess h.wiring f h.world
    ticker := Function.update h.ticker f none }

/-- The filters without inputs. -/
def getSources (desc : F → MSFilterDesc) (filters : List F) : List F :=
  filters.filter fun f => (desc f).ninputs = 0

variable [DecidableEq T]

/-- `ms_fatal` does not return, so that the error code behind it is never given. -/
def msTickerAttach (m : Methods desc M D) (fuel : ℕ) (t : T) (f : F) (h : Host desc T M D) :
    Except Stop (ℤ × Host desc T M D) :=
  if (h.ticker f).isSome then .ok (0, h)
  else do
    let found ← msFilterFindNeighbours h.wiring fuel f h.seen
    let sources := getSources desc found.filters
    if sources.isEmpty then .error .fatal
    else
      let h := found.filters.foldl (msFilterPreprocess m t) { h with seen := found.seen }
      .ok (0, { h with
        executionList := Function.update h.executionList t (h.executionList t ++ sources) })

def msTickerDetach (m : Methods desc M D) (fuel : ℕ) (t : T) (f : F) (h : Host desc T M D) :
    Except Stop (ℤ × Host desc T M D) :=
  if (h.ticker f).isNone then .ok (0, h)
  else do
    let found ← msFilterFindNeighbours h.wiring fuel f h.seen
    let sources := getSources desc found.filters
    if sources.isEmpty then .error .fatal
    else
      let h := { h with
        seen := found.seen
        executionList := Function.update h.executionList t
          (sources.foldl List.erase (h.executionList t)) }
      .ok (0, found.filters.foldl (msFilterPostprocess m) h)

section

variable {m : Methods desc M D} {t : T} (fs : List F) (h : Host desc T M D)

omit [DecidableEq T]

/-- What preprocessing some filters changes besides the world. -/
lemma foldl_msFilterPreprocess :
    (fs.foldl (msFilterPreprocess m t) h).wiring = h.wiring ∧
    (∀ f, (fs.foldl (msFilterPreprocess m t) h).lastTick f =
      if f ∈ fs then 0 else h.lastTick f) ∧
    (fs.foldl (msFilterPreprocess m t) h).seen = h.seen ∧
    (∀ f, (fs.foldl (msFilterPreprocess m t) h).ticker f =
      if f ∈ fs then some t else h.ticker f) ∧
    (fs.foldl (msFilterPreprocess m t) h).executionList = h.executionList ∧
    (fs.foldl (msFilterPreprocess m t) h).ticks = h.ticks := by
  induction fs generalizing h with
  | nil => simp
  | cons f fs ih =>
    obtain ⟨hw, hl, hs, ht, he, hk⟩ := ih (msFilterPreprocess m t h f)
    rw [List.foldl_cons]
    refine ⟨hw, fun f' => ?_, hs, fun f' => ?_, he, hk⟩
    · rw [hl f']
      by_cases hf : f' = f
      · simp [msFilterPreprocess, hf]
      · simp [msFilterPreprocess, hf]
    · rw [ht f']
      by_cases hf : f' = f
      · simp [msFilterPreprocess, hf]
      · simp [msFilterPreprocess, hf]

/-- What postprocessing some filters changes besides the world. -/
lemma foldl_msFilterPostprocess :
    (fs.foldl (msFilterPostprocess m) h).wiring = h.wiring ∧
    (fs.foldl (msFilterPostprocess m) h).lastTick = h.lastTick ∧
    (fs.foldl (msFilterPostprocess m) h).seen = h.seen ∧
    (∀ f, (fs.foldl (msFilterPostprocess m) h).ticker f =
      if f ∈ fs then none else h.ticker f) ∧
    (fs.foldl (msFilterPostprocess m) h).executionList = h.executionList ∧
    (fs.foldl (msFilterPostprocess m) h).ticks = h.ticks := by
  induction fs generalizing h with
  | nil => simp
  | cons f fs ih =>
    obtain ⟨hw, hl, hs, ht, he, hk⟩ := ih (msFilterPostprocess m h f)
    rw [List.foldl_cons]
    refine ⟨hw, hl, hs, fun f' => ?_, he, hk⟩
    rw [ht f']
    by_cases hf : f' = f
    · simp [msFilterPostprocess, hf]
    · simp [msFilterPostprocess, hf]

end

lemma mem_foldl_erase {l : List F} (hl : l.Nodup) (fs : List F) (f : F) :
    (fs.foldl List.erase l).Nodup ∧ (f ∈ fs.foldl List.erase l ↔ f ∈ l ∧ f ∉ fs) := by
  rw [← List.diff_eq_foldl]
  exact ⟨hl.diff, hl.mem_sdiff_iff⟩

omit [DecidableEq F] in
lemma mem_getSources {fs : List F} {f : F} :
    f ∈ getSources desc fs ↔ f ∈ fs ∧ (desc f).ninputs = 0 := by
  simp [getSources]

end MTalk.Ticker
