import MTalk.Ticker.Scheduling

/-!
# The messages that a tick leaves behind

A filter that is not a pump takes turns until its input queues are empty. Where no loop is involved,
the filters that feed it have had their turns by then, so that its input queues stay empty.
-/

namespace MTalk.Ticker

variable {F M D : Type} {desc : F → MSFilterDesc} {m : Methods desc M D} {g : Wiring desc}

lemma messages_eq_nil_of_callProcess (hputs : m.Puts) {rounds : ℕ} {f : F} {w w' : World F M D}
    {q : MSQueue F} (hq : q ∉ g.outputQueues f) (hw : w.messages q = [])
    (h : callProcess m g rounds f w = .ok w') : w'.messages q = [] := by
  have hstep : ∀ w : World F M D, w.messages q = [] → (m.process g f w).messages q = [] := by
    intro w hw
    have hsuffix := hputs g f w q hq
    rw [hw] at hsuffix
    exact List.suffix_nil.mp hsuffix
  unfold callProcess at h
  split_ifs at h
  · obtain rfl := Except.ok.inj h
    exact hstep w hw
  · refine (WhileLoop.invariant_of_run (I := fun w => w.messages q = []) ?_ h hw).1
    intro w₁ w₂ hw₁ hit
    unfold WhileLoop.Iteration at hit
    dsimp only at hit
    split_ifs at hit
    · obtain rfl := Option.some.inj (Except.ok.inj hit)
      exact hstep w₁ hw₁
    · cases hit

/-- The turn of a filter that is not a pump ends with empty input queues. -/
lemma inputs_empty_of_callProcess {rounds : ℕ} {f : F} (hpump : ¬(desc f).isPump)
    {w w' : World F M D} (h : callProcess m g rounds f w = .ok w') :
    ∀ q ∈ g.inputQueues f, w'.messages q = [] := by
  intro q hq
  unfold callProcess at h
  split_ifs at h with hone
  · rcases hone with hone | hone
    · unfold Wiring.inputQueues at hq
      rw [hone] at hq
      simp at hq
    · exact absurd hone hpump
  · have hexit := (WhileLoop.invariant_of_run (I := fun _ => True) (fun _ _ _ _ => trivial) h
      trivial).2
    split_ifs at hexit with hdata
    · cases hexit
    · by_contra hne
      apply hdata
      exact List.any_eq_true.mpr ⟨q, hq, decide_eq_true (List.length_pos_iff.mpr hne)⟩

variable [DecidableEq F] {ticks : BitVec 32} {rounds : ℕ}

/-- The filters that are fed without loops had their turn after their feeders, and those that are
not pumps have taken all the messages. -/
def Round.Drained (g : Wiring desc) (fs : List F) (s : Round F M D) : Prop :=
  ∀ v ∈ s.called, GuardedSearch.Schedulable g.followers g.feeders fs v →
    GuardedSearch.Fed g.feeders s.called v ∧
      (¬(desc v).isPump → ∀ q ∈ g.inputQueues v, s.world.messages q = [])

/-- A turn keeps the input queues empty of the filters that have had theirs. -/
lemma Round.Drained.enter (hputs : m.Puts) {fs : List F} {s : Round F M D}
    (hs : s.Drained g fs) {f : F} (hf : f ∉ s.called)
    (hfed : GuardedSearch.Schedulable g.followers g.feeders fs f →
      GuardedSearch.Fed g.feeders s.called f)
    {w : World F M D} (h : callProcess m g rounds f s.world = .ok w) :
    (s.enter ticks f w).Drained g fs := by
  intro v hv hsched
  rcases List.mem_cons.mp hv with rfl | hv
  · refine ⟨fun p hp => List.mem_cons_of_mem _ (hfed hsched p hp), fun hpump => ?_⟩
    exact inputs_empty_of_callProcess hpump h
  · obtain ⟨hfeeders, hempty⟩ := hs v hv hsched
    refine ⟨fun p hp => List.mem_cons_of_mem _ (hfeeders p hp), fun hpump q hq => ?_⟩
    refine messages_eq_nil_of_callProcess hputs ?_ (hempty hpump q hq) h
    intro hout
    have hprev : f ∈ g.feeders v :=
      List.mem_map.mpr ⟨q, hq, (Wiring.mem_outputQueues.mp hout).1⟩
    exact hf (hfeeders f hprev)

variable {A : F → Prop}

/-- A pass keeps this if it calls a filter only after its feeders or when the filters fed without
loops have had their turns. -/
lemma Round.Drained.of_foldlM (hputs : m.Puts) (hA : g.Closed A) {fs : List F}
    (hfs : ∀ f ∈ fs, A f) {force : Bool} {fuel : ℕ} {ws : List F} {s s' : Round F M D}
    (hmarked : s.Marked A ticks) (hdrained : s.Drained g fs)
    (hforce : force = true →
      ∀ v, GuardedSearch.Schedulable g.followers g.feeders fs v → v ∈ s.called)
    (h : ws.foldlM (fun s f => runGraph m g ticks rounds force fuel f s) s = .ok s') :
    s'.Drained g fs := by
  have hstep : ∀ f (s : Round F M D) s',
      (s.Marked A ticks ∧ s.Drained g fs ∧ (force = true →
        ∀ v, GuardedSearch.Schedulable g.followers g.feeders fs v → v ∈ s.called)) →
      runGraph m g ticks rounds force fuel f s = .ok s' →
      s'.Marked A ticks ∧ s'.Drained g fs ∧ (force = true →
        ∀ v, GuardedSearch.Schedulable g.followers g.feeders fs v → v ∈ s'.called) := by
    intro f s s' hs h
    refine runGraph_rule (I := fun s => s.Marked A ticks ∧ s.Drained g fs ∧ (force = true →
      ∀ v, GuardedSearch.Schedulable g.followers g.feeders fs v → v ∈ s.called)) ?_
      (fun _ _ hs _ => ⟨⟨hs.1.1, hs.1.2⟩, hs.2⟩) h hs
    rintro f s w ⟨hmarked, hdrained, hforce⟩ htick hcan hw
    have hf : f ∉ s.called := fun hf => htick (hmarked.marked f hf)
    refine ⟨hmarked.enter f w, hdrained.enter hputs hf (fun hsched => ?_) hw,
      fun ht v hv => List.mem_cons_of_mem f (hforce ht v hv)⟩
    rcases hcan with hcan | hcan
    · have hfeeders := (hA f (hA.of_reached hfs hsched.reached)).1
      have hready := filterCanProcess_eq hmarked hfeeders false
      rw [hcan, Bool.or_false] at hready
      exact fedOrForced_false.mp hready.symm
    · exact absurd (hforce hcan f hsched) hf
  exact (GuardedRuns.foldlM_invariant (fun s f s' => hstep f s s')
    ⟨hmarked, hdrained, hforce⟩ h).2.1

/-- After a tick, no message is left in a queue into a filter that is fed without loops. -/
theorem drained_of_runGraphs (hputs : m.Puts) (hA : g.Closed A) {fuel : ℕ} {fs : List F}
    (hfs : ∀ f ∈ fs, A f) {s s' : Round F M D} (hs : s.Fresh A ticks)
    (h : runGraphs m g ticks rounds fuel fs false s = .ok s') {v : F}
    (hv : GuardedSearch.Schedulable g.followers g.feeders fs v) (hpump : ¬(desc v).isPump) :
    ∀ q ∈ g.inputQueues v, s'.world.messages q = [] := by
  obtain ⟨fuel₁, fuel₂, s₁, h₁, h₂⟩ := runGraphs_eq_ok h
  have hsearch := search_of_passes hA hfs hs h₁ h₂
  have hm₀ : Round.Marked A ticks { s with unschedulable := [] } := ⟨hs.marked.1, hs.marked.2⟩
  have hd₀ : Round.Drained g fs { s with unschedulable := [] } := by
    intro v hv
    dsimp only at hv
    rw [hs.called] at hv
    exact absurd hv List.not_mem_nil
  have hm₁ : s₁.Marked A ticks := hm₀.of_foldlM h₁
  have hd₁ : s₁.Drained g fs :=
    hd₀.of_foldlM hputs hA hfs hm₀ (fun hf => absurd hf Bool.false_ne_true) h₁
  have hm₁' : Round.Marked A ticks { s₁ with unschedulable := [] } := ⟨hm₁.1, hm₁.2⟩
  have hd₁' : Round.Drained g fs { s₁ with unschedulable := [] } := hd₁
  have hd₂ : s'.Drained g fs :=
    hd₁'.of_foldlM hputs hA hfs hm₁' (fun _ v hv => (hsearch.mem_first v).mpr hv) h₂
  exact (hd₂ v ((hsearch.mem_last v).mpr hv.reached) hv).2 hpump

end MTalk.Ticker
