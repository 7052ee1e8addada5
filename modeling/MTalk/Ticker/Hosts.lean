import MTalk.Ticker.Attachments

/-!
# Runs of a host with tickers

Filters are linked, attached, detached and unlinked, a decoder is replaced, and the tickers tick.
Callers link filters that are on the same ticker or both on none, and detach a filter from the
ticker that it is on. Then the execution list of a ticker is at any time the list of the sources
that are attached to it.
-/

namespace MTalk.Ticker

variable {F T M D : Type} {desc : F → MSFilterDesc} [DecidableEq F] [DecidableEq T]

/-- One pass of the loop of `ms_ticker_run`. -/
def msTickerTick (m : Methods desc M D) (fuel : ℕ) (t : T) (h : Host desc T M D) :
    Except Stop (Host desc T M D) := do
  let s ← runGraphs m h.wiring (h.ticks t + 1) fuel fuel (h.executionList t) false
    ⟨h.world, h.lastTick, [], []⟩
  .ok { h with
    world := s.world
    lastTick := s.lastTick
    ticks := Function.update h.ticks t (h.ticks t + 1)
    called := s.called }

/-- What `audio_stream_change_decoder` and `video_stream_change_decoder` do when there is a decoder
for the payload: `dec` takes the place of `decoder` between `rtprecv` and what comes next. -/
def changeDecoder (m : Methods desc M D) (t : T) (rtprecv decoder next dec : F)
    (h : Host desc T M D) : Host desc T M D :=
  let h := { h with toGraph := (msFilterUnlink rtprecv 0 decoder 0 h.toGraph).2 }
  let h := { h with toGraph := (msFilterUnlink decoder 0 next 0 h.toGraph).2 }
  let h := msFilterPostprocess m h decoder
  let h := { h with toGraph := (msFilterLink rtprecv 0 dec 0 h.toGraph).2 }
  let h := { h with toGraph := (msFilterLink dec 0 next 0 h.toGraph).2 }
  msFilterPreprocess m t h dec

inductive Action (F T : Type)
  | link (f₁ : F) (pin₁ : ℕ) (f₂ : F) (pin₂ : ℕ)
  | unlink (f₁ : F) (pin₁ : ℕ) (f₂ : F) (pin₂ : ℕ)
  | attach (t : T) (f : F)
  | detach (t : T) (f : F)
  | changeDecoder (t : T) (rtprecv decoder next dec : F)
  | tick (t : T)

def Host.step (m : Methods desc M D) (fuel : ℕ) (h : Host desc T M D) :
    Action F T → Except Stop (Host desc T M D)
  | .link f₁ pin₁ f₂ pin₂ => .ok { h with toGraph := (msFilterLink f₁ pin₁ f₂ pin₂ h.toGraph).2 }
  | .unlink f₁ pin₁ f₂ pin₂ =>
    .ok { h with toGraph := (msFilterUnlink f₁ pin₁ f₂ pin₂ h.toGraph).2 }
  | .attach t f => (msTickerAttach m fuel t f h).map Prod.snd
  | .detach t f => (msTickerDetach m fuel t f h).map Prod.snd
  | .changeDecoder t rtprecv decoder next dec =>
    .ok (changeDecoder m t rtprecv decoder next dec h)
  | .tick t => msTickerTick m fuel t h

/-- What the callers see to. The counter of a ticker wraps around after 497 days. -/
def Host.Proper (h : Host desc T M D) : Action F T → Prop
  | .link f₁ _ f₂ _ => h.ticker f₁ = h.ticker f₂
  | .unlink _ _ _ _ => True
  | .attach _ _ => True
  | .detach t f => h.ticker f = none ∨ h.ticker f = some t
  | .changeDecoder t rtprecv decoder next dec =>
    h.ticker rtprecv = some t ∧ h.ticker next = some t ∧ h.ticker decoder = some t ∧
      h.ticker dec = none ∧ decoder ≠ rtprecv ∧ decoder ≠ next ∧
      (desc decoder).ninputs ≠ 0 ∧ (desc dec).ninputs ≠ 0 ∧
      (∀ l ∈ h.wiring.inputQueues decoder, l = ⟨⟨rtprecv, 0⟩, ⟨decoder, 0⟩⟩) ∧
      (∀ l ∈ h.wiring.outputQueues decoder, l = ⟨⟨decoder, 0⟩, ⟨next, 0⟩⟩) ∧
      h.wiring.inputQueues dec = [] ∧ h.wiring.outputQueues dec = []
  | .tick t => h.ticks t + 1 ≠ 0

/-- New filters and tickers. -/
def Host.start (desc : F → MSFilterDesc) (T : Type) (w : World F M D) : Host desc T M D :=
  ⟨⟨.free desc, w⟩, fun _ => 0, fun _ => false, fun _ => none, fun _ => [], fun _ => 1, []⟩

/-- The hosts that runs of proper actions lead to. -/
inductive Reachable (m : Methods desc M D) : Host desc T M D → Prop
  | start (w : World F M D) : Reachable m (.start desc T w)
  | step {h h' : Host desc T M D} (a : Action F T) (fuel : ℕ) (hr : Reachable m h)
      (ha : h.Proper a) (hstep : h.step m fuel a = .ok h') : Reachable m h'

/-- What holds all along these runs. -/
structure Host.Kept (h : Host desc T M D) : Prop where
  same_ticker : ∀ f, ∀ l ∈ h.wiring.outputQueues f, h.ticker l.prev.filter = h.ticker l.next.filter
  nodup : ∀ t, (h.executionList t).Nodup
  mem : ∀ t f, f ∈ h.executionList t ↔ h.ticker f = some t ∧ (desc f).ninputs = 0
  unseen : ∀ f, h.seen f = false
  ticked : ∀ t f, h.ticker f = some t → h.lastTick f ≤ h.ticks t

namespace Host.Kept

variable {m : Methods desc M D} {h h' : Host desc T M D}

omit [DecidableEq F] [DecidableEq T] in
/-- Neighbours are on the same ticker. -/
lemma neighbour (hk : h.Kept) {f f' : F} (hf : f' ∈ h.wiring.neighbours f) :
    h.ticker f' = h.ticker f := by
  rcases List.mem_append.mp hf with hf | hf
  · obtain ⟨l, hl, rfl⟩ := List.mem_map.mp hf
    obtain ⟨rfl, hout⟩ := Wiring.mem_inputQueues_iff.mp hl
    exact hk.same_ticker _ l hout
  · obtain ⟨l, hl, rfl⟩ := List.mem_map.mp hf
    have hsame := hk.same_ticker f l hl
    rw [(Wiring.mem_outputQueues.mp hl).1] at hsame
    exact hsame.symm

omit [DecidableEq F] [DecidableEq T] in
lemma connected (hk : h.Kept) {f f' : F} (hf : h.wiring.Connected f f') :
    h.ticker f' = h.ticker f := by
  induction hf with
  | refl => rfl
  | tail _ hstep ih => exact (hk.neighbour hstep).trans ih

omit [DecidableEq F] [DecidableEq T] in
/-- The filters on a ticker are linked with each other only. -/
lemma closed (hk : h.Kept) (t : T) : h.wiring.Closed fun f => h.ticker f = some t := by
  intro f hf
  constructor
  · exact fun p hp => (hk.neighbour (List.mem_append_left _ hp)).trans hf
  · exact fun p hp => (hk.neighbour (List.mem_append_right _ hp)).trans hf

omit [DecidableEq T] in
lemma link (hk : h.Kept) {f₁ f₂ : F} (hsame : h.ticker f₁ = h.ticker f₂) (pin₁ pin₂ : ℕ) :
    Host.Kept { h with toGraph := (msFilterLink f₁ pin₁ f₂ pin₂ h.toGraph).2 } where
  same_ticker f l hl := by
    rcases mem_outputQueues_msFilterLink hl with hl | ⟨hprev, hnext⟩
    · exact hk.same_ticker f l hl
    · rw [hprev, hnext]
      exact hsame
  nodup := hk.nodup
  mem := hk.mem
  unseen := hk.unseen
  ticked := hk.ticked

omit [DecidableEq T] in
lemma unlink (hk : h.Kept) (f₁ : F) (pin₁ : ℕ) (f₂ : F) (pin₂ : ℕ) :
    Host.Kept { h with toGraph := (msFilterUnlink f₁ pin₁ f₂ pin₂ h.toGraph).2 } where
  same_ticker f l hl := hk.same_ticker f l (mem_outputQueues_msFilterUnlink hl).1
  nodup := hk.nodup
  mem := hk.mem
  unseen := hk.unseen
  ticked := hk.ticked

end Host.Kept

/-- `fs` are the filters linked with `f`, which pass the check, and some are sources. -/
structure Component (h : Host desc T M D) (f : F) (fs : List F) : Prop where
  nodup : fs.Nodup
  mem : ∀ x, x ∈ fs ↔ h.wiring.Connected f x
  sound : ∀ x ∈ fs, h.wiring.Sound x
  source : ∃ x ∈ fs, (desc x).ninputs = 0

section

variable {m : Methods desc M D} {h h' : Host desc T M D} {fuel : ℕ} {t : T} {f : F} {r : ℤ}

/-- What attaching a filter changes besides the world. -/
structure Attached (t : T) (fs : List F) (h h' : Host desc T M D) : Prop where
  wiring : h'.wiring = h.wiring
  ticker : ∀ x, h'.ticker x = if x ∈ fs then some t else h.ticker x
  lastTick : ∀ x, h'.lastTick x = if x ∈ fs then 0 else h.lastTick x
  executionList : h'.executionList =
    Function.update h.executionList t (h.executionList t ++ getSources desc fs)
  unseen : ∀ x, h'.seen x = false
  ticks : h'.ticks = h.ticks

/-- What detaching a filter changes besides the world. -/
structure Detached (t : T) (fs : List F) (h h' : Host desc T M D) : Prop where
  wiring : h'.wiring = h.wiring
  ticker : ∀ x, h'.ticker x = if x ∈ fs then none else h.ticker x
  lastTick : h'.lastTick = h.lastTick
  executionList : h'.executionList = Function.update h.executionList t
    ((getSources desc fs).foldl List.erase (h.executionList t))
  unseen : ∀ x, h'.seen x = false
  ticks : h'.ticks = h.ticks

omit [DecidableEq T] in
lemma component_of_found {s : Found F} (hk : h.Kept)
    (hs : msFilterFindNeighbours h.wiring fuel f h.seen = .ok s)
    (hsource : ¬(getSources desc s.filters).isEmpty) :
    Component h f s.filters ∧ ∀ x, s.seen x = false := by
  obtain ⟨hnodup, hmem, hsound, hunseen⟩ := neighbours_of_msFilterFindNeighbours hk.unseen hs
  refine ⟨⟨hnodup, hmem, hsound, ?_⟩, hunseen⟩
  obtain ⟨x, hx⟩ := List.exists_mem_of_ne_nil _ (fun hnil => hsource (List.isEmpty_iff.mpr hnil))
  exact ⟨x, mem_getSources.mp hx⟩

lemma attached_of_msTickerAttach (hk : h.Kept) (hf : h.ticker f = none)
    (ha : msTickerAttach m fuel t f h = .ok (r, h')) :
    ∃ fs, Component h f fs ∧ Attached t fs h h' := by
  unfold msTickerAttach at ha
  rw [hf, Option.isSome_none, if_neg Bool.false_ne_true] at ha
  obtain ⟨s, hs, ha⟩ := GuardedRuns.bind_eq_ok.mp ha
  dsimp only at ha
  split_ifs at ha with hsource
  obtain ⟨rfl, rfl⟩ := Prod.mk.inj (Except.ok.inj ha)
  obtain ⟨hcomponent, hunseen⟩ := component_of_found hk hs hsource
  obtain ⟨hw, hl, hseen, ht, he, hticks⟩ :=
    foldl_msFilterPreprocess (m := m) (t := t) s.filters { h with seen := s.seen }
  refine ⟨s.filters, hcomponent, hw, ht, hl, ?_, fun x => ?_, hticks⟩
  · rw [he]
  · rw [hseen]
    exact hunseen x

lemma detached_of_msTickerDetach (hk : h.Kept) (hf : h.ticker f ≠ none)
    (hd : msTickerDetach m fuel t f h = .ok (r, h')) :
    ∃ fs, Component h f fs ∧ Detached t fs h h' := by
  unfold msTickerDetach at hd
  rw [if_neg (by simpa using hf)] at hd
  obtain ⟨s, hs, hd⟩ := GuardedRuns.bind_eq_ok.mp hd
  dsimp only at hd
  split_ifs at hd with hsource
  obtain ⟨rfl, rfl⟩ := Prod.mk.inj (Except.ok.inj hd)
  obtain ⟨hcomponent, hunseen⟩ := component_of_found hk hs hsource
  refine ⟨s.filters, hcomponent, ?_⟩
  generalize hh : ({ h with
    seen := s.seen
    executionList := Function.update h.executionList t
      ((getSources desc s.filters).foldl List.erase (h.executionList t)) } : Host desc T M D) = h₁
  obtain ⟨hw, hl, hseen, ht, he, hticks⟩ := foldl_msFilterPostprocess (m := m) s.filters h₁
  subst hh
  exact ⟨hw, ht, hl, he, fun x => by rw [hseen]; exact hunseen x, hticks⟩

namespace Component

omit [DecidableEq F] [DecidableEq T]

lemma ticker (hk : h.Kept) {fs : List F} (hc : Component h f fs) {x : F} (hx : x ∈ fs) :
    h.ticker x = h.ticker f := hk.connected ((hc.mem x).mp hx)

/-- Both ends of a queue belong to it or none. -/
lemma mem_iff {fs : List F} (hc : Component h f fs) {x : F} {l : MSQueue F}
    (hl : l ∈ h.wiring.outputQueues x) : l.prev.filter ∈ fs ↔ l.next.filter ∈ fs := by
  obtain ⟨rfl, hin⟩ := Wiring.mem_outputQueues_iff.mp hl
  rw [hc.mem, hc.mem]
  constructor
  · exact fun hprev => hprev.tail (List.mem_append_right _ (List.mem_map_of_mem hl))
  · exact fun hnext => hnext.tail (List.mem_append_left _ (List.mem_map_of_mem hin))

end Component

lemma Host.Kept.attach (hk : h.Kept) (hf : h.ticker f = none) {fs : List F}
    (hc : Component h f fs) (ha : Attached t fs h h') : h'.Kept := by
  have hnone : ∀ x ∈ fs, h.ticker x = none := fun x hx => (hc.ticker hk hx).trans hf
  refine ⟨fun x l hl => ?_, fun t' => ?_, fun t' x => ?_, ha.unseen, fun t' x hx => ?_⟩
  · rw [ha.wiring] at hl
    rw [ha.ticker, ha.ticker, if_congr (hc.mem_iff hl) rfl rfl, hk.same_ticker x l hl]
  · rw [ha.executionList]
    by_cases ht : t' = t
    · rw [ht, Function.update_self]
      refine (hk.nodup t).append (hc.nodup.filter _) fun x hx hx' => ?_
      have hsome := ((hk.mem t x).mp hx).1
      rw [hnone x (mem_getSources.mp hx').1] at hsome
      cases hsome
    · rw [Function.update_of_ne ht]
      exact hk.nodup t'
  · rw [ha.executionList, ha.ticker]
    by_cases hx : x ∈ fs
    · have hx' : x ∉ h.executionList t' := by
        intro hx'
        have hsome := ((hk.mem t' x).mp hx').1
        rw [hnone x hx] at hsome
        cases hsome
      rw [if_pos hx]
      by_cases ht : t' = t
      · rw [ht, Function.update_self, List.mem_append, mem_getSources]
        rw [ht] at hx'
        simp [hx, hx']
      · rw [Function.update_of_ne ht]
        simp [hx', Ne.symm ht]
    · rw [if_neg hx, ← hk.mem t' x]
      by_cases ht : t' = t
      · rw [ht, Function.update_self, List.mem_append, mem_getSources]
        simp [hx]
      · rw [Function.update_of_ne ht]
  · rw [ha.ticker] at hx
    rw [ha.lastTick, ha.ticks]
    split_ifs at hx ⊢ with hmem
    · exact BitVec.le_def.mpr (by simp)
    · exact hk.ticked t' x hx

lemma Host.Kept.detach (hk : h.Kept) (hf : h.ticker f = some t) {fs : List F}
    (hc : Component h f fs) (hd : Detached t fs h h') : h'.Kept := by
  have hsome : ∀ x ∈ fs, h.ticker x = some t := fun x hx => (hc.ticker hk hx).trans hf
  refine ⟨fun x l hl => ?_, fun t' => ?_, fun t' x => ?_, hd.unseen, fun t' x hx => ?_⟩
  · rw [hd.wiring] at hl
    rw [hd.ticker, hd.ticker, if_congr (hc.mem_iff hl) rfl rfl, hk.same_ticker x l hl]
  · rw [hd.executionList]
    by_cases ht : t' = t
    · rw [ht, Function.update_self]
      exact (mem_foldl_erase (hk.nodup t) _ f).1
    · rw [Function.update_of_ne ht]
      exact hk.nodup t'
  · rw [hd.executionList, hd.ticker]
    by_cases ht : t' = t
    · rw [ht, Function.update_self, (mem_foldl_erase (hk.nodup t) _ x).2, hk.mem, mem_getSources]
      by_cases hx : x ∈ fs
      · simp [hx, hsome x hx]
      · simp [hx]
    · rw [Function.update_of_ne ht, hk.mem]
      by_cases hx : x ∈ fs
      · simp [hx, hsome x hx, Ne.symm ht]
      · simp [hx]
  · rw [hd.ticker] at hx
    rw [hd.lastTick, hd.ticks]
    split_ifs at hx with hmem
    exact hk.ticked t' x hx

omit [DecidableEq T] in
lemma Host.Kept.changeDecoder (hk : h.Kept) {rtprecv decoder next dec : F}
    (hp : h.Proper (.changeDecoder t rtprecv decoder next dec)) :
    (changeDecoder m t rtprecv decoder next dec h).Kept := by
  obtain ⟨hrtprecv, hnext, hdecoder, hdec, hne₁, hne₂, hinputs, hinputs', hin, hout, hin',
    hout'⟩ := hp
  have hne : dec ≠ decoder := fun heq => by rw [heq, hdecoder] at hdec; cases hdec
  have hne₁' : rtprecv ≠ dec := fun heq => by rw [heq, hdec] at hrtprecv; cases hrtprecv
  have hne₂' : next ≠ dec := fun heq => by rw [heq, hdec] at hnext; cases hnext
  have hticker : ∀ x, (Ticker.changeDecoder m t rtprecv decoder next dec h).ticker x =
      if x = dec then some t else if x = decoder then none else h.ticker x := by
    intro x
    simp only [Ticker.changeDecoder, msFilterPreprocess, msFilterPostprocess,
      Function.update_apply]
  have hqueues : ∀ x,
      ∀ l ∈ (Ticker.changeDecoder m t rtprecv decoder next dec h).wiring.outputQueues x,
      (l.prev.filter = rtprecv ∧ l.next.filter = dec ∨ l.prev.filter = dec ∧ l.next.filter = next) ∨
        l ∈ h.wiring.outputQueues x ∧ l ≠ ⟨⟨rtprecv, 0⟩, ⟨decoder, 0⟩⟩ ∧
          l ≠ ⟨⟨decoder, 0⟩, ⟨next, 0⟩⟩ := by
    intro x l hl
    rcases mem_outputQueues_msFilterLink hl with hl | hends
    · rcases mem_outputQueues_msFilterLink hl with hl | hends
      · obtain ⟨hl, hne₁⟩ := mem_outputQueues_msFilterUnlink hl
        obtain ⟨hl, hne₂⟩ := mem_outputQueues_msFilterUnlink hl
        exact Or.inr ⟨hl, hne₂, hne₁⟩
      · exact Or.inl (Or.inl hends)
    · exact Or.inl (Or.inr hends)
  refine ⟨fun x l hl => ?_, hk.nodup, fun t' x => ?_, hk.unseen, fun t' x hx => ?_⟩
  · rw [hticker, hticker]
    rcases hqueues x l hl with (⟨hprev, hnext'⟩ | ⟨hprev, hnext'⟩) | ⟨hl, hl₁, hl₂⟩
    · rw [hprev, hnext', if_pos rfl, if_neg hne₁', if_neg hne₁.symm, hrtprecv]
    · rw [hprev, hnext', if_pos rfl, if_neg hne₂', if_neg hne₂.symm, hnext]
    · obtain ⟨rfl, hlin⟩ := Wiring.mem_outputQueues_iff.mp hl
      rw [if_neg, if_neg, if_neg, if_neg, hk.same_ticker _ l hl]
      · rintro heq
        rw [heq] at hlin
        exact hl₁ (hin l hlin)
      · rintro heq
        rw [heq, hin'] at hlin
        exact List.not_mem_nil hlin
      · rintro heq
        rw [heq] at hl
        exact hl₂ (hout l hl)
      · rintro heq
        rw [heq, hout'] at hl
        exact List.not_mem_nil hl
  · rw [hticker]
    refine (hk.mem t' x).trans ?_
    split_ifs with hx hx
    · rw [hx, hdec]
      simp [hinputs']
    · rw [hx]
      simp [hinputs]
    · rfl
  · rw [hticker] at hx
    have hlast : (Ticker.changeDecoder m t rtprecv decoder next dec h).lastTick x =
        if x = dec then 0 else h.lastTick x := by
      simp only [Ticker.changeDecoder, msFilterPreprocess, msFilterPostprocess,
        Function.update_apply]
    rw [hlast]
    split_ifs at hx ⊢ with hx₁ hx₂
    · exact BitVec.le_def.mpr (by simp)
    · exact hk.ticked t' x hx

omit [DecidableEq F] [DecidableEq T] in
/-- The filters of the ticker have not had their turn when it starts to tick. -/
lemma Host.Kept.fresh (hk : h.Kept) (ht : h.ticks t + 1 ≠ 0) :
    Round.Fresh (fun f => h.ticker f = some t) (h.ticks t + 1)
      (⟨h.world, h.lastTick, [], []⟩ : Round F M D) where
  unmarked f hf := by
    have hle := hk.ticked t f hf
    dsimp only
    intro heq
    rw [heq] at hle
    bv_omega
  called := rfl

omit [DecidableEq F] [DecidableEq T] in
lemma Host.Kept.on_ticker (hk : h.Kept) (t : T) : ∀ f ∈ h.executionList t, h.ticker f = some t :=
  fun f hf => ((hk.mem t f).mp hf).1

lemma Host.Kept.tick (hk : h.Kept) (ht : h.ticks t + 1 ≠ 0)
    (htick : msTickerTick m fuel t h = .ok h') : h'.Kept := by
  obtain ⟨s, hs, htick⟩ := GuardedRuns.bind_eq_ok.mp htick
  obtain rfl := Except.ok.inj htick
  obtain ⟨hmarked, first, hsearch⟩ := search_of_runGraphs (hk.closed t) (hk.on_ticker t)
    (hk.fresh ht) hs
  refine ⟨hk.same_ticker, hk.nodup, hk.mem, hk.unseen, fun t' x hx => ?_⟩
  dsimp only at hx ⊢
  by_cases hcalled : x ∈ s.called
  · have hx' := (hk.closed t).of_reached (hk.on_ticker t) ((hsearch.mem_last x).mp hcalled)
    obtain rfl := Option.some.inj (hx.symm.trans hx')
    rw [hmarked.marked x hcalled, Function.update_self]
    exact BitVec.le_refl _
  · rw [lastTick_of_runGraphs hs hcalled]
    have hle := hk.ticked t' x hx
    by_cases heq : t' = t
    · rw [heq, Function.update_self]
      rw [heq] at hle
      dsimp only
      bv_omega
    · rw [Function.update_of_ne heq]
      exact hle

omit [DecidableEq F] [DecidableEq T] in
lemma exists_of_map_snd {x : Except Stop (ℤ × Host desc T M D)} (hx : x.map Prod.snd = .ok h') :
    ∃ r, x = .ok (r, h') := by
  cases x with
  | error e => cases hx
  | ok a =>
    obtain rfl := Except.ok.inj hx
    exact ⟨a.1, rfl⟩

/-- The sources on a ticker are at any time what its execution list holds, each once, and linked
filters are on the same ticker. -/
theorem Reachable.kept (hr : Reachable m h) : h.Kept := by
  induction hr with
  | start w =>
    refine ⟨fun f l hl => ?_, fun t => List.nodup_nil, fun t f => ?_, fun f => rfl,
      fun t f hf => ?_⟩
    · have hout := (Wiring.mem_outputQueues.mp hl).2
      cases hout
    · simp [Host.start]
    · cases hf
  | @step h h' a fuel _ ha hstep hk =>
    cases a with
    | link f₁ pin₁ f₂ pin₂ =>
      obtain rfl := Except.ok.inj hstep
      exact hk.link ha pin₁ pin₂
    | unlink f₁ pin₁ f₂ pin₂ =>
      obtain rfl := Except.ok.inj hstep
      exact hk.unlink f₁ pin₁ f₂ pin₂
    | attach t f =>
      obtain ⟨r, ha⟩ := exists_of_map_snd hstep
      by_cases hf : h.ticker f = none
      · obtain ⟨fs, hc, hatt⟩ := attached_of_msTickerAttach hk hf ha
        exact hk.attach hf hc hatt
      · unfold msTickerAttach at ha
        rw [if_pos (Option.isSome_iff_ne_none.mpr hf)] at ha
        obtain ⟨rfl, rfl⟩ := Prod.mk.inj (Except.ok.inj ha)
        exact hk
    | detach t f =>
      obtain ⟨r, hd⟩ := exists_of_map_snd hstep
      rcases ha with hf | hf
      · unfold msTickerDetach at hd
        rw [hf, Option.isNone_none, if_pos rfl] at hd
        obtain ⟨rfl, rfl⟩ := Prod.mk.inj (Except.ok.inj hd)
        exact hk
      · obtain ⟨fs, hc, hdet⟩ := detached_of_msTickerDetach hk (by simp [hf]) hd
        exact hk.detach hf hc hdet
    | changeDecoder t rtprecv decoder next dec =>
      obtain rfl := Except.ok.inj hstep
      exact hk.changeDecoder ha
    | tick t => exact hk.tick ha hstep

end

/-- A source with two outputs, a sink, and a filter with two inputs. -/
def loopDesc : Fin 3 → MSFilterDesc
  | 0 => ⟨0, 2, 0⟩
  | 1 => ⟨1, 0, 0⟩
  | 2 => ⟨2, 1, 0⟩

/-- A source puts a message into each output queue, and the other filters take what there is. -/
def relay : Methods loopDesc Unit Unit where
  process g f w :=
    { w with
      messages := fun q =>
        if q ∈ g.inputQueues f then []
        else if q ∈ g.outputQueues f then () :: w.messages q
        else w.messages q }
  preprocess _ _ w := w
  postprocess _ _ w := w

/-- The source is linked with the sink and with the third filter, whose output is linked with its
own second input. -/
def loopGraph : Host loopDesc Unit Unit Unit :=
  let h := Host.start loopDesc Unit ⟨fun _ => [], ()⟩
  let h := { h with toGraph := (msFilterLink 0 0 1 0 h.toGraph).2 }
  let h := { h with toGraph := (msFilterLink 0 1 2 0 h.toGraph).2 }
  { h with toGraph := (msFilterLink 2 0 2 1 h.toGraph).2 }

/-- The three filters are on the ticker. -/
def loopHost : Host loopDesc Unit Unit Unit :=
  ((loopGraph.step relay 4 (.attach () 2)).toOption).getD loopGraph

lemma reachable_loopGraph : Reachable relay loopGraph := by
  have hstart := Reachable.start (T := Unit) (m := relay) ⟨fun _ => [], ()⟩
  have h₁ := hstart.step (.link 0 0 1 0) 0 rfl rfl
  have h₂ := h₁.step (.link 0 1 2 0) 0 rfl rfl
  exact h₂.step (.link 2 0 2 1) 0 rfl rfl

lemma reachable_loopHost : Reachable relay loopHost :=
  reachable_loopGraph.step (.attach () 2) 4 trivial rfl

example : loopHost.executionList () = [0] := by decide

end MTalk.Ticker
