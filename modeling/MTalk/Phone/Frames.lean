import MTalk.Phone.Events

/-!
# What the operations on a call leave alone

The operations that the handlers are made of, with two facts each: what a completed operation
keeps, and when it completes. Later proofs use these and do not unfold the operations.
-/

namespace MTalk.Phone.Core

open GuardedRuns

variable {Config Media Sdp : Type} {layer : MediaLayer Config Media Sdp}
  {s s' s₁ : Core Config Media} {o : Outcome Media} {r : CallRef}

/-- The calls in existence, the settings and the call's general state are as they were. -/
structure Quiet (s s' : Core Config Media) : Prop where
  call : s'.call = s.call
  callCount : s'.callCount = s.callCount
  freed : s'.freed = s.freed
  logged : s'.logged = s.logged
  conf : s'.conf = s.conf
  gstateCall : s'.gstateCall = s.gstateCall

/-- The media streams are as they were too. -/
structure Still (s s' : Core Config Media) : Prop extends Quiet s s' where
  audiostream : s'.audiostream = s.audiostream
  videostream : s'.videostream = s.videostream
  streamCount : s'.streamCount = s.streamCount

/-- Where there is an audio stream there is a video stream, once video is wanted. -/
def Paired (s : Core Config Media) : Prop :=
  s.audiostream.isSome = true → s.conf.video = true → s.videostream.isSome = true

lemma Quiet.refl (s : Core Config Media) : Quiet s s := ⟨rfl, rfl, rfl, rfl, rfl, rfl⟩

lemma Quiet.trans (h : Quiet s s₁) (h' : Quiet s₁ s') : Quiet s s' where
  call := h'.call.trans h.call
  callCount := h'.callCount.trans h.callCount
  freed := h'.freed.trans h.freed
  logged := h'.logged.trans h.logged
  conf := h'.conf.trans h.conf
  gstateCall := h'.gstateCall.trans h.gstateCall

lemma Still.refl (s : Core Config Media) : Still s s := ⟨Quiet.refl s, rfl, rfl, rfl⟩

lemma Still.trans (h : Still s s₁) (h' : Still s₁ s') : Still s s' where
  toQuiet := h.toQuiet.trans h'.toQuiet
  audiostream := h'.audiostream.trans h.audiostream
  videostream := h'.videostream.trans h.videostream
  streamCount := h'.streamCount.trans h.streamCount

lemma Still.paired (h : Still s s') (hp : Paired s) : Paired s' := by
  rw [Paired, h.audiostream, h.videostream, h.conf]
  exact hp

lemma store_still (s : Core Config Media) (r : CallRef) (c : Call Media) :
    Still s (s.store r c) :=
  ⟨⟨rfl, rfl, rfl, rfl, rfl, rfl⟩, rfl, rfl, rfl⟩

lemma withConfig_still (s : Core Config Media) (config : Config) :
    Still s (s.withConfig config) :=
  ⟨⟨rfl, rfl, rfl, rfl, rfl, rfl⟩, rfl, rfl, rfl⟩

lemma setRing_still (s : Core Config Media) (ringing : Bool) : Still s (s.setRing ringing) :=
  ⟨⟨rfl, rfl, rfl, rfl, rfl, rfl⟩, rfl, rfl, rfl⟩

lemma send_still (s : Core Config Media) (m : Sip) : Still s (s.send m) :=
  ⟨⟨rfl, rfl, rfl, rfl, rfl, rfl⟩, rfl, rfl, rfl⟩

/-! The general state. -/

/-- A state of the call group is stored there, an end or an error as idle. -/
lemma gstateNewState_call (s : Core Config Media) {g : GState} (hg : 20 ≤ g.value) :
    s.gstateNewState g =
      { s with gstateCall := if g = .callEnd ∨ g = .callError then .callIdle else g } := by
  cases g <;> simp [GState.value] at hg <;>
    simp [gstateNewState, linphoneCoreSetState, GState.value]

/-- The result of a registration leaves the call group alone. -/
lemma gstateNewState_reg (s : Core Config Media) (success : Bool) :
    Still s (s.gstateNewState (if success then .regOk else .regFailed)) := by
  cases success <;> exact ⟨⟨rfl, rfl, rfl, rfl, rfl, rfl⟩, rfl, rfl, rfl⟩

/-! Reads and writes of a call. -/

lemma load_ok (hr : r ∉ s.freed) : s.load r = .ok (s.calls r) := by
  simp [load, hr]

lemma load_eq_ok {c : Call Media} : s.load r = .ok c ↔ r ∉ s.freed ∧ s.calls r = c := by
  unfold load
  split_ifs with h <;> simp [h]

lemma modify_ok {f : Call Media → Call Media} (hr : r ∉ s.freed) :
    s.modify r f = .ok (s.store r (f (s.calls r))) := by
  simp [modify, hr]

lemma modify_still {f : Call Media → Call Media} (h : s.modify r f = .ok s') : Still s s' := by
  unfold modify at h
  split_ifs at h
  cases h
  exact store_still s r _

lemma current_eq_ok : s.current = .ok r ↔ s.call = some r := by
  unfold current
  cases s.call <;> simp

/-! The media streams. -/

lemma initMediaStreams_quiet (s : Core Config Media) : Quiet s s.linphoneCoreInitMediaStreams :=
  ⟨rfl, rfl, rfl, rfl, rfl, rfl⟩

lemma stopMediaStreams_quiet (s : Core Config Media) : Quiet s s.linphoneCoreStopMediaStreams :=
  ⟨rfl, rfl, rfl, rfl, rfl, rfl⟩

lemma initMediaStreams_paired (s : Core Config Media) :
    Paired s.linphoneCoreInitMediaStreams := by
  intro _ hv
  have hv' : s.conf.video = true := hv
  simp [linphoneCoreInitMediaStreams, hv']

lemma stopMediaStreams_paired (s : Core Config Media) :
    Paired s.linphoneCoreStopMediaStreams := by
  intro h
  simp [linphoneCoreStopMediaStreams] at h

lemma startStream_eq_ok {stream stream' : Option Stream} {starts : Bool} :
    startStream stream starts = .ok stream' ↔
      ∃ a, stream = some a ∧ stream' = some { a with running := a.running || starts } := by
  cases stream with
  | none => simp [startStream]
  | some a => simp [startStream, eq_comm]

lemma startStreams_quiet {c : Call Media} (h : s.startStreams layer o c = .ok s') :
    Quiet s s' ∧ (Paired s → Paired s') := by
  unfold startStreams at h
  rw [bind_eq_ok] at h
  obtain ⟨audio, haudio, h⟩ := h
  obtain ⟨a, ha, rfl⟩ := startStream_eq_ok.mp haudio
  dsimp only at h
  split_ifs at h
  · rw [bind_eq_ok] at h
    obtain ⟨video, hvideo, h⟩ := h
    obtain ⟨b, -, rfl⟩ := startStream_eq_ok.mp hvideo
    cases h
    exact ⟨⟨rfl, rfl, rfl, rfl, rfl, rfl⟩, fun _ _ _ => rfl⟩
  · cases h
    refine ⟨⟨rfl, rfl, rfl, rfl, rfl, rfl⟩, fun hp _ hwant => ?_⟩
    apply hp
    · rw [ha]
      rfl
    · exact hwant

lemma startStreams_returns_iff {c : Call Media} (hp : Paired s) :
    (∃ s', s.startStreams layer o c = .ok s') ↔ s.audiostream.isSome = true := by
  unfold startStreams
  cases ha : s.audiostream with
  | none => simp [startStream]
  | some a =>
    simp only [startStream, Option.isSome_some, iff_true, ok_bind]
    split_ifs with hvideo
    · rw [Bool.and_eq_true] at hvideo
      have hsome := hp (by rw [ha]; rfl) hvideo.1
      obtain ⟨b, hb⟩ := Option.isSome_iff_exists.mp hsome
      rw [hb]
      exact ⟨_, rfl⟩
    · exact ⟨_, rfl⟩

lemma startIfPlayable_quiet {c : Call Media} (h : s.startIfPlayable layer o c = .ok s') :
    Quiet s s' ∧ (Paired s → Paired s') := by
  unfold startIfPlayable at h
  split_ifs at h
  · exact startStreams_quiet h
  · cases h
    exact ⟨Quiet.refl s, fun hp => hp⟩

lemma startIfPlayable_returns_iff (layer : MediaLayer Config Media Sdp) (o : Outcome Media)
    (c : Call Media) (hp : Paired s) :
    (∃ s', s.startIfPlayable layer o c = .ok s') ↔
      (s.conf.playable = true → s.audiostream.isSome = true) := by
  unfold startIfPlayable
  split_ifs with hplay
  · simp only [hplay, true_imp_iff]
    exact startStreams_returns_iff hp
  · simp [hplay]

lemma setAvRunning_ok (hcall : s.call = some r) (hr : r ∉ s.freed) :
    s.setAvRunning = .ok (s.store r { s.calls r with state := .avRunning }) := by
  unfold setAvRunning
  rw [current_eq_ok.mpr hcall, ok_bind]
  exact modify_ok hr

lemma setAvRunning_still (h : s.setAvRunning = .ok s') : Still s s' := by
  unfold setAvRunning at h
  rw [bind_eq_ok] at h
  obtain ⟨r, -, h⟩ := h
  exact modify_still h

lemma startMediaStreams_quiet (h : s.linphoneCoreStartMediaStreams layer o r = .ok s') :
    Quiet s s' ∧ (Paired s → Paired s') := by
  unfold linphoneCoreStartMediaStreams at h
  simp only [bind_eq_ok] at h
  obtain ⟨c, -, s₁, h₁, s₂, h₂, h₃⟩ := h
  have hstill₁ := modify_still h₁
  obtain ⟨hq₂, hp₂⟩ := startIfPlayable_quiet h₂
  have hstill₃ := setAvRunning_still h₃
  refine ⟨(hstill₁.toQuiet.trans hq₂).trans hstill₃.toQuiet, fun hp => ?_⟩
  exact hstill₃.paired (hp₂ (hstill₁.paired hp))

lemma startMediaStreams_returns_iff (hcall : s.call = some r) (hr : r ∉ s.freed) (hp : Paired s) :
    (∃ s', s.linphoneCoreStartMediaStreams layer o r = .ok s') ↔
      (s.conf.playable = true → s.audiostream.isSome = true) := by
  unfold linphoneCoreStartMediaStreams
  rw [load_ok hr, ok_bind, modify_ok hr, ok_bind]
  have hmid := startIfPlayable_returns_iff layer o (s.calls r)
    (s := s.store r (stampMediaStart o (s.calls r))) hp
  simp only [bind_eq_ok]
  refine Iff.trans ?_ hmid
  constructor
  · rintro ⟨s', s₂, h₂, -⟩
    exact ⟨s₂, h₂⟩
  · rintro ⟨s₂, h₂⟩
    obtain ⟨hq, -⟩ := startIfPlayable_quiet h₂
    exact ⟨_, s₂, h₂, setAvRunning_ok (hq.call.trans hcall) (by rw [hq.freed]; exact hr)⟩

/-! The SDP operations. -/

/-- The core after an SDP operation has left its results. -/
def negotiated (s : Core Config Media) (r : CallRef) (config : Config) (c : Call Media) :
    Core Config Media :=
  (s.store r c).withConfig config

lemma negotiated_still (s : Core Config Media) (r : CallRef) (config : Config) (c : Call Media) :
    Still s (s.negotiated r config c) :=
  (store_still s r c).trans (withConfig_still _ config)

lemma sdpContextGetOffer_ok (hr : r ∉ s.freed) : s.sdpContextGetOffer layer r =
    .ok (s.negotiated r (layer.getOffer s.config (s.calls r).media).1
        { s.calls r with media := (layer.getOffer s.config (s.calls r).media).2.1 },
      (layer.getOffer s.config (s.calls r).media).2.2) := by
  unfold sdpContextGetOffer
  rw [load_ok hr, ok_bind]
  dsimp only
  rw [modify_ok hr, ok_bind]
  rfl

/-- The status that a negotiation ends with. -/
def answerStatus (layer : MediaLayer Config Media Sdp) (s : Core Config Media) (media : Media)
    (sdp : Option Sdp) : ℤ :=
  (layer.getAnswer s.config media sdp).2.2

/-- The core after a negotiation on the call. -/
def answeredWith (layer : MediaLayer Config Media Sdp) (s : Core Config Media) (r : CallRef)
    (sdp : Option Sdp) : Core Config Media :=
  s.negotiated r (layer.getAnswer s.config (s.calls r).media sdp).1
    { s.calls r with
      media := (layer.getAnswer s.config (s.calls r).media sdp).2.1
      answer := (s.calls r).answer + 1 }

lemma answeredWith_still (layer : MediaLayer Config Media Sdp) (s : Core Config Media)
    (r : CallRef) (sdp : Option Sdp) :
    Still s (s.answeredWith layer r sdp) :=
  negotiated_still s r _ _

lemma sdpContextGetAnswer_ok (hr : r ∉ s.freed) (sdp : Option Sdp) :
    s.sdpContextGetAnswer layer r sdp =
      .ok (s.answeredWith layer r sdp, answerStatus layer s (s.calls r).media sdp) := by
  unfold sdpContextGetAnswer
  rw [load_ok hr, ok_bind]
  dsimp only
  rw [modify_ok hr, ok_bind]
  rfl

lemma sdpContextReadAnswer_ok (hr : r ∉ s.freed) (sdp : Option Sdp) :
    s.sdpContextReadAnswer layer r sdp =
    .ok (s.negotiated r (layer.readAnswer s.config (s.calls r).media sdp).1
      { s.calls r with media := (layer.readAnswer s.config (s.calls r).media sdp).2 }) := by
  unfold sdpContextReadAnswer
  rw [load_ok hr, ok_bind]
  dsimp only
  rw [modify_ok hr, ok_bind]
  rfl

lemma linphoneAnswerSdp_ok (hcall : s.call = some r) (hr : r ∉ s.freed) (sdp : Option Sdp) :
    s.linphoneAnswerSdp layer sdp =
      if answerStatus layer s (s.calls r).media sdp = 200 then
        .ok ((s.answeredWith layer r sdp).linphoneCoreInitMediaStreams, 0)
      else .ok (s.answeredWith layer r sdp, -1) := by
  unfold linphoneAnswerSdp
  rw [current_eq_ok.mpr hcall, ok_bind, sdpContextGetAnswer_ok hr, ok_bind]
  rfl

lemma linphoneCallDestroy_ok (hr : r ∉ s.freed) : s.linphoneCallDestroy layer o r =
    .ok { (s.linphoneCallLogCompleted o r (s.calls r)).withConfig
        (layer.updateBandwidth s.config) with freed := s.freed ++ [r] } := by
  unfold linphoneCallDestroy
  rw [load_ok hr, ok_bind]
  rfl

lemma connectIncoming_quiet (h : s.linphoneConnectIncoming layer o = .ok s') :
    Quiet s s' ∧ (Paired s → Paired s') := by
  unfold linphoneConnectIncoming at h
  simp only [bind_eq_ok] at h
  obtain ⟨r, -, s₁, h₁, h⟩ := h
  have hstill : Still s (s₁.setRing false) :=
    (setAvRunning_still h₁).trans (setRing_still s₁ false)
  split at h
  · simp at h
  · obtain ⟨hq, hp⟩ := startMediaStreams_quiet h
    split_ifs at hq hp
    · refine ⟨hstill.toQuiet.trans (Quiet.trans ?_ hq), fun _ => hp (initMediaStreams_paired _)⟩
      exact (stopMediaStreams_quiet _).trans (initMediaStreams_quiet _)
    · exact ⟨hstill.toQuiet.trans hq, fun h => hp (hstill.paired h)⟩

lemma connectIncoming_returns_iff (hcall : s.call = some r) (hr : r ∉ s.freed) (hp : Paired s) :
    (∃ s', s.linphoneConnectIncoming layer o = .ok s') ↔ s.audiostream.isSome = true := by
  have hstill : Still s ((s.store r { s.calls r with state := .avRunning }).setRing false) :=
    (store_still s r _).trans (setRing_still _ false)
  unfold linphoneConnectIncoming
  rw [current_eq_ok.mpr hcall, ok_bind, setAvRunning_ok hcall hr, ok_bind]
  generalize (s.store r { s.calls r with state := .avRunning }).setRing false = s₁ at hstill
  dsimp only
  rw [← hstill.audiostream]
  cases ha : s₁.audiostream with
  | none => simp
  | some a =>
    simp only [Option.isSome_some, iff_true]
    rw [startMediaStreams_returns_iff]
    · intro _
      split_ifs
      · rfl
      · rw [ha]
        rfl
    · split_ifs
      · exact hstill.call.trans hcall
      · exact hstill.call.trans hcall
    · split_ifs
      · exact hstill.freed ▸ hr
      · exact hstill.freed ▸ hr
    · split_ifs
      · exact initMediaStreams_paired _
      · exact hstill.paired hp

/-- The call's identifiers after `linphone_call_proceeding`: those of the event for a call that
has none yet or that the event belongs to. -/
lemma proceeding_ok {ev : EventId} (hcall : s.call = some r) (hr : r ∉ s.freed) :
    s.linphoneCallProceeding ev =
      if (s.calls r).cid ≠ -1 ∧ (s.calls r).cid ≠ ev.cid then
        .ok (s.send (.terminate ev.cid ev.did))
      else
        .ok (s.store r { s.calls r with cid := ev.cid, did := ev.did, tid := ev.tid }) := by
  unfold linphoneCallProceeding
  rw [hcall]
  dsimp only
  rw [load_ok hr, ok_bind]
  split_ifs
  · rfl
  · exact modify_ok hr

lemma proceeding_still {ev : EventId} (h : s.linphoneCallProceeding ev = .ok s') :
    Still s s' := by
  unfold linphoneCallProceeding at h
  split at h
  · cases h
    exact send_still s _
  · rw [bind_eq_ok] at h
    obtain ⟨c, -, h⟩ := h
    split_ifs at h
    · cases h
      exact send_still s _
    · exact modify_still h

/-- The core once the current call has taken over the identifiers of an answer. -/
def adopted (s : Core Config Media) (r : CallRef) (ev : EventId) : Core Config Media :=
  s.store r { s.calls r with cid := ev.cid, did := ev.did, tid := ev.tid, authPending := false }

lemma adopted_still (s : Core Config Media) (r : CallRef) (ev : EventId) :
    Still s (s.adopted r ev) :=
  store_still s r _

lemma adopted_media (s : Core Config Media) (r : CallRef) (ev : EventId) :
    ((s.adopted r ev).calls r).media = (s.calls r).media := by
  simp [adopted, store]

/-- An answer is declined, is known already, or is taken. -/
lemma accepted_ok {ev : EventId} {sdp : Option Sdp} (hcall : s.call = some r) (hr : r ∉ s.freed) :
    s.linphoneCallAccepted layer o ev sdp =
      if (s.calls r).cid ≠ -1 ∧ (s.calls r).cid ≠ ev.cid then
        .ok (s.send (.terminate ev.cid ev.did))
      else if (s.calls r).state = .avRunning then .ok (s.adopted r ev)
      else (s.adopted r ev).takeAnswer layer o ev sdp r := by
  unfold linphoneCallAccepted
  rw [hcall]
  dsimp only
  rw [proceeding_ok hcall hr]
  by_cases hforeign : (s.calls r).cid ≠ -1 ∧ (s.calls r).cid ≠ ev.cid
  · have hne : ((s.send (.terminate ev.cid ev.did)).calls r).cid ≠ ev.cid := hforeign.2
    rw [if_pos hforeign, if_pos hforeign, ok_bind, load_ok (s := s.send _) hr, ok_bind, if_pos hne]
    rfl
  · rw [if_neg hforeign, if_neg hforeign, ok_bind, load_ok (s := s.store r _) hr, ok_bind,
      modify_ok (s := s.store r _) hr, ok_bind]
    have hcid : ¬((s.store r { s.calls r with cid := ev.cid, did := ev.did, tid := ev.tid }).calls
        r).cid ≠ ev.cid := by
      simp [store]
    have hadopted : (s.store r { s.calls r with cid := ev.cid, did := ev.did, tid := ev.tid }).store
        r { (s.store r { s.calls r with cid := ev.cid, did := ev.did, tid := ev.tid }).calls r with
          authPending := false } = s.adopted r ev := by
      simp [adopted, store]
    have hstate : ((s.store r { s.calls r with cid := ev.cid, did := ev.did, tid := ev.tid }).calls
        r).state = (s.calls r).state := by
      simp [store]
    rw [if_neg hcid, hadopted, hstate]
    rfl

/-- With an offer in the answer, taking it is a negotiation and then a connection or the end of
the call. -/
lemma takeAnswer_ok {ev : EventId} {sdp : Option Sdp} (hcall : s.call = some r) (hr : r ∉ s.freed)
    (hack : s.conf.sdp200Ack = true) :
    ∃ s₁, Still s s₁ ∧ s.takeAnswer layer o ev sdp r =
      if answerStatus layer s (layer.initMediaParams (s.calls r).media) sdp = 200 then (do
        let s ← (s₁.linphoneCoreInitMediaStreams.gstateNewState
          .callOutConnected).linphoneConnectIncoming layer o
        return s.send (.ack ev.did))
      else (do
        let terminated ← (s₁.send (.ack ev.did)).linphoneCoreTerminateCall layer o
        return terminated.1) := by
  have hstill := store_still s r
    { s.calls r with media := layer.initMediaParams (s.calls r).media }
  have hstatus : answerStatus layer (s.store r { s.calls r with
      media := layer.initMediaParams (s.calls r).media }) ((s.store r { s.calls r with
      media := layer.initMediaParams (s.calls r).media }).calls r).media sdp =
      answerStatus layer s (layer.initMediaParams (s.calls r).media) sdp := by
    simp [answerStatus, store]
  refine ⟨_, hstill.trans (answeredWith_still layer _ r sdp), ?_⟩
  unfold takeAnswer
  rw [modify_ok hr, ok_bind, if_neg (by rw [hstill.conf, hack]; decide),
    linphoneAnswerSdp_ok (hstill.call.trans hcall) hr, hstatus]
  split_ifs
  · rfl
  · rfl

/-! The same without knowing that the call is there. -/

lemma modify_freed {f : Call Media → Call Media} (h : s.modify r f = .ok s') : r ∉ s.freed := by
  unfold modify at h
  split_ifs at h with hr
  exact hr

lemma sdpContextGetOffer_still {p : Core Config Media × Bool}
    (h : s.sdpContextGetOffer layer r = .ok p) : Still s p.1 := by
  have hr : r ∉ s.freed := by
    unfold sdpContextGetOffer at h
    rw [bind_eq_ok] at h
    obtain ⟨c, hc, -⟩ := h
    exact (load_eq_ok.mp hc).1
  rw [sdpContextGetOffer_ok hr, Except.ok.injEq] at h
  subst h
  exact negotiated_still s r _ _

lemma sdpContextGetAnswer_still {sdp : Option Sdp} {p : Core Config Media × ℤ}
    (h : s.sdpContextGetAnswer layer r sdp = .ok p) : Still s p.1 := by
  have hr : r ∉ s.freed := by
    unfold sdpContextGetAnswer at h
    rw [bind_eq_ok] at h
    obtain ⟨c, hc, -⟩ := h
    exact (load_eq_ok.mp hc).1
  rw [sdpContextGetAnswer_ok hr, Except.ok.injEq] at h
  subst h
  exact answeredWith_still layer s r sdp

lemma sdpContextReadAnswer_still {sdp : Option Sdp}
    (h : s.sdpContextReadAnswer layer r sdp = .ok s') : Still s s' := by
  have hr : r ∉ s.freed := by
    unfold sdpContextReadAnswer at h
    rw [bind_eq_ok] at h
    obtain ⟨c, hc, -⟩ := h
    exact (load_eq_ok.mp hc).1
  rw [sdpContextReadAnswer_ok hr, Except.ok.injEq] at h
  subst h
  exact negotiated_still s r _ _

lemma linphoneAnswerSdp_quiet {sdp : Option Sdp} {p : Core Config Media × ℤ}
    (h : s.linphoneAnswerSdp layer sdp = .ok p) : Quiet s p.1 := by
  unfold linphoneAnswerSdp at h
  simp only [bind_eq_ok] at h
  obtain ⟨r, -, q, hq, h⟩ := h
  have hstill := sdpContextGetAnswer_still hq
  split_ifs at h
  · cases h
    exact hstill.toQuiet.trans (initMediaStreams_quiet _)
  · cases h
    exact hstill.toQuiet

lemma destroy_live (h : s.linphoneCallDestroy layer o r = .ok s') : r ∉ s.freed := by
  unfold linphoneCallDestroy at h
  rw [bind_eq_ok] at h
  obtain ⟨c, hc, -⟩ := h
  exact (load_eq_ok.mp hc).1

lemma linphoneCallDestroy_frame (h : s.linphoneCallDestroy layer o r = .ok s') :
    s'.call = s.call ∧ s'.gstateCall = s.gstateCall ∧ s'.calls = s.calls := by
  rw [linphoneCallDestroy_ok (destroy_live h), Except.ok.injEq] at h
  subst h
  exact ⟨rfl, rfl, rfl⟩

lemma inviteOffer_quiet (h : s.inviteOffer layer r = .ok s') : Quiet s s' := by
  unfold inviteOffer at h
  split_ifs at h
  · rw [bind_eq_ok] at h
    obtain ⟨p, hp, h⟩ := h
    cases h
    exact (sdpContextGetOffer_still hp).toQuiet.trans (initMediaStreams_quiet _)
  · cases h
    exact Quiet.refl s

end MTalk.Phone.Core
