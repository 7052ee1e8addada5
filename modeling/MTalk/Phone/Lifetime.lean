import MTalk.Phone.CodecCallbacks
import MTalk.Phone.Frames

/-!
# The lifetime of calls

`Sound` says that `call` is `NULL` or points to a call that exists, that every call that is gone
was freed once and logged once, and that no other call was lost. `Careful` is the exact condition
under which one step returns and keeps it; a run keeps it in every state exactly when each of its
steps is careful.
-/

namespace MTalk.Phone.Core

open GuardedRuns

variable {Config Media Sdp : Type} {layer : MediaLayer Config Media Sdp}
  {s s' s₁ : Core Config Media} {o : Outcome Media} {r : CallRef}

structure Sound (s : Core Config Media) : Prop where
  current : ∀ r, s.call = some r → r < s.callCount ∧ r ∉ s.freed
  freed_lt : ∀ r ∈ s.freed, r < s.callCount
  freed_nodup : s.freed.Nodup
  logged : s.logged = s.freed
  kept : ∀ r < s.callCount, r ∉ s.freed → s.call = some r
  paired : Paired s

lemma initial_sound (conf : Settings) (config : Config) (maxCallLogs : ℕ)
    (memory : CallRef → Call Media) : Sound (initial conf config maxCallLogs memory) where
  current := by simp [initial]
  freed_lt := by simp [initial]
  freed_nodup := by simp [initial]
  logged := rfl
  kept := by simp [initial]
  paired := by simp [initial, Paired]

lemma Sound.quiet (hs : Sound s) (h : Quiet s s') (hp : Paired s') : Sound s' where
  current := by
    rw [h.call, h.callCount, h.freed]
    exact hs.current
  freed_lt := by
    rw [h.callCount, h.freed]
    exact hs.freed_lt
  freed_nodup := by
    rw [h.freed]
    exact hs.freed_nodup
  logged := by
    rw [h.logged, h.freed]
    exact hs.logged
  kept := by
    rw [h.call, h.callCount, h.freed]
    exact hs.kept
  paired := hp

lemma Sound.still (hs : Sound s) (h : Still s s') : Sound s' :=
  hs.quiet h.toQuiet (h.paired hs.paired)

/-- The general state plays no part. -/
lemma gstateNewState_sound {g : GState} (hg : 20 ≤ g.value) :
    Sound (s.gstateNewState g) ↔ Sound s := by
  rw [gstateNewState_call s hg]
  exact ⟨fun h => ⟨h.1, h.2, h.3, h.4, h.5, h.6⟩, fun h => ⟨h.1, h.2, h.3, h.4, h.5, h.6⟩⟩

lemma gstateNewState_frame {g : GState} (hg : 20 ≤ g.value) :
    (s.gstateNewState g).call = s.call ∧ (s.gstateNewState g).calls = s.calls ∧
      (s.gstateNewState g).conf = s.conf ∧ (s.gstateNewState g).audiostream = s.audiostream := by
  rw [gstateNewState_call s hg]
  exact ⟨rfl, rfl, rfl, rfl⟩

lemma Sound.newCall (hs : Sound s) (hnone : s.call = none) (c : Call Media) :
    Sound (s.newCall c) where
  current := by
    intro r hr
    have he : s.callCount = r := Option.some.inj hr
    subst he
    refine ⟨Nat.lt_succ_self _, fun h => ?_⟩
    exact (hs.freed_lt _ h).false
  freed_lt := fun r hr => (hs.freed_lt r hr).trans (Nat.lt_succ_self _)
  freed_nodup := hs.freed_nodup
  logged := hs.logged
  kept := by
    intro r hr hf
    rcases Nat.lt_succ_iff_lt_or_eq.mp hr with h | h
    · have := hs.kept r h hf
      rw [hnone] at this
      simp at this
    · rw [h]
      rfl
  paired := hs.paired

/-- Destroying the current call and clearing the pointer. -/
lemma Sound.destroy (hs : Sound s) (hcall : s.call = some r)
    (h : s.linphoneCallDestroy layer o r = .ok s') : Sound s'.clearCall := by
  obtain ⟨hlt, hr⟩ := hs.current r hcall
  rw [linphoneCallDestroy_ok hr, Except.ok.injEq] at h
  subst h
  constructor
  · intro r' hr'
    simp [clearCall] at hr'
  · intro r' hr'
    rcases List.mem_append.mp hr' with h | h
    · exact hs.freed_lt r' h
    · rw [List.mem_singleton.mp h]
      exact hlt
  · change (s.freed ++ [r]).Nodup
    rw [List.nodup_append]
    refine ⟨hs.freed_nodup, List.nodup_singleton r, ?_⟩
    rintro a ha b hb rfl
    rw [List.mem_singleton] at hb
    exact hr (hb ▸ ha)
  · change s.logged ++ [r] = s.freed ++ [r]
    rw [hs.logged]
  · intro r' hlt' hf
    have hf' : r' ∉ s.freed ++ [r] := hf
    rw [List.mem_append, not_or, List.mem_singleton] at hf'
    have hr' := hs.kept r' hlt' hf'.1
    rw [hcall, Option.some.injEq] at hr'
    exact absurd hr'.symm hf'.2
  · exact hs.paired

lemma destroy_returns (hs : Sound s) (hcall : s.call = some r) :
    Returns (s.linphoneCallDestroy layer o r) fun s' =>
      Sound s'.clearCall ∧ s'.call = some r ∧ r ∈ s'.freed ∧ s'.gstateCall = s.gstateCall := by
  have hr := (hs.current r hcall).2
  refine ⟨_, linphoneCallDestroy_ok hr, hs.destroy hcall (linphoneCallDestroy_ok hr), hcall, ?_,
    rfl⟩
  simp

/-- A pointer to a freed call is not sound. -/
lemma not_sound_of_freed (hcall : s.call = some r) (hf : r ∈ s.freed) : ¬Sound s :=
  fun hs => (hs.current r hcall).2 hf

lemma startMediaStreams_sound_iff (layer : MediaLayer Config Media Sdp) (o : Outcome Media)
    (hs : Sound s) (hcall : s.call = some r) :
    Returns (s.linphoneCoreStartMediaStreams layer o r) Sound ↔
      (s.conf.playable = true → s.audiostream.isSome = true) := by
  rw [← startMediaStreams_returns_iff (o := o) hcall (hs.current r hcall).2
    hs.paired]
  constructor
  · rintro ⟨s', h, -⟩
    exact ⟨s', h⟩
  · rintro ⟨s', h⟩
    obtain ⟨hq, hp⟩ := startMediaStreams_quiet h
    exact ⟨s', h, hs.quiet hq (hp hs.paired)⟩

lemma connectIncoming_sound_iff (hs : Sound s) (hcall : s.call = some r) :
    Returns (s.linphoneConnectIncoming layer o) Sound ↔ s.audiostream.isSome = true := by
  rw [← connectIncoming_returns_iff (o := o) hcall (hs.current r hcall).2
    hs.paired]
  constructor
  · rintro ⟨s', h, -⟩
    exact ⟨s', h⟩
  · rintro ⟨s', h⟩
    obtain ⟨hq, hp⟩ := connectIncoming_quiet h
    exact ⟨s', h, hs.quiet hq (hp hs.paired)⟩

lemma send_sound (m : Sip) : Sound (s.send m) ↔ Sound s :=
  ⟨fun h => ⟨h.1, h.2, h.3, h.4, h.5, h.6⟩, fun h => ⟨h.1, h.2, h.3, h.4, h.5, h.6⟩⟩

lemma stopMediaStreams_sound (hs : Sound s) : Sound s.linphoneCoreStopMediaStreams :=
  hs.quiet (stopMediaStreams_quiet s) (stopMediaStreams_paired s)

lemma initMediaStreams_sound (hs : Sound s) : Sound s.linphoneCoreInitMediaStreams :=
  hs.quiet (initMediaStreams_quiet s) (initMediaStreams_paired s)

/-! The functions of the user. -/

lemma inviteOffer_sound (hs : Sound s) (hcall : s.call = some r) :
    Returns (s.inviteOffer layer r) fun s' => Sound s' ∧ s'.call = some r := by
  unfold inviteOffer
  split_ifs
  · rw [sdpContextGetOffer_ok (hs.current r hcall).2, ok_bind, returns_pure]
    exact ⟨initMediaStreams_sound (hs.still (negotiated_still s r _ _)), hcall⟩
  · exact returns_ok.mpr ⟨hs, hcall⟩

lemma placeCall_sound (hs : Sound s) (hnone : s.call = none) :
    Returns (s.placeCall layer o) fun p => Sound p.1 := by
  unfold placeCall
  rw [returns_bind]
  apply (inviteOffer_sound (r := s.callCount) (hs.newCall hnone _) rfl).mono
  rintro s₁ - ⟨hs₁, hcall₁⟩
  have hsent : Sound (s₁.send .invite) := (send_sound _).mpr hs₁
  rw [modify_ok (hsent.current _ hcall₁).2, ok_bind]
  have hs₂ := hsent.still (store_still _ s.callCount
    { (s₁.send .invite).calls s.callCount with cid := o.sendInvite })
  split_ifs
  · rw [returns_bind]
    apply (destroy_returns (o := o) hs₂ hcall₁).mono
    rintro s₃ - ⟨hs₃, -⟩
    rw [returns_pure, gstateNewState_sound (by decide)]
    exact stopMediaStreams_sound hs₃
  · exact returns_pure.mpr hs₂

lemma invite_sound_iff (layer : MediaLayer Config Media Sdp) (o : Outcome Media) (hs : Sound s)
    (url : Option String) :
    Returns (s.linphoneCoreInvite layer o url) (fun p => Sound p.1) ↔
      (s.call.isSome = true ∨ url ≠ none) := by
  unfold linphoneCoreInvite
  by_cases hcall : s.call.isSome = true
  · simp [hcall, hs]
  · have hnone : s.call = none := by simpa using hcall
    by_cases hurl : url = none
    · simp [hnone, hurl]
    · have hout : Sound (s.gstateNewState .callOutInvite) :=
        (gstateNewState_sound (by decide)).mpr hs
      simp only [hcall, hurl, if_false, ne_eq, not_false_eq_true, or_true, iff_true,
        Bool.false_eq_true]
      split_ifs
      · rw [returns_ok, gstateNewState_sound (by decide)]
        exact hout
      · rw [returns_ok, gstateNewState_sound (by decide)]
        exact hout
      · apply placeCall_sound hout
        rw [(gstateNewState_frame (by decide)).1]
        exact hnone

/-- When the user can accept: an answer made before the streams were taken away is not sent. -/
def Acceptable (layer : MediaLayer Config Media Sdp) (s : Core Config Media) (o : Outcome Media)
    (r : CallRef) : Prop :=
  (s.calls r).state = .avRunning ∨ (o.buildAnswer < 0 ∨ o.answerBuilt = false) ∨
    layer.hasAnswer (s.calls r).media = false ∨
    (s.conf.playable = true → s.audiostream.isSome = true)

lemma acceptCall_sound_iff (layer : MediaLayer Config Media Sdp) (o : Outcome Media)
    (hs : Sound s) :
    Returns (s.linphoneCoreAcceptCall layer o) (fun p => Sound p.1) ↔
      ∀ r, s.call = some r → Acceptable layer s o r := by
  unfold linphoneCoreAcceptCall
  cases hcall : s.call with
  | none => simp [hs]
  | some r =>
    have hr := (hs.current r hcall).2
    have hquiet : Sound (s.setRing false) := hs.still (setRing_still s false)
    simp only [Option.some.injEq, forall_eq']
    rw [load_ok hr, ok_bind]
    by_cases hrun : (s.calls r).state = .avRunning
    · simp [hrun, hs, Acceptable]
    by_cases hbuild : o.buildAnswer < 0 ∨ o.answerBuilt = false
    · simp only [hrun, hbuild, if_true, if_false, returns_pure, hquiet, Acceptable, true_or,
        or_true]
    by_cases hanswer : layer.hasAnswer (s.calls r).media = true
    · simp only [hrun, hbuild, hanswer, if_true, if_false, Acceptable, false_or,
        Bool.true_eq_false]
      have hg : 20 ≤ GState.callInConnected.value := by decide
      have hsent : Sound (((s.setRing false).send (.answer (s.calls r).tid 200)).gstateNewState
          .callInConnected) :=
        (gstateNewState_sound hg).mpr ((send_sound _).mpr hquiet)
      obtain ⟨hcall', -, hconf, haudio⟩ := gstateNewState_frame
        (s := (s.setRing false).send (.answer (s.calls r).tid 200)) hg
      have hstart := startMediaStreams_sound_iff layer o hsent
        (hcall'.trans hcall)
      rw [hconf, haudio] at hstart
      rw [returns_bind]
      simp only [returns_pure]
      exact hstart
    · simp only [hrun, hbuild, hanswer, if_false, Acceptable, false_or, Bool.false_eq_true,
        iff_true, true_or]
      rw [sdpContextGetOffer_ok (s := s.setRing false) hr, ok_bind]
      have hoffer := hquiet.still (negotiated_still (s.setRing false) r
        (layer.getOffer (s.setRing false).config ((s.setRing false).calls r).media).1
        { (s.setRing false).calls r with
          media := (layer.getOffer (s.setRing false).config
            ((s.setRing false).calls r).media).2.1 })
      split_ifs
      · rw [returns_pure, gstateNewState_sound (by decide), send_sound]
        exact initMediaStreams_sound hoffer
      · exact returns_pure.mpr hoffer

/-- Hanging up leaves `call` pointing to the call that it frees, in the idle state. -/
lemma terminateCall_leaves (hs : Sound s) (hcall : s.call = some r) :
    Returns (s.linphoneCoreTerminateCall layer o) fun p =>
      p.1.call = some r ∧ r ∈ p.1.freed ∧ p.1.gstateCall = .callIdle := by
  have hg : 20 ≤ GState.callEnd.value := by decide
  have hcleared : Sound (((s.send (.terminate (s.calls r).cid (s.calls r).did)).setRing
      false).linphoneCoreStopMediaStreams.gstateNewState .callEnd) :=
    (gstateNewState_sound hg).mpr (stopMediaStreams_sound
      (((send_sound _).mpr hs).still (setRing_still _ false)))
  unfold linphoneCoreTerminateCall
  rw [hcall]
  dsimp only
  rw [load_ok (hs.current r hcall).2, ok_bind, returns_bind]
  apply (destroy_returns hcleared ((gstateNewState_frame hg).1.trans hcall)).mono
  rintro s₁ - ⟨-, hc, hf, hstate⟩
  rw [returns_pure]
  refine ⟨hc, hf, hstate.trans ?_⟩
  rw [gstateNewState_call _ hg]
  rfl

lemma terminateCall_sound_iff (layer : MediaLayer Config Media Sdp) (o : Outcome Media)
    (hs : Sound s) :
    Returns (s.linphoneCoreTerminateCall layer o) (fun p => Sound p.1) ↔ s.call = none := by
  cases hcall : s.call with
  | none =>
    unfold linphoneCoreTerminateCall
    rw [hcall]
    simp [hs]
  | some r =>
    simp only [reduceCtorEq, iff_false]
    rintro ⟨p, hp, hsound⟩
    obtain ⟨p', hp', hc, hf, -⟩ := terminateCall_leaves (o := o) hs hcall
    rw [hp, Except.ok.injEq] at hp'
    subst hp'
    exact not_sound_of_freed hc hf hsound

lemma refer_sound_iff (hs : Sound s) (url : Option String) :
    Returns (s.linphoneCoreRefer o url) (fun p => Sound p.1) ↔
      url ≠ none ∧ (o.urlOk = false ∨ s.call = none) := by
  unfold linphoneCoreRefer
  by_cases hurl : url = none
  · simp [hurl]
  by_cases hok : o.urlOk = true
  · by_cases hcall : s.call = none
    · simp [hurl, hok, hcall, hs]
    · simp [hurl, hok, hcall, current, clearCall]
  · simp [hurl, hok, hs]

/-! The handlers of events. -/

lemma proceeding_sound (hs : Sound s) (ev : EventId) :
    Returns (s.linphoneCallProceeding ev) Sound := by
  cases hcall : s.call with
  | none =>
    unfold linphoneCallProceeding
    rw [hcall]
    exact returns_ok.mpr ((send_sound _).mpr hs)
  | some r =>
    rw [proceeding_ok hcall (hs.current r hcall).2]
    split_ifs
    · exact returns_ok.mpr ((send_sound _).mpr hs)
    · exact returns_ok.mpr (hs.still (store_still s r _))

/-- When an answer can be taken: it is not for this call, the call runs already, or the streams
are there to be connected. -/
def Connectable (layer : MediaLayer Config Media Sdp) (s : Core Config Media) (ev : EventId)
    (sdp : Option Sdp) (r : CallRef) : Prop :=
  ((s.calls r).cid ≠ -1 ∧ (s.calls r).cid ≠ ev.cid) ∨ (s.calls r).state = .avRunning ∨
    if s.conf.sdp200Ack = true then
      answerStatus layer s (layer.initMediaParams (s.calls r).media) sdp = 200
    else s.audiostream.isSome = true

lemma connect_sound_iff (hs : Sound s) (hcall : s.call = some r) (did : ℤ) :
    Returns ((s.gstateNewState .callOutConnected).linphoneConnectIncoming layer o)
      (fun s' => Returns (pure (s'.send (.ack did)) : Except Fault (Core Config Media)) Sound) ↔
      s.audiostream.isSome = true := by
  have hg : 20 ≤ GState.callOutConnected.value := by decide
  obtain ⟨hcall', -, -, haudio⟩ := gstateNewState_frame (s := s) hg
  simp only [returns_pure, send_sound]
  rw [← haudio]
  exact connectIncoming_sound_iff ((gstateNewState_sound hg).mpr hs) (hcall'.trans hcall)

lemma takeAnswer_sound_iff (hs : Sound s) (hcall : s.call = some r) (ev : EventId)
    (sdp : Option Sdp) :
    Returns (s.takeAnswer layer o ev sdp r) Sound ↔
      if s.conf.sdp200Ack = true then
        answerStatus layer s (layer.initMediaParams (s.calls r).media) sdp = 200
      else s.audiostream.isSome = true := by
  have hr := (hs.current r hcall).2
  by_cases hack : s.conf.sdp200Ack = true
  · obtain ⟨s₁, hstill, htake⟩ := takeAnswer_ok (o := o)
      hcall hr hack
    have hs₁ := hs.still hstill
    have hcall₁ := hstill.call.trans hcall
    rw [htake, if_pos hack]
    split_ifs with hok
    · rw [returns_bind, connect_sound_iff (initMediaStreams_sound hs₁) hcall₁]
      exact iff_of_true rfl hok
    · rw [returns_bind]
      simp only [returns_pure]
      rw [terminateCall_sound_iff layer o ((send_sound _).mpr hs₁)]
      apply iff_of_false _ hok
      rw [(send_still s₁ _).call, hcall₁]
      simp
  · unfold takeAnswer
    have hstill := store_still s r
      { s.calls r with media := layer.initMediaParams (s.calls r).media }
    rw [modify_ok hr, ok_bind, if_pos (by rw [hstill.conf]; simpa using hack), if_neg hack,
      sdpContextReadAnswer_ok (s := s.store r _) hr, ok_bind, returns_bind,
      connect_sound_iff ((hs.still hstill).still (negotiated_still _ r _ _)) hcall]
    rfl

lemma accepted_sound_iff (hs : Sound s) (ev : EventId) (sdp : Option Sdp) :
    Returns (s.linphoneCallAccepted layer o ev sdp) Sound ↔
      ∀ r, s.call = some r → Connectable layer s ev sdp r := by
  cases hcall : s.call with
  | none =>
    unfold linphoneCallAccepted
    rw [hcall]
    simp [hs]
  | some r =>
    have hr := (hs.current r hcall).2
    simp only [Option.some.injEq, forall_eq', Connectable]
    rw [accepted_ok hcall hr]
    by_cases hforeign : (s.calls r).cid ≠ -1 ∧ (s.calls r).cid ≠ ev.cid
    · rw [if_pos hforeign, returns_ok, send_sound]
      exact iff_of_true hs (.inl hforeign)
    · have hadopted := hs.still (adopted_still s r ev)
      rw [if_neg hforeign]
      by_cases hrun : (s.calls r).state = .avRunning
      · rw [if_pos hrun, returns_ok]
        exact iff_of_true hadopted (.inr (.inl hrun))
      · rw [if_neg hrun, takeAnswer_sound_iff hadopted hcall, adopted_media]
        simp only [hforeign, hrun, false_or]
        rfl

lemma terminated_sound (hs : Sound s) (ev : EventId) :
    Returns (s.linphoneCallTerminated layer o ev) Sound := by
  have hcleared : Sound ((s.setRing false).linphoneCoreStopMediaStreams.gstateNewState
      .callEnd) :=
    (gstateNewState_sound (by decide)).mpr
      (stopMediaStreams_sound (hs.still (setRing_still s false)))
  unfold linphoneCallTerminated
  cases hcall : s.call with
  | none => exact returns_ok.mpr hcleared
  | some r =>
    dsimp only
    rw [load_ok (hs.current r hcall).2, ok_bind]
    split_ifs
    · exact returns_pure.mpr hs
    · rw [returns_bind]
      apply (destroy_returns (r := r) hcleared ?_).mono
      · rintro s₁ - ⟨h, -⟩
        exact returns_pure.mpr h
      · rw [(gstateNewState_frame (by decide)).1]
        exact hcall

lemma failure_sound (hs : Sound s) (ev : EventId) (code : ℤ) :
    Returns (s.linphoneCallFailure layer o ev code) Sound := by
  have hcleared : Sound (s.setRing false).linphoneCoreStopMediaStreams :=
    stopMediaStreams_sound (hs.still (setRing_still s false))
  unfold linphoneCallFailure
  cases hcall : s.call with
  | none =>
    rw [returns_ok]
    split_ifs
    · exact hs
    · exact hcleared
  | some r =>
    dsimp only
    rw [load_ok (hs.current r hcall).2, ok_bind]
    split_ifs
    · exact returns_pure.mpr hs
    · exact returns_pure.mpr hs
    · rw [returns_bind]
      apply (destroy_returns (r := r) hcleared hcall).mono
      rintro s₁ - ⟨h, -⟩
      rw [returns_pure, gstateNewState_call s₁ (by decide)]
      exact ⟨h.1, h.2, h.3, h.4, h.5, h.6⟩

lemma answerOffered_sound (hs : Sound s) (hcall : s.call = some r) (sdp : Option Sdp) :
    Returns (s.answerOffered layer sdp) fun p => Sound p.1 ∧ p.1.call = some r := by
  unfold answerOffered
  split_ifs
  · exact returns_ok.mpr ⟨hs, hcall⟩
  · rw [linphoneAnswerSdp_ok hcall (hs.current r hcall).2]
    have hanswered := hs.still (answeredWith_still layer s r sdp)
    split_ifs
    · exact returns_ok.mpr ⟨initMediaStreams_sound hanswered, hcall⟩
    · exact returns_ok.mpr ⟨hanswered, hcall⟩

lemma incNewCall_sound (hs : Sound s) (ev : EventId) (sdp : Option Sdp) :
    Returns (s.linphoneIncNewCall layer o ev sdp) Sound := by
  unfold linphoneIncNewCall
  split_ifs with hpresence hbusy
  · exact returns_ok.mpr ((send_sound _).mpr hs)
  · exact returns_ok.mpr ((send_sound _).mpr hs)
  · have hnone : s.call = none := by simpa using hbusy
    dsimp only
    rw [returns_bind]
    apply (answerOffered_sound (r := s.callCount) (hs.newCall hnone _) rfl sdp).mono
    rintro ⟨s₁, err⟩ - ⟨hs₁, hcall₁⟩
    dsimp only at hs₁ hcall₁ ⊢
    split_ifs with herr hring
    · have hg : 20 ≤ GState.callInInvite.value := by decide
      have hs₂ := ((gstateNewState_sound hg).mpr hs₁).still (setRing_still _ true)
      rw [modify_ok (hs₂.current s.callCount ((gstateNewState_frame hg).1.trans hcall₁)).2,
        ok_bind, returns_pure, send_sound]
      exact hs₂.still (store_still _ _ _)
    · have hg : 20 ≤ GState.callInInvite.value := by decide
      have hs₂ := (gstateNewState_sound hg).mpr hs₁
      rw [modify_ok (hs₂.current s.callCount ((gstateNewState_frame hg).1.trans hcall₁)).2,
        ok_bind, returns_pure, send_sound]
      exact hs₂.still (store_still _ _ _)
    · rw [returns_bind]
      apply (destroy_returns ((send_sound _).mpr hs₁) hcall₁).mono
      rintro s₂ - ⟨h, -⟩
      exact returns_pure.mpr h

lemma reinvite_sound_iff (hs : Sound s) (ev : EventId) (sdp : Option Sdp) :
    Returns (s.linphoneHandleReinvite layer o ev sdp) Sound ↔
      (sdp = none ∨ s.call.isSome = true) := by
  unfold linphoneHandleReinvite
  cases sdp with
  | none => simp [send_sound, hs]
  | some body =>
    simp only [Option.isNone_some, Bool.false_eq_true, if_false, reduceCtorEq, false_or]
    cases hcall : s.call with
    | none => simp [current, hcall]
    | some r =>
      have hr := (hs.current r hcall).2
      simp only [Option.isSome_some, iff_true]
      rw [current_eq_ok.mpr hcall, ok_bind, modify_ok hr, ok_bind,
        sdpContextGetAnswer_ok (s := s.store r _) hr, ok_bind]
      dsimp only
      have hanswered := (hs.still (store_still s r { s.calls r with
        media := layer.initMediaParams (s.calls r).media })).still
          (answeredWith_still layer _ r (some body))
      split_ifs
      · exact returns_pure.mpr (stopMediaStreams_sound (initMediaStreams_sound
          (stopMediaStreams_sound hanswered)))
      · rw [startMediaStreams_sound_iff layer o ((send_sound _).mpr (initMediaStreams_sound
          (stopMediaStreams_sound hanswered))) hcall]
        intro _
        rfl
      · exact returns_pure.mpr ((send_sound _).mpr hanswered)

lemma ack_sound_iff (hs : Sound s) (sdp : Option Sdp) :
    Returns (s.linphoneHandleAck layer o sdp) Sound ↔
      (sdp = none ∨ s.call.isSome = true ∧ s.audiostream.isSome = true) := by
  unfold linphoneHandleAck
  cases sdp with
  | none => simp [hs]
  | some body =>
    simp only [Option.isNone_some, Bool.false_eq_true, if_false, reduceCtorEq, false_or]
    cases hcall : s.call with
    | none => simp [current, hcall]
    | some r =>
      have hr := (hs.current r hcall).2
      rw [current_eq_ok.mpr hcall, ok_bind, sdpContextReadAnswer_ok hr, ok_bind]
      rw [connectIncoming_sound_iff (hs.still (negotiated_still s r _ _)) hcall]
      simp [(negotiated_still s r _ _).audiostream]

lemma dropCall_sound (hs : Sound s) :
    Returns (s.dropCall layer o) fun s' => Sound s' ∧ s'.call = none := by
  unfold dropCall
  cases hcall : s.call with
  | none => exact returns_ok.mpr ⟨hs, hcall⟩
  | some r =>
    rw [returns_bind]
    apply (destroy_returns hs hcall).mono
    rintro s₁ - ⟨h, -⟩
    exact returns_pure.mpr ⟨h, rfl⟩

lemma redirected_sound_iff (hs : Sound s) (code : ℤ) (contact : Option String) :
    Returns (s.linphoneCallRedirected layer o code contact) Sound ↔
      (code = 302 → contact ≠ none) := by
  unfold linphoneCallRedirected
  split_ifs with h380 h302
  · simp only [h380, Int.reduceEq, false_imp_iff, iff_true]
    exact (dropCall_sound hs).mono fun s' _ h => h.1
  · simp only [h302, true_imp_iff]
    rw [returns_bind]
    obtain ⟨s₁, h₁, hs₁, hnone⟩ := dropCall_sound (o := o) hs
    rw [h₁, returns_ok, returns_bind]
    simp only [returns_pure]
    rw [invite_sound_iff layer o hs₁, hnone]
    simp
  · simp [h302, hs]

lemma ringing_sound_iff (hs : Sound s) (ev : EventId) (sdp : Option Sdp) :
    Returns (s.linphoneCallRinging layer o ev sdp) Sound ↔
      (sdp = none ∨ s.call = none ∨ s.audiostream.isSome = true) := by
  obtain ⟨s₁, h₁, hs₁⟩ := proceeding_sound hs ev
  have hstill := proceeding_still h₁
  unfold linphoneCallRinging
  dsimp only
  rw [h₁, ok_bind]
  cases hcall : s.call with
  | none => simp [hs₁]
  | some r =>
    have hcall₁ : s₁.call = some r := hstill.call.trans hcall
    have hr₁ := (hs₁.current r hcall₁).2
    cases sdp with
    | none =>
      simp only [Option.isNone_none, if_true, true_or, iff_true]
      split_ifs
      · exact returns_pure.mpr hs₁
      · rw [modify_ok (s := s₁.setRing true) hr₁, returns_ok]
        exact (hs₁.still (setRing_still s₁ true)).still (store_still _ _ _)
      · rw [modify_ok hr₁, returns_ok]
        exact hs₁.still (store_still _ _ _)
    | some body =>
      simp only [Option.isNone_some, Bool.false_eq_true, if_false, reduceCtorEq, false_or]
      rw [← hstill.audiostream]
      cases haudio : s₁.audiostream with
      | none => simp
      | some a =>
        simp only [Option.isSome_some, iff_true]
        split_ifs
        · exact returns_pure.mpr hs₁
        · rw [current_eq_ok.mpr hcall₁, ok_bind, sdpContextReadAnswer_ok hr₁, ok_bind]
          have hg : 20 ≤ GState.callOutConnected.value := by decide
          have hread := hs₁.still (negotiated_still s₁ r
            (layer.readAnswer s₁.config (s₁.calls r).media (some body)).1
            { s₁.calls r with
              media := (layer.readAnswer s₁.config (s₁.calls r).media (some body)).2 })
          have hs₂ := ((gstateNewState_sound hg).mpr hread).still (setRing_still _ false)
          have hcall₂ := (gstateNewState_frame (s := s₁.negotiated r
            (layer.readAnswer s₁.config (s₁.calls r).media (some body)).1
            { s₁.calls r with
              media := (layer.readAnswer s₁.config (s₁.calls r).media (some body)).2 })
            hg)
          rw [returns_bind]
          have hstart := (startMediaStreams_sound_iff layer o hs₂
            (hcall₂.1.trans hcall₁)).mpr (fun _ => by
              rw [(setRing_still _ _).audiostream, hcall₂.2.2.2,
                (negotiated_still _ _ _ _).audiostream, haudio]
              rfl)
          apply hstart.mono
          intro s₃ h₃ hs₃
          have hcall₃ := (startMediaStreams_quiet h₃).1.call.trans (hcall₂.1.trans hcall₁)
          rw [modify_ok (hs₃.current r hcall₃).2, returns_ok]
          exact hs₃.still (store_still _ _ _)

lemma released_sound (hs : Sound s) (cid : ℤ) :
    Returns (s.linphoneCallReleased layer o cid) Sound := by
  unfold linphoneCallReleased
  cases hcall : s.call with
  | none => exact returns_ok.mpr hs
  | some r =>
    dsimp only
    rw [load_ok (hs.current r hcall).2, ok_bind]
    split_ifs
    · rw [returns_bind]
      apply (destroy_returns hs hcall).mono
      rintro s₁ - ⟨h, -⟩
      exact returns_pure.mpr ((gstateNewState_sound (by decide)).mpr h)
    · exact returns_pure.mpr hs

/-! Runs. -/

/-- When a step keeps `call` sound. -/
def Careful (layer : MediaLayer Config Media Sdp) (s : Core Config Media) :
    Step Media Sdp → Prop
  | .request _ (.invite url) => s.call.isSome = true ∨ url ≠ none
  | .request o .acceptCall => ∀ r, s.call = some r → Acceptable layer s o r
  | .request _ .terminateCall => s.call = none
  | .request o (.refer url) => url ≠ none ∧ (o.urlOk = false ∨ s.call = none)
  | .request _ .register => True
  | .event _ (.answered ev sdp) => ∀ r, s.call = some r → Connectable layer s ev sdp r
  | .event _ (.reinvite _ sdp) => sdp = none ∨ s.call.isSome = true
  | .event _ (.ack _ sdp) => sdp = none ∨ s.call.isSome = true ∧ s.audiostream.isSome = true
  | .event _ (.redirected _ code contact) => code = 302 → contact ≠ none
  | .event _ (.ringing _ sdp) => sdp = none ∨ s.call = none ∨ s.audiostream.isSome = true
  | .event _ _ => True
  | .registration _ => True

/-- A step returns and leaves `call` sound exactly when it is careful. -/
theorem step_sound_iff (s : Core Config Media) (a : Step Media Sdp) (hs : Sound s) :
    Returns (s.step layer a) Sound ↔ Careful layer s a := by
  cases a with
  | request o call =>
    cases call with
    | invite url =>
      refine Iff.trans ?_ (invite_sound_iff layer o hs url)
      exact returns_bind.trans (by simp)
    | acceptCall =>
      refine Iff.trans ?_ (acceptCall_sound_iff layer o hs)
      exact returns_bind.trans (by simp)
    | terminateCall =>
      refine Iff.trans ?_ (terminateCall_sound_iff layer o hs)
      exact returns_bind.trans (by simp)
    | refer url =>
      refine Iff.trans ?_ (refer_sound_iff (o := o) hs url)
      exact returns_bind.trans (by simp)
    | register => exact iff_of_true (returns_ok.mpr hs) trivial
  | event o ev =>
    cases ev with
    | invite ev sdp => exact iff_of_true (incNewCall_sound hs ev sdp) trivial
    | proceeding ev => exact iff_of_true (proceeding_sound hs ev) trivial
    | ringing ev sdp => exact ringing_sound_iff hs ev sdp
    | answered ev sdp => exact accepted_sound_iff hs ev sdp
    | redirected ev code contact => exact redirected_sound_iff hs code contact
    | reinvite ev sdp => exact reinvite_sound_iff hs ev sdp
    | ack ev sdp => exact ack_sound_iff hs sdp
    | requestFailure ev code => exact iff_of_true (failure_sound hs ev code) trivial
    | closed ev => exact iff_of_true (terminated_sound hs ev) trivial
    | released ev => exact iff_of_true (released_sound hs ev.cid) trivial
    | messageNew ev => exact iff_of_true (returns_ok.mpr ((send_sound _).mpr hs)) trivial
  | registration success =>
    exact iff_of_true (returns_ok.mpr (hs.still (gstateNewState_reg s success))) trivial

def plainSettings : Settings where
  sdp200Ack := false
  presenceMode := .online
  altContact := false
  ringSndcard := false
  playSndcard := false
  captSndcard := false
  useFiles := true
  video := false

/-- All goes well, and the dialog that an INVITE opens is number `1`. -/
def plainOutcome : Outcome (CallMedia SdpMessage) where
  urlOk := true
  buildInvite := 0
  sendInvite := 1
  buildAnswer := 0
  answerBuilt := true
  now := 1
  audioStarts := true
  videoStarts := true
  media := plainMedia

def plainPhone : Core CodecConfig (CallMedia SdpMessage) :=
  initial plainSettings plainConfig 10 fun _ => linphoneCallNewOutgoing plainOutcome

def plainInvite : Step (CallMedia SdpMessage) SdpMessage :=
  .request plainOutcome (.invite (some "sip:user@192.0.2.1"))

end MTalk.Phone.Core
