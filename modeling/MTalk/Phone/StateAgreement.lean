import MTalk.Phone.Lifetime

/-!
# The general call state and the call

`Agrees` says that the call group of the general state is idle exactly when `call` is `NULL`.
`Settling` is the condition under which a step that returns keeps it: hanging up, whether by the
user or after an answer with an offer that cannot be met, and a redirection to an alternative
service leave a state that disagrees.
-/

namespace MTalk.Phone.Core

open GuardedRuns

variable {Config Media Sdp : Type} {layer : MediaLayer Config Media Sdp}
  {s s' s₁ : Core Config Media} {o : Outcome Media} {r : CallRef}

def Agrees (s : Core Config Media) : Prop := s.gstateCall = .callIdle ↔ s.call = none

lemma initial_agrees (conf : Settings) (config : Config) (maxCallLogs : ℕ)
    (memory : CallRef → Call Media) : Agrees (initial conf config maxCallLogs memory) :=
  iff_of_true rfl rfl

lemma Agrees.of_eq (hs : Agrees s) (hcall : s'.call = s.call)
    (hstate : s'.gstateCall = s.gstateCall) : Agrees s' := by
  rw [Agrees, hcall, hstate]
  exact hs

lemma Agrees.quiet (hs : Agrees s) (h : Quiet s s') : Agrees s' := hs.of_eq h.call h.gstateCall

/-- No call and idle, or a call and a busy state. -/
lemma agrees_of_none (hcall : s.call = none) (hstate : s.gstateCall = .callIdle) : Agrees s :=
  iff_of_true hstate hcall

lemma agrees_of_some (hcall : s.call = some r) (hstate : s.gstateCall ≠ .callIdle) : Agrees s :=
  iff_of_false hstate (by simp [hcall])

lemma gstateCall_of {g : GState} (hg : 20 ≤ g.value) : (s.gstateNewState g).gstateCall =
    if g = .callEnd ∨ g = .callError then .callIdle else g := by
  rw [gstateNewState_call s hg]

lemma call_gstateNewState {g : GState} (hg : 20 ≤ g.value) :
    (s.gstateNewState g).call = s.call := by
  rw [gstateNewState_call s hg]

/-! The functions of the user. -/

lemma placeCall_agrees {p : Core Config Media × ℤ} (h : s.placeCall layer o = .ok p)
    (hstate : s.gstateCall ≠ .callIdle) : Agrees p.1 := by
  unfold placeCall at h
  simp only [bind_eq_ok] at h
  obtain ⟨s₁, h₁, s₂, h₂, h⟩ := h
  have hq := (inviteOffer_quiet h₁).trans
    ((send_still s₁ .invite).trans (modify_still h₂)).toQuiet
  split_ifs at h
  · simp only [bind_eq_ok] at h
    obtain ⟨s₃, -, h⟩ := h
    cases h
    apply agrees_of_none
    · exact (call_gstateNewState (by decide)).trans rfl
    · exact gstateCall_of (by decide)
  · cases h
    apply agrees_of_some (r := s.callCount)
    · rw [hq.call]
      rfl
    · rw [hq.gstateCall]
      exact hstate

/-- An invitation that starts without a call ends in agreement, whatever the state before. -/
lemma invite_agrees_of_none {url : Option String} {p : Core Config Media × ℤ}
    (hcall : s.call = none) (h : s.linphoneCoreInvite layer o url = .ok p) : Agrees p.1 := by
  unfold linphoneCoreInvite at h
  rw [hcall] at h
  simp only [Option.isSome_none, Bool.false_eq_true, if_false] at h
  have hnone : ∀ g, 20 ≤ g.value →
      ((s.gstateNewState .callOutInvite).gstateNewState g).call = none := by
    intro g hg
    rw [call_gstateNewState hg, call_gstateNewState (by decide)]
    exact hcall
  split_ifs at h with hurl hok hbuild
  · cases h
    exact agrees_of_none (hnone _ (by decide)) (gstateCall_of (by decide))
  · cases h
    exact agrees_of_none (hnone _ (by decide)) (gstateCall_of (by decide))
  · apply placeCall_agrees h
    rw [gstateCall_of (by decide)]
    decide

lemma invite_agrees {url : Option String} {p : Core Config Media × ℤ} (hs : Agrees s)
    (h : s.linphoneCoreInvite layer o url = .ok p) : Agrees p.1 := by
  by_cases hcall : s.call = none
  · exact invite_agrees_of_none hcall h
  · unfold linphoneCoreInvite at h
    rw [if_pos (Option.isSome_iff_ne_none.mpr hcall), Except.ok.injEq] at h
    subst h
    exact hs

lemma acceptCall_agrees {p : Core Config Media × ℤ} (hs : Agrees s)
    (h : s.linphoneCoreAcceptCall layer o = .ok p) : Agrees p.1 := by
  unfold linphoneCoreAcceptCall at h
  cases hcall : s.call with
  | none =>
    rw [hcall] at h
    cases h
    exact hs
  | some r =>
    rw [hcall] at h
    simp only [bind_eq_ok] at h
    obtain ⟨c, -, h⟩ := h
    have hring : Agrees (s.setRing false) := hs.quiet (setRing_still s false).toQuiet
    split_ifs at h with hrun hbuild hanswer
    · cases h
      exact hs
    · cases h
      exact hring
    · rw [bind_eq_ok] at h
      obtain ⟨s₁, h₁, h⟩ := h
      cases h
      obtain ⟨hq, -⟩ := startMediaStreams_quiet h₁
      apply agrees_of_some (r := r)
      · rw [hq.call, call_gstateNewState (by decide)]
        exact hcall
      · rw [hq.gstateCall, gstateCall_of (by decide)]
        decide
    · rw [bind_eq_ok] at h
      obtain ⟨q, hq, h⟩ := h
      have hstill := sdpContextGetOffer_still hq
      split_ifs at h
      · cases h
        apply agrees_of_some (r := r)
        · rw [call_gstateNewState (by decide)]
          exact hstill.call.trans hcall
        · rw [gstateCall_of (by decide)]
          decide
      · cases h
        exact hring.quiet hstill.toQuiet

/-! The handlers of events. -/

lemma connect_agrees {did : ℤ} (hcall : s.call = some r)
    (h : (do
      let s ← (s.gstateNewState .callOutConnected).linphoneConnectIncoming layer o
      return s.send (.ack did)) = Except.ok s') : Agrees s' := by
  rw [bind_eq_ok] at h
  obtain ⟨s₁, h₁, h⟩ := h
  cases h
  obtain ⟨hq, -⟩ := connectIncoming_quiet h₁
  apply agrees_of_some (r := r)
  · exact (hq.call.trans (call_gstateNewState (by decide))).trans hcall
  · change s₁.gstateCall ≠ .callIdle
    rw [hq.gstateCall, gstateCall_of (by decide)]
    decide

/-- When the answer to the current call is taken without hanging up. -/
def Answerable (layer : MediaLayer Config Media Sdp) (s : Core Config Media) (ev : EventId)
    (sdp : Option Sdp) (r : CallRef) : Prop :=
  ((s.calls r).cid ≠ -1 ∧ (s.calls r).cid ≠ ev.cid) ∨ (s.calls r).state = .avRunning ∨
    (s.conf.sdp200Ack = true →
      answerStatus layer s (layer.initMediaParams (s.calls r).media) sdp = 200)

lemma takeAnswer_agrees {ev : EventId} {sdp : Option Sdp} (hcall : s.call = some r)
    (hr : r ∉ s.freed)
    (hstatus : s.conf.sdp200Ack = true →
      answerStatus layer s (layer.initMediaParams (s.calls r).media) sdp = 200)
    (h : s.takeAnswer layer o ev sdp r = .ok s') : Agrees s' := by
  by_cases hack : s.conf.sdp200Ack = true
  · obtain ⟨s₁, hstill, htake⟩ := takeAnswer_ok (o := o)
      hcall hr hack
    rw [htake, if_pos (hstatus hack)] at h
    refine connect_agrees (r := r) ?_ h
    exact hstill.call.trans hcall
  · unfold takeAnswer at h
    rw [modify_ok hr, ok_bind, if_pos (by rw [(store_still s r _).conf]; simpa using hack),
      bind_eq_ok] at h
    obtain ⟨s₁, h₁, h⟩ := h
    refine connect_agrees (r := r) ?_ h
    exact (sdpContextReadAnswer_still h₁).call.trans hcall

lemma accepted_freed {ev : EventId} {sdp : Option Sdp} (hcall : s.call = some r)
    (h : s.linphoneCallAccepted layer o ev sdp = .ok s') : r ∉ s.freed := by
  unfold linphoneCallAccepted at h
  rw [hcall] at h
  dsimp only at h
  rw [bind_eq_ok] at h
  obtain ⟨s₁, h₁, h⟩ := h
  rw [bind_eq_ok] at h
  obtain ⟨c, hc, -⟩ := h
  exact (proceeding_still h₁).freed ▸ (load_eq_ok.mp hc).1

lemma accepted_agrees {ev : EventId} {sdp : Option Sdp} (hs : Agrees s)
    (hanswer : ∀ r, s.call = some r → Answerable layer s ev sdp r)
    (h : s.linphoneCallAccepted layer o ev sdp = .ok s') : Agrees s' := by
  cases hcall : s.call with
  | none =>
    unfold linphoneCallAccepted at h
    rw [hcall] at h
    cases h
    exact hs
  | some r =>
    have hr := accepted_freed hcall h
    rw [accepted_ok hcall hr] at h
    split_ifs at h with hforeign hrun
    · cases h
      exact hs.quiet (send_still s _).toQuiet
    · cases h
      exact hs.quiet (adopted_still s r ev).toQuiet
    · apply takeAnswer_agrees (s := s.adopted r ev) hcall hr _ h
      rcases hanswer r hcall with hf | hf | hf
      · exact absurd hf hforeign
      · exact absurd hf hrun
      · rw [adopted_media]
        exact hf

lemma terminated_agrees {ev : EventId} (hs : Agrees s)
    (h : s.linphoneCallTerminated layer o ev = .ok s') : Agrees s' := by
  have hidle : ((s.setRing false).linphoneCoreStopMediaStreams.gstateNewState
      .callEnd).gstateCall = .callIdle := gstateCall_of (by decide)
  unfold linphoneCallTerminated at h
  cases hcall : s.call with
  | none =>
    rw [hcall] at h
    cases h
    apply agrees_of_none _ hidle
    rw [call_gstateNewState (by decide)]
    exact hcall
  | some r =>
    rw [hcall] at h
    simp only [bind_eq_ok] at h
    obtain ⟨c, -, h⟩ := h
    split_ifs at h
    · cases h
      exact hs
    · rw [bind_eq_ok] at h
      obtain ⟨s₁, h₁, h⟩ := h
      cases h
      exact agrees_of_none rfl ((linphoneCallDestroy_frame h₁).2.1.trans hidle)

lemma failure_agrees {ev : EventId} {code : ℤ} (hs : Agrees s)
    (h : s.linphoneCallFailure layer o ev code = .ok s') : Agrees s' := by
  have hcleared : Agrees (s.setRing false).linphoneCoreStopMediaStreams :=
    hs.quiet ((setRing_still s false).toQuiet.trans (stopMediaStreams_quiet _))
  unfold linphoneCallFailure at h
  cases hcall : s.call with
  | none =>
    rw [hcall] at h
    cases h
    split_ifs
    · exact hs
    · exact hcleared
  | some r =>
    rw [hcall] at h
    simp only [bind_eq_ok] at h
    obtain ⟨c, -, h⟩ := h
    split_ifs at h
    · cases h
      exact hs
    · cases h
      exact hs
    · rw [bind_eq_ok] at h
      obtain ⟨s₁, -, h⟩ := h
      cases h
      exact agrees_of_none rfl (gstateCall_of (s := s₁) (by decide))

lemma answerOffered_quiet {sdp : Option Sdp} {p : Core Config Media × ℤ}
    (h : s.answerOffered layer sdp = .ok p) : Quiet s p.1 := by
  unfold answerOffered at h
  split_ifs at h
  · cases h
    exact Quiet.refl s
  · exact linphoneAnswerSdp_quiet h

lemma incNewCall_agrees {ev : EventId} {sdp : Option Sdp} (hs : Agrees s)
    (h : s.linphoneIncNewCall layer o ev sdp = .ok s') : Agrees s' := by
  unfold linphoneIncNewCall at h
  split_ifs at h with hpresence hbusy
  · cases h
    exact hs.quiet (send_still s _).toQuiet
  · cases h
    exact hs.quiet (send_still s _).toQuiet
  · have hnone : s.call = none := by simpa using hbusy
    dsimp only at h
    rw [bind_eq_ok] at h
    obtain ⟨⟨s₁, err⟩, h₁, h⟩ := h
    have hq := answerOffered_quiet h₁
    have hg : 20 ≤ GState.callInInvite.value := by decide
    dsimp only at hq h
    split_ifs at h with herr hring
    · rw [bind_eq_ok] at h
      obtain ⟨s₂, h₂, h⟩ := h
      cases h
      have hstill := (setRing_still (s₁.gstateNewState .callInInvite) true).trans (modify_still h₂)
      apply agrees_of_some (r := s.callCount)
      · exact (hstill.call.trans (call_gstateNewState hg)).trans hq.call
      · change s₂.gstateCall ≠ .callIdle
        rw [hstill.gstateCall, gstateCall_of hg]
        decide
    · rw [bind_eq_ok] at h
      obtain ⟨s₂, h₂, h⟩ := h
      cases h
      have hstill := modify_still h₂
      apply agrees_of_some (r := s.callCount)
      · exact (hstill.call.trans (call_gstateNewState hg)).trans hq.call
      · change s₂.gstateCall ≠ .callIdle
        rw [hstill.gstateCall, gstateCall_of hg]
        decide
    · rw [bind_eq_ok] at h
      obtain ⟨s₂, h₂, h⟩ := h
      cases h
      apply agrees_of_none rfl
      exact ((linphoneCallDestroy_frame h₂).2.1.trans hq.gstateCall).trans (hs.mpr hnone)

lemma reinvite_agrees {ev : EventId} {sdp : Option Sdp} (hs : Agrees s)
    (h : s.linphoneHandleReinvite layer o ev sdp = .ok s') : Agrees s' := by
  unfold linphoneHandleReinvite at h
  by_cases hsdp : sdp.isNone = true
  · rw [if_pos hsdp] at h
    cases h
    exact hs.quiet (send_still s _).toQuiet
  · rw [if_neg hsdp] at h
    simp only [bind_eq_ok] at h
    obtain ⟨r, -, s₁, h₁, p, hp, h⟩ := h
    have hq : Quiet s p.1 := ((modify_still h₁).trans (sdpContextGetAnswer_still hp)).toQuiet
    have hstreams : Quiet s p.1.linphoneCoreStopMediaStreams.linphoneCoreInitMediaStreams :=
      (hq.trans (stopMediaStreams_quiet _)).trans (initMediaStreams_quiet _)
    split_ifs at h
    · cases h
      exact hs.quiet (hstreams.trans (stopMediaStreams_quiet _))
    · apply hs.quiet
      exact (hstreams.trans (send_still _ _).toQuiet).trans (startMediaStreams_quiet h).1
    · cases h
      exact hs.quiet (hq.trans (send_still _ _).toQuiet)

lemma ack_agrees {sdp : Option Sdp} (hs : Agrees s)
    (h : s.linphoneHandleAck layer o sdp = .ok s') : Agrees s' := by
  unfold linphoneHandleAck at h
  split_ifs at h
  · cases h
    exact hs
  · simp only [bind_eq_ok] at h
    obtain ⟨r, -, s₁, h₁, h⟩ := h
    exact hs.quiet ((sdpContextReadAnswer_still h₁).toQuiet.trans (connectIncoming_quiet h).1)

lemma dropCall_frame (h : s.dropCall layer o = .ok s') :
    s'.call = none ∧ s'.gstateCall = s.gstateCall := by
  unfold dropCall at h
  cases hcall : s.call with
  | none =>
    rw [hcall] at h
    cases h
    exact ⟨hcall, rfl⟩
  | some r =>
    rw [hcall] at h
    dsimp only at h
    rw [bind_eq_ok] at h
    obtain ⟨s₁, h₁, h⟩ := h
    cases h
    exact ⟨rfl, (linphoneCallDestroy_frame h₁).2.1⟩

lemma redirected_agrees {code : ℤ} {contact : Option String} (hs : Agrees s)
    (hcode : code = 380 → s.call = none)
    (h : s.linphoneCallRedirected layer o code contact = .ok s') : Agrees s' := by
  unfold linphoneCallRedirected at h
  split_ifs at h with h380 h302
  · obtain ⟨hnone, hstate⟩ := dropCall_frame h
    exact agrees_of_none hnone (hstate.trans (hs.mpr (hcode h380)))
  · simp only [bind_eq_ok] at h
    obtain ⟨s₁, h₁, p, hp, h⟩ := h
    cases h
    exact invite_agrees_of_none (dropCall_frame h₁).1 hp
  · cases h
    exact hs

lemma ringing_agrees {ev : EventId} {sdp : Option Sdp} (hs : Agrees s)
    (h : s.linphoneCallRinging layer o ev sdp = .ok s') : Agrees s' := by
  unfold linphoneCallRinging at h
  simp only [bind_eq_ok] at h
  obtain ⟨s₁, h₁, h⟩ := h
  have hstill := proceeding_still h₁
  cases hcall : s.call with
  | none =>
    rw [hcall] at h
    cases h
    exact hs.quiet hstill.toQuiet
  | some r =>
    rw [hcall] at h
    dsimp only at h
    split_ifs at h with hsdp hring hcard
    · cases h
      exact hs.quiet hstill.toQuiet
    · apply hs.quiet
      exact (hstill.trans ((setRing_still s₁ true).trans (modify_still h))).toQuiet
    · exact hs.quiet (hstill.trans (modify_still h)).toQuiet
    · split at h
      · simp at h
      · split_ifs at h
        · cases h
          exact hs.quiet hstill.toQuiet
        · simp only [bind_eq_ok] at h
          obtain ⟨r', -, s₂, h₂, s₃, h₃, h₄⟩ := h
          have hread := sdpContextReadAnswer_still h₂
          have hq := ((setRing_still _ false).toQuiet.trans (startMediaStreams_quiet h₃).1).trans
            (modify_still h₄).toQuiet
          have hg : 20 ≤ GState.callOutConnected.value := by decide
          apply agrees_of_some (r := r)
          · rw [hq.call, call_gstateNewState hg, hread.call, hstill.call]
            exact hcall
          · rw [hq.gstateCall, gstateCall_of hg]
            decide

lemma released_agrees {cid : ℤ} (hs : Agrees s)
    (h : s.linphoneCallReleased layer o cid = .ok s') : Agrees s' := by
  unfold linphoneCallReleased at h
  cases hcall : s.call with
  | none =>
    rw [hcall] at h
    cases h
    exact hs
  | some r =>
    rw [hcall] at h
    simp only [bind_eq_ok] at h
    obtain ⟨c, -, h⟩ := h
    split_ifs at h
    · rw [bind_eq_ok] at h
      obtain ⟨s₁, -, h⟩ := h
      cases h
      apply agrees_of_none
      · exact (call_gstateNewState (by decide)).trans rfl
      · exact gstateCall_of (by decide)
    · cases h
      exact hs

/-! Runs. -/

/-- When a step that returns keeps the agreement. -/
def Settling (layer : MediaLayer Config Media Sdp) (s : Core Config Media) :
    Step Media Sdp → Prop
  | .request _ .terminateCall => s.call = none
  | .event _ (.redirected _ code _) => code = 380 → s.call = none
  | .event _ (.answered ev sdp) => ∀ r, s.call = some r → Answerable layer s ev sdp r
  | _ => True

theorem step_agrees (s : Core Config Media) (a : Step Media Sdp) (s' : Core Config Media)
    (hs : Agrees s) (ha : Settling layer s a) (h : s.step layer a = .ok s') : Agrees s' := by
  cases a with
  | request o call =>
    cases call with
    | invite url =>
      obtain ⟨p, hp, h⟩ := bind_eq_ok.mp h
      cases h
      exact invite_agrees hs hp
    | acceptCall =>
      obtain ⟨p, hp, h⟩ := bind_eq_ok.mp h
      cases h
      exact acceptCall_agrees hs hp
    | terminateCall =>
      obtain ⟨p, hp, h⟩ := bind_eq_ok.mp h
      cases h
      have hnone : s.call = none := ha
      unfold linphoneCoreTerminateCall at hp
      rw [hnone] at hp
      cases hp
      exact hs
    | refer url =>
      obtain ⟨p, hp, h⟩ := bind_eq_ok.mp h
      cases h
      unfold linphoneCoreRefer at hp
      split_ifs at hp
      · cases hp
        exact hs
      · cases hp
        exact hs
      · simp [current, clearCall] at hp
    | register =>
      cases h
      exact hs
  | event o ev =>
    cases ev with
    | invite ev sdp => exact incNewCall_agrees hs h
    | proceeding ev => exact hs.quiet (proceeding_still h).toQuiet
    | ringing ev sdp => exact ringing_agrees hs h
    | answered ev sdp => exact accepted_agrees hs ha h
    | redirected ev code contact => exact redirected_agrees hs ha h
    | reinvite ev sdp => exact reinvite_agrees hs h
    | ack ev sdp => exact ack_agrees hs h
    | requestFailure ev code => exact failure_agrees hs h
    | closed ev => exact terminated_agrees hs h
    | released ev => exact released_agrees hs h
    | messageNew ev =>
      cases h
      exact hs.quiet (send_still s _).toQuiet
  | registration success =>
    cases h
    exact hs.quiet (gstateNewState_reg s success).toQuiet

/-! The condition leaves out only steps that break the agreement. -/

lemma terminateCall_disagrees (hs : Sound s) (hcall : s.call = some r) :
    ∃ p, s.linphoneCoreTerminateCall layer o = .ok p ∧ ¬Agrees p.1 := by
  obtain ⟨p, hp, hc, -, hidle⟩ := terminateCall_leaves (o := o) hs hcall
  refine ⟨p, hp, fun hagree => ?_⟩
  rw [hagree.mp hidle] at hc
  simp at hc

lemma dropCall_disagrees (hs : Sound s) (ha : Agrees s) (hcall : s.call = some r) :
    ∃ s', s.dropCall layer o = .ok s' ∧ ¬Agrees s' := by
  obtain ⟨s', h, -⟩ := dropCall_sound (o := o) hs
  obtain ⟨hnone, hstate⟩ := dropCall_frame h
  refine ⟨s', h, fun hagree => ?_⟩
  rw [ha.mp (hstate ▸ hagree.mpr hnone)] at hcall
  simp at hcall

lemma accepted_disagrees {ev : EventId} {sdp : Option Sdp} (hs : Sound s) (hcall : s.call = some r)
    (hanswer : ¬Answerable layer s ev sdp r) :
    ∃ s', s.linphoneCallAccepted layer o ev sdp = .ok s' ∧ ¬Agrees s' := by
  have hr := (hs.current r hcall).2
  rw [Answerable, not_or, not_or, Classical.not_imp] at hanswer
  obtain ⟨hforeign, hrun, hack, hstatus⟩ := hanswer
  rw [accepted_ok hcall hr, if_neg hforeign, if_neg hrun]
  have hadopted := hs.still (adopted_still s r ev)
  obtain ⟨s₁, hstill, htake⟩ := takeAnswer_ok (o := o)
    (s := s.adopted r ev) hcall hr hack
  have hstatus' : ¬answerStatus layer (s.adopted r ev) (layer.initMediaParams (s.calls r).media)
      sdp = 200 := hstatus
  rw [adopted_media] at htake
  rw [htake, if_neg hstatus']
  obtain ⟨p, hp, hdisagree⟩ := terminateCall_disagrees (o := o)
    ((send_sound (.ack ev.did)).mpr (hadopted.still hstill)) (hstill.call.trans hcall)
  rw [hp]
  exact ⟨p.1, rfl, hdisagree⟩

/-- Where the call is sound, a step that is not settling breaks the agreement. -/
theorem settling_of_step_agrees (hs : Sound s) (ha : Agrees s) (a : Step Media Sdp)
    (h : ∀ s', s.step layer a = .ok s' → Agrees s') : Settling layer s a := by
  by_contra hnot
  cases a with
  | request o call =>
    cases call with
    | terminateCall =>
      obtain ⟨r, hcall⟩ := Option.ne_none_iff_exists'.mp hnot
      obtain ⟨p, hp, hdisagree⟩ := terminateCall_disagrees (o := o) hs hcall
      exact hdisagree (h p.1 (bind_eq_ok.mpr ⟨p, hp, rfl⟩))
    | invite url => exact hnot trivial
    | acceptCall => exact hnot trivial
    | refer url => exact hnot trivial
    | register => exact hnot trivial
  | event o ev =>
    cases ev with
    | redirected ev code contact =>
      obtain ⟨h380, hcall⟩ := Classical.not_imp.mp hnot
      obtain ⟨r, hcall⟩ := Option.ne_none_iff_exists'.mp hcall
      obtain ⟨s', hs', hdisagree⟩ := dropCall_disagrees (o := o) hs ha hcall
      exact hdisagree (h s' ((if_pos h380).trans hs'))
    | answered ev sdp =>
      obtain ⟨r, hr⟩ := Classical.not_forall.mp hnot
      obtain ⟨hcall, hanswer⟩ := Classical.not_imp.mp hr
      obtain ⟨s', hs', hdisagree⟩ := accepted_disagrees (o := o) hs hcall hanswer
      exact hdisagree (h s' hs')
    | invite ev sdp => exact hnot trivial
    | proceeding ev => exact hnot trivial
    | ringing ev sdp => exact hnot trivial
    | reinvite ev sdp => exact hnot trivial
    | ack ev sdp => exact hnot trivial
    | requestFailure ev code => exact hnot trivial
    | closed ev => exact hnot trivial
    | released ev => exact hnot trivial
    | messageNew ev => exact hnot trivial
  | registration success => exact hnot trivial

/-- In a run from the start whose steps are settling, the general call state agrees with `call`
after every step that returns. -/
theorem agreement (layer : MediaLayer Config Media Sdp) (conf : Settings) (config : Config)
    (maxCallLogs : ℕ) (memory : CallRef → Call Media) {steps : List (Step Media Sdp)}
    (h : Guarded (step layer) (Settling layer) (initial conf config maxCallLogs memory) steps) :
    HoldsWhileReturning (step layer) Agrees (initial conf config maxCallLogs memory) steps :=
  holdsWhileReturning_of_guarded step_agrees (initial_agrees conf config maxCallLogs memory) h

theorem agreement_remote_hangup :
    HoldsWhileReturning (step (phoneLayer plainOsip)) Agrees plainPhone
      [plainInvite, .event plainOutcome (.closed ⟨1, 1, 1⟩)] :=
  agreement (phoneLayer plainOsip) plainSettings plainConfig 10 _
    ⟨trivial, fun _ _ => ⟨trivial, fun _ _ => trivial⟩⟩

/-- After hanging up, the state is idle and `call` is not `NULL`. -/
theorem terminate_disagrees : ¬HoldsWhileReturning (step (phoneLayer plainOsip)) Agrees plainPhone
    [plainInvite, .request plainOutcome .terminateCall] := by
  intro h
  obtain ⟨s₁, h₁⟩ : ∃ s₁, step (phoneLayer plainOsip) plainPhone plainInvite = .ok s₁ := ⟨_, rfl⟩
  obtain ⟨s₂, h₂, hstate⟩ : ∃ s₂, step (phoneLayer plainOsip) s₁
      (.request plainOutcome .terminateCall) = .ok s₂ ∧
      s₂.gstateCall = .callIdle ∧ s₂.call = some 0 := by
    cases h₁
    exact ⟨_, rfl, rfl, rfl⟩
  have hagrees : Agrees s₂ := (h.2 s₁ h₁).2 s₂ h₂
  rw [hagrees.mp hstate.1] at hstate
  exact absurd hstate.2 (by simp)

end MTalk.Phone.Core
