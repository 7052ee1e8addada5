import MTalk.Phone.CallHistory

/-!
# Outgoing calls that fail

`linphone_core_invite` without a current call and with the result `-1`. The exits before the call
object is made undo the general state only, so that streams which were left by a call before stay.
-/

namespace MTalk.Phone.Core

open GuardedRuns

variable {Config Media Sdp : Type} {layer : MediaLayer Config Media Sdp}
  {s s' : Core Config Media} {o : Outcome Media} {url : Option String}

/-- One entry at the end of the log, and the oldest one off it when there are too many. -/
def GainsEntry (s s' : Core Config Media) : Prop :=
  ∃ entry : CallLog, s'.callLogs = if s.maxCallLogs < (s.callLogs ++ [entry]).length then
    (s.callLogs ++ [entry]).tail else s.callLogs ++ [entry]

/-- A call object was made between the two states. -/
def CreatedCall (s s' : Core Config Media) : Prop := s.callCount < s'.callCount

instance (s s' : Core Config Media) : Decidable (CreatedCall s s') :=
  inferInstanceAs (Decidable (_ < _))

/-- What a failed call leaves behind: an entry in the log for a call that was made. -/
structure LeavesNoTrace (s s' : Core Config Media) : Prop where
  call : s'.call = none
  audiostream : s'.audiostream = none
  videostream : s'.videostream = none
  gstateCall : s'.gstateCall = .callIdle
  completed : s'.logged.length = s.logged.length + if CreatedCall s s' then 1 else 0
  callLogs : if CreatedCall s s' then GainsEntry s s' else s'.callLogs = s.callLogs

/-- The exits before the call is made. -/
lemma earlyExit_leavesNoTrace_iff (hcall : s.call = none) :
    LeavesNoTrace s ((s.gstateNewState .callOutInvite).gstateNewState .callError) ↔
      s.audiostream = none ∧ s.videostream = none := by
  rw [gstateNewState_call _ (by decide), gstateNewState_call _ (by decide)]
  constructor
  · intro h
    exact ⟨h.audiostream, h.videostream⟩
  · rintro ⟨haudio, hvideo⟩
    constructor
    · exact hcall
    · exact haudio
    · exact hvideo
    · rfl
    · simp [CreatedCall]
    · simp [CreatedCall]

/-- The log and its bound. -/
def SameLogs (s s' : Core Config Media) : Prop :=
  s'.callLogs = s.callLogs ∧ s'.maxCallLogs = s.maxCallLogs

lemma modify_sameLogs {r : CallRef} {f : Call Media → Call Media} (h : s.modify r f = .ok s') :
    SameLogs s s' := by
  rw [modify_ok (modify_freed h), Except.ok.injEq] at h
  subst h
  exact ⟨rfl, rfl⟩

lemma inviteOffer_sameLogs {r : CallRef} (h : s.inviteOffer layer r = .ok s') : SameLogs s s' := by
  unfold inviteOffer sdpContextGetOffer at h
  split_ifs at h
  · simp only [bind_eq_ok] at h
    obtain ⟨p, ⟨c, -, s₁, h₁, hp⟩, h⟩ := h
    cases hp
    cases h
    have hsame := modify_sameLogs h₁
    exact ⟨hsame.1, hsame.2⟩
  · cases h
    exact ⟨rfl, rfl⟩

/-- The destructor completes the entry of the call. -/
lemma destroy_gainsEntry {r : CallRef} (h : s.linphoneCallDestroy layer o r = .ok s') :
    s'.callCount = s.callCount ∧ s'.logged = s.logged ++ [r] ∧ GainsEntry s s' := by
  rw [linphoneCallDestroy_ok (destroy_live h), Except.ok.injEq] at h
  subst h
  exact ⟨rfl, rfl, ⟨(s.calls r).dir, logStatus (s.calls r), o.now - (s.calls r).startTime⟩, rfl⟩

/-- The exit at `end` after the INVITE could not be sent. -/
lemma placeCall_leavesNoTrace (h : s.placeCall layer o = .ok (s', -1)) : LeavesNoTrace s s' := by
  unfold placeCall at h
  simp only [bind_eq_ok] at h
  obtain ⟨s₁, h₁, s₂, h₂, h⟩ := h
  have hoffer := inviteOffer_quiet h₁
  have hsent := modify_still h₂
  have hlogs : s₂.callLogs = s.callLogs :=
    (modify_sameLogs h₂).1.trans (inviteOffer_sameLogs h₁).1
  have hmax : s₂.maxCallLogs = s.maxCallLogs :=
    (modify_sameLogs h₂).2.trans (inviteOffer_sameLogs h₁).2
  split_ifs at h with herr
  · rw [bind_eq_ok] at h
    obtain ⟨s₃, h₃, h⟩ := h
    obtain ⟨hs', -⟩ := Prod.mk.inj (Except.ok.inj h)
    obtain ⟨hcount, hlogged, entry, hentry⟩ := destroy_gainsEntry h₃
    rw [gstateNewState_call _ (by decide)] at hs'
    have hcreated : s'.callCount = s.callCount + 1 := by
      rw [← hs']
      exact hcount.trans (hsent.callCount.trans hoffer.callCount)
    have hmade : CreatedCall s s' := by
      rw [CreatedCall, hcreated]
      exact Nat.lt_succ_self _
    have hcompleted : s'.logged = s.logged ++ [s.callCount] := by
      rw [← hs']
      exact hlogged.trans (congrArg (· ++ [s.callCount]) (hsent.logged.trans hoffer.logged))
    constructor
    · rw [← hs']
      rfl
    · rw [← hs']
      rfl
    · rw [← hs']
      rfl
    · rw [← hs']
      rfl
    · rw [if_pos hmade, hcompleted, List.length_append, List.length_singleton]
    · rw [if_pos hmade, GainsEntry, ← hlogs, ← hmax, ← hs']
      exact ⟨entry, hentry⟩
  · cases h

/-- The state of an outgoing call, which is stored before, is not among what is compared. -/
lemma leavesNoTrace_gstate (h : LeavesNoTrace (s.gstateNewState .callOutInvite) s') :
    LeavesNoTrace s s' := by
  rw [gstateNewState_call _ (by decide)] at h
  exact ⟨h.call, h.audiostream, h.videostream, h.gstateCall, h.completed, h.callLogs⟩

/-- A failed call leaves no trace exactly when a call object was made or no stream was there. -/
theorem leavesNoTrace_iff (hcall : s.call = none)
    (h : s.linphoneCoreInvite layer o url = .ok (s', -1)) : LeavesNoTrace s s' ↔
      (o.urlOk = true ∧ 0 ≤ o.buildInvite) ∨ (s.audiostream = none ∧ s.videostream = none) := by
  unfold linphoneCoreInvite at h
  rw [hcall] at h
  split_ifs at h with hsome hurl hbad hbuild
  · simp at hsome
  · cases h
    rw [earlyExit_leavesNoTrace_iff hcall]
    have hbad' : o.urlOk = false := by simpa using hbad
    simp [hbad']
  · cases h
    rw [earlyExit_leavesNoTrace_iff hcall]
    simp [not_le.mpr hbuild]
  · refine iff_of_true (leavesNoTrace_gstate (placeCall_leavesNoTrace h)) ?_
    have hgood : o.urlOk = true := by simpa using hbad
    exact .inl ⟨hgood, not_lt.mp hbuild⟩

/-- An INVITE that was sent and is redirected without a call being left. -/
def redirectedPhone : Except Fault (Core CodecConfig (CallMedia SdpMessage)) := do
  let s ← step (phoneLayer plainOsip) plainPhone plainInvite
  step (phoneLayer plainOsip) s (.event plainOutcome (.redirected ⟨1, 1, 1⟩ 380 none))

/-- The streams of the call that was redirected are still there when a bad address is called. -/
theorem bad_address_leaves_streams : ¬ ∀ s s' : Core CodecConfig (CallMedia SdpMessage),
    redirectedPhone = .ok s → s.call = none →
      s.linphoneCoreInvite (phoneLayer plainOsip) { plainOutcome with urlOk := false }
        (some "nobody") = .ok (s', -1) → LeavesNoTrace s s' := by
  intro h
  obtain ⟨s, hs, hcall, haudio⟩ : ∃ s, redirectedPhone = .ok s ∧ s.call = none
      ∧ s.audiostream = some ⟨0, false⟩ := ⟨_, rfl, rfl, rfl⟩
  have hfails : s.linphoneCoreInvite (phoneLayer plainOsip) { plainOutcome with urlOk := false }
      (some "nobody")
      = .ok ((s.gstateNewState .callOutInvite).gstateNewState .callError, -1) := by
    simp [linphoneCoreInvite, hcall]
  have hnone := (h s _ hs hcall hfails).audiostream
  change s.audiostream = none at hnone
  rw [haudio] at hnone
  cases hnone

/-- From the start there are no streams. -/
theorem leavesNoTrace_iff_plain :
    LeavesNoTrace plainPhone
        ((plainPhone.gstateNewState .callOutInvite).gstateNewState .callError) ↔
      (({ plainOutcome with urlOk := false } : Outcome (CallMedia SdpMessage)).urlOk = true
          ∧ 0 ≤ plainOutcome.buildInvite)
        ∨ (plainPhone.audiostream = none ∧ plainPhone.videostream = none) := by
  have h : plainPhone.linphoneCoreInvite (phoneLayer plainOsip)
      { plainOutcome with urlOk := false } (some "nobody") =
        .ok ((plainPhone.gstateNewState .callOutInvite).gstateNewState .callError, -1) := rfl
  exact leavesNoTrace_iff rfl h

end MTalk.Phone.Core
