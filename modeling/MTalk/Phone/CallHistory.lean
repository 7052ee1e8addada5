import MTalk.Phone.StateAgreement

/-!
# The call log as a history

Every call that ends is entered at the end of the log, and the oldest entry goes when there are too
many. Whatever the steps of the API and of the SIP stack, the log holds the last calls that were
completed, with the status that their final state gives. `missed_calls` counts the missed ones on
top of what the memory of the object held, since the constructor does not set it.
-/

namespace MTalk.Phone.Core

open GuardedRuns

variable {Config Media Sdp : Type} {layer : MediaLayer Config Media Sdp}
  {s s' s₁ : Core Config Media} {o : Outcome Media} {r : CallRef} {missed : ℕ}

/-- What the log tells about a call that is gone. -/
def outcomeOf (s : Core Config Media) (r : CallRef) : Direction × CallStatus :=
  ((s.calls r).dir, logStatus (s.calls r))

/-- An incoming call that rings. -/
def RingsIn (c : Call Media) : Prop := c.dir = .incoming ∧ c.state = .ringing

instance (c : Call Media) : Decidable (RingsIn c) := inferInstanceAs (Decidable (_ ∧ _))

lemma logStatus_eq_missed (c : Call Media) : logStatus c = .missed ↔ RingsIn c := by
  rcases c with ⟨dir, cid, did, tid, state⟩
  cases state <;> cases dir <;> simp [logStatus, RingsIn]

/-- The number of incoming calls that ended while ringing. -/
def endedRinging (s : Core Config Media) : ℕ := s.logged.countP fun r => RingsIn (s.calls r)

/-- The log holds the last of the calls that were completed, in the order of completion. -/
def LogsLast (s : Core Config Media) : Prop :=
  ∃ past : List CallLog, past.map (fun l => (l.dir, l.status)) = s.logged.map s.outcomeOf
    ∧ s.callLogs = past.drop (past.length - s.maxCallLogs)

/-- The log is the bounded history of the calls, and the missed ones are counted. -/
def Chronicled (s : Core Config Media) : Prop :=
  s.LogsLast ∧ s.missedCalls = s.endedRinging

/-- The invariant of the steps: a call is not touched any more once it is in the log. -/
structure History (missed : ℕ) (s : Core Config Media) : Prop where
  current : ∀ r, s.call = some r → r < s.callCount
  freed_lt : ∀ r ∈ s.freed, r < s.callCount
  logged : ∀ r ∈ s.logged, r ∈ s.freed
  log : s.LogsLast
  missedCalls : s.missedCalls = missed + s.endedRinging

/-- What goes on keeps the history. -/
def Continues (s s' : Core Config Media) : Prop := ∀ missed, History missed s → History missed s'

lemma Continues.refl (s : Core Config Media) : Continues s s := fun _ h => h

lemma Continues.trans (h : Continues s s₁) (h' : Continues s₁ s') : Continues s s' :=
  fun missed hs => h' missed (h missed hs)

/-! The operations that complete no call. -/

/-- The calls that are gone are as they were, and so is the log. -/
lemma History.unlogged (h : History missed s) (hcurrent : ∀ r, s'.call = some r → r < s'.callCount)
    (hcount : s.callCount ≤ s'.callCount) (hfreed : s'.freed = s.freed)
    (hlogged : s'.logged = s.logged) (hlogs : s'.callLogs = s.callLogs)
    (hmax : s'.maxCallLogs = s.maxCallLogs) (hmissed : s'.missedCalls = s.missedCalls)
    (hcalls : ∀ r ∈ s.freed, s'.calls r = s.calls r) : History missed s' := by
  have hsame : ∀ r ∈ s.logged, s'.calls r = s.calls r := fun r hr => hcalls r (h.logged r hr)
  constructor
  · exact hcurrent
  · intro r hr
    rw [hfreed] at hr
    exact (h.freed_lt r hr).trans_le hcount
  · rw [hlogged, hfreed]
    exact h.logged
  · obtain ⟨past, hpast, hlast⟩ := h.log
    refine ⟨past, ?_, ?_⟩
    · rw [hpast, hlogged]
      apply List.map_congr_left
      intro r hr
      rw [outcomeOf, outcomeOf, hsame r hr]
    · rw [hlogs, hmax, hlast]
  · rw [hmissed, h.missedCalls, endedRinging, endedRinging, hlogged]
    congr 1
    apply List.countP_congr
    intro r hr
    rw [hsame r hr]

/-- The log, the calls and the pointer to the current one are left alone. -/
lemma continues_of_eq (hcall : s'.call = s.call) (hcount : s'.callCount = s.callCount)
    (hfreed : s'.freed = s.freed) (hlogged : s'.logged = s.logged)
    (hlogs : s'.callLogs = s.callLogs) (hmax : s'.maxCallLogs = s.maxCallLogs)
    (hmissed : s'.missedCalls = s.missedCalls) (hcalls : s'.calls = s.calls) : Continues s s' := by
  intro missed h
  refine h.unlogged ?_ hcount.ge hfreed hlogged hlogs hmax hmissed fun r _ => congrFun hcalls r
  rw [hcall, hcount]
  exact h.current

lemma Continues.send (h : Continues s s₁) (m : Sip) : Continues s (s₁.send m) :=
  h.trans (continues_of_eq rfl rfl rfl rfl rfl rfl rfl rfl)

lemma Continues.withConfig (h : Continues s s₁) (config : Config) :
    Continues s (s₁.withConfig config) :=
  h.trans (continues_of_eq rfl rfl rfl rfl rfl rfl rfl rfl)

lemma Continues.setRing (h : Continues s s₁) (ringing : Bool) : Continues s (s₁.setRing ringing) :=
  h.trans (continues_of_eq rfl rfl rfl rfl rfl rfl rfl rfl)

lemma Continues.initStreams (h : Continues s s₁) : Continues s s₁.linphoneCoreInitMediaStreams :=
  h.trans (continues_of_eq rfl rfl rfl rfl rfl rfl rfl rfl)

lemma Continues.stopStreams (h : Continues s s₁) : Continues s s₁.linphoneCoreStopMediaStreams :=
  h.trans (continues_of_eq rfl rfl rfl rfl rfl rfl rfl rfl)

lemma Continues.gstate (h : Continues s s₁) (g : GState) : Continues s (s₁.gstateNewState g) := by
  cases g <;> exact h.trans (continues_of_eq rfl rfl rfl rfl rfl rfl rfl rfl)

lemma gstateNewState_current (s : Core Config Media) (g : GState) :
    (s.gstateNewState g).call = s.call := by
  cases g <;> rfl

lemma Continues.clearCall (h : Continues s s₁) : Continues s s₁.clearCall := by
  intro missed hs
  refine (h missed hs).unlogged ?_ le_rfl rfl rfl rfl rfl rfl fun r _ => rfl
  intro r hr
  simp [Core.clearCall] at hr

lemma newCall_continues (s : Core Config Media) (c : Call Media) : Continues s (s.newCall c) := by
  intro missed h
  refine h.unlogged ?_ (Nat.le_succ _) rfl rfl rfl rfl rfl ?_
  · intro r hr
    obtain rfl : s.callCount = r := Option.some.inj hr
    exact Nat.lt_succ_self _
  · intro r hr
    exact Function.update_of_ne (h.freed_lt r hr).ne _ _

lemma modify_continues {f : Call Media → Call Media} (h : s.modify r f = .ok s') :
    Continues s s' := by
  have hr := modify_freed h
  rw [modify_ok hr, Except.ok.injEq] at h
  subst h
  intro missed hs
  refine hs.unlogged hs.current le_rfl rfl rfl rfl rfl rfl ?_
  intro r' hr'
  apply Function.update_of_ne
  rintro rfl
  exact hr hr'

lemma startStreams_continues {c : Call Media} (h : s.startStreams layer o c = .ok s') :
    Continues s s' := by
  unfold startStreams at h
  simp only [bind_eq_ok] at h
  obtain ⟨audio, -, h⟩ := h
  split_ifs at h
  · rw [bind_eq_ok] at h
    obtain ⟨video, -, h⟩ := h
    cases h
    exact continues_of_eq rfl rfl rfl rfl rfl rfl rfl rfl
  · cases h
    exact continues_of_eq rfl rfl rfl rfl rfl rfl rfl rfl

lemma setAvRunning_continues (h : s.setAvRunning = .ok s') : Continues s s' := by
  unfold setAvRunning at h
  rw [bind_eq_ok] at h
  obtain ⟨r, -, h⟩ := h
  exact modify_continues h

lemma startMediaStreams_continues (h : s.linphoneCoreStartMediaStreams layer o r = .ok s') :
    Continues s s' := by
  unfold linphoneCoreStartMediaStreams startIfPlayable at h
  simp only [bind_eq_ok] at h
  obtain ⟨c, -, s₁, h₁, s₂, h₂, h₃⟩ := h
  have hmid : Continues s₁ s₂ := by
    split_ifs at h₂
    · exact startStreams_continues h₂
    · cases h₂
      exact Continues.refl s₁
  exact ((modify_continues h₁).trans hmid).trans (setAvRunning_continues h₃)

/-! The SDP operations. -/

lemma getOffer_continues {p : Core Config Media × Bool}
    (h : s.sdpContextGetOffer layer r = .ok p) : Continues s p.1 := by
  unfold sdpContextGetOffer at h
  simp only [bind_eq_ok] at h
  obtain ⟨c, -, s₁, h₁, h⟩ := h
  cases h
  exact (modify_continues h₁).withConfig _

lemma getAnswer_continues {sdp : Option Sdp} {p : Core Config Media × ℤ}
    (h : s.sdpContextGetAnswer layer r sdp = .ok p) : Continues s p.1 := by
  unfold sdpContextGetAnswer at h
  simp only [bind_eq_ok] at h
  obtain ⟨c, -, s₁, h₁, h⟩ := h
  cases h
  exact (modify_continues h₁).withConfig _

lemma readAnswer_continues {sdp : Option Sdp}
    (h : s.sdpContextReadAnswer layer r sdp = .ok s') : Continues s s' := by
  unfold sdpContextReadAnswer at h
  simp only [bind_eq_ok] at h
  obtain ⟨c, -, s₁, h₁, h⟩ := h
  cases h
  exact (modify_continues h₁).withConfig _

lemma answerSdp_continues {sdp : Option Sdp} {p : Core Config Media × ℤ}
    (h : s.linphoneAnswerSdp layer sdp = .ok p) : Continues s p.1 := by
  unfold linphoneAnswerSdp at h
  simp only [bind_eq_ok] at h
  obtain ⟨r, -, q, hq, h⟩ := h
  have hanswer := getAnswer_continues hq
  split_ifs at h
  · cases h
    exact hanswer.initStreams
  · cases h
    exact hanswer

lemma connectIncoming_continues (h : s.linphoneConnectIncoming layer o = .ok s') :
    Continues s s' := by
  unfold linphoneConnectIncoming at h
  simp only [bind_eq_ok] at h
  obtain ⟨r, -, s₁, h₁, h⟩ := h
  have hring := (setAvRunning_continues h₁).setRing false
  split at h
  · simp at h
  · have hstart := startMediaStreams_continues h
    split_ifs at hstart
    · exact hring.stopStreams.initStreams.trans hstart
    · exact hring.trans hstart

lemma inviteOffer_continues (h : s.inviteOffer layer r = .ok s') : Continues s s' := by
  unfold inviteOffer at h
  split_ifs at h
  · rw [bind_eq_ok] at h
    obtain ⟨p, hp, h⟩ := h
    cases h
    exact (getOffer_continues hp).initStreams
  · cases h
    exact Continues.refl s

lemma answerOffered_continues {sdp : Option Sdp} {p : Core Config Media × ℤ}
    (h : s.answerOffered layer sdp = .ok p) : Continues s p.1 := by
  unfold answerOffered at h
  split_ifs at h
  · cases h
    exact Continues.refl s
  · exact answerSdp_continues h

lemma proceeding_continues {ev : EventId} (h : s.linphoneCallProceeding ev = .ok s') :
    Continues s s' := by
  unfold linphoneCallProceeding at h
  split at h
  · cases h
    exact (Continues.refl s).send _
  · rw [bind_eq_ok] at h
    obtain ⟨c, -, h⟩ := h
    split_ifs at h
    · cases h
      exact (Continues.refl s).send _
    · exact modify_continues h

/-! The completion of a call. -/

/-- An entry at the end of the log and the oldest one off it: again the last of the past. -/
lemma drop_append_entry (past : List CallLog) (entry : CallLog) (bound : ℕ) :
    (if bound < (past.drop (past.length - bound) ++ [entry]).length then
      (past.drop (past.length - bound) ++ [entry]).tail
    else past.drop (past.length - bound) ++ [entry])
      = (past ++ [entry]).drop ((past ++ [entry]).length - bound) := by
  have hdrop : past.drop (past.length - bound) ++ [entry]
      = (past ++ [entry]).drop (past.length - bound) := by
    rw [List.drop_append_of_le_length (by omega)]
  rw [hdrop, List.length_drop, List.length_append, List.length_singleton]
  split_ifs with hfull
  · rw [List.tail_drop]
    congr 1
    omega
  · congr 1
    omega

/-- The call that ends is the last one of the history. -/
lemma destroy_continues (hr : r < s.callCount) (h : s.linphoneCallDestroy layer o r = .ok s') :
    Continues s s' := by
  rw [linphoneCallDestroy_ok (destroy_live h), Except.ok.injEq] at h
  subst h
  intro missed hs
  constructor
  · exact hs.current
  · intro r' hr'
    rcases List.mem_append.mp hr' with h | h
    · exact hs.freed_lt r' h
    · rw [List.mem_singleton.mp h]
      exact hr
  · intro r' hr'
    rcases List.mem_append.mp hr' with h | h
    · exact List.mem_append_left _ (hs.logged r' h)
    · exact List.mem_append_right _ h
  · obtain ⟨past, hpast, hlast⟩ := hs.log
    let entry : CallLog :=
      ⟨(s.calls r).dir, logStatus (s.calls r), o.now - (s.calls r).startTime⟩
    refine ⟨past ++ [entry], ?_, ?_⟩
    · change _ = (s.logged ++ [r]).map s.outcomeOf
      rw [List.map_append, List.map_append, hpast]
      rfl
    · change (if s.maxCallLogs < (s.callLogs ++ [entry]).length then (s.callLogs ++ [entry]).tail
        else s.callLogs ++ [entry]) = (past ++ [entry]).drop ((past ++ [entry]).length - s.maxCallLogs)
      rw [hlast, drop_append_entry]
  · have hone : (if logStatus (s.calls r) = .missed then s.missedCalls + 1 else s.missedCalls)
        = s.missedCalls + if RingsIn (s.calls r) then 1 else 0 := by
      simp only [logStatus_eq_missed]
      split_ifs <;> rfl
    change (if logStatus (s.calls r) = .missed then s.missedCalls + 1 else s.missedCalls)
      = missed + (s.logged ++ [r]).countP fun r => RingsIn (s.calls r)
    rw [hone, hs.missedCalls, List.countP_append, List.countP_singleton, endedRinging,
      Nat.add_assoc]
    simp only [decide_eq_true_eq]

/-- The current call ends after operations that keep it. -/
lemma Continues.destroy (h₁ : Continues s s₁) (h : s₁.linphoneCallDestroy layer o r = .ok s')
    (hcall : s₁.call = some r) : Continues s s' := by
  intro missed hs
  have hs₁ := h₁ missed hs
  exact destroy_continues (hs₁.current r hcall) h missed hs₁

/-! The functions of the user. -/

lemma placeCall_continues {p : Core Config Media × ℤ} (h : s.placeCall layer o = .ok p) :
    Continues s p.1 := by
  unfold placeCall at h
  simp only [bind_eq_ok] at h
  obtain ⟨s₁, h₁, s₂, h₂, h⟩ := h
  have hcall : s₂.call = some s.callCount :=
    ((inviteOffer_quiet h₁).trans
      ((send_still s₁ .invite).trans (modify_still h₂)).toQuiet).call
  have hplaced : Continues s s₂ := ((newCall_continues s _).trans (inviteOffer_continues h₁)).send
    .invite |>.trans (modify_continues h₂)
  split_ifs at h
  · simp only [bind_eq_ok] at h
    obtain ⟨s₃, h₃, h⟩ := h
    cases h
    exact (hplaced.destroy h₃ hcall).clearCall.stopStreams.gstate .callError
  · cases h
    exact hplaced

lemma invite_continues {url : Option String} {p : Core Config Media × ℤ}
    (h : s.linphoneCoreInvite layer o url = .ok p) : Continues s p.1 := by
  unfold linphoneCoreInvite at h
  have hstate := (Continues.refl s).gstate .callOutInvite
  split_ifs at h
  · cases h
    exact Continues.refl s
  · cases h
    exact hstate.gstate .callError
  · cases h
    exact hstate.gstate .callError
  · exact hstate.trans (placeCall_continues h)

lemma acceptCall_continues {p : Core Config Media × ℤ}
    (h : s.linphoneCoreAcceptCall layer o = .ok p) : Continues s p.1 := by
  unfold linphoneCoreAcceptCall at h
  split at h
  · cases h
    exact Continues.refl s
  · simp only [bind_eq_ok] at h
    obtain ⟨c, -, h⟩ := h
    have hring := (Continues.refl s).setRing false
    split_ifs at h
    · cases h
      exact Continues.refl s
    · cases h
      exact hring
    · rw [bind_eq_ok] at h
      obtain ⟨s₁, h₁, h⟩ := h
      cases h
      have hconnected := (hring.send (.answer c.tid 200)).gstate .callInConnected
      exact hconnected.trans (startMediaStreams_continues h₁)
    · rw [bind_eq_ok] at h
      obtain ⟨q, hq, h⟩ := h
      have hoffer := hring.trans (getOffer_continues hq)
      split_ifs at h
      · cases h
        exact (hoffer.initStreams.send (.answer c.tid 200)).gstate .callInConnected
      · cases h
        exact hoffer

lemma terminateCall_continues {p : Core Config Media × ℤ}
    (h : s.linphoneCoreTerminateCall layer o = .ok p) : Continues s p.1 := by
  unfold linphoneCoreTerminateCall at h
  cases hcall : s.call with
  | none =>
    rw [hcall] at h
    cases h
    exact Continues.refl s
  | some r =>
    rw [hcall] at h
    simp only [bind_eq_ok] at h
    obtain ⟨c, -, s₁, h₁, h⟩ := h
    cases h
    have hsent := ((Continues.refl s).send (.terminate c.cid c.did)).setRing false
    exact (hsent.stopStreams.gstate .callEnd).destroy h₁ ((gstateNewState_current _ _).trans hcall)

lemma refer_continues {url : Option String} {p : Core Config Media × ℤ}
    (h : s.linphoneCoreRefer o url = .ok p) : Continues s p.1 := by
  unfold linphoneCoreRefer at h
  split_ifs at h
  · cases h
    exact Continues.refl s
  · cases h
    exact Continues.refl s
  · simp only [bind_eq_ok] at h
    obtain ⟨r, -, c, -, h⟩ := h
    cases h
    exact (Continues.refl s).clearCall.send _

/-! The handlers of events. -/

lemma takeAnswer_continues {ev : EventId} {sdp : Option Sdp}
    (h : s.takeAnswer layer o ev sdp r = .ok s') : Continues s s' := by
  unfold takeAnswer at h
  rw [bind_eq_ok] at h
  obtain ⟨s₁, h₁, h⟩ := h
  have hinit := modify_continues h₁
  have hconnected : ∀ {s₂ s₃ : Core Config Media}, Continues s s₂ →
      (s₂.gstateNewState .callOutConnected).linphoneConnectIncoming layer o = .ok s₃ →
      Continues s (s₃.send (.ack ev.did)) := by
    intro s₂ s₃ h₂ h₃
    exact ((h₂.gstate .callOutConnected).trans (connectIncoming_continues h₃)).send _
  split_ifs at h
  · simp only [bind_eq_ok] at h
    obtain ⟨s₂, h₂, s₃, h₃, h⟩ := h
    cases h
    exact hconnected (hinit.trans (readAnswer_continues h₂)) h₃
  · rw [bind_eq_ok] at h
    obtain ⟨q, hq, h⟩ := h
    have hanswer := hinit.trans (answerSdp_continues hq)
    split_ifs at h
    · rw [bind_eq_ok] at h
      obtain ⟨s₃, h₃, h⟩ := h
      cases h
      exact hconnected hanswer h₃
    · rw [bind_eq_ok] at h
      obtain ⟨p, hp, h⟩ := h
      cases h
      exact (hanswer.send _).trans (terminateCall_continues hp)

lemma accepted_continues {ev : EventId} {sdp : Option Sdp}
    (h : s.linphoneCallAccepted layer o ev sdp = .ok s') : Continues s s' := by
  unfold linphoneCallAccepted at h
  split at h
  · cases h
    exact Continues.refl s
  · simp only [bind_eq_ok] at h
    obtain ⟨s₁, h₁, c, -, h⟩ := h
    have hproceeding := proceeding_continues h₁
    split_ifs at h
    · cases h
      exact hproceeding
    · rw [bind_eq_ok] at h
      obtain ⟨s₂, h₂, h⟩ := h
      cases h
      exact hproceeding.trans (modify_continues h₂)
    · rw [bind_eq_ok] at h
      obtain ⟨s₂, h₂, h⟩ := h
      exact (hproceeding.trans (modify_continues h₂)).trans (takeAnswer_continues h)

lemma terminated_continues {ev : EventId} (h : s.linphoneCallTerminated layer o ev = .ok s') :
    Continues s s' := by
  unfold linphoneCallTerminated at h
  have hcleared := ((Continues.refl s).setRing false).stopStreams.gstate .callEnd
  cases hcall : s.call with
  | none =>
    rw [hcall] at h
    cases h
    exact hcleared
  | some r =>
    rw [hcall] at h
    simp only [bind_eq_ok] at h
    obtain ⟨c, -, h⟩ := h
    split_ifs at h
    · cases h
      exact Continues.refl s
    · rw [bind_eq_ok] at h
      obtain ⟨s₁, h₁, h⟩ := h
      cases h
      exact (hcleared.destroy h₁ ((gstateNewState_current _ _).trans hcall)).clearCall

lemma failure_continues {ev : EventId} {code : ℤ}
    (h : s.linphoneCallFailure layer o ev code = .ok s') : Continues s s' := by
  unfold linphoneCallFailure at h
  have hcleared := ((Continues.refl s).setRing false).stopStreams
  cases hcall : s.call with
  | none =>
    rw [hcall] at h
    dsimp only at h
    split_ifs at h
    · cases h
      exact Continues.refl s
    · cases h
      exact hcleared
  | some r =>
    rw [hcall] at h
    simp only [bind_eq_ok] at h
    obtain ⟨c, -, h⟩ := h
    split_ifs at h
    · cases h
      exact Continues.refl s
    · cases h
      exact Continues.refl s
    · rw [bind_eq_ok] at h
      obtain ⟨s₁, h₁, h⟩ := h
      cases h
      exact (hcleared.destroy h₁ hcall).gstate .callError |>.clearCall

lemma incNewCall_continues {ev : EventId} {sdp : Option Sdp}
    (h : s.linphoneIncNewCall layer o ev sdp = .ok s') : Continues s s' := by
  unfold linphoneIncNewCall at h
  split_ifs at h
  · cases h
    exact (Continues.refl s).send _
  · cases h
    exact (Continues.refl s).send _
  · simp only [bind_eq_ok] at h
    obtain ⟨q, hq, h⟩ := h
    have hanswer := (newCall_continues s _).trans (answerOffered_continues hq)
    have hrings := hanswer.gstate .callInInvite
    split_ifs at h
    · rw [bind_eq_ok] at h
      obtain ⟨s₁, h₁, h⟩ := h
      cases h
      exact ((hrings.setRing true).trans (modify_continues h₁)).send _
    · rw [bind_eq_ok] at h
      obtain ⟨s₁, h₁, h⟩ := h
      cases h
      exact (hrings.trans (modify_continues h₁)).send _
    · rw [bind_eq_ok] at h
      obtain ⟨s₁, h₁, h⟩ := h
      cases h
      have hcall : q.1.call = some s.callCount := (answerOffered_quiet hq).call
      exact ((hanswer.send _).destroy h₁ hcall).clearCall

lemma reinvite_continues {ev : EventId} {sdp : Option Sdp}
    (h : s.linphoneHandleReinvite layer o ev sdp = .ok s') : Continues s s' := by
  unfold linphoneHandleReinvite at h
  by_cases hsdp : sdp.isNone = true
  · rw [if_pos hsdp] at h
    cases h
    exact (Continues.refl s).send _
  · rw [if_neg hsdp] at h
    simp only [bind_eq_ok] at h
    obtain ⟨r, -, s₁, h₁, p, hp, h⟩ := h
    have hanswer := (modify_continues h₁).trans (getAnswer_continues hp)
    have hstreams := hanswer.stopStreams.initStreams
    split_ifs at h
    · cases h
      exact hstreams.stopStreams
    · exact (hstreams.send _).trans (startMediaStreams_continues h)
    · cases h
      exact hanswer.send _

lemma ack_continues {sdp : Option Sdp} (h : s.linphoneHandleAck layer o sdp = .ok s') :
    Continues s s' := by
  unfold linphoneHandleAck at h
  split_ifs at h
  · cases h
    exact Continues.refl s
  · simp only [bind_eq_ok] at h
    obtain ⟨r, -, s₁, h₁, h⟩ := h
    exact (readAnswer_continues h₁).trans (connectIncoming_continues h)

lemma dropCall_continues (h : s.dropCall layer o = .ok s') : Continues s s' := by
  unfold dropCall at h
  cases hcall : s.call with
  | none =>
    rw [hcall] at h
    cases h
    exact Continues.refl s
  | some r =>
    rw [hcall] at h
    dsimp only at h
    rw [bind_eq_ok] at h
    obtain ⟨s₁, h₁, h⟩ := h
    cases h
    exact ((Continues.refl s).destroy h₁ hcall).clearCall

lemma redirected_continues {code : ℤ} {contact : Option String}
    (h : s.linphoneCallRedirected layer o code contact = .ok s') : Continues s s' := by
  unfold linphoneCallRedirected at h
  split_ifs at h
  · exact dropCall_continues h
  · simp only [bind_eq_ok] at h
    obtain ⟨s₁, h₁, p, hp, h⟩ := h
    cases h
    exact (dropCall_continues h₁).trans (invite_continues hp)
  · cases h
    exact Continues.refl s

lemma ringing_continues {ev : EventId} {sdp : Option Sdp}
    (h : s.linphoneCallRinging layer o ev sdp = .ok s') : Continues s s' := by
  unfold linphoneCallRinging at h
  simp only [bind_eq_ok] at h
  obtain ⟨s₁, h₁, h⟩ := h
  have hproceeding := proceeding_continues h₁
  split at h
  · cases h
    exact hproceeding
  · split_ifs at h
    · cases h
      exact hproceeding
    · exact (hproceeding.setRing true).trans (modify_continues h)
    · exact hproceeding.trans (modify_continues h)
    · split at h
      · simp at h
      · split_ifs at h
        · cases h
          exact hproceeding
        · simp only [bind_eq_ok] at h
          obtain ⟨r', -, s₂, h₂, s₃, h₃, h₄⟩ := h
          have hread := hproceeding.trans (readAnswer_continues h₂)
          have hstate := (hread.gstate .callOutConnected).setRing false
          exact (hstate.trans (startMediaStreams_continues h₃)).trans (modify_continues h₄)

lemma released_continues {cid : ℤ} (h : s.linphoneCallReleased layer o cid = .ok s') :
    Continues s s' := by
  unfold linphoneCallReleased at h
  cases hcall : s.call with
  | none =>
    rw [hcall] at h
    cases h
    exact Continues.refl s
  | some r =>
    rw [hcall] at h
    simp only [bind_eq_ok] at h
    obtain ⟨c, -, h⟩ := h
    split_ifs at h
    · rw [bind_eq_ok] at h
      obtain ⟨s₁, h₁, h⟩ := h
      cases h
      exact ((Continues.refl s).destroy h₁ hcall).clearCall.gstate .callError
    · cases h
      exact Continues.refl s

/-! Runs. -/

/-- Every step keeps the history. -/
theorem step_continues (a : Step Media Sdp) (h : s.step layer a = .ok s') : Continues s s' := by
  cases a with
  | request o call =>
    cases call with
    | invite url =>
      obtain ⟨p, hp, hs'⟩ := bind_eq_ok.mp h
      cases hs'
      exact invite_continues hp
    | acceptCall =>
      obtain ⟨p, hp, hs'⟩ := bind_eq_ok.mp h
      cases hs'
      exact acceptCall_continues hp
    | terminateCall =>
      obtain ⟨p, hp, hs'⟩ := bind_eq_ok.mp h
      cases hs'
      exact terminateCall_continues hp
    | refer url =>
      obtain ⟨p, hp, hs'⟩ := bind_eq_ok.mp h
      cases hs'
      exact refer_continues hp
    | register =>
      cases h
      exact Continues.refl s
  | event o ev =>
    cases ev with
    | invite ev sdp => exact incNewCall_continues h
    | proceeding ev => exact proceeding_continues h
    | ringing ev sdp => exact ringing_continues h
    | answered ev sdp => exact accepted_continues h
    | redirected ev code contact => exact redirected_continues h
    | reinvite ev sdp => exact reinvite_continues h
    | ack ev sdp => exact ack_continues h
    | requestFailure ev code => exact failure_continues h
    | closed ev => exact terminated_continues h
    | released ev => exact released_continues h
    | messageNew ev =>
      cases h
      exact (Continues.refl s).send _
  | registration success =>
    cases h
    exact (Continues.refl s).gstate _

/-- The core after `linphone_core_init`, where `missed_calls` has what was in its memory. -/
def started (conf : Settings) (config : Config) (maxCallLogs : ℕ) (memory : CallRef → Call Media)
    (missed : ℕ) : Core Config Media :=
  { initial conf config maxCallLogs memory with missedCalls := missed }

lemma started_history (conf : Settings) (config : Config) (maxCallLogs : ℕ)
    (memory : CallRef → Call Media) (missed : ℕ) :
    History missed (started conf config maxCallLogs memory missed) where
  current := by simp [started, initial]
  freed_lt := by simp [started, initial]
  logged := by simp [started, initial]
  log := ⟨[], rfl, by simp [started, initial]⟩
  missedCalls := rfl

lemma History.chronicled_iff_missed (h : History missed s) : Chronicled s ↔ missed = 0 := by
  rw [Chronicled, h.missedCalls]
  have hlog := h.log
  simp [hlog]

end MTalk.Phone.Core
