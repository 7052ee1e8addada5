import MTalk.Phone.Lifetime

/-!
# The presence mode

The setter of the presence mode and the handling of INVITEs by that mode. The setter's parameter
has the name of the member, so that it compares the parameter with itself and assigns the parameter
to itself: the member keeps the value of the start. What a caller sets is in force exactly when only
`LINPHONE_STATUS_ONLINE` is ever set.
-/

namespace MTalk.Phone

open GuardedRuns

/-- The core with the members of the presence and what the setter has sent: the modes that all
friends were told and the modes that were published. -/
structure PresenceCore (Config Media : Type) where
  core : Core Config Media
  prevMode : OnlineStatus
  altContact : Option String
  notified : List OnlineStatus
  published : List OnlineStatus

/-- The calls of the setter, with the result of the contact's parser, and the INVITEs. -/
inductive PresenceStep (Media Sdp : Type) where
  | setPresenceInfo (minutesAway : ℤ) (contact : Option String) (contactok : Bool)
      (mode : OnlineStatus)
  | invite (o : Outcome Media) (ev : EventId) (sdp : Option Sdp)

namespace PresenceCore

variable {Config Media Sdp : Type}

/-- The core after `linphone_core_init`. -/
def initial (conf : Settings) (config : Config) (maxCallLogs : ℕ) (memory : CallRef → Call Media) :
    PresenceCore Config Media where
  core := Core.initial { conf with presenceMode := .online, altContact := false } config
    maxCallLogs memory
  prevMode := .online
  altContact := none
  notified := []
  published := []

/-- `alt_contact=ms_strdup(contact)`. -/
def setAltContact (s : PresenceCore Config Media) (contact : String) : PresenceCore Config Media :=
  { s with
    altContact := some contact
    core := { s.core with conf := { s.core.conf with altContact := true } } }

/-- `linphone_core_notify_all_friends`. -/
def notifyAllFriends (s : PresenceCore Config Media) (mode : OnlineStatus) :
    PresenceCore Config Media :=
  { s with notified := s.notified ++ [mode] }

/-- `linphone_core_send_publish`. -/
def sendPublish (s : PresenceCore Config Media) (mode : OnlineStatus) :
    PresenceCore Config Media :=
  { s with published := s.published ++ [mode] }

/-- The contact of the setter, which is kept if its parser accepts it. -/
def keepContact (s : PresenceCore Config Media) (contact : Option String) (contactok : Bool) :
    PresenceCore Config Media :=
  match contact with
  | none => s
  | some c => if contactok then s.setAltContact c else s

/-- `linphone_core_set_presence_info`. Every `presence_mode` in it is the parameter, also in the
last assignment. -/
def linphoneCoreSetPresenceInfo (s : PresenceCore Config Media) (_minutesAway : ℤ)
    (contact : Option String) (contactok : Bool) (presenceMode : OnlineStatus) :
    PresenceCore Config Media :=
  let s := s.keepContact contact contactok
  let s :=
    if presenceMode ≠ presenceMode then (s.notifyAllFriends presenceMode).sendPublish presenceMode
    else s
  { s with prevMode := presenceMode }

/-- `linphone_core_get_presence_info`. -/
def linphoneCoreGetPresenceInfo (s : PresenceCore Config Media) : OnlineStatus :=
  s.core.conf.presenceMode

/-- `linphone_inc_new_call` on the members of the core. -/
def incNewCall (layer : MediaLayer Config Media Sdp) (s : PresenceCore Config Media)
    (o : Outcome Media) (ev : EventId) (sdp : Option Sdp) :
    Except Fault (PresenceCore Config Media) := do
  let core ← s.core.linphoneIncNewCall layer o ev sdp
  return { s with core := core }

/-- The same core with another mode. -/
def withMode (s : PresenceCore Config Media) (mode : OnlineStatus) : PresenceCore Config Media :=
  { s with core := { s.core with conf := { s.core.conf with presenceMode := mode } } }

/-- In every step of the calls, the mode that was set last, `last`, is in force: the getter returns
it, `prev_mode` is the mode that was set before, the friends are told about a change and only then,
and an INVITE is handled as in a core with that mode. -/
def Follows (layer : MediaLayer Config Media Sdp) :
    PresenceCore Config Media → OnlineStatus → List (PresenceStep Media Sdp) → Prop
  | _, _, [] => True
  | s, last, .setPresenceInfo minutes contact contactok mode :: steps =>
    let s' := s.linphoneCoreSetPresenceInfo minutes contact contactok mode
    s'.linphoneCoreGetPresenceInfo = mode ∧ s'.prevMode = last
      ∧ s'.notified = (if mode ≠ last then s.notified ++ [mode] else s.notified)
      ∧ Follows layer s' mode steps
  | s, last, .invite o ev sdp :: steps =>
    ∃ s', s.incNewCall layer o ev sdp = .ok s'
      ∧ (s.withMode last).incNewCall layer o ev sdp = .ok (s'.withMode last)
      ∧ Follows layer s' last steps

/-! What the steps leave as it is. -/

section Steps

variable {layer : MediaLayer Config Media Sdp} {s s' : PresenceCore Config Media}

/-- The setter only moves `prev_mode` and keeps the contact. -/
lemma setPresenceInfo_eq (s : PresenceCore Config Media) (minutes : ℤ) (contact : Option String)
    (contactok : Bool) (mode : OnlineStatus) :
    s.linphoneCoreSetPresenceInfo minutes contact contactok mode
      = { s.keepContact contact contactok with prevMode := mode } := by
  simp [linphoneCoreSetPresenceInfo]

lemma keepContact_frame (s : PresenceCore Config Media) (contact : Option String)
    (contactok : Bool) :
    (s.keepContact contact contactok).core.conf.presenceMode = s.core.conf.presenceMode
      ∧ (s.keepContact contact contactok).prevMode = s.prevMode
      ∧ (s.keepContact contact contactok).notified = s.notified := by
  cases contact with
  | none => exact ⟨rfl, rfl, rfl⟩
  | some c =>
    cases contactok
    · exact ⟨rfl, rfl, rfl⟩
    · exact ⟨rfl, rfl, rfl⟩

lemma keepContact_sound (hs : s.core.Sound) (contact : Option String) (contactok : Bool) :
    (s.keepContact contact contactok).core.Sound := by
  cases contact with
  | none => exact hs
  | some c =>
    cases contactok
    · exact hs
    · exact ⟨hs.current, hs.freed_lt, hs.freed_nodup, hs.logged, hs.kept, hs.paired⟩

end Steps

end PresenceCore

namespace Core

variable {Config Media Sdp : Type} {layer : MediaLayer Config Media Sdp}
  {s s' : Core Config Media} {o : Outcome Media}

/-! The settings during an INVITE. -/

lemma answerSdp_conf {sdp : Option Sdp} {p : Core Config Media × ℤ}
    (h : s.linphoneAnswerSdp layer sdp = .ok p) : p.1.conf = s.conf := by
  unfold linphoneAnswerSdp sdpContextGetAnswer at h
  simp only [bind_eq_ok] at h
  obtain ⟨r, -, answered, ⟨c, -, s₁, hmodify, hanswered⟩, h⟩ := h
  cases hanswered
  have hconf : s₁.conf = s.conf := (modify_still hmodify).conf
  dsimp only at h
  split_ifs at h
  · cases h
    exact hconf
  · cases h
    exact hconf

lemma answerOffered_conf {sdp : Option Sdp} {p : Core Config Media × ℤ}
    (h : s.answerOffered layer sdp = .ok p) : p.1.conf = s.conf := by
  unfold answerOffered at h
  split_ifs at h
  · cases h
    rfl
  · exact answerSdp_conf h

lemma incNewCall_conf {ev : EventId} {sdp : Option Sdp}
    (h : s.linphoneIncNewCall layer o ev sdp = .ok s') : s'.conf = s.conf := by
  unfold linphoneIncNewCall at h
  split_ifs at h
  · cases h
    rfl
  · cases h
    rfl
  · simp only [bind_eq_ok] at h
    obtain ⟨answered, hanswered, h⟩ := h
    have hconf := answerOffered_conf hanswered
    have hstart : (s.newCall (linphoneCallNewIncoming o ev)).conf = s.conf := rfl
    rw [hstart] at hconf
    have hg : 20 ≤ GState.callInInvite.value := by decide
    split_ifs at h
    · obtain ⟨s₁, hmodify, h⟩ := bind_eq_ok.mp h
      cases h
      have hkept := (modify_still hmodify).conf
      rw [gstateNewState_call _ hg] at hkept
      exact hkept.trans hconf
    · obtain ⟨s₁, hmodify, h⟩ := bind_eq_ok.mp h
      cases h
      have hkept := (modify_still hmodify).conf
      rw [gstateNewState_call _ hg] at hkept
      exact hkept.trans hconf
    · obtain ⟨s₁, hdestroy, h⟩ := bind_eq_ok.mp h
      cases h
      unfold linphoneCallDestroy at hdestroy
      obtain ⟨c, -, hdestroy⟩ := bind_eq_ok.mp hdestroy
      cases hdestroy
      exact hconf

end Core

namespace PresenceCore

variable {Config Media Sdp : Type} {layer : MediaLayer Config Media Sdp}
  {s s' : PresenceCore Config Media}

lemma incNewCall_returns (hs : s.core.Sound) (o : Outcome Media) (ev : EventId)
    (sdp : Option Sdp) :
    ∃ s', s.incNewCall layer o ev sdp = .ok s' ∧ s'.core.Sound
      ∧ s'.core.conf = s.core.conf ∧ s'.prevMode = s.prevMode := by
  obtain ⟨core, hcore, hsound⟩ := Core.incNewCall_sound hs ev sdp
  refine ⟨{ s with core := core }, ?_, hsound, Core.incNewCall_conf hcore, rfl⟩
  rw [incNewCall, hcore]
  rfl

lemma withMode_self {mode : OnlineStatus} (h : s.core.conf.presenceMode = mode) :
    s.withMode mode = s := by
  subst h
  rfl

/-- From a state of the start, in which the mode is `LINPHONE_STATUS_ONLINE` and was never another
one. -/
lemma follows_iff (hs : s.core.Sound) (hmode : s.core.conf.presenceMode = .online)
    (steps : List (PresenceStep Media Sdp)) :
    Follows layer s .online steps ↔ ∀ minutes contact contactok mode,
      .setPresenceInfo minutes contact contactok mode ∈ steps → mode = .online := by
  induction steps generalizing s with
  | nil => simp [Follows]
  | cons step steps ih =>
    cases step with
    | setPresenceInfo minutes contact contactok mode =>
      obtain ⟨hkeep, -, hnotified⟩ := keepContact_frame s contact contactok
      have hset := setPresenceInfo_eq s minutes contact contactok mode
      have hget : (s.linphoneCoreSetPresenceInfo minutes contact contactok
          mode).linphoneCoreGetPresenceInfo = .online := by
        rw [hset]
        exact hkeep.trans hmode
      have hrest := ih (s := s.linphoneCoreSetPresenceInfo minutes contact contactok mode)
        (by rw [hset]; exact keepContact_sound hs contact contactok) hget
      constructor
      · rintro ⟨hreturned, -, -, hfollows⟩ minutes' contact' contactok' mode' hmem
        have hmode' : mode = .online := hreturned.symm.trans hget
        rw [hmode'] at hfollows hmem hrest
        rcases List.mem_cons.mp hmem with heq | hlater
        · cases heq
          rfl
        · exact hrest.mp hfollows minutes' contact' contactok' mode' hlater
      · intro h
        obtain rfl := h minutes contact contactok mode List.mem_cons_self
        refine ⟨hget, ?_, ?_, hrest.mpr ?_⟩
        · rw [hset]
        · rw [hset, if_neg (not_not.mpr rfl)]
          exact hnotified
        · intro minutes' contact' contactok' mode' hmem
          exact h minutes' contact' contactok' mode' (List.mem_cons_of_mem _ hmem)
    | invite o ev sdp =>
      obtain ⟨s₁, hstep, hsound, hconf, -⟩ := incNewCall_returns hs o ev sdp
      have hmode₁ : s₁.core.conf.presenceMode = .online := by rw [hconf, hmode]
      have hrest := ih hsound hmode₁
      constructor
      · rintro ⟨s₂, h₂, -, hfollows⟩ minutes contact contactok mode hmem
        rw [hstep] at h₂
        cases h₂
        refine hrest.mp hfollows minutes contact contactok mode ?_
        simpa using hmem
      · intro h
        refine ⟨s₁, hstep, ?_, hrest.mpr ?_⟩
        · rw [withMode_self hmode, withMode_self hmode₁]
          exact hstep
        · intro minutes contact contactok mode hmem
          exact h minutes contact contactok mode (List.mem_cons_of_mem _ hmem)

lemma initial_sound (conf : Settings) (config : Config) (maxCallLogs : ℕ)
    (memory : CallRef → Call Media) :
    (initial conf config maxCallLogs memory).core.Sound :=
  Core.initial_sound _ _ _ _

/-- From the start of the core, the mode that was set last is in force in every step exactly when
no other mode than `LINPHONE_STATUS_ONLINE` is set. -/
theorem presence_follows_iff (layer : MediaLayer Config Media Sdp) (conf : Settings)
    (config : Config) (maxCallLogs : ℕ) (memory : CallRef → Call Media)
    (steps : List (PresenceStep Media Sdp)) :
    Follows layer (initial conf config maxCallLogs memory) .online steps ↔
      ∀ minutes contact contactok mode,
        .setPresenceInfo minutes contact contactok mode ∈ steps → mode = .online :=
  follows_iff (initial_sound conf config maxCallLogs memory) rfl steps

/-- The mode "busy" is not taken over. -/
theorem busy_is_ignored : ¬ Follows (phoneLayer plainOsip)
    (initial Core.plainSettings plainConfig 10
      fun _ => Core.linphoneCallNewOutgoing Core.plainOutcome)
    .online [.setPresenceInfo 0 none false .busy] := by
  rintro ⟨hget, -⟩
  cases hget

end PresenceCore

end MTalk.Phone
