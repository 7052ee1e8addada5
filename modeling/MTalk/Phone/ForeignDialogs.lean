import MTalk.Phone.Lifetime

/-!
# Events of other dialogs

Handling an event whose call id is not that of the current call should leave the current call, the
media streams and the general call state as they are. `Harmless` is the exact condition under
which it does.
-/

namespace MTalk.Phone.Core

open GuardedRuns

variable {Config Media Sdp : Type} {layer : MediaLayer Config Media Sdp}
  {s s' s₁ : Core Config Media} {o : Outcome Media} {r : CallRef}

/-- The current call is still there with the same record, and no stream was started, stopped or
created. -/
structure Untouched (r : CallRef) (s s' : Core Config Media) : Prop where
  call : s'.call = some r
  live : r ∉ s'.freed
  record : s'.calls r = s.calls r
  audiostream : s'.audiostream = s.audiostream
  videostream : s'.videostream = s.videostream
  streamCount : s'.streamCount = s.streamCount
  ringstream : s'.ringstream = s.ringstream
  gstateCall : s'.gstateCall = s.gstateCall

/-! Starting streams. -/

/-- Starting the streams changes none of them. -/
def StartsNothing (layer : MediaLayer Config Media Sdp) (s : Core Config Media) (o : Outcome Media)
    (media : Media) : Prop :=
  s.conf.playable = true → ∃ a, s.audiostream = some a ∧ (o.audioStarts = true → a.running = true) ∧
    ((s.conf.video && layer.videoRemote media) = true →
      ∃ v, s.videostream = some v ∧ (o.videoStarts = true → v.running = true))

lemma startStream_same {stream : Option Stream} {starts : Bool} :
    startStream stream starts = .ok stream ↔
      ∃ a, stream = some a ∧ (starts = true → a.running = true) := by
  rw [startStream_eq_ok]
  constructor
  · rintro ⟨a, ha, he⟩
    refine ⟨a, ha, fun hstarts => ?_⟩
    rw [ha, Option.some.injEq] at he
    rw [he, hstarts]
    simp
  · rintro ⟨a, ha, hrun⟩
    refine ⟨a, ha, ?_⟩
    rw [ha, Option.some.injEq]
    cases hb : starts with
    | false => simp
    | true => simp [← hrun hb]

lemma startStreams_frame {c : Call Media} (h : s.startStreams layer o c = .ok s') :
    s'.calls = s.calls ∧ s'.streamCount = s.streamCount ∧ s'.ringstream = s.ringstream := by
  unfold startStreams at h
  rw [bind_eq_ok] at h
  obtain ⟨audio, -, h⟩ := h
  dsimp only at h
  split_ifs at h
  · rw [bind_eq_ok] at h
    obtain ⟨video, -, h⟩ := h
    cases h
    exact ⟨rfl, rfl, rfl⟩
  · cases h
    exact ⟨rfl, rfl, rfl⟩

lemma startStreams_same_iff {c : Call Media} :
    Returns (s.startStreams layer o c) (fun s' =>
      s'.audiostream = s.audiostream ∧ s'.videostream = s.videostream) ↔
    ∃ a, s.audiostream = some a ∧ (o.audioStarts = true → a.running = true) ∧
      ((s.conf.video && layer.videoRemote c.media) = true →
        ∃ v, s.videostream = some v ∧ (o.videoStarts = true → v.running = true)) := by
  unfold startStreams
  rw [returns_bind]
  by_cases hvideo : (s.conf.video && layer.videoRemote c.media) = true
  · simp only [hvideo, if_true, true_imp_iff, ← startStream_same]
    constructor
    · rintro ⟨audio, haudio, hrest⟩
      rw [returns_bind] at hrest
      obtain ⟨video, hvideo', hsame⟩ := hrest
      rw [returns_pure] at hsame
      obtain ⟨ha, hv⟩ := hsame
      have ha' : audio = s.audiostream := ha
      have hv' : video = s.videostream := hv
      subst ha' hv'
      obtain ⟨a, hsome, hrun⟩ := startStream_same.mp haudio
      exact ⟨a, hsome, hrun, hvideo'⟩
    · rintro ⟨a, hsome, hrun, hv⟩
      refine ⟨s.audiostream, startStream_same.mpr ⟨a, hsome, hrun⟩, ?_⟩
      exact returns_bind.mpr ⟨s.videostream, hv, returns_pure.mpr ⟨rfl, rfl⟩⟩
  · simp only [hvideo, if_false, false_imp_iff, and_true, Bool.false_eq_true]
    constructor
    · rintro ⟨audio, haudio, hsame⟩
      rw [returns_pure] at hsame
      have ha' : audio = s.audiostream := hsame.1
      subst ha'
      exact startStream_same.mp haudio
    · intro h
      exact ⟨s.audiostream, startStream_same.mpr h, returns_pure.mpr ⟨rfl, rfl⟩⟩

lemma startIfPlayable_frame {c : Call Media} (h : s.startIfPlayable layer o c = .ok s') :
    s'.calls = s.calls ∧ s'.streamCount = s.streamCount ∧ s'.ringstream = s.ringstream := by
  unfold startIfPlayable at h
  split_ifs at h
  · exact startStreams_frame h
  · cases h
    exact ⟨rfl, rfl, rfl⟩

lemma startIfPlayable_same_iff {c : Call Media} :
    Returns (s.startIfPlayable layer o c) (fun s' =>
      s'.audiostream = s.audiostream ∧ s'.videostream = s.videostream) ↔
    StartsNothing layer s o c.media := by
  unfold startIfPlayable StartsNothing
  split_ifs with hplay
  · simp only [hplay, true_imp_iff]
    exact startStreams_same_iff
  · simp [hplay]

/-- The call's record and the streams after `linphone_core_start_media_streams`. -/
lemma startMediaStreams_result (hcall : s.call = some r) (hr : r ∉ s.freed)
    (h : s.linphoneCoreStartMediaStreams layer o r = .ok s') :
    s'.calls r = { stampMediaStart o (s.calls r) with state := .avRunning } ∧
      s'.streamCount = s.streamCount ∧ s'.ringstream = s.ringstream ∧
      (s'.audiostream = s.audiostream ∧ s'.videostream = s.videostream →
        StartsNothing layer s o (s.calls r).media) := by
  unfold linphoneCoreStartMediaStreams at h
  rw [load_ok hr, ok_bind, modify_ok hr, ok_bind, bind_eq_ok] at h
  obtain ⟨s₂, h₂, h₃⟩ := h
  obtain ⟨hq, -⟩ := startIfPlayable_quiet h₂
  obtain ⟨hcalls, hcount, hring⟩ := startIfPlayable_frame h₂
  have hstill := setAvRunning_still h₃
  rw [setAvRunning_ok (hq.call.trans hcall) (by rw [hq.freed]; exact hr), Except.ok.injEq] at h₃
  refine ⟨?_, hstill.streamCount.trans hcount, ?_, fun hsame => ?_⟩
  · subst h₃
    simp [store, hcalls]
  · subst h₃
    exact hring
  · rw [hstill.audiostream, hstill.videostream] at hsame
    have hnothing := startIfPlayable_same_iff.mp ⟨s₂, h₂, hsame⟩
    exact hnothing

lemma startMediaStreams_returns (hcall : s.call = some r) (hr : r ∉ s.freed)
    (hnothing : StartsNothing layer s o (s.calls r).media) :
    Returns (s.linphoneCoreStartMediaStreams layer o r) fun s' =>
      s'.audiostream = s.audiostream ∧ s'.videostream = s.videostream := by
  unfold linphoneCoreStartMediaStreams
  rw [load_ok hr, ok_bind, modify_ok hr, ok_bind]
  obtain ⟨s₂, h₂, hsame⟩ := (startIfPlayable_same_iff (s := s.store r
    (stampMediaStart o (s.calls r))) (o := o) (c := s.calls r)).mpr hnothing
  obtain ⟨hq, -⟩ := startIfPlayable_quiet h₂
  rw [h₂, ok_bind, setAvRunning_ok (hq.call.trans hcall) (by rw [hq.freed]; exact hr), returns_ok]
  exact hsame

/-! The fields of a call that taking an answer and connecting the streams do not write. -/

section Steady

variable {γ : Type} {p : Call Media → γ}

structure Steady (p : Call Media → γ) : Prop where
  media : ∀ c m, p { c with media := m } = p c
  state : ∀ c st, p { c with state := st } = p c
  mediaStartTime : ∀ c t, p { c with mediaStartTime := t } = p c

lemma steady_cid : Steady fun c : Call Media => c.cid :=
  ⟨fun _ _ => rfl, fun _ _ => rfl, fun _ _ => rfl⟩

lemma steady_answer : Steady fun c : Call Media => c.answer :=
  ⟨fun _ _ => rfl, fun _ _ => rfl, fun _ _ => rfl⟩

lemma store_keeps {c : Call Media} (hc : p c = p (s.calls r)) (q : CallRef) :
    p ((s.store r c).calls q) = p (s.calls q) := by
  unfold store
  by_cases hq : q = r
  · subst hq
    simpa using hc
  · simp [hq]

lemma modify_keeps {f : Call Media → Call Media} (hf : ∀ c, p (f c) = p c)
    (h : s.modify r f = .ok s') (q : CallRef) : p (s'.calls q) = p (s.calls q) := by
  rw [modify_ok (modify_freed h), Except.ok.injEq] at h
  subst h
  exact store_keeps (hf _) q

lemma setAvRunning_keeps (hp : Steady p) (h : s.setAvRunning = .ok s') (q : CallRef) :
    p (s'.calls q) = p (s.calls q) := by
  unfold setAvRunning at h
  rw [bind_eq_ok] at h
  obtain ⟨r, -, h⟩ := h
  exact modify_keeps (fun c => hp.state c _) h q

lemma startMediaStreams_keeps (hp : Steady p)
    (h : s.linphoneCoreStartMediaStreams layer o r = .ok s') (q : CallRef) :
    p (s'.calls q) = p (s.calls q) := by
  unfold linphoneCoreStartMediaStreams at h
  simp only [bind_eq_ok] at h
  obtain ⟨c, -, s₁, h₁, s₂, h₂, h₃⟩ := h
  rw [setAvRunning_keeps hp h₃, (startIfPlayable_frame h₂).1]
  exact modify_keeps (fun c => hp.mediaStartTime c _) h₁ q

lemma connectIncoming_keeps (hp : Steady p) (h : s.linphoneConnectIncoming layer o = .ok s')
    (q : CallRef) : p (s'.calls q) = p (s.calls q) := by
  unfold linphoneConnectIncoming at h
  simp only [bind_eq_ok] at h
  obtain ⟨r, -, s₁, h₁, h⟩ := h
  have hrun : p ((s₁.setRing false).calls q) = p (s.calls q) := setAvRunning_keeps hp h₁ q
  split at h
  · simp at h
  · have hstart := startMediaStreams_keeps hp h q
    split_ifs at hstart
    · exact hstart.trans hrun
    · exact hstart.trans hrun

lemma readAnswer_keeps (hp : Steady p) {sdp : Option Sdp}
    (h : s.sdpContextReadAnswer layer r sdp = .ok s') (q : CallRef) :
    p (s'.calls q) = p (s.calls q) := by
  unfold sdpContextReadAnswer at h
  simp only [bind_eq_ok] at h
  obtain ⟨c, -, s₁, h₁, h⟩ := h
  cases h
  exact modify_keeps (fun c => hp.media c _) h₁ q

end Steady

lemma terminateCall_calls {p : Core Config Media × ℤ}
    (h : s.linphoneCoreTerminateCall layer o = .ok p) : p.1.calls = s.calls := by
  unfold linphoneCoreTerminateCall at h
  cases hcall : s.call with
  | none =>
    rw [hcall] at h
    cases h
    rfl
  | some r =>
    rw [hcall] at h
    simp only [bind_eq_ok] at h
    obtain ⟨c, hc, s₁, h₁, h⟩ := h
    cases h
    rw [(linphoneCallDestroy_frame h₁).2.2, (gstateNewState_frame (by decide)).2.1]
    rfl

/-- Taking an answer leaves the call its id. -/
lemma takeAnswer_cid {ev : EventId} {sdp : Option Sdp} (hcall : s.call = some r)
    (hr : r ∉ s.freed) (h : s.takeAnswer layer o ev sdp r = .ok s') :
    (s'.calls r).cid = (s.calls r).cid := by
  have hconnect : ∀ {s₁ s₂ : Core Config Media}, (s₁.calls r).cid = (s.calls r).cid →
      (do
        let s ← (s₁.gstateNewState .callOutConnected).linphoneConnectIncoming layer o
        return s.send (.ack ev.did)) = Except.ok s₂ → (s₂.calls r).cid = (s.calls r).cid := by
    intro s₁ s₂ h₁ h₂
    rw [bind_eq_ok] at h₂
    obtain ⟨s₃, h₃, h₂⟩ := h₂
    cases h₂
    refine (connectIncoming_keeps steady_cid h₃ r).trans ?_
    rw [(gstateNewState_frame (by decide)).2.1]
    exact h₁
  unfold takeAnswer at h
  rw [modify_ok hr, ok_bind] at h
  have hstore : ((s.store r { s.calls r with
      media := layer.initMediaParams (s.calls r).media }).calls r).cid = (s.calls r).cid := by
    simp [store]
  split_ifs at h with hack
  · rw [bind_eq_ok] at h
    obtain ⟨s₁, h₁, h⟩ := h
    exact hconnect ((readAnswer_keeps steady_cid h₁ r).trans hstore) h
  · rw [linphoneAnswerSdp_ok (s := s.store r _) hcall hr] at h
    have hanswered : (((s.store r { s.calls r with
        media := layer.initMediaParams (s.calls r).media }).answeredWith layer r sdp).calls r).cid =
        (s.calls r).cid := by
      simp [store, answeredWith, negotiated, withConfig]
    split_ifs at h with hok
    · rw [ok_bind, if_pos rfl] at h
      refine hconnect ?_ h
      exact hanswered
    · rw [ok_bind, if_neg (by simp), bind_eq_ok] at h
      obtain ⟨p, hp, h⟩ := h
      cases h
      rw [terminateCall_calls hp]
      exact hanswered

/-! The events one by one. -/

lemma Untouched.refl (hcall : s.call = some r) (hr : r ∉ s.freed) : Untouched r s s :=
  ⟨hcall, hr, rfl, rfl, rfl, rfl, rfl, rfl⟩

variable {ev : EventId}

lemma send_untouched (hcall : s.call = some r) (hr : r ∉ s.freed) (m : Sip) :
    Untouched r s (s.send m) :=
  ⟨hcall, hr, rfl, rfl, rfl, rfl, rfl, rfl⟩

lemma proceeding_untouched_iff (hcall : s.call = some r) (hr : r ∉ s.freed)
    (hforeign : ev.cid ≠ (s.calls r).cid) :
    Returns (s.linphoneCallProceeding ev) (Untouched r s) ↔ (s.calls r).cid ≠ -1 := by
  rw [proceeding_ok hcall hr]
  by_cases hnew : (s.calls r).cid = -1
  · rw [if_neg (by simp [hnew]), returns_ok]
    refine iff_of_false (fun h => ?_) (by simp [hnew])
    have hrecord := congrArg Call.cid h.record
    simp [store] at hrecord
    exact hforeign hrecord
  · rw [if_pos ⟨hnew, hforeign.symm⟩, returns_ok]
    exact iff_of_true (send_untouched hcall hr _) hnew

lemma accepted_untouched_iff (hcall : s.call = some r) (hr : r ∉ s.freed)
    (hforeign : ev.cid ≠ (s.calls r).cid) (sdp : Option Sdp) :
    Returns (s.linphoneCallAccepted layer o ev sdp) (Untouched r s) ↔ (s.calls r).cid ≠ -1 := by
  rw [accepted_ok hcall hr]
  by_cases hnew : (s.calls r).cid = -1
  · rw [if_neg (by simp [hnew])]
    refine iff_of_false ?_ (by simp [hnew])
    rintro ⟨s', h, hs'⟩
    have hcid : (s'.calls r).cid = ev.cid := by
      have hadopted : ((s.adopted r ev).calls r).cid = ev.cid := by
        simp [adopted, store]
      split_ifs at h
      · cases h
        exact hadopted
      · exact (takeAnswer_cid (s := s.adopted r ev) hcall hr h).trans hadopted
    rw [hs'.record] at hcid
    exact hforeign hcid.symm
  · rw [if_pos ⟨hnew, hforeign.symm⟩, returns_ok]
    exact iff_of_true (send_untouched hcall hr _) hnew

lemma incNewCall_untouched (hcall : s.call = some r) (hr : r ∉ s.freed) (sdp : Option Sdp) :
    Returns (s.linphoneIncNewCall layer o ev sdp) (Untouched r s) := by
  unfold linphoneIncNewCall
  split_ifs with hpresence hbusy
  · exact returns_ok.mpr (send_untouched hcall hr _)
  · exact returns_ok.mpr (send_untouched hcall hr _)
  · simp [hcall] at hbusy

lemma terminated_foreign (hcall : s.call = some r) (hr : r ∉ s.freed)
    (hforeign : ev.cid ≠ (s.calls r).cid) :
    s.linphoneCallTerminated layer o ev = .ok s := by
  unfold linphoneCallTerminated
  rw [hcall]
  dsimp only
  rw [load_ok hr, ok_bind, if_pos hforeign.symm]
  rfl

lemma failure_foreign (hcall : s.call = some r) (hr : r ∉ s.freed)
    (hforeign : ev.cid ≠ (s.calls r).cid) (code : ℤ) :
    s.linphoneCallFailure layer o ev code = .ok s := by
  unfold linphoneCallFailure
  rw [hcall]
  dsimp only
  rw [load_ok hr, ok_bind, if_pos hforeign.symm]
  rfl

lemma released_foreign (hcall : s.call = some r) (hr : r ∉ s.freed)
    (hforeign : ev.cid ≠ (s.calls r).cid) :
    s.linphoneCallReleased layer o ev.cid = .ok s := by
  unfold linphoneCallReleased
  rw [hcall]
  dsimp only
  rw [load_ok hr, ok_bind, if_neg hforeign.symm]
  rfl

/-! The handlers without a test of the call id. -/

lemma reinvite_untouched_iff (hcall : s.call = some r) (hr : r ∉ s.freed) (sdp : Option Sdp) :
    Returns (s.linphoneHandleReinvite layer o ev sdp) (Untouched r s) ↔ sdp = none := by
  unfold linphoneHandleReinvite
  cases sdp with
  | none => exact iff_of_true (returns_ok.mpr (send_untouched hcall hr _)) rfl
  | some sdp =>
    refine iff_of_false ?_ (by simp)
    rintro ⟨s', h, hs'⟩
    rw [if_neg (by simp), current_eq_ok.mpr hcall, ok_bind, modify_ok hr, ok_bind,
      sdpContextGetAnswer_ok (s := s.store r _) hr, ok_bind] at h
    -- the new answer of the context shows in every exit
    have hcount : (((s.store r { s.calls r with
        media := layer.initMediaParams (s.calls r).media }).answeredWith layer r (some sdp)).calls
        r).answer = (s.calls r).answer + 1 := by
      simp [store, answeredWith, negotiated, withConfig]
    have hkept : (s'.calls r).answer = (s.calls r).answer + 1 := by
      dsimp only at h
      split_ifs at h
      · cases h
        exact hcount
      · exact (startMediaStreams_keeps steady_answer h r).trans hcount
      · cases h
        exact hcount
    rw [hs'.record] at hkept
    omega

/-- Reading the answer of a message and starting the streams changes nothing. -/
structure Idle (layer : MediaLayer Config Media Sdp) (s : Core Config Media) (o : Outcome Media)
    (r : CallRef) (state : LCState) (sdp : Option Sdp) : Prop where
  silent : s.ringstream = false
  state : (s.calls r).state = state
  media : (layer.readAnswer s.config (s.calls r).media sdp).2 = (s.calls r).media
  stamped : (s.calls r).mediaStartTime ≠ 0 ∨ o.now = 0
  streams : StartsNothing layer s o (s.calls r).media

lemma record_same_iff (c : Call Media) (m : Media) (st st' : LCState) :
    { stampMediaStart o { c with media := m, state := st } with state := st' } = c ↔
      c.state = st' ∧ m = c.media ∧ (c.mediaStartTime ≠ 0 ∨ o.now = 0) := by
  constructor
  · intro h
    refine ⟨(congrArg Call.state h).symm, congrArg Call.media h, ?_⟩
    have htime : (if c.mediaStartTime = 0 then o.now else c.mediaStartTime) = c.mediaStartTime :=
      congrArg Call.mediaStartTime h
    by_cases hzero : c.mediaStartTime = 0
    · rw [if_pos hzero, hzero] at htime
      exact Or.inr htime
    · exact Or.inl hzero
  · rintro ⟨rfl, rfl, htime⟩
    have hstamp :
        (if c.mediaStartTime = 0 then o.now else c.mediaStartTime) = c.mediaStartTime := by
      split_ifs with hzero
      · rcases htime with htime | htime
        · exact absurd hzero htime
        · rw [htime, hzero]
      · rfl
    simp only [stampMediaStart, hstamp]

/-- Starting the streams of a core that has those of `s`, with a last write to the record. -/
lemma start_untouched_iff (layer : MediaLayer Config Media Sdp) (o : Outcome Media)
    {s₂ : Core Config Media} (hcall : s₂.call = some r) (hr : r ∉ s₂.freed)
    (hconf : s₂.conf = s.conf) (haudio : s₂.audiostream = s.audiostream)
    (hvideo : s₂.videostream = s.videostream) (hcount : s₂.streamCount = s.streamCount)
    (f : Call Media → Call Media) :
    Returns (s₂.linphoneCoreStartMediaStreams layer o r)
      (fun s' => Untouched r s (s'.store r (f (s'.calls r)))) ↔
    s₂.ringstream = s.ringstream ∧ s₂.gstateCall = s.gstateCall ∧
      f { stampMediaStart o (s₂.calls r) with state := .avRunning } = s.calls r ∧
      StartsNothing layer s o (s₂.calls r).media := by
  have hnothing : StartsNothing layer s₂ o (s₂.calls r).media ↔
      StartsNothing layer s o (s₂.calls r).media := by
    unfold StartsNothing
    rw [hconf, haudio, hvideo]
  constructor
  · rintro ⟨s', h, hs'⟩
    obtain ⟨hrecord, -, hring, hstreams⟩ := startMediaStreams_result hcall hr h
    have hquiet := (startMediaStreams_quiet h).1
    refine ⟨hring.symm.trans hs'.ringstream, hquiet.gstateCall.symm.trans hs'.gstateCall, ?_, ?_⟩
    · rw [← hrecord, ← hs'.record]
      simp [store]
    · apply hnothing.mp
      apply hstreams
      exact ⟨hs'.audiostream.trans haudio.symm, hs'.videostream.trans hvideo.symm⟩
  · rintro ⟨hring, hstate, hrecord, hstreams⟩
    obtain ⟨s', h, haudio', hvideo'⟩ := startMediaStreams_returns hcall hr (hnothing.mpr hstreams)
    obtain ⟨hrecord', hcount', hring', -⟩ := startMediaStreams_result hcall hr h
    have hquiet := (startMediaStreams_quiet h).1
    refine ⟨s', h, hquiet.call.trans hcall, ?_, ?_, haudio'.trans haudio, hvideo'.trans hvideo,
      hcount'.trans hcount, hring'.trans hring, hquiet.gstateCall.trans hstate⟩
    · exact hquiet.freed ▸ hr
    · rw [hrecord', hrecord]
      simp [store]

lemma store_self (s : Core Config Media) (r : CallRef) : s.store r (s.calls r) = s := by
  simp [store]

/-- The core that the streams of an incoming connection are started in. -/
def connecting (s : Core Config Media) (r : CallRef) : Core Config Media :=
  (s.store r { s.calls r with state := .avRunning }).setRing false

lemma connecting_still (s : Core Config Media) (r : CallRef) : Still s (s.connecting r) :=
  (store_still s r _).trans (setRing_still _ false)

lemma connectIncoming_ok (hcall : s.call = some r) (hr : r ∉ s.freed) {a : Stream}
    (ha : s.audiostream = some a) : s.linphoneConnectIncoming layer o =
      if a.running = true then
        (s.connecting r).linphoneCoreStopMediaStreams.linphoneCoreInitMediaStreams
          |>.linphoneCoreStartMediaStreams layer o r
      else (s.connecting r).linphoneCoreStartMediaStreams layer o r := by
  unfold linphoneConnectIncoming
  rw [current_eq_ok.mpr hcall, ok_bind, setAvRunning_ok hcall hr, ok_bind]
  have hstream : ((s.store r { s.calls r with state := .avRunning }).setRing false).audiostream =
      some a := ha
  simp only [hstream]
  split_ifs
  · rfl
  · rfl

lemma ack_untouched_iff (hcall : s.call = some r) (hr : r ∉ s.freed) (sdp : Option Sdp) :
    Returns (s.linphoneHandleAck layer o sdp) (Untouched r s) ↔
      sdp = none ∨ (∃ a, s.audiostream = some a ∧ a.running = false) ∧
        Idle layer s o r .avRunning sdp := by
  unfold linphoneHandleAck
  cases sdp with
  | none => exact iff_of_true (returns_ok.mpr (.refl hcall hr)) (Or.inl rfl)
  | some sdp =>
    rw [if_neg (by simp), current_eq_ok.mpr hcall, ok_bind, sdpContextReadAnswer_ok hr, ok_bind]
    generalize hs₁ : s.negotiated r _ _ = s₁
    have hstill : Still s s₁ := hs₁ ▸ negotiated_still s r _ _
    have hcall₁ := hstill.call.trans hcall
    have hr₁ : r ∉ s₁.freed := hstill.freed ▸ hr
    cases ha : s.audiostream with
    | none =>
      have hnull : s₁.linphoneConnectIncoming layer o = .error .nullPointer := by
        unfold linphoneConnectIncoming
        rw [current_eq_ok.mpr hcall₁, ok_bind, setAvRunning_ok hcall₁ hr₁, ok_bind]
        have hstream : ((s₁.store r { s₁.calls r with state := .avRunning }).setRing
            false).audiostream = none := hstill.audiostream.trans ha
        simp only [hstream]
      rw [hnull]
      simp
    | some a =>
      rw [connectIncoming_ok hcall₁ hr₁ (hstill.audiostream.trans ha)]
      by_cases hrun : a.running = true
      · rw [if_pos hrun]
        refine iff_of_false ?_ (by simp [hrun])
        rintro ⟨s', h, hs'⟩
        -- new streams are created before the start
        have hnew : s'.streamCount = s₁.streamCount + 2 :=
          (startMediaStreams_result (by exact hcall₁) (by exact hr₁) h).2.1
        rw [hs'.streamCount, hstill.streamCount] at hnew
        omega
      · rw [if_neg hrun]
        have hsecond : Still s (s₁.connecting r) := hstill.trans (connecting_still s₁ r)
        have hstart := start_untouched_iff layer o (hsecond.call.trans hcall)
          (hsecond.freed ▸ hr) hsecond.conf hsecond.audiostream hsecond.videostream
          hsecond.streamCount id
        have hrecord : (s₁.connecting r).calls r = { s.calls r with
            media := (layer.readAnswer s.config (s.calls r).media (some sdp)).2
            state := .avRunning } := by
          simp [← hs₁, connecting, setRing, negotiated, withConfig, store]
        simp only [id, store_self, hrecord, record_same_iff] at hstart
        rw [hstart]
        have hring : (s₁.connecting r).ringstream = false := rfl
        rw [hring]
        constructor
        · rintro ⟨hsilent, -, ⟨hstate, hmedia, htime⟩, hstreams⟩
          rw [hmedia] at hstreams
          refine Or.inr ⟨⟨a, rfl, by simpa using hrun⟩, hsilent.symm, hstate, hmedia, htime, ?_⟩
          exact hstreams
        · rintro (h | ⟨-, hidle⟩)
          · simp at h
          · refine ⟨hidle.silent.symm, hsecond.gstateCall, ⟨hidle.state, hidle.media,
              hidle.stamped⟩, ?_⟩
            rw [hidle.media]
            exact hidle.streams

/-- The core that early media starts its streams in. -/
def earlyMedia (s : Core Config Media) : Core Config Media :=
  (s.gstateNewState .callOutConnected).setRing false

lemma earlyMedia_eq (s : Core Config Media) :
    s.earlyMedia = { s with gstateCall := .callOutConnected, ringstream := false } := by
  unfold earlyMedia
  rw [gstateNewState_call s (by decide)]
  simp [setRing]

lemma ringing_declined (hcall : s.call = some r) (hr : r ∉ s.freed)
    (hforeign : ev.cid ≠ (s.calls r).cid) (hcid : (s.calls r).cid ≠ -1) (sdp : Option Sdp) :
    Returns (s.linphoneCallRinging layer o ev sdp) (Untouched r s) ↔
      if sdp.isNone then s.ringstream = true ∨
        s.conf.playSndcard = false ∧ (s.calls r).state = .ringing
      else ∃ a, s.audiostream = some a ∧ (a.running = true ∨
        s.gstateCall = .callOutConnected ∧ Idle layer s o r .ringing sdp) := by
  unfold linphoneCallRinging
  rw [proceeding_ok hcall hr, if_pos ⟨hcid, hforeign.symm⟩, ok_bind, hcall]
  generalize hs₁ : s.send _ = s₁
  have hstill : Still s s₁ := hs₁ ▸ send_still s _
  have hcalls : s₁.calls = s.calls := by rw [← hs₁]; rfl
  have hring : s₁.ringstream = s.ringstream := by rw [← hs₁]; rfl
  have hr₁ : r ∉ s₁.freed := hstill.freed ▸ hr
  have hsame : Untouched r s s₁ := hs₁ ▸ send_untouched hcall hr _
  dsimp only
  split_ifs with hsdp hringing hcard
  · exact iff_of_true (returns_ok.mpr hsame) (Or.inl (hring ▸ hringing))
  · rw [modify_ok (s := s₁.setRing true) hr₁, returns_ok]
    refine iff_of_false (fun h => ?_) ?_
    · exact hringing (hring.trans h.ringstream.symm)
    · rw [← hring, ← hstill.conf]
      simp [hringing, hcard]
  · rw [modify_ok hr₁, returns_ok, ← hring, ← hstill.conf, hcalls]
    simp only [hringing, hcard, Bool.false_eq_true, false_or, true_and]
    constructor
    · intro h
      have hrecord := congrArg Call.state h.record
      simp only [store, Function.update_self] at hrecord
      exact hrecord.symm
    · intro hstate
      have hrecord : { s.calls r with state := LCState.ringing } = s.calls r := by
        rw [← hstate]
      rw [hrecord, ← hcalls, store_self]
      exact hsame
  · rw [hstill.audiostream]
    cases ha : s.audiostream with
    | none => simp
    | some a =>
      dsimp only
      by_cases hrun : a.running = true
      · rw [if_pos hrun, returns_pure]
        exact iff_of_true hsame ⟨a, rfl, Or.inl hrun⟩
      · rw [if_neg hrun, current_eq_ok.mpr (hstill.call.trans hcall), ok_bind,
          sdpContextReadAnswer_ok hr₁, ok_bind]
        generalize hs₂ : s₁.negotiated r _ _ = s₂
        have hread : Still s s₂ := hstill.trans (hs₂ ▸ negotiated_still s₁ r _ _)
        have hrecord : s₂.earlyMedia.calls r = { s.calls r with
            media := (layer.readAnswer s.config (s.calls r).media sdp).2
            state := (s.calls r).state } := by
          rw [earlyMedia_eq, ← hs₂, ← hs₁]
          simp [negotiated, withConfig, store, send]
        have hcall₃ : s₂.earlyMedia.call = some r := by
          rw [earlyMedia_eq]
          exact hread.call.trans hcall
        have hr₃ : r ∉ s₂.earlyMedia.freed := by
          rw [earlyMedia_eq]
          exact hread.freed ▸ hr
        have hstart := start_untouched_iff (s := s) layer o hcall₃ hr₃
          (by rw [earlyMedia_eq]; exact hread.conf)
          (by rw [earlyMedia_eq]; exact hread.audiostream)
          (by rw [earlyMedia_eq]; exact hread.videostream)
          (by rw [earlyMedia_eq]; exact hread.streamCount)
          fun c => { c with state := .ringing }
        have hwrite : Returns (do
            let s ← s₂.earlyMedia.linphoneCoreStartMediaStreams layer o r
            s.modify r fun c => { c with state := .ringing }) (Untouched r s) ↔
            Returns (s₂.earlyMedia.linphoneCoreStartMediaStreams layer o r) (fun s' =>
              Untouched r s (s'.store r { s'.calls r with state := .ringing })) := by
          rw [returns_bind]
          refine returns_congr fun s' h => ?_
          rw [modify_ok ((startMediaStreams_quiet h).1.freed ▸ hr₃), returns_ok]
        refine hwrite.trans (hstart.trans ?_)
        have hring₃ : s₂.earlyMedia.ringstream = false := by rw [earlyMedia_eq]
        have hstate₃ : s₂.earlyMedia.gstateCall = .callOutConnected := by rw [earlyMedia_eq]
        rw [hrecord, hring₃, hstate₃]
        have hkept := record_same_iff (o := o) (s.calls r)
          (layer.readAnswer s.config (s.calls r).media sdp).2 (s.calls r).state .ringing
        constructor
        · rintro ⟨hsilent, hconnected, hrec, hstreams⟩
          obtain ⟨hstate, hmedia, htime⟩ := hkept.mp hrec
          refine ⟨a, rfl, Or.inr ⟨hconnected.symm, hsilent.symm, hstate, hmedia, htime, ?_⟩⟩
          rw [← hmedia]
          exact hstreams
        · rintro ⟨a', ha', hcase⟩
          rw [Option.some.injEq] at ha'
          subst ha'
          rcases hcase with hrun' | ⟨hconnected, hidle⟩
          · exact absurd hrun' hrun
          · refine ⟨hidle.silent.symm, hconnected.symm, ?_, ?_⟩
            · exact hkept.mpr ⟨hidle.state, hidle.media, hidle.stamped⟩
            · rw [hidle.media]
              exact hidle.streams

/-- A call that has no id yet takes over that of a foreign answer. -/
lemma ringing_adopts (hcall : s.call = some r) (hr : r ∉ s.freed)
    (hcid : (s.calls r).cid = -1) {sdp : Option Sdp}
    (h : s.linphoneCallRinging layer o ev sdp = .ok s') : (s'.calls r).cid = ev.cid := by
  unfold linphoneCallRinging at h
  rw [proceeding_ok hcall hr, if_neg (by simp [hcid]), ok_bind, hcall] at h
  generalize hs₁ : s.store r _ = s₁ at h
  have hcid₁ : (s₁.calls r).cid = ev.cid := by
    rw [← hs₁]
    simp [store]
  dsimp only at h
  split_ifs at h
  · cases h
    exact hcid₁
  · exact (modify_keeps (fun c => steady_cid.state c .ringing) h r).trans hcid₁
  · exact (modify_keeps (fun c => steady_cid.state c .ringing) h r).trans hcid₁
  · split at h
    · simp at h
    · split_ifs at h
      · cases h
        exact hcid₁
      · simp only [bind_eq_ok] at h
        obtain ⟨r', -, s₂, h₂, s₃, h₃, h₄⟩ := h
        have hread := (readAnswer_keeps steady_cid h₂ r).trans hcid₁
        have hstart := startMediaStreams_keeps steady_cid h₃ r
        have hwrite := modify_keeps (fun c => steady_cid.state c .ringing) h₄ r
        refine hwrite.trans (hstart.trans ?_)
        have hmid : s₂.earlyMedia.calls = s₂.calls := by rw [earlyMedia_eq]
        exact (congrArg (fun calls => (calls r).cid) hmid).trans hread

lemma ringing_untouched_iff (hcall : s.call = some r) (hr : r ∉ s.freed)
    (hforeign : ev.cid ≠ (s.calls r).cid) (sdp : Option Sdp) :
    Returns (s.linphoneCallRinging layer o ev sdp) (Untouched r s) ↔ (s.calls r).cid ≠ -1 ∧
      if sdp.isNone then s.ringstream = true ∨
        s.conf.playSndcard = false ∧ (s.calls r).state = .ringing
      else ∃ a, s.audiostream = some a ∧ (a.running = true ∨
        s.gstateCall = .callOutConnected ∧ Idle layer s o r .ringing sdp) := by
  by_cases hcid : (s.calls r).cid = -1
  · refine iff_of_false ?_ (by simp [hcid])
    rintro ⟨s', h, hs'⟩
    have hadopted := ringing_adopts hcall hr hcid h
    rw [hs'.record] at hadopted
    exact hforeign hadopted.symm
  · rw [ringing_declined hcall hr hforeign hcid]
    exact (and_iff_right hcid).symm

/-! A redirection. -/

lemma destroy_freed (h : s.linphoneCallDestroy layer o r = .ok s') :
    s'.freed = s.freed ++ [r] := by
  rw [linphoneCallDestroy_ok (destroy_live h), Except.ok.injEq] at h
  subst h
  rfl

lemma gstateNewState_freed {g : GState} (hg : 20 ≤ g.value) :
    (s.gstateNewState g).freed = s.freed := by
  rw [gstateNewState_call s hg]

lemma placeCall_freed {p : Core Config Media × ℤ} (h : s.placeCall layer o = .ok p) :
    s.freed ⊆ p.1.freed := by
  unfold placeCall at h
  simp only [bind_eq_ok] at h
  obtain ⟨s₁, h₁, s₂, h₂, h⟩ := h
  have hoffer : s₁.freed = s.freed := (inviteOffer_quiet h₁).freed
  have hwrite : s₂.freed = s.freed := (modify_still h₂).freed.trans hoffer
  split_ifs at h
  · rw [bind_eq_ok] at h
    obtain ⟨s₃, h₃, h⟩ := h
    cases h
    rw [gstateNewState_freed (by decide)]
    have hdestroyed : s₃.freed = s₂.freed ++ _ := destroy_freed h₃
    intro q hq
    have hmem : q ∈ s₃.freed := by
      rw [hdestroyed, hwrite]
      exact List.mem_append_left _ hq
    exact hmem
  · cases h
    exact hwrite ▸ List.Subset.refl _

lemma invite_freed {url : Option String} {p : Core Config Media × ℤ}
    (h : s.linphoneCoreInvite layer o url = .ok p) : s.freed ⊆ p.1.freed := by
  unfold linphoneCoreInvite at h
  dsimp only at h
  split_ifs at h
  · cases h
    exact List.Subset.refl _
  · cases h
    rw [gstateNewState_freed (by decide), gstateNewState_freed (by decide)]
    exact List.Subset.refl _
  · cases h
    rw [gstateNewState_freed (by decide), gstateNewState_freed (by decide)]
    exact List.Subset.refl _
  · rw [← gstateNewState_freed (s := s) (g := .callOutInvite) (by decide)]
    exact placeCall_freed h

lemma redirected_untouched_iff (hcall : s.call = some r) (hr : r ∉ s.freed) (code : ℤ)
    (contact : Option String) :
    Returns (s.linphoneCallRedirected layer o code contact) (Untouched r s) ↔
      code ≠ 380 ∧ code ≠ 302 := by
  have hdrop : ∀ {s₁}, s.dropCall layer o = .ok s₁ → r ∈ s₁.freed := by
    intro s₁ h₁
    unfold dropCall at h₁
    rw [hcall] at h₁
    simp only [bind_eq_ok] at h₁
    obtain ⟨s₂, h₂, h₁⟩ := h₁
    cases h₁
    have hmem : r ∈ s₂.freed := by
      rw [destroy_freed h₂]
      simp
    exact hmem
  unfold linphoneCallRedirected
  split_ifs with h380 h302
  · refine iff_of_false ?_ (by simp [h380])
    rintro ⟨s', h, hs'⟩
    exact hs'.live (hdrop h)
  · refine iff_of_false ?_ (by simp [h302])
    rintro ⟨s', h, hs'⟩
    simp only [bind_eq_ok] at h
    obtain ⟨s₁, h₁, p, hp, h⟩ := h
    cases h
    exact hs'.live (invite_freed hp (hdrop h₁))
  · exact iff_of_true (returns_ok.mpr (.refl hcall hr)) ⟨h380, h302⟩

/-- When an event of another dialog leaves the current call alone. The events that end a call or
announce one are told apart by their call id. Progress and answers are as long as the call has an
id of its own; ringing then still changes it unless the streams run or, without early media, it
rings already. Redirections and re-invitations are taken for those of the current call, as are
acknowledgements with an answer. -/
def Harmless (layer : MediaLayer Config Media Sdp) (s : Core Config Media) (o : Outcome Media)
    (r : CallRef) : Event Sdp → Prop
  | .invite _ _ | .requestFailure _ _ | .closed _ | .released _ | .messageNew _ => True
  | .proceeding _ | .answered _ _ => (s.calls r).cid ≠ -1
  | .ringing _ sdp => (s.calls r).cid ≠ -1 ∧
      if sdp.isNone then s.ringstream = true ∨
        s.conf.playSndcard = false ∧ (s.calls r).state = .ringing
      else ∃ a, s.audiostream = some a ∧ (a.running = true ∨
        s.gstateCall = .callOutConnected ∧ Idle layer s o r .ringing sdp)
  | .redirected _ code _ => code ≠ 380 ∧ code ≠ 302
  | .reinvite _ sdp => sdp = none
  | .ack _ sdp => sdp = none ∨ (∃ a, s.audiostream = some a ∧ a.running = false) ∧
      Idle layer s o r .avRunning sdp

lemma processEvent_untouched_iff (ev : Event Sdp) (hcall : s.call = some r) (hr : r ∉ s.freed)
    (hforeign : ev.id.cid ≠ (s.calls r).cid) :
    Returns (s.processEvent layer o ev) (Untouched r s) ↔ Harmless layer s o r ev := by
  cases ev with
  | invite ev sdp => exact iff_of_true (incNewCall_untouched hcall hr sdp) trivial
  | proceeding ev => exact proceeding_untouched_iff hcall hr hforeign
  | ringing ev sdp => exact ringing_untouched_iff hcall hr hforeign sdp
  | answered ev sdp => exact accepted_untouched_iff hcall hr hforeign sdp
  | redirected ev code contact => exact redirected_untouched_iff hcall hr code contact
  | reinvite ev sdp => exact reinvite_untouched_iff hcall hr sdp
  | ack ev sdp => exact ack_untouched_iff hcall hr sdp
  | requestFailure ev code =>
    exact iff_of_true ⟨s, failure_foreign hcall hr hforeign code, .refl hcall hr⟩ trivial
  | closed ev => exact iff_of_true ⟨s, terminated_foreign hcall hr hforeign, .refl hcall hr⟩ trivial
  | released ev => exact iff_of_true ⟨s, released_foreign hcall hr hforeign, .refl hcall hr⟩ trivial
  | messageNew ev => exact iff_of_true (returns_ok.mpr (send_untouched hcall hr _)) trivial

/-! What is sent meanwhile. -/

/-- The messages of a handler that go to the dialog of its event: an answer, as of a busy phone, or
the end of that dialog. -/
def IsReply (id : EventId) : Sip → Prop
  | .terminate cid did => cid = id.cid ∧ did = id.did
  | .answer tid _ => tid = id.tid
  | _ => False

def OnlyReplies (id : EventId) (s s' : Core Config Media) : Prop :=
  ∃ replies, s'.sent = s.sent ++ replies ∧ ∀ m ∈ replies, IsReply id m

lemma onlyReplies_of_sent (h : s'.sent = s.sent) : OnlyReplies ev s s' :=
  ⟨[], by rw [h, List.append_nil], by simp⟩

lemma send_onlyReplies {m : Sip} (hm : IsReply ev m) : OnlyReplies ev s (s.send m) := by
  refine ⟨[m], rfl, fun m' hm' => ?_⟩
  rw [List.mem_singleton.mp hm']
  exact hm

lemma OnlyReplies.trans_sent (h : OnlyReplies ev s s₁) (h' : s'.sent = s₁.sent) :
    OnlyReplies ev s s' := by
  obtain ⟨replies, hsent, hreply⟩ := h
  exact ⟨replies, h'.trans hsent, hreply⟩

lemma modify_sent {f : Call Media → Call Media} (h : s.modify r f = .ok s') :
    s'.sent = s.sent := by
  rw [modify_ok (modify_freed h), Except.ok.injEq] at h
  subst h
  rfl

lemma startStreams_sent {c : Call Media} (h : s.startStreams layer o c = .ok s') :
    s'.sent = s.sent := by
  unfold startStreams at h
  rw [bind_eq_ok] at h
  obtain ⟨audio, -, h⟩ := h
  dsimp only at h
  split_ifs at h
  · rw [bind_eq_ok] at h
    obtain ⟨video, -, h⟩ := h
    cases h
    rfl
  · cases h
    rfl

lemma setAvRunning_sent (h : s.setAvRunning = .ok s') : s'.sent = s.sent := by
  unfold setAvRunning at h
  rw [bind_eq_ok] at h
  obtain ⟨r, -, h⟩ := h
  exact modify_sent h

lemma startMediaStreams_sent (h : s.linphoneCoreStartMediaStreams layer o r = .ok s') :
    s'.sent = s.sent := by
  unfold linphoneCoreStartMediaStreams at h
  simp only [bind_eq_ok] at h
  obtain ⟨c, -, s₁, h₁, s₂, h₂, h₃⟩ := h
  have hstart : s₂.sent = s₁.sent := by
    unfold startIfPlayable at h₂
    split_ifs at h₂
    · exact startStreams_sent h₂
    · cases h₂
      rfl
  rw [setAvRunning_sent h₃, hstart, modify_sent h₁]

lemma readAnswer_sent {sdp : Option Sdp} (h : s.sdpContextReadAnswer layer r sdp = .ok s') :
    s'.sent = s.sent := by
  unfold sdpContextReadAnswer at h
  simp only [bind_eq_ok] at h
  obtain ⟨c, -, s₁, h₁, h⟩ := h
  cases h
  have hwrite := modify_sent h₁
  exact hwrite

lemma connectIncoming_sent (h : s.linphoneConnectIncoming layer o = .ok s') :
    s'.sent = s.sent := by
  unfold linphoneConnectIncoming at h
  simp only [bind_eq_ok] at h
  obtain ⟨r, -, s₁, h₁, h⟩ := h
  have hrun := setAvRunning_sent h₁
  split at h
  · simp at h
  · have hstart := startMediaStreams_sent h
    split_ifs at hstart
    · exact hstart.trans hrun
    · exact hstart.trans hrun

lemma ack_sent {sdp : Option Sdp} (h : s.linphoneHandleAck layer o sdp = .ok s') :
    s'.sent = s.sent := by
  unfold linphoneHandleAck at h
  split_ifs at h
  · cases h
    rfl
  · simp only [bind_eq_ok] at h
    obtain ⟨r, -, s₁, h₁, h₂⟩ := h
    rw [connectIncoming_sent h₂, readAnswer_sent h₁]

lemma proceeding_onlyReplies (h : s.linphoneCallProceeding ev = .ok s') :
    OnlyReplies ev s s' := by
  unfold linphoneCallProceeding at h
  split at h
  · cases h
    exact send_onlyReplies ⟨rfl, rfl⟩
  · rw [bind_eq_ok] at h
    obtain ⟨c, -, h⟩ := h
    split_ifs at h
    · cases h
      exact send_onlyReplies ⟨rfl, rfl⟩
    · exact onlyReplies_of_sent (modify_sent h)

lemma ringing_onlyReplies {sdp : Option Sdp}
    (h : s.linphoneCallRinging layer o ev sdp = .ok s') : OnlyReplies ev s s' := by
  unfold linphoneCallRinging at h
  rw [bind_eq_ok] at h
  obtain ⟨s₁, h₁, h⟩ := h
  refine (proceeding_onlyReplies h₁).trans_sent ?_
  split at h
  · cases h
    rfl
  · split_ifs at h
    · cases h
      rfl
    · have hwrite := modify_sent h
      exact hwrite
    · exact modify_sent h
    · split at h
      · simp at h
      · split_ifs at h
        · cases h
          rfl
        · simp only [bind_eq_ok] at h
          obtain ⟨r', -, s₂, h₂, s₃, h₃, h₄⟩ := h
          have hmid : s₂.earlyMedia.sent = s₂.sent := by rw [earlyMedia_eq]
          exact (modify_sent h₄).trans
            ((startMediaStreams_sent h₃).trans (hmid.trans (readAnswer_sent h₂)))

/-- A harmless event of another dialog is at most replied to. -/
lemma processEvent_onlyReplies (event : Event Sdp) (hcall : s.call = some r) (hr : r ∉ s.freed)
    (hforeign : event.id.cid ≠ (s.calls r).cid) (hharmless : Harmless layer s o r event)
    (h : s.processEvent layer o event = .ok s') : OnlyReplies event.id s s' := by
  cases event with
  | invite ev sdp =>
    have h' : s.linphoneIncNewCall layer o ev sdp = .ok s' := h
    unfold linphoneIncNewCall at h'
    split_ifs at h' with hpresence hbusy
    · cases h'
      exact send_onlyReplies rfl
    · cases h'
      exact send_onlyReplies rfl
    · simp [hcall] at hbusy
  | proceeding ev => exact proceeding_onlyReplies h
  | ringing ev sdp => exact ringing_onlyReplies h
  | answered ev sdp =>
    have hcid : (s.calls r).cid ≠ -1 := hharmless
    have h' : s.linphoneCallAccepted layer o ev sdp = .ok s' := h
    rw [accepted_ok hcall hr, if_pos ⟨hcid, hforeign.symm⟩] at h'
    cases h'
    exact send_onlyReplies ⟨rfl, rfl⟩
  | redirected ev code contact =>
    have h' : s.linphoneCallRedirected layer o code contact = .ok s' := h
    unfold linphoneCallRedirected at h'
    rw [if_neg hharmless.1, if_neg hharmless.2] at h'
    cases h'
    exact onlyReplies_of_sent rfl
  | reinvite ev sdp =>
    have hnone : sdp = none := hharmless
    subst hnone
    cases h
    exact send_onlyReplies rfl
  | ack ev sdp => exact onlyReplies_of_sent (ack_sent h)
  | requestFailure ev code =>
    have hsame := (failure_foreign hcall hr hforeign code).symm.trans h
    cases hsame
    exact onlyReplies_of_sent rfl
  | closed ev =>
    have hsame := (terminated_foreign hcall hr hforeign).symm.trans h
    cases hsame
    exact onlyReplies_of_sent rfl
  | released ev =>
    have hsame := (released_foreign hcall hr hforeign).symm.trans h
    cases hsame
    exact onlyReplies_of_sent rfl
  | messageNew ev =>
    cases h
    exact send_onlyReplies rfl

/-- The plain phone with a call in the dialog number `1`. -/
def callingPhone : Core CodecConfig (CallMedia SdpMessage) :=
  { plainPhone.newCall { linphoneCallNewOutgoing plainOutcome with cid := 1 } with
    gstateCall := .callOutInvite }

end MTalk.Phone.Core
