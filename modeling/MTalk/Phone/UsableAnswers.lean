import MTalk.Phone.Outcomes
import MTalk.Phone.Support

/-!
# Accepted lines that can be used

A line on which a codec is accepted should have the phone's own port, a negotiation should only
succeed with a stream, and a line that is offered with port zero should not count as accepted. The
port of a line is that of the first payload accepted though, which a telephone event leaves at
zero, and the port of the offer is not looked at.
-/

namespace MTalk.Phone

variable {Msg : Type} {osip : Osip Msg}

/-! Video payloads. -/

/-- The video callback leaves the audio stream alone, and the video stream too unless it accepts the
payload. -/
structure VideoAsked (app : Negotiation) (payload : SdpPayload)
    (r : Negotiation × SdpPayload × ℤ) : Prop where
  lc : Alike app.lc r.1.lc
  audioParams : r.1.audioParams = app.audioParams

lemma acceptVideo_asked (app : Negotiation) (payload : SdpPayload) :
    VideoAsked app payload (linphoneAcceptVideoOffer app payload) := by
  obtain ⟨hchecked, -⟩ := isSupported_answering app payload
  unfold linphoneAcceptVideoOffer
  dsimp only
  split_ifs
  · exact ⟨Alike.refl _, rfl⟩
  · exact ⟨Alike.refl _, rfl⟩
  all_goals exact ⟨hchecked.lc, hchecked.audioParams⟩

/-- What the video callback answers while video is enabled and the line's port is not zero. -/
lemma acceptVideo_open {app : Negotiation} {payload : SdpPayload}
    (henabled : app.lc.videoEnabled = true) (hport : payload.remoteport ≠ 0)
    (hinit : app.videoParams.initialized = false) :
    ((linphoneAcceptVideoOffer app payload).2.2 = 0 ↔
        supportLevel app.lc payload ≠ .unsupported) ∧
      ((linphoneAcceptVideoOffer app payload).1.videoParams.initialized = true ↔
        supportLevel app.lc payload = .supportedAndValid) := by
  obtain ⟨hchecked, hlevel⟩ := isSupported_answering app payload
  unfold linphoneAcceptVideoOffer
  dsimp only
  rw [if_neg (by simp [henabled]), if_neg hport, hlevel, hchecked.videoParams, hinit]
  cases supportLevel app.lc payload with
  | unsupported => simp [hchecked.videoParams, hinit]
  | supported => simp [hchecked.videoParams, hinit]
  | supportedAndValid => simp [selectPayload_fields]

lemma acceptVideo_initialized {app : Negotiation} (payload : SdpPayload)
    (hinit : app.videoParams.initialized = true) :
    (linphoneAcceptVideoOffer app payload).1.videoParams.initialized = true := by
  obtain ⟨hchecked, -⟩ := isSupported_answering app payload
  have hkept :
      (linphonePayloadIsSupported app payload true).app.videoParams.initialized = true := by
    rw [hchecked.videoParams, hinit]
  unfold linphoneAcceptVideoOffer
  dsimp only
  rw [hchecked.videoParams, hinit]
  split_ifs <;> simp_all

/-! The payloads of a video line. -/

variable {app app₀ : Negotiation} {ps : List SdpPayload}

lemma askVideo_kept (ps : List SdpPayload) (app : Negotiation) :
    Alike app.lc (askAll linphoneAcceptVideoOffer app ps).1.lc ∧
      (askAll linphoneAcceptVideoOffer app ps).1.audioParams = app.audioParams ∧
      (app.videoParams.initialized = true →
        (askAll linphoneAcceptVideoOffer app ps).1.videoParams.initialized = true) := by
  induction ps generalizing app with
  | nil => exact ⟨Alike.refl _, rfl, fun h => h⟩
  | cons p ps ih =>
    have hp := acceptVideo_asked app p
    obtain ⟨hlc, haudio, hvideo⟩ := ih (linphoneAcceptVideoOffer app p).1
    exact ⟨hp.lc.trans hlc, haudio.trans hp.audioParams,
      fun h => hvideo (acceptVideo_initialized p h)⟩

lemma askVideo_disabled (hdisabled : app.lc.videoEnabled = false) (ps : List SdpPayload) :
    askAll linphoneAcceptVideoOffer app ps = (app, []) := by
  induction ps with
  | nil => rfl
  | cons p ps ih =>
    have hp : linphoneAcceptVideoOffer app p = (app, p, -1) := by
      unfold linphoneAcceptVideoOffer
      rw [hdisabled]
      rfl
    simp [askAll, hp, ih]

lemma askVideo_closed (henabled : app.lc.videoEnabled = true)
    (hports : ∀ p ∈ ps, p.remoteport = 0) :
    (askAll linphoneAcceptVideoOffer app ps).1 = app ∧
      ((askAll linphoneAcceptVideoOffer app ps).2 = [] ↔ ps = []) := by
  induction ps with
  | nil => simp [askAll]
  | cons p ps ih =>
    rw [List.forall_mem_cons] at hports
    have hp : linphoneAcceptVideoOffer app p = (app, p, 0) := by
      unfold linphoneAcceptVideoOffer
      rw [henabled, if_neg (by decide), if_pos hports.1]
    simp [askAll, hp, ih hports.2]

/-- A codec on an open video line sets up the video stream, and nothing else does. -/
lemma askVideo_stream (hlc : Alike app₀.lc app.lc) (henabled : app.lc.videoEnabled = true)
    (hports : ∀ p ∈ ps, p.remoteport ≠ 0) (hinit : app.videoParams.initialized = false) :
    (askAll linphoneAcceptVideoOffer app ps).1.videoParams.initialized = true ↔
      ∃ p ∈ ps, supportLevel app₀.lc p = .supportedAndValid := by
  induction ps generalizing app with
  | nil => simp [askAll, hinit]
  | cons p ps ih =>
    rw [List.forall_mem_cons] at hports
    have hkept := acceptVideo_asked app p
    obtain ⟨-, hset⟩ := acceptVideo_open henabled hports.1 hinit
    rw [supportLevel_alike hlc] at hset
    rw [askAll, List.exists_mem_cons_iff]
    by_cases hvalid : supportLevel app₀.lc p = .supportedAndValid
    · exact iff_of_true ((askVideo_kept ps _).2.2 (hset.mpr hvalid)) (Or.inl hvalid)
    · have hinit' : (linphoneAcceptVideoOffer app p).1.videoParams.initialized = false := by
        rw [← Bool.not_eq_true]
        exact fun h => hvalid (hset.mp h)
      rw [or_iff_right hvalid]
      exact ih (hlc.trans hkept.lc) (hkept.lc.videoEnabled.trans henabled) hports.2 hinit'

/-- Without codecs, an open video line is accepted for its telephone events. -/
lemma askVideo_silent (hlc : Alike app₀.lc app.lc) (henabled : app.lc.videoEnabled = true)
    (hports : ∀ p ∈ ps, p.remoteport ≠ 0) (hinit : app.videoParams.initialized = false)
    (hno : ∀ p ∈ ps, supportLevel app₀.lc p ≠ .supportedAndValid) :
    (askAll linphoneAcceptVideoOffer app ps).2 = [] ↔
      ∀ p ∈ ps, supportLevel app₀.lc p ≠ .supported := by
  induction ps generalizing app with
  | nil => simp [askAll]
  | cons p ps ih =>
    rw [List.forall_mem_cons] at hports hno
    have hkept := acceptVideo_asked app p
    obtain ⟨haccepted, hset⟩ := acceptVideo_open henabled hports.1 hinit
    rw [supportLevel_alike hlc] at haccepted hset
    have hinit' : (linphoneAcceptVideoOffer app p).1.videoParams.initialized = false := by
      rw [← Bool.not_eq_true]
      exact fun h => hno.1 (hset.mp h)
    have hrest := ih (hlc.trans hkept.lc) (hkept.lc.videoEnabled.trans henabled) hports.2 hinit'
      hno.2
    rw [askAll, List.forall_mem_cons, ← hrest]
    dsimp only
    split_ifs with hzero
    · have hlevel := haccepted.mp hzero
      cases hp : supportLevel app₀.lc p with
      | unsupported => exact absurd hp hlevel
      | supported => simp
      | supportedAndValid => exact absurd hp hno.1
    · have hlevel : supportLevel app₀.lc p = .unsupported := by
        by_contra hne
        exact hzero (haccepted.mpr hne)
      simp [hlevel]

/-! The payloads of an audio line. -/

/-- Without codecs nothing changes, and the telephone events are accepted. -/
lemma askAudio_unheard (hlc : Alike app₀.lc app.lc) (hinit : app.audioParams.initialized = false)
    (hno : ∀ p ∈ ps, supportLevel app₀.lc p ≠ .supportedAndValid) :
    let r := askAll linphoneAcceptAudioOffer app ps
    Alike app₀.lc r.1.lc ∧ r.1.audioParams = app.audioParams ∧
      r.1.videoParams = app.videoParams ∧
      (∀ a ∈ r.2, a.asked ∈ ps ∧ supportLevel app₀.lc a.asked = .supported ∧
        a.returned.localport = a.asked.localport) ∧
      (r.2 = [] ↔ ∀ p ∈ ps, supportLevel app₀.lc p ≠ .supported) := by
  induction ps generalizing app with
  | nil => simp [askAll, hlc]
  | cons p ps ih =>
    rw [List.forall_mem_cons] at hno
    have hkept : ∃ accepts, (accepts ↔ supportLevel app₀.lc p = .supported) ∧
        Kept app p accepts (linphoneAcceptAudioOffer app p) := by
      cases hp : supportLevel app₀.lc p with
      | unsupported =>
        rw [← supportLevel_alike hlc] at hp
        exact ⟨False, by simp, acceptAudio_unsupported hp⟩
      | supported =>
        rw [← supportLevel_alike hlc] at hp
        exact ⟨_, by simp [hinit], acceptAudio_supported hp⟩
      | supportedAndValid => exact absurd hp hno.1
    obtain ⟨accepts, hsupported, hkept⟩ := hkept
    obtain ⟨hlc', haudio, hvideo, hall, hnil⟩ := ih (hlc.trans hkept.lc)
      ((congrArg StreamParams.initialized hkept.audioParams).trans hinit) hno.2
    have haccepted := hkept.accepted.trans hsupported
    refine ⟨hlc', haudio.trans hkept.audioParams, hvideo.trans hkept.videoParams, ?_, ?_⟩
    · intro a ha
      rw [askAll] at ha
      dsimp only at ha
      split_ifs at ha with hzero
      · rcases List.mem_cons.mp ha with rfl | ha
        · exact ⟨List.mem_cons_self, haccepted.mp hzero, hkept.localport⟩
        · obtain ⟨hmem, hrest⟩ := hall a ha
          exact ⟨List.mem_cons_of_mem p hmem, hrest⟩
      · obtain ⟨hmem, hrest⟩ := hall a ha
        exact ⟨List.mem_cons_of_mem p hmem, hrest⟩
    · rw [askAll, List.forall_mem_cons, ← hnil]
      dsimp only
      split_ifs with hzero
      · simp [haccepted.mp hzero]
      · exact (and_iff_right fun h => hzero (haccepted.mpr h)).symm

/-- A call with an audio stream keeps it. -/
lemma askAudio_kept (ps : List SdpPayload) (app : Negotiation)
    (hinit : app.audioParams.initialized = true) :
    Akin app.lc (askAll linphoneAcceptAudioOffer app ps).1.lc ∧
      (askAll linphoneAcceptAudioOffer app ps).1.audioParams = app.audioParams := by
  induction ps generalizing app with
  | nil => exact ⟨Akin.refl _, rfl⟩
  | cons p ps ih =>
    have hkept : ∃ accepts, Kept app p accepts (linphoneAcceptAudioOffer app p) := by
      cases hp : supportLevel app.lc p with
      | unsupported => exact ⟨_, acceptAudio_unsupported hp⟩
      | supported => exact ⟨_, acceptAudio_supported hp⟩
      | supportedAndValid => exact ⟨_, acceptAudio_valid_kept hp hinit⟩
    obtain ⟨accepts, hkept⟩ := hkept
    obtain ⟨hlc, haudio⟩ := ih (linphoneAcceptAudioOffer app p).1
      ((congrArg StreamParams.initialized hkept.audioParams).trans hinit)
    exact ⟨hkept.lc.toAkin.trans hlc, haudio.trans hkept.audioParams⟩

/-- In a call with an audio stream on another line, only telephone events are accepted, and none
when one codec is enough. -/
lemma askAudio_taken (hlc : Akin app₀.lc app.lc) (hinit : app.audioParams.initialized = true)
    (hlines : ∀ p ∈ ps, app.audioParams.line ≠ p.line) :
    let r := askAll linphoneAcceptAudioOffer app ps
    (∀ a ∈ r.2, supportLevel app₀.lc a.asked = .supported) ∧
      (r.2 = [] ↔ app₀.lc.onlyOneCodec = true ∨
        ∀ p ∈ ps, supportLevel app₀.lc p ≠ .supported) := by
  induction ps generalizing app with
  | nil => simp [askAll]
  | cons p ps ih =>
    rw [List.forall_mem_cons] at hlines
    have hkept : ∃ accepts, (accepts ↔ supportLevel app₀.lc p = .supported ∧
        app₀.lc.onlyOneCodec = false) ∧ Kept app p accepts (linphoneAcceptAudioOffer app p) := by
      cases hp : supportLevel app.lc p with
      | unsupported =>
        refine ⟨False, ?_, acceptAudio_unsupported hp⟩
        rw [← supported_akin hlc, hp]
        simp
      | supported =>
        refine ⟨_, ?_, acceptAudio_supported hp⟩
        rw [← supported_akin hlc, hp, hlc.onlyOneCodec]
        simp [hinit]
      | supportedAndValid =>
        refine ⟨_, ?_, acceptAudio_valid_kept hp hinit⟩
        rw [← supported_akin hlc, hp]
        simp [hlines.1]
    obtain ⟨accepts, hsupported, hkept⟩ := hkept
    obtain ⟨hall, hnil⟩ := ih (hlc.trans hkept.lc.toAkin)
      ((congrArg StreamParams.initialized hkept.audioParams).trans hinit)
      (fun q hq => by rw [hkept.audioParams]; exact hlines.2 q hq)
    have haccepted := hkept.accepted.trans hsupported
    refine ⟨?_, ?_⟩
    · intro a ha
      rw [askAll] at ha
      dsimp only at ha
      split_ifs at ha with hzero
      · rcases List.mem_cons.mp ha with rfl | ha
        · exact (haccepted.mp hzero).1
        · exact hall a ha
      · exact hall a ha
    · rw [askAll, List.forall_mem_cons]
      dsimp only
      split_ifs with hzero
      · obtain ⟨htelephone, hmany⟩ := haccepted.mp hzero
        simp [htelephone, hmany]
      · rw [hnil]
        have hnot : supportLevel app₀.lc p = .supported → app₀.lc.onlyOneCodec = true := by
          intro h
          by_contra hmany
          exact hzero (haccepted.mpr ⟨h, by simpa using hmany⟩)
        constructor
        · rintro (hone | hrest)
          · exact Or.inl hone
          · by_cases hp : supportLevel app₀.lc p = .supported
            · exact Or.inl (hnot hp)
            · exact Or.inr ⟨hp, hrest⟩
        · rintro (hone | ⟨-, hrest⟩)
          · exact Or.inl hone
          · exact Or.inr hrest

/-- The payloads of a line up to its first codec and beyond. -/
lemma askAudio_heard (pre post : List SdpPayload) {p : SdpPayload} (hlc : Alike app₀.lc app.lc)
    (hinit : app.audioParams.initialized = false)
    (hno : ∀ q ∈ pre, supportLevel app₀.lc q ≠ .supportedAndValid)
    (hp : supportLevel app₀.lc p = .supportedAndValid) :
    let r := askAll linphoneAcceptAudioOffer app (pre ++ p :: post)
    Akin app₀.lc r.1.lc ∧ r.1.audioParams.initialized = true ∧ r.1.audioParams.line = p.line ∧
      (∃ a ∈ r.2, a.asked = p) ∧
      ∃ a rest, r.2 = a :: rest ∧
        ((∀ q ∈ pre, supportLevel app₀.lc q ≠ .supported) ∧
            a.returned.localport = natdOr app.audioParams app₀.lc.audioRtpPort ∨
          (∃ q ∈ pre, supportLevel app₀.lc q = .supported) ∧ a.asked ∈ pre ∧
            a.returned.localport = a.asked.localport) := by
  obtain ⟨hlc', haudio, -, hall, hnil⟩ := askAudio_unheard hlc hinit hno
  rw [askAll_append]
  generalize askAll linphoneAcceptAudioOffer app pre = r at hlc' haudio hall hnil ⊢
  rw [← supportLevel_alike hlc'] at hp
  have hselected := acceptAudio_valid_selects hp (by rw [haudio]; exact hinit)
  obtain ⟨hlc'', haudio''⟩ := askAudio_kept post (linphoneAcceptAudioOffer r.1 p).1
    hselected.initialized
  rw [askAll]
  dsimp only
  rw [if_pos hselected.accepted]
  refine ⟨(hlc'.toAkin.trans hselected.lc).trans hlc'', ?_, ?_, ?_, ?_⟩
  · rw [haudio'']
    exact hselected.initialized
  · rw [haudio'']
    exact hselected.line
  · exact ⟨⟨p, (linphoneAcceptAudioOffer r.1 p).2.1⟩, by simp, rfl⟩
  · rcases r with ⟨app', accepted⟩
    cases accepted with
    | nil =>
      refine ⟨_, _, rfl, Or.inl ⟨hnil.mp rfl, ?_⟩⟩
      dsimp only
      rw [hselected.localport, hlc'.audioRtpPort]
      exact congrArg (fun params => natdOr params app₀.lc.audioRtpPort) haudio
    | cons a accepted =>
      obtain ⟨hmem, hsupported, hport⟩ := hall a List.mem_cons_self
      exact ⟨a, _, rfl, Or.inr ⟨⟨a.asked, hmem, hsupported⟩, hmem, hport⟩⟩

/-! The lines of an offer. -/

variable {remote : Msg} {l : OfferedLine} {ls : List OfferedLine}

lemma payload_line {p : SdpPayload} (h : p ∈ l.payloads osip remote) :
    p.line = l.index ∧ p.localport = 0 ∧ p.remoteport = l.port osip := by
  obtain ⟨pt, -, rfl⟩ := List.mem_map.mp h
  exact ⟨rfl, rfl, rfl⟩

lemma index_le_offeredLines {i : ℕ} {ms : List SdpMedia} (h : l ∈ offeredLines i ms) :
    i ≤ l.index := by
  induction ms generalizing i with
  | nil => simp [offeredLines] at h
  | cons m ms ih =>
    rw [offeredLines] at h
    split_ifs at h
    · rcases List.mem_cons.mp h with rfl | h
      · exact le_rfl
      · exact (Nat.le_succ i).trans (ih h)
    · exact (Nat.le_succ i).trans (ih h)

/-- The offered lines have different indices. -/
lemma offeredLines_pairwise (i : ℕ) (ms : List SdpMedia) :
    (offeredLines i ms).Pairwise fun l l' => l.index < l'.index := by
  induction ms generalizing i with
  | nil => exact List.Pairwise.nil
  | cons m ms ih =>
    rw [offeredLines]
    split_ifs
    · exact List.pairwise_cons.mpr ⟨fun l hl => index_le_offeredLines hl, ih (i + 1)⟩
    · exact ih (i + 1)

lemma outcomes_lines {App : Type} (osip : Osip Msg) (handler : SdpHandler App Msg)
    (remote : Msg) (app : App) (ls : List OfferedLine) :
    (outcomes osip handler remote app ls).2.map LineOutcome.line = ls := by
  induction ls generalizing app with
  | nil => rfl
  | cons l ls ih => simp [outcomes, ih]

lemma acceptAudio_akin (app : Negotiation) (p : SdpPayload) :
    Akin app.lc (linphoneAcceptAudioOffer app p).1.lc := by
  cases hp : supportLevel app.lc p with
  | unsupported => exact (acceptAudio_unsupported hp).lc.toAkin
  | supported => exact (acceptAudio_supported hp).lc.toAkin
  | supportedAndValid =>
    cases hinit : app.audioParams.initialized with
    | false => exact (acceptAudio_valid_selects hp hinit).lc
    | true => exact (acceptAudio_valid_kept hp hinit).lc.toAkin

lemma askLine_audio (hl : l.isAudio = true) (app : Negotiation) (ps : List SdpPayload) :
    askLine ((linphoneSdphandler osip).accept l) app ps =
      askAll linphoneAcceptAudioOffer app ps := by
  unfold SdpHandler.accept
  rw [if_pos hl]
  rfl

lemma askLine_video (hl : l.isAudio = false) (app : Negotiation) (ps : List SdpPayload) :
    askLine ((linphoneSdphandler osip).accept l) app ps =
      askAll linphoneAcceptVideoOffer app ps := by
  unfold SdpHandler.accept
  rw [if_neg (by simp [hl])]
  rfl

lemma askLine_akin (osip : Osip Msg) (l : OfferedLine) (app : Negotiation) (ps : List SdpPayload) :
    Akin app.lc (askLine ((linphoneSdphandler osip).accept l) app ps).1.lc := by
  cases hl : l.isAudio with
  | false =>
    rw [askLine_video hl]
    exact (askVideo_kept ps app).1.toAkin
  | true =>
    rw [askLine_audio hl]
    induction ps generalizing app with
    | nil => exact Akin.refl _
    | cons p ps ih => exact (acceptAudio_akin app p).trans (ih _)

/-- A video line with port zero is accepted with its first payload. -/
lemma outcomes_closed (osip : Osip Msg) (remote : Msg) (hlc : Akin app₀.lc app.lc)
    (ls : List OfferedLine) :
    ∀ o ∈ (outcomes osip (linphoneSdphandler osip) remote app ls).2, o.line.isAudio = false →
      (app₀.lc.videoEnabled = false → o.accepted = []) ∧
      (app₀.lc.videoEnabled = true → o.line.port osip = 0 →
        (o.accepted = [] ↔ o.line.media.payloads = [])) := by
  induction ls generalizing app with
  | nil => simp [outcomes]
  | cons l ls ih =>
    rw [outcomes]
    dsimp only
    intro o ho hvideo
    rcases List.mem_cons.mp ho with rfl | ho
    · dsimp only at hvideo ⊢
      rw [askLine_video hvideo]
      refine ⟨fun hdisabled => ?_, fun henabled hport => ?_⟩
      · rw [askVideo_disabled (hlc.videoEnabled.trans hdisabled)]
      · rw [(askVideo_closed (hlc.videoEnabled.trans henabled) fun p hp =>
          (payload_line hp).2.2.trans hport).2]
        exact List.map_eq_nil_iff
    · exact ih (hlc.trans (askLine_akin osip _ app _)) o ho hvideo

/-- Before the first codec on an audio line, audio lines are accepted for telephone events. -/
lemma outcomes_unheard (hlc : Alike app₀.lc app.lc) (hinit : app.audioParams.initialized = false)
    (hls : ∀ l ∈ ls, l.isAudio = true → ∀ p ∈ l.payloads osip remote,
      supportLevel app₀.lc p ≠ .supportedAndValid) :
    let r := outcomes osip (linphoneSdphandler osip) remote app ls
    Alike app₀.lc r.1.lc ∧ r.1.audioParams = app.audioParams ∧
      ∀ o ∈ r.2, o.line.isAudio = true →
        (∀ a ∈ o.accepted, supportLevel app₀.lc a.asked = .supported) ∧
        (o.accepted = [] ↔
          ∀ p ∈ o.line.payloads osip remote, supportLevel app₀.lc p ≠ .supported) := by
  induction ls generalizing app with
  | nil => simp [outcomes, hlc]
  | cons l ls ih =>
    rw [List.forall_mem_cons] at hls
    rw [outcomes]
    dsimp only
    cases hl : l.isAudio with
    | false =>
      rw [askLine_video hl]
      obtain ⟨hlc', haudio, -⟩ := askVideo_kept (l.payloads osip remote) app
      obtain ⟨hlc'', haudio', hall⟩ := ih (hlc.trans hlc') (by rw [haudio]; exact hinit) hls.2
      refine ⟨hlc'', haudio'.trans haudio, fun o ho haud => ?_⟩
      rcases List.mem_cons.mp ho with rfl | ho
      · simp [hl] at haud
      · exact hall o ho haud
    | true =>
      rw [askLine_audio hl]
      obtain ⟨hlc', haudio, -, hasked, hnil⟩ := askAudio_unheard hlc hinit (hls.1 hl)
      obtain ⟨hlc'', haudio', hall⟩ := ih hlc' (by rw [haudio]; exact hinit) hls.2
      refine ⟨hlc'', haudio'.trans haudio, fun o ho haud => ?_⟩
      rcases List.mem_cons.mp ho with rfl | ho
      · exact ⟨fun a ha => (hasked a ha).2.1, hnil⟩
      · exact hall o ho haud

/-- After it, other audio lines are accepted for telephone events, unless one codec is enough. -/
lemma outcomes_taken (osip : Osip Msg) (remote : Msg) (hlc : Akin app₀.lc app.lc)
    (hinit : app.audioParams.initialized = true)
    (hls : ∀ l ∈ ls, app.audioParams.line ≠ l.index) :
    let r := outcomes osip (linphoneSdphandler osip) remote app ls
    r.1.audioParams.initialized = true ∧
      ∀ o ∈ r.2, o.line.isAudio = true →
        (∀ a ∈ o.accepted, supportLevel app₀.lc a.asked = .supported) ∧
        (o.accepted = [] ↔ app₀.lc.onlyOneCodec = true ∨
          ∀ p ∈ o.line.payloads osip remote, supportLevel app₀.lc p ≠ .supported) := by
  induction ls generalizing app with
  | nil => simp [outcomes, hinit]
  | cons l ls ih =>
    rw [List.forall_mem_cons] at hls
    rw [outcomes]
    dsimp only
    have hlc' := hlc.trans (askLine_akin osip l app (l.payloads osip remote))
    cases hl : l.isAudio with
    | false =>
      rw [askLine_video hl] at hlc' ⊢
      obtain ⟨-, haudio, -⟩ := askVideo_kept (l.payloads osip remote) app
      obtain ⟨hinit', hall⟩ := ih hlc' (by rw [haudio]; exact hinit)
        (by rw [haudio]; exact hls.2)
      refine ⟨hinit', fun o ho haud => ?_⟩
      rcases List.mem_cons.mp ho with rfl | ho
      · simp [hl] at haud
      · exact hall o ho haud
    | true =>
      rw [askLine_audio hl] at hlc' ⊢
      obtain ⟨-, haudio⟩ := askAudio_kept (l.payloads osip remote) app hinit
      obtain ⟨hinit', hall⟩ := ih hlc' (by rw [haudio]; exact hinit)
        (by rw [haudio]; exact hls.2)
      refine ⟨hinit', fun o ho haud => ?_⟩
      rcases List.mem_cons.mp ho with rfl | ho
      · refine askAudio_taken hlc hinit fun p hp => ?_
        rw [(payload_line hp).1]
        exact hls.1
      · exact hall o ho haud

lemma askAudio_video (ps : List SdpPayload) (app : Negotiation) :
    (askAll linphoneAcceptAudioOffer app ps).1.videoParams = app.videoParams := by
  have haccept : ∀ (app : Negotiation) p,
      (linphoneAcceptAudioOffer app p).1.videoParams = app.videoParams := by
    intro app p
    cases hp : supportLevel app.lc p with
    | unsupported => exact (acceptAudio_unsupported hp).videoParams
    | supported => exact (acceptAudio_supported hp).videoParams
    | supportedAndValid =>
      cases hinit : app.audioParams.initialized with
      | false => exact (acceptAudio_valid_selects hp hinit).videoParams
      | true => exact (acceptAudio_valid_kept hp hinit).videoParams
  induction ps generalizing app with
  | nil => rfl
  | cons p ps ih => exact (ih _).trans (haccept app p)

lemma outcomes_keep_video (ls : List OfferedLine) (app : Negotiation)
    (hinit : app.videoParams.initialized = true) :
    (outcomes osip (linphoneSdphandler osip) remote app ls).1.videoParams.initialized = true := by
  induction ls generalizing app with
  | nil => exact hinit
  | cons l ls ih =>
    rw [outcomes]
    apply ih
    cases hl : l.isAudio with
    | false =>
      rw [askLine_video hl]
      exact (askVideo_kept _ app).2.2 hinit
    | true =>
      rw [askLine_audio hl, askAudio_video]
      exact hinit

/-- A video line that the phone looks at with a codec that it can use. -/
def Shows (osip : Osip Msg) (app : Negotiation) (remote : Msg) (l : OfferedLine) : Prop :=
  l.isAudio = false ∧ app.lc.videoEnabled = true ∧ l.port osip ≠ 0 ∧
    ∃ p ∈ l.payloads osip remote, supportLevel app.lc p = .supportedAndValid

/-- As long as no audio line has a codec, the video stream depends on the video lines only. Without
a codec there, they are accepted for telephone events. -/
lemma outcomes_video (hlc : Alike app₀.lc app.lc) (hinit : app.audioParams.initialized = false)
    (hvideo : app.videoParams.initialized = false)
    (hls : ∀ l ∈ ls, l.isAudio = true → ∀ p ∈ l.payloads osip remote,
      supportLevel app₀.lc p ≠ .supportedAndValid) :
    let r := outcomes osip (linphoneSdphandler osip) remote app ls
    (r.1.videoParams.initialized = true ↔ ∃ l ∈ ls, Shows osip app₀ remote l) ∧
      ((∀ l ∈ ls, ¬Shows osip app₀ remote l) → ∀ o ∈ r.2, o.line.isAudio = false →
        app₀.lc.videoEnabled = true → o.line.port osip ≠ 0 → (o.accepted = [] ↔
          ∀ p ∈ o.line.payloads osip remote, supportLevel app₀.lc p ≠ .supported)) := by
  induction ls generalizing app with
  | nil => simp [outcomes, hvideo]
  | cons l ls ih =>
    rw [List.forall_mem_cons] at hls
    rw [outcomes, List.exists_mem_cons_iff, List.forall_mem_cons]
    dsimp only
    cases hl : l.isAudio with
    | true =>
      rw [askLine_audio hl]
      obtain ⟨hlc', haudio, hvideo', -⟩ := askAudio_unheard hlc hinit (hls.1 hl)
      obtain ⟨hset, hall⟩ := ih hlc' (by rw [haudio]; exact hinit) (by rw [hvideo']; exact hvideo)
        hls.2
      have hnot : ¬Shows osip app₀ remote l := fun h => by simp [h.1] at hl
      refine ⟨by rw [hset, or_iff_right hnot], fun hno o ho haud => ?_⟩
      rcases List.mem_cons.mp ho with rfl | ho
      · simp [hl] at haud
      · exact hall hno.2 o ho haud
    | false =>
      rw [askLine_video hl]
      obtain ⟨hlc', haudio, -⟩ := askVideo_kept (l.payloads osip remote) app
      by_cases hopen : app₀.lc.videoEnabled = true ∧ l.port osip ≠ 0
      · have henabled := hlc.videoEnabled.trans hopen.1
        have hports : ∀ p ∈ l.payloads osip remote, p.remoteport ≠ 0 := by
          intro p hp
          rw [(payload_line hp).2.2]
          exact hopen.2
        have hstream := askVideo_stream hlc henabled hports hvideo
        by_cases hshows : Shows osip app₀ remote l
        · have hset := hstream.mpr hshows.2.2.2
          exact ⟨iff_of_true (outcomes_keep_video ls _ hset) (Or.inl hshows),
            fun hno => absurd hshows hno.1⟩
        · have hno : ∀ p ∈ l.payloads osip remote,
              supportLevel app₀.lc p ≠ .supportedAndValid :=
            fun p hp h => hshows ⟨hl, hopen.1, hopen.2, p, hp, h⟩
          have hunset : (askAll linphoneAcceptVideoOffer app
              (l.payloads osip remote)).1.videoParams.initialized = false := by
            rw [← Bool.not_eq_true, hstream]
            rintro ⟨p, hp, h⟩
            exact hno p hp h
          obtain ⟨hset, hall⟩ := ih (hlc.trans hlc') (by rw [haudio]; exact hinit) hunset hls.2
          refine ⟨by rw [hset, or_iff_right hshows], fun hno' o ho haud => ?_⟩
          rcases List.mem_cons.mp ho with rfl | ho
          · intro _ _
            exact askVideo_silent hlc henabled hports hvideo hno
          · exact hall hno'.2 o ho haud
      · have hnot : ¬Shows osip app₀ remote l := fun h => hopen ⟨h.2.1, h.2.2.1⟩
        have hsame : (askAll linphoneAcceptVideoOffer app (l.payloads osip remote)).1 = app := by
          cases henabled : app₀.lc.videoEnabled with
          | false => rw [askVideo_disabled (hlc.videoEnabled.trans henabled)]
          | true =>
            have hport : l.port osip = 0 := by
              by_contra hport
              exact hopen ⟨henabled, hport⟩
            exact (askVideo_closed (hlc.videoEnabled.trans henabled) fun p hp =>
              (payload_line hp).2.2.trans hport).1
        rw [hsame]
        obtain ⟨hset, hall⟩ := ih hlc hinit hvideo hls.2
        refine ⟨by rw [hset, or_iff_right hnot], fun hno o ho haud => ?_⟩
        rcases List.mem_cons.mp ho with rfl | ho
        · exact fun henabled hport => absurd ⟨henabled, hport⟩ hopen
        · exact hall hno.2 o ho haud

/-! The claim and its condition. -/

/-- The port that the phone's audio stream has for others. -/
def audioPort (app : Negotiation) : ℤ := natdOr app.audioParams app.lc.audioRtpPort

/-- Of the payloads that an answer accepts, line by line: a line with a codec that is no telephone
event has the phone's port, success means that there is a stream, and nothing is accepted of a
line with port zero. -/
structure Usable (osip : Osip Msg) (app : Negotiation) (ctx : SdpContext Msg) (remote : Msg) :
    Prop where
  port : ∀ (k : ℕ) (o : LineOutcome) (answer : Msg),
    (outcomes osip (linphoneSdphandler osip) remote app
      (offeredLines 0 (osip.medias remote))).2[k]? = some o →
    o.line.isAudio = true →
    (∃ a ∈ o.accepted, supportLevel app.lc a.asked ≠ .supported) →
    (sdpContextGetAnswer osip (linphoneSdphandler osip) app ctx remote).2.1.answer = some answer →
    ∃ l, (osip.medias answer)[k]? = some l ∧ l.port = int2char (audioPort app)
  status :
    (sdpContextGetAnswer osip (linphoneSdphandler osip) app ctx remote).2.1.negocStatus = 200 →
    (sdpContextGetAnswer osip (linphoneSdphandler osip) app ctx
        remote).1.audioParams.initialized = true ∨
      (sdpContextGetAnswer osip (linphoneSdphandler osip) app ctx
        remote).1.videoParams.initialized = true
  closed : ∀ o ∈ (outcomes osip (linphoneSdphandler osip) remote app
      (offeredLines 0 (osip.medias remote))).2, o.line.port osip = 0 → o.accepted = []

/-- Whether an audio line has a codec that the phone can use. -/
def hears (osip : Osip Msg) (app : Negotiation) (remote : Msg) (l : OfferedLine) : Bool :=
  l.isAudio && (l.payloads osip remote).any fun p => supportLevel app.lc p = .supportedAndValid

/-- The first such line. -/
def heardLine (osip : Osip Msg) (app : Negotiation) (remote : Msg) : Option OfferedLine :=
  (offeredLines 0 (osip.medias remote)).find? (hears osip app remote)

/-- The offers that are answered as they should be. -/
structure Clean (osip : Osip Msg) (app : Negotiation) (remote : Msg) : Prop where
  first : ∀ l pre p post, heardLine osip app remote = some l →
    l.payloads osip remote = pre ++ p :: post → supportLevel app.lc p = .supportedAndValid →
    (∀ q ∈ pre, supportLevel app.lc q ≠ .supportedAndValid) →
    audioPort app = 0 ∨ ∀ q ∈ pre, supportLevel app.lc q ≠ .supported
  audioClosed : ∀ l ∈ offeredLines 0 (osip.medias remote), l.isAudio = true → l.port osip = 0 →
    heardLine osip app remote ≠ some l ∧
      ((∀ p ∈ l.payloads osip remote, supportLevel app.lc p ≠ .supported) ∨
        app.lc.onlyOneCodec = true ∧ ∃ h, heardLine osip app remote = some h ∧ h.index < l.index)
  videoClosed : ∀ l ∈ offeredLines 0 (osip.medias remote), l.isAudio = false → l.port osip = 0 →
    app.lc.videoEnabled = true → l.media.payloads = []
  answered : heardLine osip app remote = none →
    (∃ l ∈ offeredLines 0 (osip.medias remote), Shows osip app remote l) ∨
      ∀ l ∈ offeredLines 0 (osip.medias remote), l.isAudio = true ∨ app.lc.videoEnabled = true →
        ∀ p ∈ l.payloads osip remote, supportLevel app.lc p ≠ .supported

lemma exists_outcome (osip : Osip Msg) (handler : SdpHandler Negotiation Msg) (remote : Msg)
    (app : Negotiation) (hl : l ∈ ls) :
    ∃ o ∈ (outcomes osip handler remote app ls).2, o.line = l := by
  rw [← outcomes_lines osip handler remote app ls] at hl
  exact List.mem_map.mp hl

lemma line_mem {handler : SdpHandler Negotiation Msg} {o : LineOutcome}
    (ho : o ∈ (outcomes osip handler remote app ls).2) : o.line ∈ ls := by
  rw [← outcomes_lines osip handler remote app ls]
  exact List.mem_map_of_mem ho

lemma hears_iff : hears osip app remote l = true ↔ l.isAudio = true ∧
    ∃ p ∈ l.payloads osip remote, supportLevel app.lc p = .supportedAndValid := by
  simp [hears]

/-- Without a codec on an audio line. -/
lemma usable_iff_of_none (ctx : SdpContext Msg) (hinit : app.audioParams.initialized = false)
    (hvideo : app.videoParams.initialized = false) (hnone : heardLine osip app remote = none) :
    Usable osip app ctx remote ↔ Clean osip app remote := by
  obtain ⟨happ, hstatus, -⟩ := getAnswer_outcomes osip (linphoneSdphandler osip) app ctx remote
  have hls : ∀ l ∈ offeredLines 0 (osip.medias remote), l.isAudio = true →
      ∀ p ∈ l.payloads osip remote, supportLevel app.lc p ≠ .supportedAndValid := by
    intro l hl haudio p hp hvalid
    have hnot := List.find?_eq_none.mp hnone l hl
    exact hnot (hears_iff.mpr ⟨haudio, p, hp, hvalid⟩)
  obtain ⟨-, haudioParams, haudio⟩ := outcomes_unheard (Alike.refl app.lc) hinit hls
  obtain ⟨hstream, hsilent⟩ := outcomes_video (Alike.refl app.lc) hinit hvideo hls
  have hclosed := outcomes_closed osip remote (Akin.refl app.lc)
    (offeredLines 0 (osip.medias remote))
  constructor
  · intro h
    refine ⟨by simp [hnone], fun l hl haud hport => ⟨by simp [hnone], Or.inl ?_⟩,
      fun l hl hvid hport henabled => ?_, fun _ => ?_⟩
    · obtain ⟨o, ho, rfl⟩ := exists_outcome osip (linphoneSdphandler osip) remote app hl
      exact (haudio o ho haud).2.mp (h.closed o ho hport)
    · obtain ⟨o, ho, rfl⟩ := exists_outcome osip (linphoneSdphandler osip) remote app hl
      exact ((hclosed o ho hvid).2 henabled hport).mp (h.closed o ho hport)
    · by_cases hshows : ∃ l ∈ offeredLines 0 (osip.medias remote), Shows osip app remote l
      · exact Or.inl hshows
      · -- no stream is set up, so nothing may be accepted
        have hnothing : ∀ o ∈ (outcomes osip (linphoneSdphandler osip) remote app
            (offeredLines 0 (osip.medias remote))).2, o.accepted = [] := by
          by_contra hsome
          push Not at hsome
          have hinit' := h.status (hstatus.mpr hsome)
          rw [happ, haudioParams, hinit, hstream] at hinit'
          exact hshows (hinit'.resolve_left (by simp))
        push Not at hshows
        refine Or.inr fun l hl hasked => ?_
        obtain ⟨o, ho, rfl⟩ := exists_outcome osip (linphoneSdphandler osip) remote app hl
        cases haud : o.line.isAudio with
        | true => exact (haudio o ho haud).2.mp (hnothing o ho)
        | false =>
          have henabled := hasked.resolve_left (by simp [haud])
          by_cases hport : o.line.port osip = 0
          · have hnil := ((hclosed o ho haud).2 henabled hport).mp (hnothing o ho)
            simp [OfferedLine.payloads, hnil]
          · exact (hsilent hshows o ho haud henabled hport).mp (hnothing o ho)
  · intro h
    refine ⟨fun k o answer ho haud hcodec => ?_, fun h200 => ?_, fun o ho hport => ?_⟩
    · obtain ⟨a, ha, hne⟩ := hcodec
      exact absurd ((haudio o (List.mem_of_getElem? ho) haud).1 a ha) hne
    · rw [happ, hstream]
      rcases h.answered hnone with hshows | hsilence
      · exact Or.inr hshows
      · by_cases hshows : ∃ l ∈ offeredLines 0 (osip.medias remote), Shows osip app remote l
        · exact Or.inr hshows
        · exfalso
          push Not at hshows
          obtain ⟨o, ho, hne⟩ := hstatus.mp h200
          apply hne
          cases haud : o.line.isAudio with
          | true => exact (haudio o ho haud).2.mpr (hsilence _ (line_mem ho) (Or.inl haud))
          | false =>
            cases henabled : app.lc.videoEnabled with
            | false => exact (hclosed o ho haud).1 henabled
            | true =>
              by_cases hport : o.line.port osip = 0
              · exact ((hclosed o ho haud).2 henabled hport).mpr
                  (h.videoClosed _ (line_mem ho) haud hport henabled)
              · exact (hsilent hshows o ho haud henabled hport).mpr
                  (hsilence _ (line_mem ho) (Or.inr henabled))
    · cases haud : o.line.isAudio with
      | true =>
        rcases (h.audioClosed _ (line_mem ho) haud hport).2 with hno | ⟨-, l, hl, -⟩
        · exact (haudio o ho haud).2.mpr hno
        · simp [hnone] at hl
      | false =>
        cases henabled : app.lc.videoEnabled with
        | false => exact (hclosed o ho haud).1 henabled
        | true =>
          exact ((hclosed o ho haud).2 henabled hport).mpr
            (h.videoClosed _ (line_mem ho) haud hport henabled)

lemma exists_first {α : Type} {q : α → Prop} {l : List α} (h : ∃ a ∈ l, q a) :
    ∃ pre a post, l = pre ++ a :: post ∧ q a ∧ ∀ b ∈ pre, ¬q b := by
  induction l with
  | nil => simp at h
  | cons a l ih =>
    by_cases ha : q a
    · exact ⟨[], a, l, rfl, ha, by simp⟩
    · rw [List.exists_mem_cons_iff] at h
      obtain ⟨pre, b, post, rfl, hb, hpre⟩ := ih (h.resolve_left ha)
      refine ⟨a :: pre, b, post, rfl, hb, ?_⟩
      rw [List.forall_mem_cons]
      exact ⟨ha, hpre⟩

/-- The outcomes around the first line with a codec, `h`. -/
structure Heard (osip : Osip Msg) (app : Negotiation) (remote : Msg) (as : List OfferedLine)
    (h : OfferedLine) (bs : List OfferedLine) (os : Negotiation × List LineOutcome) : Prop where
  initialized : os.1.audioParams.initialized = true
  before : ∀ o ∈ os.2, o.line ∈ as → o.line.isAudio = true →
    (∀ a ∈ o.accepted, supportLevel app.lc a.asked = .supported) ∧
    (o.accepted = [] ↔ ∀ p ∈ o.line.payloads osip remote, supportLevel app.lc p ≠ .supported)
  heard : ∀ o ∈ os.2, o.line = h → (∃ a ∈ o.accepted,
      supportLevel app.lc a.asked ≠ .supported) ∧
    ∀ pre p post, h.payloads osip remote = pre ++ p :: post →
      supportLevel app.lc p = .supportedAndValid →
      (∀ q ∈ pre, supportLevel app.lc q ≠ .supportedAndValid) →
      ((∀ q ∈ pre, supportLevel app.lc q ≠ .supported) ∧ o.answerPort = audioPort app ∨
        (∃ q ∈ pre, supportLevel app.lc q = .supported) ∧ o.answerPort = 0)
  after : ∀ o ∈ os.2, o.line ∈ bs → o.line.isAudio = true →
    (∀ a ∈ o.accepted, supportLevel app.lc a.asked = .supported) ∧
    (o.accepted = [] ↔ app.lc.onlyOneCodec = true ∨
      ∀ p ∈ o.line.payloads osip remote, supportLevel app.lc p ≠ .supported)

lemma outcomes_heard {as bs : List OfferedLine} {h : OfferedLine}
    (hinit : app.audioParams.initialized = false)
    (hordered : (as ++ h :: bs).Pairwise fun l l' => l.index < l'.index)
    (has : ∀ l ∈ as, l.isAudio = true → ∀ p ∈ l.payloads osip remote,
      supportLevel app.lc p ≠ .supportedAndValid)
    (hh : hears osip app remote h = true) :
    Heard osip app remote as h bs
      (outcomes osip (linphoneSdphandler osip) remote app (as ++ h :: bs)) := by
  obtain ⟨haudio, hcodec⟩ := hears_iff.mp hh
  obtain ⟨hlc, hparams, hbefore⟩ := outcomes_unheard (Alike.refl app.lc) hinit has
  have hlines := outcomes_lines osip (linphoneSdphandler osip) remote app as
  obtain ⟨-, hrest, hcross⟩ := List.pairwise_append.mp hordered
  have hbefore_lt : ∀ l ∈ as, l.index < h.index := fun l hl => hcross l hl h List.mem_cons_self
  have hafter_lt : ∀ l ∈ bs, h.index < l.index := (List.pairwise_cons.mp hrest).1
  rw [outcomes_append, outcomes, askLine_audio haudio]
  generalize outcomes osip (linphoneSdphandler osip) remote app as = r at hlc hparams hbefore hlines
  have hinit' : r.1.audioParams.initialized = false := by rw [hparams]; exact hinit
  have hport : audioPort app = natdOr r.1.audioParams app.lc.audioRtpPort := by
    rw [audioPort, hparams]
  -- each split of the line at its first codec gives the same account
  have hheard := fun pre p post (hsplit : h.payloads osip remote = pre ++ p :: post) hp hpre =>
    hsplit ▸ askAudio_heard pre post hlc hinit' hpre hp
  obtain ⟨pre, p, post, hsplit, hp, hpre⟩ := exists_first hcodec
  obtain ⟨hlc', hset, hline, ⟨a, ha, hasked⟩, -⟩ := hheard pre p post hsplit hp hpre
  have hpline : p.line = h.index := (payload_line (by rw [hsplit]; simp)).1
  obtain ⟨hset', hafter⟩ := outcomes_taken osip remote hlc' hset
    (fun l hl => by rw [hline, hpline]; exact (hafter_lt l hl).ne)
  have hlines' := outcomes_lines osip (linphoneSdphandler osip) remote
    (askAll linphoneAcceptAudioOffer r.1 (h.payloads osip remote)).1 bs
  generalize outcomes osip (linphoneSdphandler osip) remote
    (askAll linphoneAcceptAudioOffer r.1 (h.payloads osip remote)).1 bs = r' at hset' hafter hlines'
  have has' : ∀ o ∈ r.2, o.line ∈ as := fun o ho => hlines ▸ List.mem_map_of_mem ho
  have hbs' : ∀ o ∈ r'.2, o.line ∈ bs := fun o ho => hlines' ▸ List.mem_map_of_mem ho
  refine ⟨hset', fun o ho hmem => ?_, fun o ho heq => ?_, fun o ho hmem => ?_⟩
  · rcases List.mem_append.mp ho with ho | ho
    · exact hbefore o ho
    · rcases List.mem_cons.mp ho with rfl | ho
      · exact absurd (hbefore_lt _ hmem) (lt_irrefl _)
      · exact absurd ((hbefore_lt _ hmem).trans (hafter_lt _ (hbs' o ho))) (lt_irrefl _)
  · rcases List.mem_append.mp ho with ho | ho
    · exact absurd (heq ▸ hbefore_lt _ (has' o ho)) (lt_irrefl _)
    · rcases List.mem_cons.mp ho with rfl | ho
      · refine ⟨⟨a, ha, ?_⟩, fun pre p post hsplit hp hpre => ?_⟩
        · rw [hasked, hp]
          decide
        · obtain ⟨-, -, -, -, b, rest, hb, hcase⟩ := hheard pre p post hsplit hp hpre
          have hanswer : LineOutcome.answerPort ⟨h, (askAll linphoneAcceptAudioOffer r.1
              (h.payloads osip remote)).2⟩ = b.returned.localport := by
            rw [LineOutcome.answerPort, hb]
            rfl
          rw [hanswer, hport]
          rcases hcase with hnone | ⟨hsome, hmem, hzero⟩
          · exact Or.inl hnone
          · refine Or.inr ⟨hsome, ?_⟩
            rw [hzero]
            exact (payload_line (by rw [hsplit]; exact List.mem_append_left _ hmem)).2.1
      · exact absurd (heq ▸ hafter_lt _ (hbs' o ho)) (lt_irrefl _)
  · rcases List.mem_append.mp ho with ho | ho
    · exact absurd ((hbefore_lt _ (has' o ho)).trans (hafter_lt _ hmem)) (lt_irrefl _)
    · rcases List.mem_cons.mp ho with rfl | ho
      · exact absurd (hafter_lt _ hmem) (lt_irrefl _)
      · exact hafter o ho

/-- The answer's line of an outcome has its port. -/
lemma answer_port {os : List LineOutcome} {answer : Msg}
    (hheadings : (osip.medias answer).map SdpMedia.heading = os.map LineOutcome.heading) {k : ℕ}
    {o : LineOutcome} (ho : os[k]? = some o) :
    ∃ l : SdpMedia, (osip.medias answer)[k]? = some l ∧ l.port = int2char o.answerPort := by
  have hget := congrArg (fun l => l[k]?) hheadings
  simp only [List.getElem?_map, ho, Option.map_some, Option.map_eq_some_iff] at hget
  obtain ⟨l, hl, hheading⟩ := hget
  exact ⟨l, hl, congrArg (fun x => x.2.1) hheading⟩

/-- With a codec on an audio line. -/
lemma usable_iff_of_some (ctx : SdpContext Msg) (hinit : app.audioParams.initialized = false)
    {h : OfferedLine} (hsome : heardLine osip app remote = some h) :
    Usable osip app ctx remote ↔ Clean osip app remote := by
  obtain ⟨happ, hstatus, answer, hanswer, hheadings⟩ :=
    getAnswer_outcomes osip (linphoneSdphandler osip) app ctx remote
  obtain ⟨hh, as, bs, hlines, has⟩ := List.find?_eq_some_iff_append.mp hsome
  have hordered := offeredLines_pairwise 0 (osip.medias remote)
  have hclosed := outcomes_closed osip remote (Akin.refl app.lc)
    (offeredLines 0 (osip.medias remote))
  obtain ⟨haudio, hcodec⟩ := hears_iff.mp hh
  obtain ⟨pre, p, post, hsplit, hp, hpre⟩ := exists_first hcodec
  have hheard := outcomes_heard (h := h) hinit (hlines ▸ hordered) (by
      intro l hl haud p hp hvalid
      have hnot := has l hl
      simp [hears_iff.mpr ⟨haud, p, hp, hvalid⟩] at hnot) hh
  rw [← hlines] at hheard
  have hmem : ∀ l ∈ offeredLines 0 (osip.medias remote), l ∈ as ∨ l = h ∨ l ∈ bs := by
    intro l hl
    rw [hlines, List.mem_append, List.mem_cons] at hl
    exact hl
  rw [hlines] at hordered
  obtain ⟨-, hrest, hcross⟩ := List.pairwise_append.mp hordered
  have hbefore_lt : ∀ l ∈ as, l.index < h.index := fun l hl => hcross l hl h List.mem_cons_self
  have hafter_lt : ∀ l ∈ bs, h.index < l.index := (List.pairwise_cons.mp hrest).1
  constructor
  · intro hu
    obtain ⟨o, ho, hoh⟩ := exists_outcome osip (linphoneSdphandler osip) remote app
      (show h ∈ offeredLines 0 (osip.medias remote) by rw [hlines]; simp)
    obtain ⟨hcodec', hport⟩ := hheard.heard o ho hoh
    refine ⟨fun l pre p post hl hsplit hp hpre => ?_, fun l hl haud hzero => ?_,
      fun l hl hvid hzero henabled => ?_, by simp [hsome]⟩
    · obtain rfl : h = l := Option.some.inj (hsome.symm.trans hl)
      obtain ⟨k, hk⟩ := List.mem_iff_getElem?.mp ho
      obtain ⟨line, hline, hlinePort⟩ := answer_port hheadings hk
      obtain ⟨line', hline', hline'Port⟩ := hu.port k o answer hk (hoh ▸ haudio) hcodec' hanswer
      obtain rfl : line = line' := Option.some.inj (hline.symm.trans hline')
      have hsame : o.answerPort = audioPort app := by
        have hprinted := hlinePort.symm.trans hline'Port
        simpa [int2char, Int.repr_inj] using hprinted
      rcases hport pre p post hsplit hp hpre with ⟨hnone, -⟩ | ⟨-, hzero⟩
      · exact Or.inr hnone
      · exact Or.inl (hsame.symm.trans hzero)
    · obtain ⟨o', ho', rfl⟩ := exists_outcome osip (linphoneSdphandler osip) remote app hl
      have hnil := hu.closed o' ho' hzero
      rcases hmem _ hl with hin | hin | hin
      · refine ⟨fun heq => ?_, Or.inl ((hheard.before o' ho' hin haud).2.mp hnil)⟩
        rw [hsome, Option.some.injEq] at heq
        exact absurd (heq ▸ hbefore_lt _ hin) (lt_irrefl _)
      · obtain ⟨⟨a, ha, -⟩, -⟩ := hheard.heard o' ho' hin
        rw [hnil] at ha
        simp at ha
      · refine ⟨fun heq => ?_, ?_⟩
        · rw [hsome, Option.some.injEq] at heq
          exact absurd (heq ▸ hafter_lt _ hin) (lt_irrefl _)
        · rcases (hheard.after o' ho' hin haud).2.mp hnil with hone | hnone
          · exact Or.inr ⟨hone, h, hsome, hafter_lt _ hin⟩
          · exact Or.inl hnone
    · obtain ⟨o', ho', rfl⟩ := exists_outcome osip (linphoneSdphandler osip) remote app hl
      exact ((hclosed o' ho' hvid).2 henabled hzero).mp (hu.closed o' ho' hzero)
  · intro hc
    refine ⟨fun k o answer' hk haud hother hanswer' => ?_, fun _ => ?_, fun o ho hzero => ?_⟩
    · have ho := List.mem_of_getElem? hk
      obtain rfl : answer = answer' := Option.some.inj (hanswer.symm.trans hanswer')
      obtain ⟨a, ha, hne⟩ := hother
      rcases hmem _ (line_mem ho) with hin | hin | hin
      · exact absurd ((hheard.before o ho hin haud).1 a ha) hne
      · obtain ⟨l, hl, hport⟩ := answer_port hheadings hk
        refine ⟨l, hl, hport.trans (congrArg int2char ?_)⟩
        rcases (hheard.heard o ho hin).2 pre p post hsplit hp hpre with ⟨-, hport⟩ | ⟨hsome', hzero⟩
        · exact hport
        · rcases hc.first h pre p post hsome hsplit hp hpre with hzero' | hnone
          · rw [hzero, hzero']
          · obtain ⟨q, hq, hsupported⟩ := hsome'
            exact absurd hsupported (hnone q hq)
      · exact absurd ((hheard.after o ho hin haud).1 a ha) hne
    · rw [happ]
      exact Or.inl hheard.initialized
    · cases haud : o.line.isAudio with
      | true =>
        obtain ⟨hne, hnone⟩ := hc.audioClosed _ (line_mem ho) haud hzero
        rcases hmem _ (line_mem ho) with hin | hin | hin
        · apply (hheard.before o ho hin haud).2.mpr
          rcases hnone with hnone | ⟨-, l, hl, hlt⟩
          · exact hnone
          · obtain rfl : h = l := Option.some.inj (hsome.symm.trans hl)
            exact absurd (hlt.trans (hbefore_lt _ hin)) (lt_irrefl _)
        · exact absurd (hin ▸ hsome) hne
        · apply (hheard.after o ho hin haud).2.mpr
          rcases hnone with hnone | ⟨hone, -⟩
          · exact Or.inr hnone
          · exact Or.inl hone
      | false =>
        cases henabled : app.lc.videoEnabled with
        | false => exact (hclosed o ho haud).1 henabled
        | true =>
          exact ((hclosed o ho haud).2 henabled hzero).mpr
            (hc.videoClosed _ (line_mem ho) haud hzero henabled)

/-- An offer of audio to the plain phone, with the payloads in the given order. -/
def audioOffer (payloads : List String) : SdpMessage where
  cAddr := some "192.0.2.1"
  medias := [⟨"audio", "7078", "RTP/AVP", payloads, none, [],
    [⟨"rtpmap", some "0 PCMU/8000"⟩, ⟨"rtpmap", some "101 telephone-event/8000"⟩]⟩]

end MTalk.Phone
