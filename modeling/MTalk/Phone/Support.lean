import MTalk.Phone.CodecCallbacks

/-!
# What a negotiation leaves alone

Whether a payload is supported depends on the local profile up to the bitrates of its video codecs,
which the usability checks adjust. So the levels of support are the same all along a negotiation,
apart from those of video codecs once an audio codec has taken its share of the bandwidth.
-/

namespace MTalk.Phone

open CStrings

/-- The payload type without the bitrate that a video codec is given. -/
def PayloadType.settled (pt : PayloadType) : PayloadType :=
  if pt.kind = .video then { pt with normalBitrate := 0 } else pt

def RtpProfile.settled (prof : RtpProfile) : RtpProfile := fun i => (prof i).map PayloadType.settled

namespace PayloadType

@[simp] lemma settled_kind (pt : PayloadType) : pt.settled.kind = pt.kind := by
  unfold settled
  split_ifs <;> rfl

@[simp] lemma settled_clockRate (pt : PayloadType) : pt.settled.clockRate = pt.clockRate := by
  unfold settled
  split_ifs <;> rfl

@[simp] lemma settled_mimeType (pt : PayloadType) : pt.settled.mimeType = pt.mimeType := by
  unfold settled
  split_ifs <;> rfl

@[simp] lemma settled_channels (pt : PayloadType) : pt.settled.channels = pt.channels := by
  unfold settled
  split_ifs <;> rfl

@[simp] lemma settled_recvFmtp (pt : PayloadType) : pt.settled.recvFmtp = pt.recvFmtp := by
  unfold settled
  split_ifs <;> rfl

@[simp] lemma settled_enabled (pt : PayloadType) : pt.settled.enabled = pt.enabled := by
  unfold settled
  split_ifs <;> rfl

lemma settled_of_audio {pt : PayloadType} (h : pt.kind ≠ .video) : pt.settled = pt :=
  if_neg h

lemma settled_bitrate {pt : PayloadType} (h : pt.kind = .video) (bitrate : ℤ) :
    { pt with normalBitrate := bitrate }.settled = pt.settled := by
  simp [settled, h]

end PayloadType

namespace RtpProfile

variable {prof prof' : RtpProfile}

lemma firstNumber_settled {test : PayloadType → Bool} (h : ∀ pt, test pt.settled = test pt)
    (bound : ℕ) : prof.settled.firstNumber bound test = prof.firstNumber bound test := by
  have hany : ∀ i, (prof.settled i).any test = (prof i).any test := by
    intro i
    unfold settled
    cases prof i with
    | none => rfl
    | some pt => exact h pt
  simp only [firstNumber, hany]

lemma getPayload_settled (idx : ℤ) :
    prof.settled.getPayload idx = (prof.getPayload idx).map PayloadType.settled := by
  unfold getPayload
  split_ifs <;> rfl

lemma findPayloadTypeNumber_settled (mime : String) (clockRate : ℤ) (recvFmtp : Option String) :
    prof.settled.findPayloadTypeNumber mime clockRate recvFmtp =
      prof.findPayloadTypeNumber mime clockRate recvFmtp := by
  have hany : ∀ i, (prof.settled i).any (fun it : PayloadType =>
      caseEq mime it.mimeType && (clockRate = it.clockRate || clockRate ≤ 0)) =
      (prof i).any fun it : PayloadType =>
        caseEq mime it.mimeType && (clockRate = it.clockRate || clockRate ≤ 0) := by
    intro i
    unfold settled
    cases prof i with
    | none => rfl
    | some pt => simp
  unfold findPayloadTypeNumber
  dsimp only
  rw [firstNumber_settled (by simp)]
  simp only [hany]

lemma getPayload_setPayload (idx i : ℤ) (pt : PayloadType) :
    (prof.setPayload i pt).getPayload idx =
      if idx = i ∧ 0 ≤ i ∧ i < rtpProfileMaxPayloads then some pt else prof.getPayload idx := by
  unfold setPayload
  by_cases hi : i < 0 ∨ (rtpProfileMaxPayloads : ℤ) ≤ i
  · have hout : ¬(idx = i ∧ 0 ≤ i ∧ i < rtpProfileMaxPayloads) := by omega
    rw [if_pos hi, if_neg hout]
  · rw [if_neg hi]
    unfold getPayload
    by_cases hidx : idx = i
    · have hin : idx = i ∧ 0 ≤ i ∧ i < rtpProfileMaxPayloads := by omega
      rw [if_pos hin, hidx, if_neg hi, Function.update_self]
    · rw [if_neg fun h : idx = i ∧ 0 ≤ i ∧ i < rtpProfileMaxPayloads => hidx h.1]
      split_ifs with hrange
      · rfl
      · have hne : idx.toNat ≠ i.toNat := by omega
        rw [Function.update_of_ne hne]

lemma settled_setPayload {i : ℕ} {pt pt' : PayloadType} (h : prof i = some pt)
    (hpt : pt'.settled = pt.settled) : (prof.setPayload i pt').settled = prof.settled := by
  unfold setPayload
  split_ifs
  · rfl
  · funext j
    unfold settled
    rw [Int.toNat_natCast]
    by_cases hj : j = i
    · subst hj
      rw [Function.update_self, h, Option.map_some, Option.map_some, hpt]
    · rw [Function.update_of_ne hj]

end RtpProfile

lemma localNumber_settled (prof : RtpProfile) (payload : SdpPayload) :
    localNumber prof.settled payload = localNumber prof payload := by
  unfold localNumber
  cases payload.aRtpmap with
  | none => rfl
  | some rtpmap =>
    have hnumber : prof.settled.getPayloadNumberFromRtpmap rtpmap =
        prof.getPayloadNumberFromRtpmap rtpmap :=
      RtpProfile.firstNumber_settled (by simp [RtpProfile.fits]) _
    dsimp only
    unfold findPayloadTypeNumberBestMatch
    dsimp only
    rw [hnumber, RtpProfile.getPayload_settled]
    cases prof.getPayload (prof.getPayloadNumberFromRtpmap rtpmap) with
    | none => rfl
    | some pt => simp [RtpProfile.findPayloadTypeNumber_settled]

/-! Configurations that support the same payloads. -/

/-- Equal up to the bitrates of video codecs and the bandwidth that is allocated. -/
structure Akin (lc lc' : CodecConfig) : Prop where
  profile : lc'.localProfile.settled = lc.localProfile.settled
  audioCodecs : lc'.audioCodecs = lc.audioCodecs
  audioRtpPort : lc'.audioRtpPort = lc.audioRtpPort
  videoRtpPort : lc'.videoRtpPort = lc.videoRtpPort
  onlyOneCodec : lc'.onlyOneCodec = lc.onlyOneCodec
  videoEnabled : lc'.videoEnabled = lc.videoEnabled
  downloadBw : lc'.downloadBw = lc.downloadBw
  uploadBw : lc'.uploadBw = lc.uploadBw

/-- Equal up to the bitrates of video codecs. -/
structure Alike (lc lc' : CodecConfig) : Prop extends Akin lc lc' where
  dwVideoBw : lc'.dwVideoBw = lc.dwVideoBw
  upVideoBw : lc'.upVideoBw = lc.upVideoBw

lemma Akin.refl (lc : CodecConfig) : Akin lc lc := ⟨rfl, rfl, rfl, rfl, rfl, rfl, rfl, rfl⟩

lemma Akin.trans {lc lc₁ lc' : CodecConfig} (h : Akin lc lc₁) (h' : Akin lc₁ lc') :
    Akin lc lc' where
  profile := h'.profile.trans h.profile
  audioCodecs := h'.audioCodecs.trans h.audioCodecs
  audioRtpPort := h'.audioRtpPort.trans h.audioRtpPort
  videoRtpPort := h'.videoRtpPort.trans h.videoRtpPort
  onlyOneCodec := h'.onlyOneCodec.trans h.onlyOneCodec
  videoEnabled := h'.videoEnabled.trans h.videoEnabled
  downloadBw := h'.downloadBw.trans h.downloadBw
  uploadBw := h'.uploadBw.trans h.uploadBw

lemma Alike.refl (lc : CodecConfig) : Alike lc lc := ⟨Akin.refl lc, rfl, rfl⟩

lemma Alike.trans {lc lc₁ lc' : CodecConfig} (h : Alike lc lc₁) (h' : Alike lc₁ lc') :
    Alike lc lc' where
  toAkin := h.toAkin.trans h'.toAkin
  dwVideoBw := h'.dwVideoBw.trans h.dwVideoBw
  upVideoBw := h'.upVideoBw.trans h.upVideoBw

/-- Whether a payload type fits the bandwidth. -/
def usable (lc : CodecConfig) (pt : PayloadType) : Bool := (lc.checkPayloadTypeUsability 0 pt).2

lemma checkPayloadTypeUsability_snd (lc : CodecConfig) (i : ℕ) (pt : PayloadType) :
    (lc.checkPayloadTypeUsability i pt).2 = usable lc pt := by
  unfold usable CodecConfig.checkPayloadTypeUsability
  cases pt.kind with
  | audioContinuous => rfl
  | audioPacketized => rfl
  | video =>
    dsimp only
    split_ifs <;> rfl
  | other => rfl

lemma checkPayloadTypeUsability_alike {lc : CodecConfig} {i : ℕ} {pt : PayloadType}
    (h : lc.localProfile i = some pt) :
    Alike lc (lc.checkPayloadTypeUsability i pt).1 := by
  obtain ⟨kind, clockRate, bitrate, mimeType, channels, recvFmtp, sendFmtp, enabled⟩ := pt
  unfold CodecConfig.checkPayloadTypeUsability
  cases kind with
  | audioContinuous => exact Alike.refl lc
  | audioPacketized => exact Alike.refl lc
  | video =>
    have hsettled := fun bitrate => RtpProfile.settled_setPayload h
      (PayloadType.settled_bitrate rfl bitrate)
    dsimp only
    split_ifs
    · exact Alike.refl lc
    · exact ⟨⟨hsettled _, rfl, rfl, rfl, rfl, rfl, rfl, rfl⟩, rfl, rfl⟩
    · exact ⟨⟨hsettled _, rfl, rfl, rfl, rfl, rfl, rfl, rfl⟩, rfl, rfl⟩
  | other => exact Alike.refl lc

/-- The level of support while answering, as a function of the configuration. -/
def supportLevel (lc : CodecConfig) (payload : SdpPayload) : SupportLevel :=
  match lc.localProfile.getPayload (localNumber lc.localProfile payload) with
  | none => .unsupported
  | some pt =>
    if pt.mimeType = "telephone-event" then .supported
    else if usable lc pt && pt.enabled then .supportedAndValid
    else .unsupported

section Levels

variable {lc lc' : CodecConfig}

lemma Akin.localNumber_eq (h : Akin lc lc') (payload : SdpPayload) :
    localNumber lc'.localProfile payload = localNumber lc.localProfile payload := by
  rw [← localNumber_settled, h.profile, localNumber_settled]

/-- Akin profiles have payload types under the same numbers, which settle to the same one. -/
lemma Akin.getPayload_eq (h : Akin lc lc') (idx : ℤ) :
    (lc'.localProfile.getPayload idx).map PayloadType.settled =
      (lc.localProfile.getPayload idx).map PayloadType.settled := by
  rw [← RtpProfile.getPayload_settled, h.profile, RtpProfile.getPayload_settled]

lemma usable_settled (h : Alike lc lc') {pt pt' : PayloadType} (hpt : pt'.settled = pt.settled) :
    usable lc' pt' = usable lc pt := by
  have hkind : pt'.kind = pt.kind := by
    rw [← PayloadType.settled_kind, hpt, PayloadType.settled_kind]
  by_cases hvideo : pt.kind = .video
  · unfold usable CodecConfig.checkPayloadTypeUsability
    rw [hkind, hvideo]
    dsimp only
    rw [h.dwVideoBw, h.upVideoBw]
    split_ifs <;> rfl
  · have heq : pt' = pt := by
      rw [PayloadType.settled_of_audio hvideo, PayloadType.settled_of_audio (hkind ▸ hvideo)] at hpt
      exact hpt
    subst heq
    unfold usable CodecConfig.checkPayloadTypeUsability
    cases hk : pt'.kind with
    | audioContinuous => simp [h.downloadBw, h.uploadBw]
    | audioPacketized => simp [h.downloadBw, h.uploadBw]
    | video => exact absurd hk hvideo
    | other => rfl

lemma supportLevel_alike (h : Alike lc lc') (payload : SdpPayload) :
    supportLevel lc' payload = supportLevel lc payload := by
  have hpt := h.getPayload_eq (localNumber lc.localProfile payload)
  unfold supportLevel
  rw [h.localNumber_eq]
  cases hold : lc.localProfile.getPayload (localNumber lc.localProfile payload) with
  | none =>
    rw [hold, Option.map_none, Option.map_eq_none_iff] at hpt
    rw [hpt]
  | some pt =>
    rw [hold, Option.map_some, Option.map_eq_some_iff] at hpt
    obtain ⟨pt', hnew, hsettled⟩ := hpt
    rw [hnew]
    dsimp only
    rw [usable_settled h hsettled, ← PayloadType.settled_mimeType pt', hsettled,
      ← PayloadType.settled_enabled pt', hsettled, PayloadType.settled_mimeType,
      PayloadType.settled_enabled]

/-- Telephone events are told by their name alone. -/
lemma supported_akin (h : Akin lc lc') (payload : SdpPayload) :
    supportLevel lc' payload = .supported ↔ supportLevel lc payload = .supported := by
  have hpt := h.getPayload_eq (localNumber lc.localProfile payload)
  have htelephone : ∀ lc : CodecConfig, supportLevel lc payload = .supported ↔
      ∃ pt, lc.localProfile.getPayload (localNumber lc.localProfile payload) = some pt ∧
        pt.mimeType = "telephone-event" := by
    intro lc
    unfold supportLevel
    cases lc.localProfile.getPayload (localNumber lc.localProfile payload) with
    | none => simp
    | some pt =>
      dsimp only
      split_ifs with hmime husable
      · simp [hmime]
      · simp [hmime]
      · simp [hmime]
  rw [htelephone, htelephone, h.localNumber_eq]
  constructor
  · rintro ⟨pt, hnew, hmime⟩
    rw [hnew, Option.map_some, eq_comm, Option.map_eq_some_iff] at hpt
    obtain ⟨pt', hold, hsettled⟩ := hpt
    refine ⟨pt', hold, ?_⟩
    rw [← PayloadType.settled_mimeType, hsettled, PayloadType.settled_mimeType, hmime]
  · rintro ⟨pt, hold, hmime⟩
    rw [hold, Option.map_some, Option.map_eq_some_iff] at hpt
    obtain ⟨pt', hnew, hsettled⟩ := hpt
    refine ⟨pt', hnew, ?_⟩
    rw [← PayloadType.settled_mimeType, hsettled, PayloadType.settled_mimeType, hmime]

end Levels

/-! The support of a payload. -/

/-- What a check of a payload leaves as it is. -/
structure Checked (app : Negotiation) (payload : SdpPayload) (s : Support) : Prop where
  lc : Alike app.lc s.app.lc
  audioParams : s.app.audioParams = app.audioParams
  videoParams : s.app.videoParams = app.videoParams
  payload : s.payload = { payload with aFmtp := s.payload.aFmtp }

lemma getPayload_toNat {prof : RtpProfile} {idx : ℤ} {pt : PayloadType}
    (h : prof.getPayload idx = some pt) : prof idx.toNat = some pt ∧ 0 ≤ idx ∧ idx < 128 := by
  unfold RtpProfile.getPayload rtpProfileMaxPayloads at h
  split_ifs at h with hrange
  exact ⟨h, by omega, by omega⟩

/-- The payload type that a usability check has left under a number. -/
lemma refetch_enabled {lc lc' : CodecConfig} (h : Akin lc lc') {idx : ℤ} {pt : PayloadType}
    (hpt : lc.localProfile.getPayload idx = some pt) :
    ((lc'.localProfile.getPayload idx).getD pt).enabled = pt.enabled := by
  have hsame := h.getPayload_eq idx
  rw [hpt, Option.map_some, Option.map_eq_some_iff] at hsame
  obtain ⟨pt', hnew, hsettled⟩ := hsame
  rw [hnew, Option.getD_some, ← PayloadType.settled_enabled, hsettled, PayloadType.settled_enabled]

lemma isSupported_answering (app : Negotiation) (payload : SdpPayload) :
    Checked app payload (linphonePayloadIsSupported app payload true) ∧
      (linphonePayloadIsSupported app payload true).level = supportLevel app.lc payload := by
  unfold linphonePayloadIsSupported supportLevel
  dsimp only
  cases hpt : app.lc.localProfile.getPayload (localNumber app.lc.localProfile payload) with
  | none => exact ⟨⟨Alike.refl _, rfl, rfl, rfl⟩, rfl⟩
  | some pt =>
    dsimp only
    by_cases hmime : pt.mimeType = "telephone-event"
    · rw [if_neg (by simp [hmime]), if_pos hmime]
      exact ⟨⟨Alike.refl _, rfl, rfl, rfl⟩, rfl⟩
    · rw [if_pos hmime, if_neg hmime, if_pos rfl, checkPayloadTypeUsability_snd]
      have halike := checkPayloadTypeUsability_alike (getPayload_toNat hpt).1
      rw [refetch_enabled halike.toAkin hpt]
      cases husable : usable app.lc pt with
      | false => exact ⟨⟨halike, rfl, rfl, rfl⟩, rfl⟩
      | true =>
        cases henabled : pt.enabled with
        | false => exact ⟨⟨halike, rfl, rfl, rfl⟩, rfl⟩
        | true => exact ⟨⟨halike, rfl, rfl, rfl⟩, rfl⟩

/-! The callbacks, by the level of support. -/

lemma updateAllocated_akin (lc : CodecConfig) (pt : PayloadType) :
    Akin lc (lc.updateAllocatedAudioBandwidthInCall pt) := ⟨rfl, rfl, rfl, rfl, rfl, rfl, rfl, rfl⟩

lemma allocateAudio_akin (app : Negotiation) (pt : Option PayloadType) :
    Akin app.lc (allocateAudio app pt).lc := by
  unfold allocateAudio
  cases pt with
  | none => exact Akin.refl _
  | some pt => exact updateAllocated_akin _ pt

/-- The audio stream that a payload sets up in a call that has none. -/
structure Selected (app : Negotiation) (payload : SdpPayload)
    (r : Negotiation × SdpPayload × ℤ) : Prop where
  lc : Akin app.lc r.1.lc
  videoParams : r.1.videoParams = app.videoParams
  initialized : r.1.audioParams.initialized = true
  line : r.1.audioParams.line = payload.line
  pt : r.1.audioParams.pt = payload.pt
  natdPort : r.1.audioParams.natdPort = app.audioParams.natdPort
  localport : r.2.1.localport = natdOr app.audioParams app.lc.audioRtpPort
  accepted : r.2.2 = 0

/-- The streams are as they were, and the answer depends on the rest. -/
structure Kept (app : Negotiation) (payload : SdpPayload) (accepts : Prop)
    (r : Negotiation × SdpPayload × ℤ) : Prop where
  lc : Alike app.lc r.1.lc
  audioParams : r.1.audioParams = app.audioParams
  videoParams : r.1.videoParams = app.videoParams
  localport : r.2.1.localport = payload.localport
  accepted : r.2.2 = 0 ↔ accepts

lemma selectPayload_fields (params : StreamParams) (payload : SdpPayload) (port : ℤ) :
    (selectPayload params payload port).initialized = true ∧
      (selectPayload params payload port).line = payload.line ∧
      (selectPayload params payload port).pt = payload.pt ∧
      (selectPayload params payload port).natdPort = params.natdPort := by
  unfold selectPayload
  cases payload.relayHost with
  | none => exact ⟨rfl, rfl, rfl, rfl⟩
  | some host => exact ⟨rfl, rfl, rfl, rfl⟩

/-- A telephone event is accepted unless one codec is enough and there is one. -/
lemma acceptAudio_supported {app : Negotiation} {payload : SdpPayload}
    (h : supportLevel app.lc payload = .supported) :
    Kept app payload (¬(app.lc.onlyOneCodec = true ∧ app.audioParams.initialized = true))
      (linphoneAcceptAudioOffer app payload) := by
  obtain ⟨hchecked, hlevel⟩ := isSupported_answering app payload
  unfold linphoneAcceptAudioOffer
  dsimp only
  rw [hlevel, h]
  generalize linphonePayloadIsSupported app payload true = s at hchecked
  have hport : s.payload.localport = payload.localport := by rw [hchecked.payload]
  rw [if_neg (by decide), hchecked.lc.onlyOneCodec, hchecked.audioParams]
  by_cases hone : app.lc.onlyOneCodec = true ∧ app.audioParams.initialized = true
  · rw [if_pos hone]
    exact ⟨hchecked.lc, hchecked.audioParams, hchecked.videoParams, hport, by simp [hone]⟩
  · rw [if_neg hone, if_neg (by decide)]
    exact ⟨hchecked.lc, hchecked.audioParams, hchecked.videoParams, hport, iff_of_true rfl hone⟩

lemma acceptAudio_unsupported {app : Negotiation} {payload : SdpPayload}
    (h : supportLevel app.lc payload = .unsupported) :
    Kept app payload False (linphoneAcceptAudioOffer app payload) := by
  obtain ⟨hchecked, hlevel⟩ := isSupported_answering app payload
  unfold linphoneAcceptAudioOffer
  dsimp only
  rw [hlevel, h, if_pos rfl]
  generalize linphonePayloadIsSupported app payload true = s at hchecked
  have hport : s.payload.localport = payload.localport := by rw [hchecked.payload]
  exact ⟨hchecked.lc, hchecked.audioParams, hchecked.videoParams, hport, by simp⟩

/-- A codec in a call with an audio stream is accepted on the stream's line only. -/
lemma acceptAudio_valid_kept {app : Negotiation} {payload : SdpPayload}
    (h : supportLevel app.lc payload = .supportedAndValid)
    (hinit : app.audioParams.initialized = true) :
    Kept app payload (app.lc.onlyOneCodec = false ∧ app.audioParams.line = payload.line)
      (linphoneAcceptAudioOffer app payload) := by
  obtain ⟨hchecked, hlevel⟩ := isSupported_answering app payload
  unfold linphoneAcceptAudioOffer
  dsimp only
  rw [hlevel, h]
  generalize linphonePayloadIsSupported app payload true = s at hchecked
  have hport : s.payload.localport = payload.localport := by rw [hchecked.payload]
  have hline : s.payload.line = payload.line := by rw [hchecked.payload]
  rw [if_neg (by decide), hchecked.lc.onlyOneCodec, hchecked.audioParams, if_pos rfl, hinit, hline]
  split_ifs with hone hinit' hother
  · exact ⟨hchecked.lc, hchecked.audioParams, hchecked.videoParams, hport, by simp [hone]⟩
  · simp at hinit'
  · exact ⟨hchecked.lc, hchecked.audioParams, hchecked.videoParams, hport, by simp [hother]⟩
  · refine ⟨hchecked.lc, hchecked.audioParams, hchecked.videoParams, hport, ?_⟩
    rw [not_not] at hother
    simpa [hother] using hone

/-- The first codec in a call without an audio stream sets it up. -/
lemma acceptAudio_valid_selects {app : Negotiation} {payload : SdpPayload}
    (h : supportLevel app.lc payload = .supportedAndValid)
    (hinit : app.audioParams.initialized = false) :
    Selected app payload (linphoneAcceptAudioOffer app payload) := by
  obtain ⟨hchecked, hlevel⟩ := isSupported_answering app payload
  unfold linphoneAcceptAudioOffer
  dsimp only
  rw [hlevel, h]
  generalize linphonePayloadIsSupported app payload true = s at hchecked
  have hline : s.payload.line = payload.line := by rw [hchecked.payload]
  have hpt : s.payload.pt = payload.pt := by rw [hchecked.payload]
  obtain ⟨hset, hsetLine, hsetPt, hsetNatd⟩ :=
    selectPayload_fields s.app.audioParams s.payload s.app.lc.audioRtpPort
  rw [if_neg (by decide), hchecked.audioParams, hinit, if_neg (by simp), if_pos rfl,
    if_pos (by simp)]
  rw [hchecked.audioParams] at hset hsetLine hsetPt hsetNatd
  have hlc : ∀ params, Akin app.lc
      (allocateAudio { s.app with audioParams := params } s.localType).lc :=
    fun params => hchecked.lc.toAkin.trans (allocateAudio_akin _ _)
  refine ⟨hlc _, hchecked.videoParams, hset, hsetLine.trans hline, hsetPt.trans hpt, hsetNatd, ?_,
    rfl⟩
  dsimp only
  rw [(hlc _).audioRtpPort]

end MTalk.Phone
