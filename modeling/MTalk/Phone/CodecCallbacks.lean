import MTalk.Phone.LinphoneCore
import MTalk.Phone.Payloads
import MTalk.Phone.SdpHandler

/-!
# The codec callbacks

The callbacks with which the phone takes part in a negotiation: they offer the codecs of the lists,
accept or refuse the payloads of an offer and read those of an answer. Together with the SDP
handler they are the `MediaLayer` of the calls.
-/

namespace MTalk.Phone

open CStrings

inductive SupportLevel where
  | unsupported
  | supported
  | supportedAndValid
deriving DecidableEq

structure StreamParams where
  initialized : Bool
  line : ℕ
  localport : ℤ
  remoteport : ℤ
  remotertcpport : ℤ
  pt : ℤ
  relaySessionId : Option String
  natdPort : ℤ
  remoteaddr : Option String
deriving DecidableEq

/-- The parameters that `memset` leaves. -/
def StreamParams.zero : StreamParams := ⟨false, 0, 0, 0, 0, 0, none, 0, none⟩

/-- What the callbacks work on: their part of the core and of the call with its dialog profile. -/
structure Negotiation where
  lc : CodecConfig
  audioParams : StreamParams
  videoParams : StreamParams
  profile : RtpProfile

/-! Whether a payload is supported. -/

/-- The bitrate of a codec under the bandwidth constraints of both sides. -/
def constrainedBitrate (lc : CodecConfig) (payload : SdpPayload) (pt : PayloadType) : ℤ :=
  let ubw := if pt.kind = .video then lc.upVideoBw else lc.upAudioBw
  if payload.bAsBandwidth ≠ 0 then 1000 * getMinBandwidth payload.bAsBandwidth ubw
  else if 0 < ubw then 1000 * ubw
  else if pt.kind ≠ .video then -1
  else pt.normalBitrate

/-- The payload type that the dialog profile gets for a payload. -/
def dialogPayload (lc : CodecConfig) (payload : SdpPayload) (pt : PayloadType) : PayloadType :=
  let pt := { pt with normalBitrate := constrainedBitrate lc payload pt }
  let pt := (payload.aFmtp.map pt.setSendFmtp).getD pt
  if 0 < payload.aPtime then pt.appendSendFmtp ("ptime=" ++ toString payload.aPtime) else pt

/-- The payload's number in the local profile. -/
def localNumber (prof : RtpProfile) (payload : SdpPayload) : ℤ :=
  match payload.aRtpmap with
  | some rtpmap => findPayloadTypeNumberBestMatch prof rtpmap payload.aFmtp
  | none => payload.pt

/-- The result of `linphone_payload_is_supported` with the payload's local payload type. -/
structure Support where
  app : Negotiation
  payload : SdpPayload
  level : SupportLevel
  localType : Option PayloadType

/-- Enters a payload that is understood into the dialog profile. The payload goes on with the
format parameters for receiving. -/
def enterPayload (app : Negotiation) (payload : SdpPayload) (pt : PayloadType)
    (level : SupportLevel) : Support :=
  let entered := dialogPayload app.lc payload pt
  { app := { app with profile := app.profile.setPayload payload.pt entered }
    payload := { payload with aFmtp := pt.recvFmtp }
    level := level
    localType := some pt }

/-- `linphone_payload_is_supported`. The bandwidth is only checked when answering. -/
def linphonePayloadIsSupported (app : Negotiation) (payload : SdpPayload) (answering : Bool) :
    Support :=
  let localpt := localNumber app.lc.localProfile payload
  match app.lc.localProfile.getPayload localpt with
  | none => ⟨app, payload, .unsupported, none⟩
  | some pt =>
    if pt.mimeType ≠ "telephone-event" then
      let check :=
        if answering then app.lc.checkPayloadTypeUsability localpt.toNat pt else (app.lc, true)
      let app := { app with lc := check.1 }
      let pt := (check.1.localProfile.getPayload localpt).getD pt
      if !check.2 then ⟨app, payload, .unsupported, some pt⟩
      else if !pt.enabled then ⟨app, payload, .unsupported, some pt⟩
      else enterPayload app payload pt .supportedAndValid
    else enterPayload app payload pt .supported

/-! The stream of a media type. -/

def natdOr (params : StreamParams) (port : ℤ) : ℤ :=
  if 0 < params.natdPort then params.natdPort else port

/-- A copy into a host name, of which there is room for all but the last character. -/
def hostname (addr : String) : String := String.ofList (addr.toList.take 127)

/-- The stream that the first valid payload sets up, on the local port and towards the address of
the payload or its relay. -/
def selectPayload (params : StreamParams) (payload : SdpPayload) (port : ℤ) : StreamParams :=
  match payload.relayHost with
  | some host =>
    { params with
      localport := port
      line := payload.line
      pt := payload.pt
      remoteaddr := some (hostname host)
      remoteport := payload.relayPort
      remotertcpport := payload.relayPort
      relaySessionId := payload.relaySessionId
      initialized := true }
  | none =>
    { params with
      localport := port
      line := payload.line
      pt := payload.pt
      remoteaddr := payload.cAddr.map hostname
      remoteport := payload.remoteport
      remotertcpport := payload.remoteport + 1
      initialized := true }

def positive (bw : ℤ) : ℤ := if 0 < bw then bw else 0

/-- The bandwidth that is left for video follows from the audio codec. -/
def allocateAudio (app : Negotiation) (pt : Option PayloadType) : Negotiation :=
  { app with lc := (pt.map app.lc.updateAllocatedAudioBandwidthInCall).getD app.lc }

def linphoneAcceptAudioOffer (app : Negotiation) (payload : SdpPayload) :
    Negotiation × SdpPayload × ℤ :=
  let s := linphonePayloadIsSupported app payload true
  if s.level = .unsupported then (s.app, s.payload, -1)
  else if s.app.lc.onlyOneCodec ∧ s.app.audioParams.initialized then (s.app, s.payload, -1)
  else if s.level = .supportedAndValid then
    if !s.app.audioParams.initialized then
      let params := selectPayload s.app.audioParams s.payload s.app.lc.audioRtpPort
      let app := allocateAudio { s.app with audioParams := params } s.localType
      let payload := { s.payload with
        localport := natdOr s.app.audioParams app.lc.audioRtpPort
        bAsBandwidth := positive app.lc.dwAudioBw }
      (app, payload, 0)
    else if s.app.audioParams.line ≠ s.payload.line then (s.app, s.payload, -1)
    else (s.app, s.payload, 0)
  else (s.app, s.payload, 0)

/-- The video line is taken for refused, but returned as accepted, when it is offered with port
zero. -/
def linphoneAcceptVideoOffer (app : Negotiation) (payload : SdpPayload) :
    Negotiation × SdpPayload × ℤ :=
  if !app.lc.videoEnabled then (app, payload, -1)
  else if payload.remoteport = 0 then (app, payload, 0)
  else
    let s := linphonePayloadIsSupported app payload true
    if s.level = .unsupported then (s.app, s.payload, -1)
    else if s.app.lc.onlyOneCodec ∧ s.app.videoParams.initialized then (s.app, s.payload, -1)
    else if s.level = .supportedAndValid then
      if !s.app.videoParams.initialized then
        let params := selectPayload s.app.videoParams s.payload s.app.lc.videoRtpPort
        let payload := { s.payload with
          localport := natdOr s.app.videoParams s.app.lc.videoRtpPort
          bAsBandwidth := positive s.app.lc.dwVideoBw }
        ({ s.app with videoParams := params }, payload, 0)
      else if s.app.videoParams.line ≠ s.payload.line then (s.app, s.payload, -1)
      else (s.app, s.payload, 0)
    else (s.app, s.payload, 0)

def linphoneReadAudioAnswer (app : Negotiation) (payload : SdpPayload) : Negotiation :=
  let s := linphonePayloadIsSupported app payload false
  if s.level = .supportedAndValid ∧ s.app.audioParams.initialized = false then
    let params := selectPayload s.app.audioParams s.payload s.app.lc.audioRtpPort
    allocateAudio { s.app with audioParams := params } s.localType
  else s.app

def linphoneReadVideoAnswer (app : Negotiation) (payload : SdpPayload) : Negotiation :=
  let s := linphonePayloadIsSupported app payload false
  if s.level = .supportedAndValid ∧ s.app.videoParams.initialized = false then
    { s.app with
      videoParams := selectPayload s.app.videoParams s.payload s.app.lc.videoRtpPort }
  else s.app

/-! The offers. -/

variable {Msg : Type} (osip : Osip Msg)

/-- The codec of a list that is offered: it fits the bandwidth and is enabled. -/
def offerable (app : Negotiation) (i : ℕ) : Negotiation × Option PayloadType :=
  match app.lc.localProfile.getPayload i with
  | none => (app, none)
  | some codec =>
    let check := app.lc.checkPayloadTypeUsability i codec
    let app := { app with lc := check.1 }
    let codec := (check.1.localProfile.getPayload i).getD codec
    (app, if check.2 && codec.enabled then some codec else none)

/-- The payload of an audio codec. Its rtpmap names one channel. -/
def audioPayload (app : Negotiation) (codec : PayloadType) : SdpPayload :=
  let rtpmap := codec.mimeType ++ "/" ++ toString codec.clockRate ++ "/1"
  { sdpPayloadInit with
    aRtpmap := some rtpmap
    pt := app.lc.localProfile.getPayloadNumberFromRtpmap rtpmap
    localport := natdOr app.audioParams app.lc.audioRtpPort
    aFmtp := if caseEq codec.mimeType "iLBC" then some "ptime=30" else none }

def offerAudioCodec (p : Negotiation × SdpContext Msg) (i : ℕ) : Negotiation × SdpContext Msg :=
  let offered := offerable p.1 i
  match offered.2 with
  | some codec =>
    (offered.1, sdpContextAddAudioPayload osip p.2 (audioPayload offered.1 codec))
  | none => (offered.1, p.2)

def telephoneEventPayload (app : Negotiation) : SdpPayload :=
  { sdpPayloadInit with
    pt := app.lc.localProfile.getPayloadNumberFromMime "telephone-event"
    aRtpmap := some "telephone-event/8000"
    aFmtp := some "0-11"
    bAsBandwidth := positive app.lc.dwAudioBw }

/-- `linphone_set_audio_offer`: the codecs of the list and the telephone events. -/
def linphoneSetAudioOffer (app : Negotiation) (ctx : SdpContext Msg) :
    Negotiation × SdpContext Msg :=
  let p := app.lc.audioCodecs.foldl (offerAudioCodec osip) (app, ctx)
  (p.1, sdpContextAddAudioPayload osip p.2 (telephoneEventPayload p.1))

def videoPayload (app : Negotiation) (codec : PayloadType) (firsttime : Bool) : SdpPayload :=
  { sdpPayloadInit with
    line := 1
    aRtpmap := some (codec.mimeType ++ "/" ++ toString codec.clockRate)
    localport := natdOr app.videoParams app.lc.videoRtpPort
    pt := app.lc.localProfile.findPayloadTypeNumber codec.mimeType codec.clockRate codec.recvFmtp
    aFmtp := codec.recvFmtp
    bAsBandwidth := if firsttime then positive app.lc.dwVideoBw else 0 }

def offerVideoCodec (p : (Negotiation × SdpContext Msg) × Bool) (i : ℕ) :
    (Negotiation × SdpContext Msg) × Bool :=
  let offered := offerable p.1.1 i
  match offered.2 with
  | some codec =>
    ((offered.1, sdpContextAddVideoPayload osip p.1.2 (videoPayload offered.1 codec p.2)), false)
  | none => ((offered.1, p.1.2), p.2)

def linphoneSetVideoOffer (app : Negotiation) (ctx : SdpContext Msg) :
    Negotiation × SdpContext Msg :=
  if !app.lc.videoEnabled then (app, ctx)
  else (app.lc.videoCodecs.foldl (offerVideoCodec osip) ((app, ctx), true)).1

/-- The callbacks that `CPhoneCore` installs. -/
def linphoneSdphandler : SdpHandler Negotiation Msg where
  acceptAudioCodecs := some linphoneAcceptAudioOffer
  acceptVideoCodecs := some linphoneAcceptVideoOffer
  setAudioCodecs := some (linphoneSetAudioOffer osip)
  setVideoCodecs := some (linphoneSetVideoOffer osip)
  getAudioCodecs := some linphoneReadAudioAnswer
  getVideoCodecs := some linphoneReadVideoAnswer

/-! The media layer of the calls. -/

/-- The negotiated part of a call. -/
structure CallMedia (Msg : Type) where
  audioParams : StreamParams
  videoParams : StreamParams
  profile : RtpProfile
  sdpctx : SdpContext Msg

def CallMedia.negotiation (media : CallMedia Msg) (lc : CodecConfig) : Negotiation :=
  ⟨lc, media.audioParams, media.videoParams, media.profile⟩

def CallMedia.withResult (media : CallMedia Msg) (app : Negotiation) (ctx : SdpContext Msg) :
    CallMedia Msg :=
  { media with
    audioParams := app.audioParams
    videoParams := app.videoParams
    profile := app.profile
    sdpctx := ctx }

/-- `linphone_call_init_media_params`. -/
def linphoneCallInitMediaParams (media : CallMedia Msg) : CallMedia Msg :=
  { media with audioParams := .zero, videoParams := .zero }

/-- The SDP handler with the callbacks of the phone. A message without SDP is not read. -/
def phoneLayer : MediaLayer CodecConfig (CallMedia Msg) Msg where
  initMediaParams := linphoneCallInitMediaParams
  getOffer lc media :=
    let p := sdpContextGetOffer osip (linphoneSdphandler osip) (media.negotiation lc) media.sdpctx
    (p.1.lc, media.withResult p.1 p.2, p.2.offer.isSome)
  getAnswer lc media sdp :=
    match sdp with
    | none => (lc, media, media.sdpctx.negocStatus)
    | some remote =>
      let p := sdpContextGetAnswer osip (linphoneSdphandler osip) (media.negotiation lc)
        media.sdpctx remote
      (p.1.lc, media.withResult p.1 p.2.1, p.2.1.negocStatus)
  readAnswer lc media sdp :=
    match sdp with
    | none => (lc, media)
    | some remote =>
      let app := sdpContextReadAnswer osip (linphoneSdphandler osip) (media.negotiation lc)
        media.sdpctx remote
      (app.lc, media.withResult app media.sdpctx)
  hasAnswer media := media.sdpctx.answerstr.isSome
  videoRemote media := 0 < media.videoParams.remoteport
  updateBandwidth := CodecConfig.updateAllocatedAudioBandwidth

/-! A phone with one codec and telephone events. -/

def pcmu : PayloadType := ⟨.audioContinuous, 8000, 64000, "PCMU", 1, none, none, true⟩

def telephoneEvent : PayloadType :=
  ⟨.audioPacketized, 8000, 0, "telephone-event", 1, none, none, true⟩

def plainConfig : CodecConfig where
  localProfile i := if i = 0 then some pcmu else if i = 101 then some telephoneEvent else none
  audioCodecs := [0]
  videoCodecs := []
  audioRtpPort := 7078
  videoRtpPort := 9078
  onlyOneCodec := false
  videoEnabled := false
  downloadBw := 0
  uploadBw := 0
  audioBw := 80
  dwAudioBw := -1
  dwVideoBw := -1
  upAudioBw := -1
  upVideoBw := -1

def plainNegotiation : Negotiation := ⟨plainConfig, .zero, .zero, fun _ => none⟩

def plainMedia : CallMedia SdpMessage := ⟨.zero, .zero, fun _ => none, plainContext⟩

end MTalk.Phone
