import MTalk.Library.CStrings

/-!
# The SDP handler

`CSdpHandler`: the offer of a call, the answer to a remote offer and the reading of a remote
answer. The messages are those of libosip2, of which `Osip` has the functions that are called, and
the codecs are chosen by the callbacks of an `SdpHandler`, whose state is a parameter.
-/

namespace MTalk.Phone

open CStrings

structure SdpAttribute where
  field : String
  value : Option String
deriving DecidableEq

structure SdpBandwidth where
  bwtype : String
  bandwidth : String
deriving DecidableEq

/-- An `m=` line with the lines that belong to it. -/
structure SdpMedia where
  media : String
  port : String
  proto : String
  payloads : List String
  cAddr : Option String
  bandwidths : List SdpBandwidth
  attributes : List SdpAttribute
deriving DecidableEq

namespace SdpMedia

def addPayload (payload : String) (m : SdpMedia) : SdpMedia :=
  { m with payloads := m.payloads ++ [payload] }

def addAttribute (field value : String) (m : SdpMedia) : SdpMedia :=
  { m with attributes := m.attributes ++ [⟨field, some value⟩] }

def addBandwidth (bwtype bandwidth : String) (m : SdpMedia) : SdpMedia :=
  { m with bandwidths := m.bandwidths ++ [⟨bwtype, bandwidth⟩] }

/-- A line as `sdp_message_m_media_add` adds it. -/
def new (media port proto : String) : SdpMedia :=
  ⟨media, port, proto, [], none, [], []⟩

end SdpMedia

/-- The functions of libosip2 on messages. What its getters show of a message is `medias` and the
address of the session, and a function that adds to a line does nothing when there is no such
line. -/
structure Osip (Msg : Type) where
  medias : Msg → List SdpMedia
  cAddr : Msg → Option String
  init : Msg
  cConnectionAdd : Msg → String → String → Msg
  mMediaAdd : Msg → String → String → String → Msg
  mPayloadAdd : Msg → ℕ → String → Msg
  aAttributeAdd : Msg → ℕ → String → String → Msg
  bBandwidthAdd : Msg → ℕ → String → String → Msg
  osipAtoi : String → ℤ
  medias_init : medias init = []
  medias_cConnectionAdd : ∀ m addrtype addr, medias (cConnectionAdd m addrtype addr) = medias m
  medias_mMediaAdd : ∀ m media port proto,
    medias (mMediaAdd m media port proto) = medias m ++ [SdpMedia.new media port proto]
  medias_mPayloadAdd : ∀ m i payload,
    medias (mPayloadAdd m i payload) = (medias m).modify i (SdpMedia.addPayload payload)
  medias_aAttributeAdd : ∀ m i field value,
    medias (aAttributeAdd m i field value) = (medias m).modify i (SdpMedia.addAttribute field value)
  medias_bBandwidthAdd : ∀ m i bwtype bandwidth, medias (bBandwidthAdd m i bwtype bandwidth) =
    (medias m).modify i (SdpMedia.addBandwidth bwtype bandwidth)
  cAddr_cConnectionAdd : ∀ m addrtype addr, cAddr (cConnectionAdd m addrtype addr) = some addr
  cAddr_mMediaAdd : ∀ m media port proto, cAddr (mMediaAdd m media port proto) = cAddr m
  cAddr_mPayloadAdd : ∀ m i payload, cAddr (mPayloadAdd m i payload) = cAddr m
  cAddr_aAttributeAdd : ∀ m i field value, cAddr (aAttributeAdd m i field value) = cAddr m
  cAddr_bBandwidthAdd : ∀ m i bwtype bandwidth,
    cAddr (bBandwidthAdd m i bwtype bandwidth) = cAddr m
  osipAtoi_toString : ∀ n : ℤ, osipAtoi (toString n) = n

/-- `sdp_payload_t`; a pointer that may be `NULL` is an option. -/
structure SdpPayload where
  line : ℕ
  pt : ℤ
  localport : ℤ
  remoteport : ℤ
  bAsBandwidth : ℤ
  proto : Option String
  cAddr : Option String
  aRtpmap : Option String
  aFmtp : Option String
  relayHost : Option String
  relayPort : ℤ
  relaySessionId : Option String
  aPtime : ℤ
deriving DecidableEq

def sdpPayloadInit : SdpPayload where
  line := 0
  pt := 0
  localport := 0
  remoteport := 0
  bAsBandwidth := 0
  proto := none
  cAddr := none
  aRtpmap := none
  aFmtp := none
  relayHost := none
  relayPort := 0
  relaySessionId := none
  aPtime := 0

/-- `sdp_context_t` without the handler and the user's pointer. `answerstr` is the message that it
is the text of. -/
structure SdpContext (Msg : Type) where
  localip : String
  username : String
  offer : Option Msg
  answer : Option Msg
  answerstr : Option Msg
  relay : Option String
  relaySessionId : Option String
  negocStatus : ℤ
  incb : Bool

/-- `sdp_handler_t`: the callbacks, which work on the application's state. -/
structure SdpHandler (App Msg : Type) where
  acceptAudioCodecs : Option (App → SdpPayload → App × SdpPayload × ℤ)
  acceptVideoCodecs : Option (App → SdpPayload → App × SdpPayload × ℤ)
  setAudioCodecs : Option (App → SdpContext Msg → App × SdpContext Msg)
  setVideoCodecs : Option (App → SdpContext Msg → App × SdpContext Msg)
  getAudioCodecs : Option (App → SdpPayload → App)
  getVideoCodecs : Option (App → SdpPayload → App)

/-! What is read from a message. -/

/-- `sdp_message_a_attr_value_get_with_pt`. -/
def sdpMessageAAttrValueGetWithPt (m : SdpMedia) (pt : ℤ) (field : String) : Option String :=
  m.attributes.findSome? fun attr =>
    if startsWith field attr.field then
      match attr.value.bind scanInt with
      | some (n, rest) => if n = pt ∧ rest ≠ "" then some rest else none
      | none => none
    else none

/-- `sdp_message_a_attr_value_get`. -/
def sdpMessageAAttrValueGet (m : SdpMedia) (field : String) : Option String :=
  m.attributes.findSome? fun attr => if startsWith field attr.field then attr.value else none

/-- `_sdp_message_get_a_ptime`. -/
def sdpMessageGetAPtime (m : SdpMedia) : ℤ :=
  (m.attributes.findSome? fun attr =>
    if startsWith "ptime" attr.field then (attr.value.bind scanInt).map Prod.fst else none).getD 0

/-- `parse_relay_addr`: the host and the port, which follows the last colon. -/
def parseRelayAddr (addr : String) : String × ℤ :=
  match splitFirst ':' addr.toList.reverse with
  | none => (addr, 56789)
  | some (port, host) => (String.ofList host.reverse, atoi (String.ofList port.reverse))

/-- The application specific bandwidth of a line, the last one if there are several. -/
def asBandwidth (m : SdpMedia) : ℤ :=
  m.bandwidths.foldl (fun n b => if caseEq b.bwtype "AS" then atoi b.bandwidth else n) 0

variable {App Msg : Type} (osip : Osip Msg)

/-- What the payloads of a line have in common. -/
def linePayload (remote : Msg) (i : ℕ) (m : SdpMedia) : SdpPayload :=
  let relay := (sdpMessageAAttrValueGet m "relay-addr").map parseRelayAddr
  { sdpPayloadInit with
    line := i
    remoteport := osip.osipAtoi m.port
    proto := some m.proto
    cAddr := m.cAddr.or (osip.cAddr remote)
    relayHost := relay.map Prod.fst
    relayPort := (relay.map Prod.snd).getD 0
    relaySessionId := sdpMessageAAttrValueGet m "relay-session-id"
    bAsBandwidth := asBandwidth m
    aPtime := sdpMessageGetAPtime m }

/-- A payload of a line with its attributes. -/
def codecPayload (init : SdpPayload) (m : SdpMedia) (pt : String) : SdpPayload :=
  { init with
    pt := osip.osipAtoi pt
    aRtpmap := sdpMessageAAttrValueGetWithPt m (osip.osipAtoi pt) "rtpmap"
    aFmtp := sdpMessageAAttrValueGetWithPt m (osip.osipAtoi pt) "fmtp" }

/-! What is added to a message. -/

/-- `int_2char`. -/
def int2char (a : ℤ) : String := toString a

/-- `sdp_context_generate_template`, as far as the handler reads it. -/
def sdpContextGenerateTemplate (ctx : SdpContext Msg) : Msg :=
  osip.cConnectionAdd osip.init (if ':' ∈ ctx.localip.toList then "IP6" else "IP4") ctx.localip

def addRelayInfo (sdp : Msg) (mline : ℕ) (relay relaySessionId : Option String) : Msg :=
  let sdp := match relay with
    | some relay => osip.aAttributeAdd sdp mline "relay-addr" relay
    | none => sdp
  match relaySessionId with
  | some session => osip.aAttributeAdd sdp mline "relay-session-id" session
  | none => sdp

/-- Attribute `field` of a payload, unless it has none. -/
def addPtAttribute (sdp : Msg) (line : ℕ) (pt : ℤ) (field : String) (value : Option String) : Msg :=
  match value with
  | some v => osip.aAttributeAdd sdp line field (toString pt ++ " " ++ v)
  | none => sdp

/-- The first bandwidth of a line. -/
def bandwidthGet (sdp : Msg) (line : ℕ) : Option SdpBandwidth :=
  (osip.medias sdp)[line]?.bind fun m => m.bandwidths.head?

/-- A payload with its rtpmap, fmtp and bandwidth, on the line that it names. -/
def addCodec (sdp : Msg) (line : ℕ) (payload : SdpPayload) : Msg :=
  let sdp := osip.mPayloadAdd sdp line (int2char payload.pt)
  let sdp := addPtAttribute osip sdp line payload.pt "rtpmap" payload.aRtpmap
  let sdp := addPtAttribute osip sdp line payload.pt "fmtp" payload.aFmtp
  if payload.bAsBandwidth ≠ 0 ∧ bandwidthGet osip sdp line = none then
    osip.bBandwidthAdd sdp line "AS" (toString payload.bAsBandwidth)
  else sdp

/-- `sdp_context_add_payload`, on the offer. -/
def sdpContextAddPayload (ctx : SdpContext Msg) (payload : SdpPayload) (media : String) :
    SdpContext Msg :=
  match ctx.offer with
  | none => ctx
  | some offer =>
    let offer :=
      if (osip.medias offer)[payload.line]?.isNone then
        let offer := osip.mMediaAdd offer media (int2char payload.localport)
          (payload.proto.getD "RTP/AVP")
        if ctx.relay.isSome then
          addRelayInfo osip offer payload.line ctx.relay ctx.relaySessionId
        else offer
      else offer
    { ctx with offer := some (addCodec osip offer payload.line payload) }

def sdpContextAddAudioPayload (ctx : SdpContext Msg) (payload : SdpPayload) : SdpContext Msg :=
  sdpContextAddPayload osip ctx payload "audio"

def sdpContextAddVideoPayload (ctx : SdpContext Msg) (payload : SdpPayload) : SdpContext Msg :=
  sdpContextAddPayload osip ctx payload "video"

/-- A callback that may be `NULL`, on the application and the context. -/
def runSetCodecs (callback : Option (App → SdpContext Msg → App × SdpContext Msg))
    (p : App × SdpContext Msg) : App × SdpContext Msg :=
  match callback with
  | some set => set p.1 p.2
  | none => p

def sdpContextGetOffer (handler : SdpHandler App Msg) (app : App) (ctx : SdpContext Msg) :
    App × SdpContext Msg :=
  let ctx := { ctx with offer := some (sdpContextGenerateTemplate osip ctx), incb := true }
  let p := runSetCodecs handler.setVideoCodecs (runSetCodecs handler.setAudioCodecs (app, ctx))
  (p.1, { p.2 with incb := false })

/-! The answer to an offer. -/

def refuseMline (answer : Msg) (mtype proto : String) (mline : ℕ) : Msg :=
  osip.mPayloadAdd (osip.mMediaAdd answer mtype (int2char 0) proto) mline (int2char 0)

/-- The application, the answer and a counter: of the codecs of a line, or of the lines. -/
structure Answering (App Msg : Type) where
  app : App
  answer : Msg
  accepted : ℕ

/-- One payload of an offered line: the application is asked, and the first codec that it accepts
sets up the line. -/
def acceptPayload (accept : App → SdpPayload → App × SdpPayload × ℤ) (ctx : SdpContext Msg)
    (i : ℕ) (m : SdpMedia) (init : SdpPayload) (st : Answering App Msg) (pt : String) :
    Answering App Msg :=
  let asked := accept st.app (codecPayload osip init m pt)
  let payload := asked.2.1
  if asked.2.2 = 0 then
    let answer :=
      if st.accepted = 0 then
        let answer := osip.mMediaAdd st.answer m.media (int2char payload.localport) m.proto
        if ctx.relay.isSome ∧ init.relayHost.isSome then
          addRelayInfo osip answer i init.relayHost payload.relaySessionId
        else answer
      else st.answer
    ⟨asked.1, addCodec osip answer i payload, st.accepted + 1⟩
  else ⟨asked.1, st.answer, st.accepted⟩

/-- An offered line of a media type with a callback, which may be `NULL`. -/
def answerLine (callback : Option (App → SdpPayload → App × SdpPayload × ℤ)) (ctx : SdpContext Msg)
    (remote : Msg) (i : ℕ) (m : SdpMedia) (st : Answering App Msg) : Answering App Msg :=
  match callback with
  | none => ⟨st.app, refuseMline osip st.answer m.media m.proto i, st.accepted⟩
  | some accept =>
    let line := m.payloads.foldl (acceptPayload osip accept ctx i m (linePayload osip remote i m))
      ⟨st.app, st.answer, 0⟩
    if line.accepted = 0 then
      ⟨line.app, refuseMline osip line.answer m.media m.proto i, st.accepted⟩
    else ⟨line.app, line.answer, st.accepted + 1⟩

/-- The body of the loop over the offered lines. A line that is neither audio nor video is passed
over. -/
def answerMedia (handler : SdpHandler App Msg) (ctx : SdpContext Msg) (remote : Msg) (i : ℕ)
    (m : SdpMedia) (st : Answering App Msg) : Answering App Msg :=
  if startsWith "audio" m.media then
    answerLine osip handler.acceptAudioCodecs ctx remote i m st
  else if startsWith "video" m.media then
    answerLine osip handler.acceptVideoCodecs ctx remote i m st
  else st

def answerMedias (handler : SdpHandler App Msg) (ctx : SdpContext Msg) (remote : Msg) :
    ℕ → List SdpMedia → Answering App Msg → Answering App Msg
  | _, [], st => st
  | i, m :: ms, st =>
    answerMedias handler ctx remote (i + 1) ms (answerMedia osip handler ctx remote i m st)

/-- `sdp_context_get_answer`; the answer is returned when a line was accepted. -/
def sdpContextGetAnswer (handler : SdpHandler App Msg) (app : App) (ctx : SdpContext Msg)
    (remote : Msg) : App × SdpContext Msg × Option Msg :=
  let st := answerMedias osip handler ctx remote 0 (osip.medias remote)
    ⟨app, sdpContextGenerateTemplate osip ctx, 0⟩
  if 0 < st.accepted then
    (st.app, { ctx with answer := some st.answer, answerstr := some st.answer, negocStatus := 200 },
      some st.answer)
  else (st.app, { ctx with answer := some st.answer, negocStatus := 415 }, none)

/-! The reading of an answer. -/

/-- An answered line of a media type with a callback, which may be `NULL`. -/
def readLine (callback : Option (App → SdpPayload → App)) (init : SdpPayload) (m : SdpMedia)
    (app : App) : App :=
  match callback with
  | none => app
  | some get => m.payloads.foldl (fun app pt => get app (codecPayload osip init m pt)) app

/-- The local port of a line is the one that was offered. -/
def readMedia (handler : SdpHandler App Msg) (ctx : SdpContext Msg) (remote : Msg) (i : ℕ)
    (m : SdpMedia) (app : App) : App :=
  let offered := ctx.offer.bind fun offer => (osip.medias offer)[i]?
  let init := { linePayload osip remote i m with
    localport := osip.osipAtoi ((offered.map SdpMedia.port).getD "") }
  if startsWith "audio" m.media then readLine osip handler.getAudioCodecs init m app
  else if startsWith "video" m.media then readLine osip handler.getVideoCodecs init m app
  else app

def readMedias (handler : SdpHandler App Msg) (ctx : SdpContext Msg) (remote : Msg) :
    ℕ → List SdpMedia → App → App
  | _, [], app => app
  | i, m :: ms, app =>
    readMedias handler ctx remote (i + 1) ms (readMedia osip handler ctx remote i m app)

/-- `sdp_context_read_answer`. -/
def sdpContextReadAnswer (handler : SdpHandler App Msg) (app : App) (ctx : SdpContext Msg)
    (remote : Msg) : App :=
  readMedias osip handler ctx remote 0 (osip.medias remote) app

/-! The messages as plain data. -/

structure SdpMessage where
  cAddr : Option String
  medias : List SdpMedia
deriving DecidableEq

/-- libosip2 on plain data. -/
def plainOsip : Osip SdpMessage where
  medias := SdpMessage.medias
  cAddr := SdpMessage.cAddr
  init := ⟨none, []⟩
  cConnectionAdd m _ addr := { m with cAddr := some addr }
  mMediaAdd m media port proto := { m with medias := m.medias ++ [SdpMedia.new media port proto] }
  mPayloadAdd m i payload := { m with medias := m.medias.modify i (SdpMedia.addPayload payload) }
  aAttributeAdd m i field value :=
    { m with medias := m.medias.modify i (SdpMedia.addAttribute field value) }
  bBandwidthAdd m i bwtype bandwidth :=
    { m with medias := m.medias.modify i (SdpMedia.addBandwidth bwtype bandwidth) }
  osipAtoi := atoi
  medias_init := rfl
  medias_cConnectionAdd _ _ _ := rfl
  medias_mMediaAdd _ _ _ _ := rfl
  medias_mPayloadAdd _ _ _ := rfl
  medias_aAttributeAdd _ _ _ _ := rfl
  medias_bBandwidthAdd _ _ _ _ := rfl
  cAddr_cConnectionAdd _ _ _ := rfl
  cAddr_mMediaAdd _ _ _ _ := rfl
  cAddr_mPayloadAdd _ _ _ := rfl
  cAddr_aAttributeAdd _ _ _ _ := rfl
  cAddr_bBandwidthAdd _ _ _ _ := rfl
  osipAtoi_toString := atoi_toString

def plainContext : SdpContext SdpMessage :=
  ⟨"192.0.2.2", "user", none, none, none, none, none, 0, false⟩

end MTalk.Phone
