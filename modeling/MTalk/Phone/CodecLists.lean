import MTalk.Config.Restarts
import MTalk.Phone.Payloads

/-!
# The codec lists of the user

The audio and the video codecs in the order of the user, with the flags of those that are enabled.
`codecs_config_uninit` writes them into the configuration by a few of their attributes, and at the
next start `codecs_config_read` looks for a payload of the profile for each entry, marks it as used,
and adds the payloads that are left.
-/

namespace MTalk.Phone

open CStrings Config

/-! Filters. -/

inductive FilterCategory where
  | encoder
  | decoder
  | other
  deriving DecidableEq

/-- `MSFilterDesc`. -/
structure FilterDesc where
  category : FilterCategory
  encFmt : String
  text : String

/-- `desc_list`. Every encoder and every decoder names its format. -/
structure FilterList where
  descs : List FilterDesc
  named : ∀ desc ∈ descs, desc.category ≠ .other → desc.encFmt ≠ ""

namespace FilterList

/-- `ms_filter_get_encoder`. -/
def getEncoder (filters : FilterList) (mime : String) : Option FilterDesc :=
  filters.descs.find? fun desc => desc.category = .encoder && caseEq desc.encFmt mime

/-- `ms_filter_get_decoder`. -/
def getDecoder (filters : FilterList) (mime : String) : Option FilterDesc :=
  filters.descs.find? fun desc => desc.category = .decoder && caseEq desc.encFmt mime

/-- `ms_filter_codec_supported`. -/
def codecSupported (filters : FilterList) (mime : String) : Bool :=
  (filters.getEncoder mime).isSome && (filters.getDecoder mime).isSome

/-- The text of the encoder. -/
def encoderText (filters : FilterList) (mime : String) : String :=
  ((filters.getEncoder mime).map FilterDesc.text).getD ""

end FilterList

/-! The configuration. -/

/-- The payload type that `get_codec` makes of an entry. -/
structure ConfigCodec where
  mimeType : String
  clockRate : ℤ
  recvFmtp : Option String
  enabled : Bool

def codecKey (type : String) (index : ℕ) : String := type ++ "_" ++ toString (index : ℤ)

/-- `get_codec`. -/
def getCodec (c : LpConfig) (type : String) (index : ℕ) : Option ConfigCodec :=
  match c.getString (codecKey type index) "mime" with
  | none => none
  | some mime =>
    if mime = "" then none
    else some {
      mimeType := mime
      clockRate := c.getInt (codecKey type index) "rate" 8000
      recvFmtp := c.getString (codecKey type index) "recv_fmtp"
      enabled := c.getInt (codecKey type index) "enabled" 1 ≠ 0 }

/-- The entries from a place on, up to the first place without one. -/
def readCodecs (c : LpConfig) (type : String) : ℕ → ℕ → List ConfigCodec
  | 0, _ => []
  | n + 1, i =>
    match getCodec c type i with
    | none => []
    | some pt => pt :: readCodecs c type n (i + 1)

/-- One round of the first loop of `codecs_config_uninit`. -/
def writeAudioCodec (c : LpConfig) (pt : PayloadType) (index : ℕ) : LpConfig :=
  let key := codecKey "audio_codec" index
  let c := c.setString key "mime" (some pt.mimeType)
  let c := c.setInt key "rate" pt.clockRate
  c.setInt key "enabled" pt.enabled.toNat

/-- One round of its second loop. -/
def writeVideoCodec (c : LpConfig) (pt : PayloadType) (index : ℕ) : LpConfig :=
  let key := codecKey "video_codec" index
  let c := c.setString key "mime" (some pt.mimeType)
  let c := c.setInt key "rate" pt.clockRate
  let c := c.setInt key "enabled" pt.enabled.toNat
  c.setString key "recv_fmtp" pt.recvFmtp

/-- The local profile and the codec lists, whose elements point into it. -/
structure CodecLists where
  localProfile : RtpProfile
  audioCodecs : List ℕ
  videoCodecs : List ℕ

/-- `codecs_config_uninit`. -/
def codecsConfigUninit (c : LpConfig) (config : CodecLists) : LpConfig :=
  let c := writeFrom writeAudioCodec c 0 (config.audioCodecs.filterMap config.localProfile)
  writeFrom writeVideoCodec c 0 (config.videoCodecs.filterMap config.localProfile)

/-! The local profile. -/

namespace RtpProfile

/-- `payload_type_set_enable` on a payload of the profile. -/
def setEnable (prof : RtpProfile) (i : ℕ) (value : Bool) : RtpProfile :=
  Function.update prof i ((prof i).map fun pt => { pt with enabled := value })

/-- Whether the payload has the type and the rate of an entry; a rate that is not positive fits
any. -/
def isCandidate (prof : RtpProfile) (used : List ℕ) (mime : String) (rate : ℤ) (i : ℕ) : Bool :=
  (prof i).any (fun it => caseEq mime it.mimeType && (rate = it.clockRate || rate ≤ 0))
    && i ∉ used

/-- `CMisc::find_payload`: the first exact match, else the last candidate, among the payloads
without user data. -/
def findPayload (prof : RtpProfile) (used : List ℕ) (pt : ConfigCodec) : Option ℕ :=
  let candidate := prof.isCandidate used pt.mimeType pt.clockRate
  let exactly := (List.range 127).find? fun i =>
    candidate i && (prof i).any fun it => sameFmtp pt.recvFmtp it.recvFmtp
  exactly.or ((List.range 127).reverse.find? candidate)

end RtpProfile

/-- `CMisc::check_h264_packmode`. -/
def checkH264Packmode (recvFmtp : Option String) (text : String) : Bool :=
  recvFmtp.any (strstr · "packetization-mode")
    || !(strstr text "x264" && !strstr text "multislicing")

/-- The profile while the lists are made, with the payloads that have user data. -/
structure Marked where
  localProfile : RtpProfile
  used : List ℕ

/-- The payload is enabled or not and gets user data. -/
def Marked.mark (m : Marked) (i : ℕ) (enabled : Bool) : Marked :=
  ⟨m.localProfile.setEnable i enabled, m.used ++ [i]⟩

/-- The payload that one round of `CMisc::fix_codec_list` appends. -/
def fixCodec (filters : FilterList) (m : Marked) (confpayload : ConfigCodec) : Option ℕ :=
  (m.localProfile.findPayload m.used confpayload).filter fun _ =>
    filters.codecSupported confpayload.mimeType
      && (!caseEq confpayload.mimeType "H264"
        || checkH264Packmode confpayload.recvFmtp (filters.encoderText confpayload.mimeType))

/-- `CMisc::fix_codec_list`. -/
def fixCodecList (filters : FilterList) (m : Marked) : List ConfigCodec → Marked × List ℕ
  | [] => (m, [])
  | confpayload :: conflist =>
    match fixCodec filters m confpayload with
    | none => fixCodecList filters m conflist
    | some i =>
      let rest := fixCodecList filters (m.mark i confpayload.enabled) conflist
      (rest.1, i :: rest.2)

/-- The state of the loop that adds the payloads without user data. -/
structure LocalSetup extends Marked where
  audiopt : List ℕ
  videopt : List ℕ

/-- One round of that loop. Some types go to the top of their list. -/
def addRemaining (filters : FilterList) (s : LocalSetup) (i : ℕ) : LocalSetup :=
  match s.localProfile i with
  | none => s
  | some payload =>
    if i ∈ s.used then s
    else if filters.codecSupported payload.mimeType then
      let s := { s with toMarked := s.toMarked.mark i true }
      if caseEq payload.mimeType "H264"
          && !checkH264Packmode payload.recvFmtp (filters.encoderText payload.mimeType) then s
      else
        let onTop := payload.mimeType = "speex" ∨ payload.mimeType = "MP4V-ES"
          ∨ caseEq payload.mimeType "H264"
        match payload.kind with
        | .audioContinuous | .audioPacketized =>
          { s with audiopt := if onTop then i :: s.audiopt else s.audiopt ++ [i] }
        | .video => { s with videopt := if onTop then i :: s.videopt else s.videopt ++ [i] }
        | .other => s
    else s

/-- `CMisc::linphone_core_setup_local_rtp_profile`, on a clone of the profile. -/
def setupLocalRtpProfile (filters : FilterList) (avProfile : RtpProfile)
    (audioCodecs videoCodecs : List ConfigCodec) : CodecLists :=
  let audio := fixCodecList filters ⟨avProfile, []⟩ audioCodecs
  let video := fixCodecList filters audio.1 videoCodecs
  let s := (List.range 127).foldl (addRemaining filters) ⟨video.1, audio.2, video.2⟩
  ⟨s.localProfile, s.audiopt, s.videopt⟩

/-- `codecs_config_read`. No place beyond the number of sections has an entry. -/
def codecsConfigRead (filters : FilterList) (avProfile : RtpProfile) (c : LpConfig) : CodecLists :=
  setupLocalRtpProfile filters avProfile (readCodecs c "audio_codec" (c.length + 1) 0)
    (readCodecs c "video_codec" (c.length + 1) 0)

/-! The preferences. -/

/-- The payload type without its flag. -/
def PayloadType.unflagged (pt : PayloadType) : PayloadType := { pt with enabled := false }

/-- The payload has a codec. -/
def Encodable (filters : FilterList) (prof : RtpProfile) (i : ℕ) : Prop :=
  ∃ pt, prof.getPayload i = some pt ∧ filters.codecSupported pt.mimeType = true

/-- Lists of the user over a profile: the payloads of the profile with any flags, and each payload
with a codec once. A payload that is neither audio nor video need not be in a list. -/
structure UserLists (filters : FilterList) (prof : RtpProfile) (lists : CodecLists) : Prop where
  profile : ∀ i, (lists.localProfile i).map PayloadType.unflagged
    = (prof i).map PayloadType.unflagged
  nodup : (lists.audioCodecs ++ lists.videoCodecs).Nodup
  encodable : ∀ i ∈ lists.audioCodecs ++ lists.videoCodecs, Encodable filters prof i
  complete : ∀ i pt, Encodable filters prof i → prof i = some pt → pt.kind ≠ .other →
    i ∈ lists.audioCodecs ++ lists.videoCodecs

/-- The lists are read as they were saved, with the flags of the payloads in them. -/
def PreferencesSurvive (filters : FilterList) (prof : RtpProfile) (c : LpConfig)
    (lists : CodecLists) : Prop :=
  let read := codecsConfigRead filters prof (codecsConfigUninit c lists)
  read.audioCodecs = lists.audioCodecs ∧ read.videoCodecs = lists.videoCodecs
    ∧ ∀ i ∈ lists.audioCodecs ++ lists.videoCodecs,
      (read.localProfile i).map PayloadType.enabled = (lists.localProfile i).map PayloadType.enabled

end MTalk.Phone
