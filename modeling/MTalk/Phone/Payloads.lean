import MTalk.Library.CStrings

/-!
# Payload types, profiles and bandwidth

The tables of oRTP that give the payload numbers their meaning, with the searches in them, and the
part of `CLinphoneCore` that decides which codecs fit the bandwidth. A pointer to a payload type of
the local profile, such as the codec lists hold, is its number.
-/

namespace MTalk.Phone

open CStrings

inductive PayloadKind where
  | audioContinuous
  | audioPacketized
  | video
  | other
deriving DecidableEq

structure PayloadType where
  kind : PayloadKind
  clockRate : ℤ
  normalBitrate : ℤ
  mimeType : String
  channels : ℤ
  recvFmtp : Option String
  sendFmtp : Option String
  enabled : Bool
deriving DecidableEq

def PayloadType.setSendFmtp (p : PayloadType) (fmtp : String) : PayloadType :=
  { p with sendFmtp := some fmtp }

def PayloadType.appendSendFmtp (p : PayloadType) (fmtp : String) : PayloadType :=
  { p with sendFmtp := some ((p.sendFmtp.map fun s => s ++ ";" ++ fmtp).getD fmtp) }

/-- `RtpProfile`; only the numbers below `rtpProfileMaxPayloads` are looked up or stored. -/
abbrev RtpProfile := ℕ → Option PayloadType

def rtpProfileMaxPayloads : ℕ := 128

namespace RtpProfile

def getPayload (prof : RtpProfile) (idx : ℤ) : Option PayloadType :=
  if idx < 0 ∨ (rtpProfileMaxPayloads : ℤ) ≤ idx then none else prof idx.toNat

def setPayload (prof : RtpProfile) (idx : ℤ) (pt : PayloadType) : RtpProfile :=
  if idx < 0 ∨ (rtpProfileMaxPayloads : ℤ) ≤ idx then prof
  else Function.update prof idx.toNat (some pt)

/-- The first number below a bound whose payload type passes a test, or `-1`. -/
def firstNumber (prof : RtpProfile) (bound : ℕ) (test : PayloadType → Bool) : ℤ :=
  match (List.range bound).find? fun i => (prof i).any test with
  | some i => i
  | none => -1

def getPayloadNumberFromMime (prof : RtpProfile) (mime : String) : ℤ :=
  prof.firstNumber rtpProfileMaxPayloads fun pt => caseEq pt.mimeType mime

/-- The test of `rtp_profile_find_payload_number`; an undefined number of channels fits any. -/
def fits (mime : String) (rate channels : ℤ) (pt : PayloadType) : Bool :=
  caseEq pt.mimeType mime && pt.clockRate = rate &&
    (pt.channels = channels || channels ≤ 0 || pt.channels ≤ 0)

def findPayloadNumber (prof : RtpProfile) (mime : String) (rate channels : ℤ) : ℤ :=
  prof.firstNumber rtpProfileMaxPayloads (fits mime rate channels)

/-- The subtype, the rate and the channels of an rtpmap, `8000` and `-1` where they are missing. -/
def parseRtpmap (rtpmap : String) : String × ℤ × ℤ :=
  match splitFirst '/' rtpmap.toList with
  | none => (rtpmap, 8000, -1)
  | some (_, []) => (rtpmap, 8000, -1)
  | some (subtype, rate) =>
    match splitFirst '/' rate with
    | none => (String.ofList subtype, atoi (String.ofList rate), -1)
    | some (_, []) => (String.ofList subtype, atoi (String.ofList rate), -1)
    | some (rate, chan) =>
      (String.ofList subtype, atoi (String.ofList rate), atoi (String.ofList chan))

def getPayloadNumberFromRtpmap (prof : RtpProfile) (rtpmap : String) : ℤ :=
  let map := parseRtpmap rtpmap
  prof.findPayloadNumber map.1 map.2.1 map.2.2

/-- Whether two format parameters are the same, or both missing. -/
def sameFmtp : Option String → Option String → Bool
  | some a, some b => caseEq a b
  | none, none => true
  | _, _ => false

/-- `find_payload_type_number`: the first exact match, else the last candidate. The search stops
one number early, and finding nothing at all is fatal there. -/
def findPayloadTypeNumber (prof : RtpProfile) (mime : String) (clockRate : ℤ)
    (recvFmtp : Option String) : ℤ :=
  let candidate := fun it : PayloadType =>
    caseEq mime it.mimeType && (clockRate = it.clockRate || clockRate ≤ 0)
  let exactly := prof.firstNumber 127 fun it => candidate it && sameFmtp recvFmtp it.recvFmtp
  if exactly = -1 then
    match (List.range 127).reverse.find? fun i => (prof i).any candidate with
    | some i => i
    | none => -1
  else exactly

end RtpProfile

/-- The text from the first occurrence of a word on. -/
def searchText (word : List Char) : List Char → Option (List Char)
  | [] => if word = [] then some [] else none
  | c :: s => if word.isPrefixOf (c :: s) then some (c :: s) else searchText word s

/-- `fmtp_get_value` with a buffer of ten characters. -/
def fmtpGetValue (fmtp name : String) : Option String :=
  (searchText name.toList fmtp.toList).bind fun pos =>
    (splitFirst '=' pos).map fun parts =>
      String.ofList ((parts.2.takeWhile (· ≠ ';')).take 9)

/-- `find_payload_type_number_best_match`; of the H264 types it takes the one with the same
packetization mode. -/
def findPayloadTypeNumberBestMatch (prof : RtpProfile) (rtpmap : String) (fmtp : Option String) :
    ℤ :=
  let localpt := prof.getPayloadNumberFromRtpmap rtpmap
  if localpt < 0 then -1
  else
    match prof.getPayload localpt with
    | none => localpt
    | some pt =>
      if caseEq pt.mimeType "H264" then
        let mode := (fmtp.bind fun f => fmtpGetValue f "packetization-mode").map atoi
        prof.findPayloadTypeNumber "H264" pt.clockRate
          (if mode = some 1 then some "packetization-mode=1" else none)
      else localpt

/-! Bandwidth. -/

def getMinBandwidth (dbw ubw : ℤ) : ℤ :=
  if dbw < 0 then ubw else if ubw < 0 then dbw else min dbw ubw

def bandwidthIsGreater (bw1 bw2 : ℤ) : Bool :=
  if bw1 < 0 then true else if bw2 < 0 then false else bw2 ≤ bw1

/-- `get_audio_payload_bandwidth`, in bits per second: fifty packets with their headers. -/
def getAudioPayloadBandwidth (pt : PayloadType) : ℤ := (pt.normalBitrate.tdiv 400 + 40) * 400

/-- What the codec callbacks read and write in the core: the local profile, the codec lists, the
ports and the bandwidth. -/
structure CodecConfig where
  localProfile : RtpProfile
  audioCodecs : List ℕ
  videoCodecs : List ℕ
  audioRtpPort : ℤ
  videoRtpPort : ℤ
  onlyOneCodec : Bool
  videoEnabled : Bool
  downloadBw : ℤ
  uploadBw : ℤ
  audioBw : ℤ
  dwAudioBw : ℤ
  dwVideoBw : ℤ
  upAudioBw : ℤ
  upVideoBw : ℤ

namespace CodecConfig

def setDownloadBandwidth (lc : CodecConfig) (bw : ℤ) : CodecConfig :=
  let audio := if bw = 0 then -1 else min lc.audioBw bw
  { lc with
    downloadBw := bw
    dwAudioBw := audio
    dwVideoBw := if bw = 0 then -1 else max (bw - audio - 10) 0 }

def setUploadBandwidth (lc : CodecConfig) (bw : ℤ) : CodecConfig :=
  let audio := if bw = 0 then -1 else min lc.audioBw bw
  { lc with
    uploadBw := bw
    upAudioBw := audio
    upVideoBw := if bw = 0 then -1 else max (bw - audio - 10) 0 }

def updateAllocatedAudioBandwidthInCall (lc : CodecConfig) (pt : PayloadType) : CodecConfig :=
  let lc := { lc with audioBw := (getAudioPayloadBandwidth pt).tdiv 1000 }
  (lc.setDownloadBandwidth lc.downloadBw).setUploadBandwidth lc.uploadBw

/-- Allocates what the enabled codec with the highest bitrate takes. -/
def updateAllocatedAudioBandwidth (lc : CodecConfig) : CodecConfig :=
  let codecs := (lc.audioCodecs.filterMap lc.localProfile).filter PayloadType.enabled
  let highest := codecs.foldl (fun best pt =>
    match best with
    | none => some pt
    | some b => if b.normalBitrate < pt.normalBitrate then some pt else some b) none
  (highest.map lc.updateAllocatedAudioBandwidthInCall).getD lc

/-- `linphone_core_check_payload_type_usability` during a call. A video codec is given the bitrate
that the bandwidth leaves. -/
def checkPayloadTypeUsability (lc : CodecConfig) (i : ℕ) (pt : PayloadType) : CodecConfig × Bool :=
  match pt.kind with
  | .audioContinuous | .audioPacketized =>
    let bw := getMinBandwidth lc.downloadBw lc.uploadBw
    let bw := if bw = 0 then -1 else bw
    (lc, bandwidthIsGreater (bw * 1000) (getAudioPayloadBandwidth pt))
  | .video =>
    let bw := getMinBandwidth lc.dwVideoBw lc.upVideoBw
    if bw = 0 then (lc, false)
    else
      let bitrate := if 0 < bw then bw * 1000 else 1500000
      ({ lc with localProfile :=
          lc.localProfile.setPayload i { pt with normalBitrate := bitrate } }, true)
  | .other => (lc, false)

end CodecConfig

end MTalk.Phone
