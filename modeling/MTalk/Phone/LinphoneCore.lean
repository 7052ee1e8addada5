import MTalk.Library.GuardedRuns

/-!
# The call state of `LinphoneCore`

The part of `CLinphoneCore` that its call handlers read and write: the heap of `LinphoneCall`
objects with the member `call`, the call log, the general state and the media streams. A pointer
is a number, `NULL` is `none`, and reading through `NULL` or to a freed call is a fault. What the
SDP handler does to a call's stream parameters is given by a `MediaLayer`.
-/

namespace MTalk.Phone

inductive Fault where
  | nullPointer
  | freedCall
deriving DecidableEq

inductive GState where
  | powerOff
  | powerStartup
  | powerOn
  | powerShutdown
  | regNone
  | regOk
  | regFailed
  | callIdle
  | callOutInvite
  | callOutConnected
  | callInInvite
  | callInConnected
  | callEnd
  | callError
deriving DecidableEq

/-- The values of the enumeration `gstate_t`. -/
def GState.value : GState → ℕ
  | .powerOff => 0
  | .powerStartup => 1
  | .powerOn => 2
  | .powerShutdown => 3
  | .regNone => 10
  | .regOk => 11
  | .regFailed => 12
  | .callIdle => 20
  | .callOutInvite => 21
  | .callOutConnected => 22
  | .callInInvite => 23
  | .callInConnected => 24
  | .callEnd => 25
  | .callError => 26

inductive Direction where
  | outgoing
  | incoming
deriving DecidableEq

inductive LCState where
  | init
  | ringing
  | avRunning
deriving DecidableEq

inductive CallStatus where
  | success
  | aborted
  | missed
deriving DecidableEq

inductive OnlineStatus where
  | unknown
  | online
  | busy
  | beRightBack
  | away
  | onThePhone
  | outToLunch
  | notDisturb
  | moved
  | altService
  | offline
  | pending
  | closed
deriving DecidableEq

abbrev CallRef := ℕ

structure CallLog where
  dir : Direction
  status : CallStatus
  duration : ℤ
deriving DecidableEq

/-- A `LinphoneCall`. `answer` numbers the message that `sdpctx->answer` points to, zero for
`NULL`; the stream parameters, the dialog profile and the rest of `sdpctx` are in `media`. -/
structure Call (Media : Type) where
  dir : Direction
  cid : ℤ
  did : ℤ
  tid : ℤ
  state : LCState
  authPending : Bool
  startTime : ℤ
  mediaStartTime : ℤ
  answer : ℕ
  media : Media

/-- An audio or video stream object; it is running once it has a ticker. -/
structure Stream where
  ref : ℕ
  running : Bool
deriving DecidableEq

/-- What the handlers hand to the SIP stack. -/
inductive Sip where
  | invite
  | terminate (cid did : ℤ)
  | answer (tid : ℤ) (code : ℤ)
  | ack (did : ℤ)
  | refer (did : ℤ)
deriving DecidableEq

/-- The settings that the handlers test. A card or an address counts when it is not `NULL`. -/
structure Settings where
  sdp200Ack : Bool
  presenceMode : OnlineStatus
  altContact : Bool
  ringSndcard : Bool
  playSndcard : Bool
  captSndcard : Bool
  useFiles : Bool
  video : Bool
deriving DecidableEq

/-- The streams are started when there are files or cards to play from and record to. -/
def Settings.playable (conf : Settings) : Bool :=
  conf.useFiles || conf.playSndcard && conf.captSndcard

structure Core (Config Media : Type) where
  conf : Settings
  config : Config
  call : Option CallRef
  calls : CallRef → Call Media
  callCount : ℕ
  freed : List CallRef
  logged : List CallRef
  callLogs : List CallLog
  maxCallLogs : ℕ
  missedCalls : ℕ
  gstatePower : GState
  gstateReg : GState
  gstateCall : GState
  ringstream : Bool
  audiostream : Option Stream
  videostream : Option Stream
  streamCount : ℕ
  sent : List Sip

/-- The SDP handler with its codec callbacks, as the call handlers use it. `Config` is what the
callbacks read and write in the core. -/
structure MediaLayer (Config Media Sdp : Type) where
  initMediaParams : Media → Media
  getOffer : Config → Media → Config × Media × Bool
  getAnswer : Config → Media → Option Sdp → Config × Media × ℤ
  readAnswer : Config → Media → Option Sdp → Config × Media
  hasAnswer : Media → Bool
  videoRemote : Media → Bool
  updateBandwidth : Config → Config

/-- The answers of the SIP stack, the clock and the media streams during one step. `media` is what
the creation of a call finds: the STUN results and an empty SDP context. -/
structure Outcome (Media : Type) where
  urlOk : Bool
  buildInvite : ℤ
  sendInvite : ℤ
  buildAnswer : ℤ
  answerBuilt : Bool
  now : ℤ
  audioStarts : Bool
  videoStarts : Bool
  media : Media

namespace Core

variable {Config Media Sdp : Type}

/-- The core after `linphone_core_init`. -/
def initial (conf : Settings) (config : Config) (maxCallLogs : ℕ) (memory : CallRef → Call Media) :
    Core Config Media where
  conf := conf
  config := config
  call := none
  calls := memory
  callCount := 0
  freed := []
  logged := []
  callLogs := []
  maxCallLogs := maxCallLogs
  missedCalls := 0
  gstatePower := .powerOn
  gstateReg := .regNone
  gstateCall := .callIdle
  ringstream := false
  audiostream := none
  videostream := none
  streamCount := 0
  sent := []

def send (s : Core Config Media) (m : Sip) : Core Config Media := { s with sent := s.sent ++ [m] }

/-- Stores a state in the group that its value falls into. -/
def linphoneCoreSetState (s : Core Config Media) (newState : GState) : Core Config Media :=
  if newState.value < GState.regNone.value then { s with gstatePower := newState }
  else if newState.value < GState.callIdle.value then { s with gstateReg := newState }
  else { s with gstateCall := newState }

/-- The end of a call and an error go on to the idle state at once. -/
def gstateNewState (s : Core Config Media) (newState : GState) : Core Config Media :=
  let s := s.linphoneCoreSetState newState
  if newState = .callEnd ∨ newState = .callError then s.linphoneCoreSetState .callIdle else s

/-- The pointer `call`, where the code goes on to read through it. -/
def current (s : Core Config Media) : Except Fault CallRef :=
  match s.call with
  | none => .error .nullPointer
  | some r => .ok r

def load (s : Core Config Media) (r : CallRef) : Except Fault (Call Media) :=
  if r ∈ s.freed then .error .freedCall else .ok (s.calls r)

def store (s : Core Config Media) (r : CallRef) (c : Call Media) : Core Config Media :=
  { s with calls := Function.update s.calls r c }

/-- A write to some fields of a call. -/
def modify (s : Core Config Media) (r : CallRef) (f : Call Media → Call Media) :
    Except Fault (Core Config Media) :=
  if r ∈ s.freed then .error .freedCall else .ok (s.store r (f (s.calls r)))

def withConfig (s : Core Config Media) (config : Config) : Core Config Media :=
  { s with config := config }

/-- `call=NULL`. -/
def clearCall (s : Core Config Media) : Core Config Media := { s with call := none }

def setRing (s : Core Config Media) (ringing : Bool) : Core Config Media :=
  { s with ringstream := ringing }

/-- A new call object, which `call` points to from now on. -/
def newCall (s : Core Config Media) (c : Call Media) : Core Config Media :=
  { s with
    call := some s.callCount
    calls := Function.update s.calls s.callCount c
    callCount := s.callCount + 1 }

/-- The status that `linphone_call_log_completed` gives a call. -/
def logStatus (c : Call Media) : CallStatus :=
  match c.state with
  | .init => .aborted
  | .ringing => if c.dir = .incoming then .missed else .aborted
  | .avRunning => .success

def linphoneCallLogCompleted (s : Core Config Media) (o : Outcome Media) (r : CallRef)
    (c : Call Media) : Core Config Media :=
  let logs := s.callLogs ++ [⟨c.dir, logStatus c, o.now - c.startTime⟩]
  { s with
    missedCalls := if logStatus c = .missed then s.missedCalls + 1 else s.missedCalls
    callLogs := if s.maxCallLogs < logs.length then logs.tail else logs
    logged := s.logged ++ [r] }

/-- Completes the call's log entry and frees it. -/
def linphoneCallDestroy (layer : MediaLayer Config Media Sdp) (s : Core Config Media)
    (o : Outcome Media) (r : CallRef) : Except Fault (Core Config Media) := do
  let c ← s.load r
  let s := s.linphoneCallLogCompleted o r c
  return { s.withConfig (layer.updateBandwidth s.config) with freed := s.freed ++ [r] }

def linphoneCoreInitMediaStreams (s : Core Config Media) : Core Config Media :=
  { s with
    audiostream := some ⟨s.streamCount, false⟩
    videostream := if s.conf.video then some ⟨s.streamCount + 1, false⟩ else s.videostream
    streamCount := s.streamCount + 2 }

def linphoneCoreStopMediaStreams (s : Core Config Media) : Core Config Media :=
  { s with audiostream := none, videostream := none }

/-- `audio_stream_start_now` and its kin on a stream that may be `NULL`. -/
def startStream (stream : Option Stream) (starts : Bool) : Except Fault (Option Stream) :=
  match stream with
  | none => .error .nullPointer
  | some a => .ok (some { a with running := a.running || starts })

/-- Starts the audio stream, and the video stream when the remote side has a video port. -/
def startStreams (layer : MediaLayer Config Media Sdp) (s : Core Config Media) (o : Outcome Media)
    (c : Call Media) : Except Fault (Core Config Media) := do
  let audio ← startStream s.audiostream o.audioStarts
  let s := { s with audiostream := audio }
  if s.conf.video && layer.videoRemote c.media then do
    let video ← startStream s.videostream o.videoStarts
    return { s with videostream := video }
  else return s

/-- Without files and cards there is nothing to start. -/
def startIfPlayable (layer : MediaLayer Config Media Sdp) (s : Core Config Media)
    (o : Outcome Media) (c : Call Media) : Except Fault (Core Config Media) :=
  if s.conf.playable then s.startStreams layer o c else .ok s

def stampMediaStart (o : Outcome Media) (c : Call Media) : Call Media :=
  { c with mediaStartTime := if c.mediaStartTime = 0 then o.now else c.mediaStartTime }

/-- `lc->call->state=LCStateAVRunning`. -/
def setAvRunning (s : Core Config Media) : Except Fault (Core Config Media) := do
  let r ← s.current
  s.modify r fun c => { c with state := .avRunning }

def linphoneCoreStartMediaStreams (layer : MediaLayer Config Media Sdp) (s : Core Config Media)
    (o : Outcome Media) (r : CallRef) : Except Fault (Core Config Media) := do
  let c ← s.load r
  let s ← s.modify r (stampMediaStart o)
  let s ← s.startIfPlayable layer o c
  s.setAvRunning

end Core

end MTalk.Phone
