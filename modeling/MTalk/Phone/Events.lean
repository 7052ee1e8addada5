import MTalk.Phone.LinphoneCore

/-!
# The API functions and the event handlers of a call

The functions of `LinphoneCore` that a user calls and the handlers that
`linphone_core_process_event` dispatches to, each with the reads, writes and exits of the source.
A step is one of them together with what the SIP stack and the streams answer meanwhile.
-/

namespace MTalk.Phone

/-- The identifiers that a SIP event carries. -/
structure EventId where
  cid : ℤ
  did : ℤ
  tid : ℤ
deriving DecidableEq

namespace Core

variable {Config Media Sdp : Type} (layer : MediaLayer Config Media Sdp)

def linphoneCallNewOutgoing (o : Outcome Media) : Call Media where
  dir := .outgoing
  cid := -1
  did := -1
  tid := -1
  state := .init
  authPending := false
  startTime := o.now
  mediaStartTime := 0
  answer := 0
  media := o.media

def linphoneCallNewIncoming (o : Outcome Media) (ev : EventId) : Call Media where
  dir := .incoming
  cid := ev.cid
  did := ev.did
  tid := ev.tid
  state := .init
  authPending := false
  startTime := o.now
  mediaStartTime := 0
  answer := 0
  media := o.media

/-! The SDP operations on a call. -/

def sdpContextGetOffer (s : Core Config Media) (r : CallRef) :
    Except Fault (Core Config Media × Bool) := do
  let c ← s.load r
  let offer := layer.getOffer s.config c.media
  let s ← s.modify r fun c => { c with media := offer.2.1 }
  return (s.withConfig offer.1, offer.2.2)

/-- Builds the answer, which replaces the context's former one, and gives the status. -/
def sdpContextGetAnswer (s : Core Config Media) (r : CallRef) (sdp : Option Sdp) :
    Except Fault (Core Config Media × ℤ) := do
  let c ← s.load r
  let answer := layer.getAnswer s.config c.media sdp
  let s ← s.modify r fun c => { c with media := answer.2.1, answer := c.answer + 1 }
  return (s.withConfig answer.1, answer.2.2)

def sdpContextReadAnswer (s : Core Config Media) (r : CallRef) (sdp : Option Sdp) :
    Except Fault (Core Config Media) := do
  let c ← s.load r
  let read := layer.readAnswer s.config c.media sdp
  let s ← s.modify r fun c => { c with media := read.2 }
  return s.withConfig read.1

/-! The functions of the user. -/

/-- The offer of an INVITE, left out in the scheme where the answer carries the offer. -/
def inviteOffer (s : Core Config Media) (r : CallRef) : Except Fault (Core Config Media) :=
  if !s.conf.sdp200Ack then do
    let offered ← s.sdpContextGetOffer layer r
    return offered.1.linphoneCoreInitMediaStreams
  else .ok s

/-- `linphone_core_invite` from the creation of the call on. -/
def placeCall (s : Core Config Media) (o : Outcome Media) :
    Except Fault (Core Config Media × ℤ) := do
  let r := s.callCount
  let s ← (s.newCall (linphoneCallNewOutgoing o)).inviteOffer layer r
  let s ← (s.send .invite).modify r fun c => { c with cid := o.sendInvite }
  if o.sendInvite < 0 then do
    let s ← s.linphoneCallDestroy layer o r
    return (s.clearCall.linphoneCoreStopMediaStreams.gstateNewState .callError, -1)
  else return (s, 0)

/-- `linphone_core_invite` with its return value. -/
def linphoneCoreInvite (s : Core Config Media) (o : Outcome Media) (url : Option String) :
    Except Fault (Core Config Media × ℤ) :=
  if s.call.isSome then .ok (s, -1)
  else if url = none then .error .nullPointer
  else
    let s := s.gstateNewState .callOutInvite
    if !o.urlOk then .ok (s.gstateNewState .callError, -1)
    else if o.buildInvite < 0 then .ok (s.gstateNewState .callError, -1)
    else s.placeCall layer o

def linphoneCoreAcceptCall (s : Core Config Media) (o : Outcome Media) :
    Except Fault (Core Config Media × ℤ) :=
  match s.call with
  | none => .ok (s, -1)
  | some r => do
    let c ← s.load r
    if c.state = .avRunning then return (s, -1)
    else
      let s := s.setRing false
      if o.buildAnswer < 0 ∨ o.answerBuilt = false then return (s, -1)
      else if layer.hasAnswer c.media then do
        let s := (s.send (.answer c.tid 200)).gstateNewState .callInConnected
        let s ← s.linphoneCoreStartMediaStreams layer o r
        return (s, 0)
      else do
        let offered ← s.sdpContextGetOffer layer r
        if offered.2 then
          let s := offered.1.linphoneCoreInitMediaStreams
          return ((s.send (.answer c.tid 200)).gstateNewState .callInConnected, 0)
        else return (offered.1, -1)

/-- `linphone_core_terminate_call`; `call` is left as it is. -/
def linphoneCoreTerminateCall (s : Core Config Media) (o : Outcome Media) :
    Except Fault (Core Config Media × ℤ) :=
  match s.call with
  | none => .ok (s, -1)
  | some r => do
    let c ← s.load r
    let s := (s.send (.terminate c.cid c.did)).setRing false
    let s ← (s.linphoneCoreStopMediaStreams.gstateNewState .callEnd).linphoneCallDestroy layer o r
    return (s, 0)

/-- `linphone_core_refer`; `call` is cleared before it is read. -/
def linphoneCoreRefer (s : Core Config Media) (o : Outcome Media) (url : Option String) :
    Except Fault (Core Config Media × ℤ) :=
  if url = none then .error .nullPointer
  else if !o.urlOk then .ok (s, -1)
  else if s.call = none then .ok (s, -1)
  else do
    let s := s.clearCall
    let r ← s.current
    let c ← s.load r
    return (s.send (.refer c.did), 0)

/-! The handlers of events. -/

def linphoneCallProceeding (s : Core Config Media) (ev : EventId) :
    Except Fault (Core Config Media) :=
  match s.call with
  | none => .ok (s.send (.terminate ev.cid ev.did))
  | some r => do
    let c ← s.load r
    if c.cid ≠ -1 ∧ c.cid ≠ ev.cid then return s.send (.terminate ev.cid ev.did)
    else s.modify r fun c => { c with cid := ev.cid, did := ev.did, tid := ev.tid }

/-- `linphone_answer_sdp`: zero and new streams when the negotiation succeeds, else `-1`. -/
def linphoneAnswerSdp (s : Core Config Media) (sdp : Option Sdp) :
    Except Fault (Core Config Media × ℤ) := do
  let r ← s.current
  let answered ← s.sdpContextGetAnswer layer r sdp
  if answered.2 = 200 then return (answered.1.linphoneCoreInitMediaStreams, 0)
  else return (answered.1, -1)

def linphoneConnectIncoming (s : Core Config Media) (o : Outcome Media) :
    Except Fault (Core Config Media) := do
  let r ← s.current
  let s ← s.setAvRunning
  let s := s.setRing false
  match s.audiostream with
  | none => .error .nullPointer
  | some a =>
    let s := if a.running then s.linphoneCoreStopMediaStreams.linphoneCoreInitMediaStreams else s
    s.linphoneCoreStartMediaStreams layer o r

/-- `linphone_call_accepted` from the initialisation of the media parameters on: the answer is
read, or an offer in it is answered, and the streams are connected or the call is ended. -/
def takeAnswer (s : Core Config Media) (o : Outcome Media) (ev : EventId) (sdp : Option Sdp)
    (r : CallRef) : Except Fault (Core Config Media) := do
  let s ← s.modify r fun c => { c with media := layer.initMediaParams c.media }
  if !s.conf.sdp200Ack then do
    let s ← s.sdpContextReadAnswer layer r sdp
    let s ← (s.gstateNewState .callOutConnected).linphoneConnectIncoming layer o
    return s.send (.ack ev.did)
  else do
    let answered ← s.linphoneAnswerSdp layer sdp
    if answered.2 = 0 then do
      let s ← (answered.1.gstateNewState .callOutConnected).linphoneConnectIncoming layer o
      return s.send (.ack ev.did)
    else do
      let terminated ← (answered.1.send (.ack ev.did)).linphoneCoreTerminateCall layer o
      return terminated.1

def linphoneCallAccepted (s : Core Config Media) (o : Outcome Media) (ev : EventId)
    (sdp : Option Sdp) : Except Fault (Core Config Media) :=
  match s.call with
  | none => .ok s
  | some r => do
    let s ← s.linphoneCallProceeding ev
    let c ← s.load r
    if c.cid ≠ ev.cid then return s
    else do
      let s ← s.modify r fun c => { c with authPending := false }
      if c.state = .avRunning then return s else s.takeAnswer layer o ev sdp r

def linphoneCallTerminated (s : Core Config Media) (o : Outcome Media) (ev : EventId) :
    Except Fault (Core Config Media) :=
  let cleared := ((s.setRing false).linphoneCoreStopMediaStreams).gstateNewState .callEnd
  match s.call with
  | none => .ok cleared
  | some r => do
    let c ← s.load r
    if c.cid ≠ ev.cid then return s
    else do
      let s ← cleared.linphoneCallDestroy layer o r
      return s.clearCall

/-- `linphone_call_failure`; `code` is the status of the response, `-110` when there is none. -/
def linphoneCallFailure (s : Core Config Media) (o : Outcome Media) (ev : EventId) (code : ℤ) :
    Except Fault (Core Config Media) :=
  let cleared := (s.setRing false).linphoneCoreStopMediaStreams
  match s.call with
  | none => .ok (if code = 401 ∨ code = 407 then s else cleared)
  | some r => do
    let c ← s.load r
    if c.cid ≠ ev.cid then return s
    else if code = 401 ∨ code = 407 then return s
    else do
      let s ← cleared.linphoneCallDestroy layer o r
      return (s.gstateNewState .callError).clearCall

/-- The status that a new call is declined with while the user is not online. -/
def declineCode (conf : Settings) : ℤ :=
  match conf.presenceMode with
  | .busy => 486
  | .away | .beRightBack | .onThePhone | .outToLunch | .offline => 480
  | .notDisturb => 480
  | .moved => if conf.altContact then 302 else 486
  | .altService => if conf.altContact then 380 else 486
  | _ => 486

/-- A new call without SDP is left to the 200-ack scheme. -/
def answerOffered (s : Core Config Media) (sdp : Option Sdp) :
    Except Fault (Core Config Media × ℤ) :=
  if sdp.isNone then .ok (s, 0) else s.linphoneAnswerSdp layer sdp

def linphoneIncNewCall (s : Core Config Media) (o : Outcome Media) (ev : EventId)
    (sdp : Option Sdp) : Except Fault (Core Config Media) :=
  if s.conf.presenceMode ≠ .online then .ok (s.send (.answer ev.tid (declineCode s.conf)))
  else if s.call.isSome then .ok (s.send (.answer ev.tid 486))
  else do
    let r := s.callCount
    let s := s.newCall (linphoneCallNewIncoming o ev)
    let answered ← s.answerOffered layer sdp
    let s := answered.1
    if answered.2 = 0 then do
      let s := s.gstateNewState .callInInvite
      let s := if s.conf.ringSndcard then s.setRing true else s
      let s ← s.modify r fun c => { c with state := .ringing }
      return s.send (.answer ev.tid 180)
    else do
      let s ← (s.send (.answer ev.tid 415)).linphoneCallDestroy layer o r
      return s.clearCall

def linphoneHandleReinvite (s : Core Config Media) (o : Outcome Media) (ev : EventId)
    (sdp : Option Sdp) : Except Fault (Core Config Media) :=
  if sdp.isNone then .ok (s.send (.answer ev.tid 603))
  else do
    let r ← s.current
    let s ← s.modify r fun c => { c with media := layer.initMediaParams c.media }
    let answered ← s.sdpContextGetAnswer layer r sdp
    let s := answered.1
    if answered.2 = 200 then
      let s := s.linphoneCoreStopMediaStreams.linphoneCoreInitMediaStreams
      if o.buildAnswer < 0 then return s.linphoneCoreStopMediaStreams
      else (s.send (.answer ev.tid 200)).linphoneCoreStartMediaStreams layer o r
    else return s.send (.answer ev.tid answered.2)

def linphoneHandleAck (s : Core Config Media) (o : Outcome Media) (sdp : Option Sdp) :
    Except Fault (Core Config Media) :=
  if sdp.isNone then .ok s
  else do
    let r ← s.current
    let s ← s.sdpContextReadAnswer layer r sdp
    s.linphoneConnectIncoming layer o

/-- Destroys the current call, if any, whatever the dialog of the event. -/
def dropCall (s : Core Config Media) (o : Outcome Media) : Except Fault (Core Config Media) :=
  match s.call with
  | none => .ok s
  | some r => do
    let s ← s.linphoneCallDestroy layer o r
    return s.clearCall

/-- `linphone_call_redirected` with the response's status and its contact. -/
def linphoneCallRedirected (s : Core Config Media) (o : Outcome Media) (code : ℤ)
    (contact : Option String) : Except Fault (Core Config Media) :=
  if code = 380 then s.dropCall layer o
  else if code = 302 then do
    let s ← s.dropCall layer o
    let invited ← s.linphoneCoreInvite layer o contact
    return invited.1
  else .ok s

def linphoneCallRinging (s : Core Config Media) (o : Outcome Media) (ev : EventId)
    (sdp : Option Sdp) : Except Fault (Core Config Media) := do
  let call := s.call
  let s ← s.linphoneCallProceeding ev
  match call with
  | none => return s
  | some r =>
    if sdp.isNone then
      if s.ringstream then return s
      else
        let s := if s.conf.playSndcard then s.setRing true else s
        s.modify r fun c => { c with state := .ringing }
    else
      match s.audiostream with
      | none => .error .nullPointer
      | some a =>
        if a.running then return s
        else do
          let r' ← s.current
          let s ← s.sdpContextReadAnswer layer r' sdp
          let s := (s.gstateNewState .callOutConnected).setRing false
          let s ← s.linphoneCoreStartMediaStreams layer o r
          s.modify r fun c => { c with state := .ringing }

def linphoneCallReleased (s : Core Config Media) (o : Outcome Media) (cid : ℤ) :
    Except Fault (Core Config Media) :=
  match s.call with
  | none => .ok s
  | some r => do
    let c ← s.load r
    if c.cid = cid then do
      let s ← s.linphoneCallDestroy layer o r
      return s.clearCall.gstateNewState .callError
    else return s

end Core

/-- A call of the user's API. -/
inductive Request where
  | invite (url : Option String)
  | acceptCall
  | terminateCall
  | refer (url : Option String)
  | register
deriving DecidableEq

/-- A SIP event with the parts of its messages that the handlers read. -/
inductive Event (Sdp : Type) where
  | invite (ev : EventId) (sdp : Option Sdp)
  | proceeding (ev : EventId)
  | ringing (ev : EventId) (sdp : Option Sdp)
  | answered (ev : EventId) (sdp : Option Sdp)
  | redirected (ev : EventId) (code : ℤ) (contact : Option String)
  | reinvite (ev : EventId) (sdp : Option Sdp)
  | ack (ev : EventId) (sdp : Option Sdp)
  | requestFailure (ev : EventId) (code : ℤ)
  | closed (ev : EventId)
  | released (ev : EventId)
  | messageNew (ev : EventId)

namespace Event

def id {Sdp : Type} : Event Sdp → EventId
  | .invite ev _ | .proceeding ev | .ringing ev _ | .answered ev _ | .redirected ev _ _
  | .reinvite ev _ | .ack ev _ | .requestFailure ev _ | .closed ev | .released ev
  | .messageNew ev => ev

end Event

/-- The outcome of a step's calls into the SIP stack and what the step does. -/
inductive Step (Media Sdp : Type) where
  | request (o : Outcome Media) (call : Request)
  | event (o : Outcome Media) (ev : Event Sdp)
  | registration (success : Bool)

namespace Core

variable {Config Media Sdp : Type} (layer : MediaLayer Config Media Sdp)

/-- A call of the API. Registering touches the proxies only. -/
def request (s : Core Config Media) (o : Outcome Media) :
    Request → Except Fault (Core Config Media)
  | .invite url => do return (← s.linphoneCoreInvite layer o url).1
  | .acceptCall => do return (← s.linphoneCoreAcceptCall layer o).1
  | .terminateCall => do return (← s.linphoneCoreTerminateCall layer o).1
  | .refer url => do return (← s.linphoneCoreRefer o url).1
  | .register => .ok s

/-- `linphone_core_process_event` for the events of a call. An INFO message is only answered. -/
def processEvent (s : Core Config Media) (o : Outcome Media) :
    Event Sdp → Except Fault (Core Config Media)
  | .invite ev sdp => s.linphoneIncNewCall layer o ev sdp
  | .proceeding ev => s.linphoneCallProceeding ev
  | .ringing ev sdp => s.linphoneCallRinging layer o ev sdp
  | .answered ev sdp => s.linphoneCallAccepted layer o ev sdp
  | .redirected _ code contact => s.linphoneCallRedirected layer o code contact
  | .reinvite ev sdp => s.linphoneHandleReinvite layer o ev sdp
  | .ack _ sdp => s.linphoneHandleAck layer o sdp
  | .requestFailure ev code => s.linphoneCallFailure layer o ev code
  | .closed ev => s.linphoneCallTerminated layer o ev
  | .released ev => s.linphoneCallReleased layer o ev.cid
  | .messageNew ev => .ok (s.send (.answer ev.tid 200))

/-- One step: a call of the API, an event of a call or the result of a registration. -/
def step (s : Core Config Media) : Step Media Sdp → Except Fault (Core Config Media)
  | .request o r => s.request layer o r
  | .event o ev => s.processEvent layer o ev
  | .registration success => .ok (s.gstateNewState (if success then .regOk else .regFailed))

end Core

end MTalk.Phone
