import MTalk.Phone.Payloads
import MTalk.Rtp.TelephoneEvents

/-!
# The receiving side of a session

A datagram is parsed, checked against the source that the session is locked on and queued; the
application asks for the message of a time. The signals `ssrc_changed` and `timestamp_jump` are
connected to `rtp_session_resync`, as `create_duplex_rtpsession` does it. Each function gives the
session after it and reports what leaves the session.
-/

namespace MTalk.Rtp

open SerialNumbers

/-- The jitter control computes with floating point numbers; the session takes it as it is. -/
structure JitterControl (J : Type) where
  /-- `jitter_control_init` without a time and a payload type -/
  init : J → J
  setPayload : J → Phone.PayloadType → J
  newPacket : J → BitVec 32 → BitVec 32 → J
  updateCorrectiveSlide : J → J
  getCompensatedTimestamp : J → BitVec 32 → BitVec 32
  correctiveSlide : J → BitVec 32
  adaptive : J → Bool
  enabled : J → Bool

/-- What does not change while a session receives. -/
structure Setup (J : Type) extends JitterControl J where
  profile : Phone.RtpProfile
  /-- there are event queues -/
  eventqs : Bool
  /-- what `rtp_session_set_time_jump_limit` computes for `ts_jump` -/
  jumpLimit : BitVec 32
  maxRqSize : ℕ
  /-- the payload type of telephone events, `none` for -1 -/
  telephoneEventsPt : Option (BitVec 7)

/-- The jitter control for packets that come evenly: it has the number of the packets and the slide,
which stays the one of the first packet. The delay is 80 ms at 8000 Hz. -/
def evenControl : JitterControl (ℕ × BitVec 32) where
  init _ := (0, 0)
  setPayload c _ := c
  newPacket c ts localTs := if c.1 = 0 then (1, ts - localTs) else (c.1 + 1, c.2)
  updateCorrectiveSlide c := c
  getCompensatedTimestamp c userTs := userTs + c.2 - 640
  correctiveSlide _ := 0
  adaptive _ := true
  enabled _ := true

/-- A profile with PCMU and with telephone events under 101, and the limits of a new session. -/
def audioSetup : Setup (ℕ × BitVec 32) where
  toJitterControl := evenControl
  profile i :=
    if i = 0 then some ⟨.audioContinuous, 8000, 64000, "PCMU", 1, none, none, true⟩
    else if i = 101 then some ⟨.audioPacketized, 8000, 0, "telephone-event", 1, none, none, true⟩
    else none
  eventqs := false
  jumpLimit := 40000
  maxRqSize := 100
  telephoneEventsPt := some 101

/-- `RtpSession`. -/
structure Session (J : Type) where
  jittctl : J
  rq : List Message
  tevRq : List Message
  ssrcSet : Bool
  rcvSsrc : BitVec 32
  incSsrcCandidate : BitVec 32
  incSameSsrcCount : ℕ
  hwRecvPt : Option (BitVec 7)
  rcvPt : Option (BitVec 7)
  permissive : Bool
  tsJump : BitVec 32
  rcvLastTs : BitVec 32
  rcvTsOffset : BitVec 32
  rcvQueryTsOffset : BitVec 32
  rcvLastAppTs : BitVec 32
  rcvLastRetTs : BitVec 32
  recvNotStarted : Bool
  recvSync : Bool
  firstPacketDelivered : Bool
  currentTev : Option PendingEvents

/-- What leaves a session, and the signals. -/
inductive Report
  | freed (block : ℕ)
  | stun (block : ℕ)
  | trashed (block : ℕ)
  | returned (m : Message) (timestamp : BitVec 32)
  | resync
  | payloadTypeChanged (paytype : BitVec 7)
  | telephoneEventPacket (m : Message)
  | telephoneEvent (event : Byte)
deriving DecidableEq

/-- `freemsg` for each of the messages. -/
def freeAll (ms : List Message) : List Report := ms.map fun m => .freed m.block

def ssrcChangedThreshold : ℕ := 50

namespace Session

variable {J : Type} (e : Setup J)

/-- `rtp_session_init` and what `create_duplex_rtpsession` sets. -/
def create (jittctl : J) : Session J where
  jittctl := jittctl
  rq := []
  tevRq := []
  ssrcSet := false
  rcvSsrc := 0
  incSsrcCandidate := 0
  incSameSsrcCount := 0
  hwRecvPt := none
  rcvPt := none
  permissive := false
  tsJump := e.jumpLimit
  rcvLastTs := 0
  rcvTsOffset := 0
  rcvQueryTsOffset := 0
  rcvLastAppTs := 0
  rcvLastRetTs := 0
  recvNotStarted := true
  recvSync := true
  firstPacketDelivered := false
  currentTev := none

/-- `rtp_session_resync`. -/
def resync (s : Session J) : Session J × List Report :=
  ({ s with
      rq := []
      recvSync := true
      firstPacketDelivered := false
      jittctl := e.init s.jittctl },
    .resync :: freeAll s.rq)

/-- `rtp_session_reset`. -/
def reset (s : Session J) : Session J × List Report :=
  let s := { s with
    recvNotStarted := true
    rcvTsOffset := 0
    rcvQueryTsOffset := 0
    rcvLastTs := 0
    rcvLastAppTs := 0 }
  let (s, reports) := s.resync e
  ({ s with ssrcSet := false }, reports)

/-- `payload_type_changed`. -/
def payloadTypeChanged (s : Session J) (pt : Phone.PayloadType) : Session J :=
  { s with
    jittctl := e.setPayload s.jittctl pt
    tsJump := e.jumpLimit
    permissive := pt.kind = .video }

/-- `rtp_session_update_payload_type`. -/
def updatePayloadType (s : Session J) (paytype : BitVec 7) : Session J :=
  let s := { s with hwRecvPt := some paytype }
  match e.profile.getPayload paytype.toNat with
  | some pt => s.payloadTypeChanged e pt
  | none => s

/-- A packet of another source is counted. -/
def countCandidate (s : Session J) (ssrc : BitVec 32) : Session J :=
  if s.incSsrcCandidate = ssrc then { s with incSameSsrcCount := s.incSameSsrcCount + 1 }
  else { s with incSameSsrcCount := 0, incSsrcCandidate := ssrc }

/-- The part of `rtp_session_rtp_parse` that locks on a source; it says if the packet is kept. -/
def checkSsrc (s : Session J) (rtp : Header) : Session J × List Report × Bool :=
  if s.ssrcSet then
    if s.rcvSsrc ≠ rtp.ssrc then
      let s := s.countCandidate rtp.ssrc
      if ssrcChangedThreshold < s.incSameSsrcCount then
        let (s, reports) := { s with rcvLastTs := rtp.timestamp, rcvSsrc := rtp.ssrc }.resync e
        (s, reports, true)
      else (s, [], false)
    else ({ s with incSameSsrcCount := 0 }, [], true)
  else ({ s with ssrcSet := true, rcvSsrc := rtp.ssrc }, [], true)

/-- The part of `rtp_session_rtp_parse` that looks for jumps of the timestamp; it says if the packet
is kept. -/
def checkTimestamp (s : Session J) (timestamp : BitVec 32) : Session J × List Report × Bool :=
  if s.firstPacketDelivered then
    if TimestampIsNewerThan timestamp (s.rcvLastTs + s.tsJump) then
      let (s, reports) := s.resync e
      (s, reports, true)
    else if TimestampIsStrictlyNewerThan s.rcvLastTs timestamp then
      -- a packet before the last one that was returned
      if TimestampIsStrictlyNewerThan s.rcvLastTs (timestamp + s.tsJump) then
        let (s, reports) := s.resync e
        (s, reports, false)
      else (s, [], false)
    else (s, [], true)
  else (s, [], true)

/-- The part of `rtp_session_rtp_parse` that follows the payload type and the jitter. -/
def followPacket (s : Session J) (rtp : Header) (localStrTs : BitVec 32) : Session J :=
  let s := if s.hwRecvPt ≠ some rtp.paytype then s.updatePayloadType e rtp.paytype else s
  { s with jittctl := e.newPacket s.jittctl rtp.timestamp localStrTs }

/-- A media packet in `rtp_session_rtp_parse`. -/
def parseMedia (s : Session J) (m : Message) (localStrTs : BitVec 32) : Session J × List Report :=
  let s := s.followPacket e m.rtp localStrTs
  let (s, jump, kept) := s.checkTimestamp e m.rtp.timestamp
  if kept then
    let q := queuePacket s.rq e.maxRqSize m
    ({ s with rq := q.queue }, jump ++ freeAll q.freed)
  else (s, jump ++ [.freed m.block])

/-- A telephone event in `rtp_session_rtp_parse`. -/
def parseTelephoneEvent (s : Session J) (m : Message) : Session J × List Report :=
  let q := queuePacket s.tevRq e.maxRqSize m
  ({ s with tevRq := q.queue }, freeAll q.freed)

/-- `rtp_session_rtp_parse` from the check of the source on. -/
def parsePacket (s : Session J) (m : Message) (localStrTs : BitVec 32) :
    Session J × List Report :=
  let (s, change, kept) := s.checkSsrc e m.rtp
  if kept then
    let (s, reports) :=
      if e.telephoneEventsPt = some m.rtp.paytype then s.parseTelephoneEvent e m
      else s.parseMedia e m localStrTs
    (s, change ++ reports)
  else (s, change ++ [.freed m.block])

/-- The datagram has the length that a STUN message says. -/
def looksLikeStun (bytes : List Byte) : Bool :=
  match bytes with
  | _ :: _ :: l1 :: l0 :: _ => (ntohs l1 l0).toNat + 20 = bytes.length
  | _ => false

/-- `rtp_session_rtp_parse`. -/
def rtpParse (s : Session J) (mp : Datagram) (localStrTs : BitVec 32) :
    Session J × List Report :=
  match readHeader mp.bytes with
  | none => (s, [.freed mp.block])
  | some (rtp, rest) =>
    if rtp.version ≠ 2 then
      (s, if looksLikeStun mp.bytes && e.eventqs then [.stun mp.block] else [.freed mp.block])
    else
      match readSources rtp.cc.toNat rest with
      | none => (s, [.freed mp.block])
      | some (csrc, payload) => s.parsePacket e ⟨⟨rtp, csrc, payload⟩, mp.block⟩ localStrTs

/-- `rtp_session_rtp_recv`: everything that is at the socket is parsed. -/
def rtpRecv (s : Session J) (socket : List Datagram) (userTs : BitVec 32) :
    Session J × List Report :=
  match socket with
  | [] => (s, [])
  | mp :: socket =>
    let (s, reports) := s.rtpParse e mp userTs
    let (s, later) := s.rtpRecv socket userTs
    (s, reports ++ later)

/-- The part of `rtp_session_recvm_with_ts` that checks a telephone event. -/
def checkTev (s : Session J) : Session J × List Report :=
  match getq s.tevRq with
  | (none, _) => (s, [])
  | (some mp, q) =>
    let (currentTev, events) := checkTelephoneEvents s.currentTev mp.toPacket
    ({ s with tevRq := q, currentTev := currentTev },
      .telephoneEventPacket mp :: events.map Report.telephoneEvent ++ [.freed mp.block])

/-- `payload_type_changed_notify`, if the payload type is another one. -/
def notifyPayloadType (s : Session J) (paytype : BitVec 7) : Session J × List Report :=
  if s.rcvPt ≠ some paytype then
    ({ s with rcvPt := some paytype }, [.payloadTypeChanged paytype])
  else (s, [])

/-- The timestamp that a returned message gets. -/
def changeTimestamp (s : Session J) (packetTs : BitVec 32) : Session J × BitVec 32 :=
  if e.adaptive s.jittctl then
    let s :=
      if packetTs ≠ s.rcvLastTs then { s with jittctl := e.updateCorrectiveSlide s.jittctl } else s
    (s, packetTs + e.correctiveSlide s.jittctl)
  else (s, packetTs)

/-- The end of `rtp_session_recvm_with_ts` for a message that is returned. -/
def returnMessage (s : Session J) (mp : Message) : Session J × List Report :=
  let packetTs := mp.rtp.timestamp
  let (s, change) := s.notifyPayloadType mp.rtp.paytype
  let (s, changedTs) := s.changeTimestamp e packetTs
  ({ s with rcvLastTs := packetTs, firstPacketDelivered := true },
    change ++ [.returned mp changedTs])

/-- The part of `rtp_session_recvm_with_ts` that synchronizes with the first message; it says if
there is one. -/
def synchronize (s : Session J) (userTs : BitVec 32) : Session J × Bool :=
  if s.recvSync then
    match s.rq with
    | [] => (s, false)
    | mp :: _ =>
      ({ s with
          rcvTsOffset := mp.rtp.timestamp
          rcvLastRetTs := userTs
          rcvSsrc := mp.rtp.ssrc
          recvSync := false }, true)
  else (s, true)

/-- The message that is due, the queue after it and the messages that are freed. -/
def takeMessage (s : Session J) (userTs : BitVec 32) :
    Option Message × List Message × List Message :=
  let ts := e.getCompensatedTimestamp s.jittctl userTs
  if e.enabled s.jittctl then
    if s.permissive then rtpGetqPermissive s.rq ts else rtpGetq s.rq ts
  else ((getq s.rq).1, (getq s.rq).2, [])

/-- The part of `rtp_session_recvm_with_ts` that returns a media message. -/
def getMedia (s : Session J) (userTs : BitVec 32) : Session J × List Report :=
  let (s, synchronized) := s.synchronize userTs
  if synchronized then
    let (mp, q, old) := s.takeMessage e userTs
    let s := { s with rq := q }
    match mp with
    | none => (s, freeAll old)
    | some mp =>
      let (s, reports) := s.returnMessage e mp
      (s, freeAll old ++ reports)
  else (s, [])

/-- The socket is not read twice for one time. -/
def readsSocket (s : Session J) (userTs : BitVec 32) : Bool :=
  s.recvNotStarted || decide (userTs ≠ s.rcvLastAppTs)

/-- The begin of `rtp_session_recvm_with_ts`. -/
def startQuery (s : Session J) (userTs : BitVec 32) : Session J :=
  let s :=
    if s.recvNotStarted then { s with rcvQueryTsOffset := userTs, recvNotStarted := false } else s
  { s with rcvLastAppTs := userTs }

/-- The messages that were parsed are checked and one is returned. -/
def answer (s : Session J) (userTs : BitVec 32) : Session J × List Report :=
  let (s, checked) := s.checkTev
  let (s, media) := s.getMedia e userTs
  (s, checked ++ media)

/-- `rtp_session_recvm_with_ts`; `socket` is what is at the socket, and what is left there comes
after the session. -/
def recvmWithTs (s : Session J) (socket : List Datagram) (userTs : BitVec 32) :
    Session J × List Datagram × List Report :=
  if s.readsSocket userTs then
    let (s, parsed) := (s.startQuery userTs).rtpRecv e socket userTs
    let (s, answered) := s.answer e userTs
    (s, [], parsed ++ answered)
  else
    let (s, answered) := (s.startQuery userTs).answer e userTs
    (s, socket, answered)

section Cases

variable {e} {s : Session J}

/-- What the check of the source can do. -/
inductive SsrcChecked (e : Setup J) (s : Session J) (rtp : Header) :
    Session J × List Report × Bool → Prop
  | locks (h : s.ssrcSet = false) :
    SsrcChecked e s rtp ({ s with ssrcSet := true, rcvSsrc := rtp.ssrc }, [], true)
  | same (h : s.ssrcSet = true) (hssrc : s.rcvSsrc = rtp.ssrc) :
    SsrcChecked e s rtp ({ s with incSameSsrcCount := 0 }, [], true)
  | foreign (h : s.ssrcSet = true) (hssrc : s.rcvSsrc ≠ rtp.ssrc)
    (hcount : (s.countCandidate rtp.ssrc).incSameSsrcCount ≤ ssrcChangedThreshold) :
    SsrcChecked e s rtp (s.countCandidate rtp.ssrc, [], false)
  | changes (h : s.ssrcSet = true) (hssrc : s.rcvSsrc ≠ rtp.ssrc)
    (hcount : ssrcChangedThreshold < (s.countCandidate rtp.ssrc).incSameSsrcCount)
    (s' : Session J)
    (hs' : s' = { s.countCandidate rtp.ssrc with
      rcvLastTs := rtp.timestamp, rcvSsrc := rtp.ssrc }) :
    SsrcChecked e s rtp ((s'.resync e).1, (s'.resync e).2, true)

lemma ssrcChecked (s : Session J) (rtp : Header) : SsrcChecked e s rtp (s.checkSsrc e rtp) := by
  cases h : s.ssrcSet with
  | false =>
    rw [checkSsrc, h]
    exact .locks h
  | true =>
    by_cases hssrc : s.rcvSsrc = rtp.ssrc
    · rw [checkSsrc, if_pos h, if_neg (not_not.mpr hssrc)]
      exact .same h hssrc
    · rw [checkSsrc, if_pos h, if_pos hssrc]
      by_cases hcount : ssrcChangedThreshold < (s.countCandidate rtp.ssrc).incSameSsrcCount
      · dsimp only
        rw [if_pos hcount]
        exact .changes h hssrc hcount _ rfl
      · dsimp only
        rw [if_neg hcount]
        exact .foreign h hssrc (not_lt.mp hcount)

/-- What the check of the timestamp can do. -/
inductive TimestampChecked (e : Setup J) (s : Session J) (timestamp : BitVec 32) :
    Session J × List Report × Bool → Prop
  | starting (h : s.firstPacketDelivered = false) :
    TimestampChecked e s timestamp (s, [], true)
  | jump (h : s.firstPacketDelivered = true)
    (hjump : TimestampIsNewerThan timestamp (s.rcvLastTs + s.tsJump)) :
    TimestampChecked e s timestamp ((s.resync e).1, (s.resync e).2, true)
  | late (h : s.firstPacketDelivered = true)
    (hlate : TimestampIsStrictlyNewerThan s.rcvLastTs timestamp) (reports : List Report)
    (s' : Session J) (hs' : (s', reports) = (s, []) ∨ (s', reports) = s.resync e) :
    TimestampChecked e s timestamp (s', reports, false)
  | inTime (h : s.firstPacketDelivered = true)
    (hjump : ¬TimestampIsNewerThan timestamp (s.rcvLastTs + s.tsJump))
    (hlate : ¬TimestampIsStrictlyNewerThan s.rcvLastTs timestamp) :
    TimestampChecked e s timestamp (s, [], true)

lemma timestampChecked (s : Session J) (timestamp : BitVec 32) :
    TimestampChecked e s timestamp (s.checkTimestamp e timestamp) := by
  cases h : s.firstPacketDelivered with
  | false =>
    rw [checkTimestamp, h]
    exact .starting h
  | true =>
    rw [checkTimestamp, h, if_pos rfl]
    split_ifs with hjump hlate hnegative
    · exact .jump h hjump
    · exact .late h hlate _ _ (.inr rfl)
    · exact .late h hlate _ _ (.inl rfl)
    · exact .inTime h hjump hlate

lemma countCandidate_eq (s : Session J) (ssrc : BitVec 32) :
    ∃ count, s.countCandidate ssrc =
      { s with incSsrcCandidate := ssrc, incSameSsrcCount := count } := by
  rw [countCandidate]
  split_ifs with h
  · subst h
    exact ⟨_, rfl⟩
  · exact ⟨_, rfl⟩

lemma followPacket_eq (s : Session J) (rtp : Header) (localStrTs : BitVec 32) :
    ∃ jittctl hwRecvPt tsJump permissive, s.followPacket e rtp localStrTs =
      { s with
        jittctl := jittctl
        hwRecvPt := hwRecvPt
        tsJump := tsJump
        permissive := permissive } := by
  rw [followPacket, updatePayloadType]
  cases e.profile.getPayload rtp.paytype.toNat with
  | none =>
    split_ifs
    · exact ⟨_, _, _, _, rfl⟩
    · exact ⟨_, _, _, _, rfl⟩
  | some pt =>
    split_ifs
    · exact ⟨_, _, _, _, rfl⟩
    · exact ⟨_, _, _, _, rfl⟩

lemma checkTev_nil (h : s.tevRq = []) : s.checkTev = (s, []) := by
  rw [checkTev, h]
  rfl

lemma checkTev_cons {mp : Message} {q : List Message} (h : s.tevRq = mp :: q) :
    s.checkTev =
      ({ s with
          tevRq := q
          currentTev := (checkTelephoneEvents s.currentTev mp.toPacket).1 },
        .telephoneEventPacket mp ::
          (checkTelephoneEvents s.currentTev mp.toPacket).2.map Report.telephoneEvent ++
            [.freed mp.block]) := by
  rw [checkTev, h]
  rfl

/-- Every message of the queue is returned, kept or freed. -/
lemma perm_takeMessage (s : Session J) (userTs : BitVec 32) :
    ((s.takeMessage e userTs).1.toList ++ (s.takeMessage e userTs).2.1 ++
      (s.takeMessage e userTs).2.2).Perm s.rq := by
  rw [takeMessage]
  split_ifs
  · exact perm_rtpGetqPermissive _ _
  · exact perm_rtpGetq _ _
  · rw [List.append_nil, getq_eq]

lemma synchronize_eq (s : Session J) (userTs : BitVec 32) :
    ((s.recvSync = true ∧ s.rq = []) ∧ s.synchronize userTs = (s, false)) ∨
      s.recvSync = false ∧ s.synchronize userTs = (s, true) ∨
      ∃ mp q, s.recvSync = true ∧ s.rq = mp :: q ∧ s.synchronize userTs =
        ({ s with
            rcvTsOffset := mp.rtp.timestamp
            rcvLastRetTs := userTs
            rcvSsrc := mp.rtp.ssrc
            recvSync := false }, true) := by
  cases h : s.recvSync with
  | false =>
    rw [synchronize, h]
    exact .inr (.inl ⟨rfl, rfl⟩)
  | true =>
    rw [synchronize, if_pos h]
    cases hrq : s.rq with
    | nil => exact .inl ⟨⟨rfl, rfl⟩, rfl⟩
    | cons mp q => exact .inr (.inr ⟨mp, q, rfl, rfl, rfl⟩)

lemma startQuery_eq (s : Session J) (userTs : BitVec 32) :
    ∃ rcvQueryTsOffset, s.startQuery userTs = { s with
      rcvQueryTsOffset := rcvQueryTsOffset, recvNotStarted := false, rcvLastAppTs := userTs } := by
  rw [startQuery]
  by_cases h : s.recvNotStarted = true
  · rw [if_pos h]
    exact ⟨userTs, rfl⟩
  · rw [if_neg h, Bool.eq_false_of_not_eq_true h |>.symm]
    exact ⟨s.rcvQueryTsOffset, rfl⟩

lemma notifyPayloadType_eq (s : Session J) (paytype : BitVec 7) :
    ∃ change, s.notifyPayloadType paytype = ({ s with rcvPt := some paytype }, change) ∧
      (change = [] ∨ change = [.payloadTypeChanged paytype]) := by
  by_cases hpt : s.rcvPt = some paytype
  · rw [notifyPayloadType, if_neg (not_not.mpr hpt), ← hpt]
    exact ⟨_, rfl, .inl rfl⟩
  · rw [notifyPayloadType, if_pos hpt]
    exact ⟨_, rfl, .inr rfl⟩

lemma changeTimestamp_eq (s : Session J) (packetTs : BitVec 32) :
    ∃ jittctl changedTs,
      s.changeTimestamp e packetTs = ({ s with jittctl := jittctl }, changedTs) := by
  rw [changeTimestamp]
  split_ifs
  · exact ⟨_, _, rfl⟩
  · exact ⟨_, _, rfl⟩
  · exact ⟨_, _, rfl⟩

lemma returnMessage_eq (s : Session J) (mp : Message) :
    ∃ jittctl changedTs change, s.returnMessage e mp =
      ({ s with
          rcvPt := some mp.rtp.paytype
          jittctl := jittctl
          rcvLastTs := mp.rtp.timestamp
          firstPacketDelivered := true },
        change ++ [.returned mp changedTs]) ∧
      (change = [] ∨ change = [.payloadTypeChanged mp.rtp.paytype]) := by
  obtain ⟨change, hnotify, hchange⟩ := s.notifyPayloadType_eq mp.rtp.paytype
  obtain ⟨jittctl, changedTs, htime⟩ :=
    changeTimestamp_eq (e := e) { s with rcvPt := some mp.rtp.paytype } mp.rtp.timestamp
  refine ⟨jittctl, changedTs, change, ?_, hchange⟩
  rw [returnMessage, hnotify]
  dsimp only
  rw [htime]

/-- The session after the synchronization. -/
inductive Synchronized (s : Session J) (userTs : BitVec 32) : Session J → Prop
  | before (h : s.recvSync = false) : Synchronized s userTs s
  | now {mp : Message} {q : List Message} (h : s.recvSync = true) (hrq : s.rq = mp :: q) :
    Synchronized s userTs
      { s with
        rcvTsOffset := mp.rtp.timestamp
        rcvLastRetTs := userTs
        rcvSsrc := mp.rtp.ssrc
        recvSync := false }

/-- What asking for a media message can do. -/
inductive MediaGot (e : Setup J) (s : Session J) (userTs : BitVec 32) :
    Session J × List Report → Prop
  | starting (h : s.recvSync = true) (hrq : s.rq = []) : MediaGot e s userTs (s, [])
  | nothing {t : Session J} (ht : Synchronized s userTs t) {q old : List Message}
    (htake : t.takeMessage e userTs = (none, q, old)) :
    MediaGot e s userTs ({ t with rq := q }, freeAll old)
  | message {t : Session J} (ht : Synchronized s userTs t) {mp : Message} {q old : List Message}
    (htake : t.takeMessage e userTs = (some mp, q, old)) (jittctl : J) (changedTs : BitVec 32)
    (change : List Report)
    (hchange : change = [] ∨ change = [.payloadTypeChanged mp.rtp.paytype]) :
    MediaGot e s userTs
      ({ t with
          rq := q
          rcvPt := some mp.rtp.paytype
          jittctl := jittctl
          rcvLastTs := mp.rtp.timestamp
          firstPacketDelivered := true },
        freeAll old ++ (change ++ [.returned mp changedTs]))

lemma mediaGot (s : Session J) (userTs : BitVec 32) :
    MediaGot e s userTs (s.getMedia e userTs) := by
  have hgot : ∀ t, Synchronized s userTs t → s.synchronize userTs = (t, true) →
      MediaGot e s userTs (s.getMedia e userTs) := by
    intro t ht hsync
    rw [getMedia, hsync]
    dsimp only
    rw [if_pos rfl]
    cases htake : t.takeMessage e userTs with
    | mk mp rest =>
      obtain ⟨q, old⟩ := rest
      cases mp with
      | none => exact .nothing ht htake
      | some mp =>
        obtain ⟨jittctl, changedTs, change, hreturn, hchange⟩ :=
          returnMessage_eq (e := e) { t with rq := q } mp
        dsimp only
        rw [hreturn]
        exact .message ht htake jittctl changedTs change hchange
  rcases s.synchronize_eq userTs with ⟨⟨h, hrq⟩, hsync⟩ | ⟨h, hsync⟩ | ⟨mp, q, h, hrq, hsync⟩
  · rw [getMedia, hsync]
    exact .starting h hrq
  · exact hgot s (.before h) hsync
  · exact hgot _ (.now h hrq) hsync

end Cases

end Session

/-- A session with its socket. -/
structure Host (J : Type) where
  session : Session J
  socket : List Datagram

/-- What happens to a session. -/
inductive Action
  | arrive (mp : Datagram)
  | recvm (userTs : BitVec 32)
  | resync
  | reset
  | flushSockets

namespace Host

variable {J : Type} (e : Setup J)

def create (jittctl : J) : Host J := ⟨Session.create e jittctl, []⟩

def step (h : Host J) : Action → Host J × List Report
  | .arrive mp => ({ h with socket := h.socket ++ [mp] }, [])
  | .recvm userTs =>
    let (session, socket, reports) := h.session.recvmWithTs e h.socket userTs
    (⟨session, socket⟩, reports)
  | .resync =>
    let (session, reports) := h.session.resync e
    ({ h with session := session }, reports)
  | .reset =>
    let (session, reports) := h.session.reset e
    ({ h with session := session }, reports)
  | .flushSockets => ({ h with socket := [] }, h.socket.map fun mp => .trashed mp.block)

def run (h : Host J) : List Action → Host J × List Report
  | [] => (h, [])
  | a :: actions =>
    let (h, reports) := h.step e a
    let (h, later) := h.run actions
    (h, reports ++ later)

end Host

end MTalk.Rtp
