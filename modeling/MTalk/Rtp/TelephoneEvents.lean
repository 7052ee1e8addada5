import MTalk.Library.Channels
import MTalk.Rtp.Queues

/-!
# Telephone events

A digit goes out as five packets with one timestamp: one with the mark, one without and three times
the end of the event. The receiver keeps the events of the last timestamp, and reports an event when
it is seen to end. So on a channel that keeps the order a digit is reported once if one of the last
three packets arrives, however many copies do.
-/

namespace MTalk.Rtp

open Channels

/-- `telephone_event_t`, with the duration in host order. -/
structure TelephoneEvent where
  event : Byte
  volume : BitVec 6
  reserved : Bool
  ended : Bool
  duration : BitVec 16
deriving DecidableEq

def TelephoneEvent.bytes (t : TelephoneEvent) : List Byte :=
  t.event :: (BitVec.ofBool t.ended ++ BitVec.ofBool t.reserved ++ t.volume) :: htons t.duration

/-- The events of a payload; what is left of less than four bytes is no event. -/
def readEvents : List Byte → List TelephoneEvent
  | b0 :: b1 :: b2 :: b3 :: rest =>
    { event := b0
      volume := b1.extractLsb' 0 6
      reserved := b1.getLsbD 6
      ended := b1.getLsbD 7
      duration := ntohs b2 b3 } :: readEvents rest
  | _ => []

section Sending

/-- What a session needs to send. -/
structure Sender where
  sndSeq : BitVec 16
  ssrc : BitVec 32
  pt : ℤ
  telephoneEventsPt : Option (BitVec 7)
deriving DecidableEq

/-- `rtp_session_create_packet` with a header of fixed size. -/
def Sender.createPacket (s : Sender) (payload : List Byte) : Packet where
  rtp :=
    { version := 2
      padbit := false
      extbit := false
      cc := 0
      markbit := false
      paytype := BitVec.ofInt 7 s.pt
      seqNumber := s.sndSeq
      timestamp := 0
      ssrc := s.ssrc }
  csrc := []
  payload := payload

/-- `rtp_session_create_telephone_event_packet`. The source leaves the sequence number and the
timestamp as they are in memory until the packet is sent. -/
def Sender.createTelephoneEventPacket (s : Sender) (start : Bool) : Option Packet :=
  s.telephoneEventsPt.map fun pt =>
    { rtp :=
        { version := 2
          padbit := false
          extbit := false
          cc := 0
          markbit := start
          paytype := pt
          seqNumber := 0
          timestamp := 0
          ssrc := s.ssrc }
      csrc := []
      payload := [] }

/-- `rtp_session_add_telephone_event`. -/
def Packet.addTelephoneEvent (p : Packet) (event : Byte) (ended : Bool) (volume : BitVec 6)
    (duration : BitVec 16) : Packet :=
  { p with payload := p.payload ++ TelephoneEvent.bytes ⟨event, volume, false, ended, duration⟩ }

/-- `rtp_session_sendm_with_ts`: the session after it and the packet that is sent. -/
def Sender.sendmWithTs (s : Sender) (p : Packet) (packetTs : BitVec 32) : Sender × Packet :=
  if s.telephoneEventsPt = some p.rtp.paytype then
    ({ s with sndSeq := s.sndSeq + 1 },
      { p with rtp := { p.rtp with timestamp := packetTs, seqNumber := s.sndSeq } })
  else
    ({ s with sndSeq := p.rtp.seqNumber + 1 },
      { p with rtp := { p.rtp with timestamp := packetTs } })

/-- The event of a digit. -/
def tevType (dtmf : Char) : Option Byte :=
  match dtmf with
  | '1' => some 1
  | '2' => some 2
  | '3' => some 3
  | '4' => some 4
  | '5' => some 5
  | '6' => some 6
  | '7' => some 7
  | '8' => some 8
  | '9' => some 9
  | '*' => some 10
  | '0' => some 0
  | '#' => some 11
  | 'A' => some 12
  | 'a' => some 12
  | 'B' => some 13
  | 'b' => some 13
  | 'C' => some 14
  | 'c' => some 14
  | 'D' => some 15
  | 'd' => some 15
  | '!' => some 16
  | _ => none

/-- `rtp_session_send_dtmf2`: the session after it and the packets that are sent, `none` for `-1`.
-/
def Sender.sendDtmf2 (s : Sender) (dtmf : Char) (userts : BitVec 32) (duration : ℤ) :
    Option (Sender × List Packet) := do
  let durationtier := duration.tdiv 3
  let event ← tevType dtmf
  let m1 ← s.createTelephoneEventPacket true
  let m1 := m1.addTelephoneEvent event false 10 (BitVec.ofInt 16 durationtier)
  let m2 ← s.createTelephoneEventPacket false
  let m2 := m2.addTelephoneEvent event false 10 (BitVec.ofInt 16 (durationtier + durationtier))
  let m3 ← s.createTelephoneEventPacket false
  let m3 := m3.addTelephoneEvent event true 10 (BitVec.ofInt 16 duration)
  let (s, p1) := s.sendmWithTs m1 userts
  let (s, p2) := s.sendmWithTs m2 userts
  -- the last packet is sent three times with one sequence number
  let (s, p3) := s.sendmWithTs m3 userts
  let s := { s with sndSeq := s.sndSeq - 1 }
  let (s, p4) := s.sendmWithTs m3 userts
  let s := { s with sndSeq := s.sndSeq - 1 }
  let (s, p5) := s.sendmWithTs m3 userts
  some (s, [p1, p2, p3, p4, p5])

/-- `rtp_session_send_dtmf`. -/
def Sender.sendDtmf (s : Sender) (dtmf : Char) (userts : BitVec 32) :
    Option (Sender × List Packet) :=
  s.sendDtmf2 dtmf userts 480

end Sending

section Receiving

/-- What is read of `current_tev`. -/
structure PendingEvents where
  timestamp : BitVec 32
  events : List TelephoneEvent

/-- `notify_events_ended`: the events that are reported. -/
def notifyEventsEnded (events : List TelephoneEvent) : List Byte :=
  (events.filter TelephoneEvent.ended).map TelephoneEvent.event

/-- The loop that looks for events that have ended since the last packet. -/
def updateEnded : List TelephoneEvent → List TelephoneEvent → List TelephoneEvent × List Byte
  | e :: events, old :: evbuf =>
    let (evbuf, reported) := updateEnded events evbuf
    if e.ended && !old.ended then ({ old with ended := true } :: evbuf, e.event :: reported)
    else (old :: evbuf, reported)
  | _, evbuf => (evbuf, [])

/-- `rtp_session_check_telephone_events`: the pending events after it and the events that are
reported. -/
def checkTelephoneEvents (currentTev : Option PendingEvents) (m : Packet) :
    Option PendingEvents × List Byte :=
  let events := readEvents m.payload
  let (currentTev, started) :=
    if m.rtp.markbit then (some ⟨m.rtp.timestamp, events⟩, notifyEventsEnded events)
    else (currentTev, [])
  match currentTev with
  | some cur =>
    if cur.timestamp = m.rtp.timestamp then
      let (evbuf, reported) := updateEnded events cur.events
      (some { cur with events := evbuf }, started ++ reported)
    else (some ⟨m.rtp.timestamp, events⟩, started ++ notifyEventsEnded events)
  | none => (some ⟨m.rtp.timestamp, events⟩, started ++ notifyEventsEnded events)

/-- The packets are checked one after the other. -/
def checkAll (currentTev : Option PendingEvents) : List Packet → Option PendingEvents × List Byte
  | [] => (currentTev, [])
  | p :: ps =>
    let (currentTev, reported) := checkTelephoneEvents currentTev p
    let (currentTev, rest) := checkAll currentTev ps
    (currentTev, reported ++ rest)

end Receiving

section Tones

/-- A packet of a digit. -/
structure IsTone (event : Byte) (ts : BitVec 32) (p : Packet) : Prop where
  timestamp : p.rtp.timestamp = ts
  events : ∃ ended duration, readEvents p.payload = [⟨event, 10, false, ended, duration⟩]

/-- The packet has the end of an event. -/
def Packet.ended (p : Packet) : Bool := (readEvents p.payload).any TelephoneEvent.ended

lemma readEvents_bytes (t : TelephoneEvent) : readEvents t.bytes = [t] := by
  obtain ⟨event, volume, reserved, ended, duration⟩ := t
  have hbits : ∀ (v : BitVec 6) (r e : Bool),
      let b : Byte := BitVec.ofBool e ++ BitVec.ofBool r ++ v
      b.extractLsb' 0 6 = v ∧ b.getLsbD 6 = r ∧ b.getLsbD 7 = e := by
    decide
  obtain ⟨h1, h2, h3⟩ := hbits volume reserved ended
  simp only [TelephoneEvent.bytes, htons, readEvents]
  rw [h1, h2, h3, ntohs_htons]

/-- The packet of a digit before it is sent. -/
def Sender.tone (s : Sender) (pt : BitVec 7) (mark : Bool) (event : TelephoneEvent)
    (ts : BitVec 32) : Packet where
  rtp :=
    { version := 2
      padbit := false
      extbit := false
      cc := 0
      markbit := mark
      paytype := pt
      seqNumber := s.sndSeq
      timestamp := ts
      ssrc := s.ssrc }
  csrc := []
  payload := event.bytes

lemma isTone_tone (s : Sender) (pt : BitVec 7) (mark : Bool) (event : Byte) (ended : Bool)
    (duration : BitVec 16) (ts : BitVec 32) :
    IsTone event ts (s.tone pt mark ⟨event, 10, false, ended, duration⟩ ts) :=
  ⟨rfl, ended, duration, readEvents_bytes _⟩

lemma ended_tone (s : Sender) (pt : BitVec 7) (mark : Bool) (event : TelephoneEvent)
    (ts : BitVec 32) : (s.tone pt mark event ts).ended = event.ended := by
  rw [Packet.ended, Sender.tone, readEvents_bytes]
  simp

/-- The packets of a digit: the three last ones are the same. -/
lemma sendDtmf2_eq {s : Sender} {dtmf : Char} {ts : BitVec 32} {duration : ℤ}
    {r : Sender × List Packet} (h : s.sendDtmf2 dtmf ts duration = some r) :
    ∃ event pt, tevType dtmf = some event ∧ s.telephoneEventsPt = some pt ∧
      r.1 = { s with sndSeq := s.sndSeq + 3 } ∧
      ∃ d1 d2 d3 : BitVec 16,
        let p1 := s.tone pt true ⟨event, 10, false, false, d1⟩ ts
        let p2 := Sender.tone { s with sndSeq := s.sndSeq + 1 } pt false
          ⟨event, 10, false, false, d2⟩ ts
        let p3 := Sender.tone { s with sndSeq := s.sndSeq + 2 } pt false
          ⟨event, 10, false, true, d3⟩ ts
        r.2 = [p1, p2, p3, p3, p3] := by
  rw [Sender.sendDtmf2] at h
  cases htype : tevType dtmf with
  | none =>
    rw [htype] at h
    cases h
  | some event =>
    rw [htype] at h
    cases hpt : s.telephoneEventsPt with
    | none =>
      simp only [Sender.createTelephoneEventPacket, hpt] at h
      cases h
    | some pt =>
      simp only [Sender.createTelephoneEventPacket, hpt, Option.map_some, Packet.addTelephoneEvent,
        Sender.sendmWithTs, Option.bind_eq_bind, Option.bind_some, if_true, Option.some.injEq] at h
      subst h
      have h2 : s.sndSeq + 1 + 1 = s.sndSeq + 2 := BitVec.add_assoc _ _ _
      have h3 : s.sndSeq + 1 + 1 + 1 = s.sndSeq + 3 := by
        rw [h2]
        exact BitVec.add_assoc _ _ _
      refine ⟨event, pt, rfl, rfl, ?_, BitVec.ofInt 16 (duration.tdiv 3),
        BitVec.ofInt 16 (duration.tdiv 3 + duration.tdiv 3), BitVec.ofInt 16 duration, ?_⟩
      · simp only [h3, BitVec.sub_add_cancel]
      · simp only [BitVec.add_sub_cancel, h2, Sender.tone, List.nil_append]

/-- The packets of a digit in the order of sending: the end comes last, and has no mark. -/
structure Tones (event : Byte) (ts : BitVec 32) (ps : List Packet) : Prop where
  tone : ∀ p ∈ ps, IsTone event ts p
  order : ps.Pairwise fun p q => p.ended = true → q.ended = true
  mark : ∀ p ∈ ps, p.ended = true → p.rtp.markbit = false

lemma Tones.of_delivers {event : Byte} {ts : BitVec 32} {ps rs : List Packet}
    (h : Tones event ts ps) (hr : Delivers ps rs) : Tones event ts rs :=
  ⟨fun p hp => h.tone p (hr.mem hp), hr.pairwise (fun _ => id) h.order,
    fun p hp => h.mark p (hr.mem hp)⟩

lemma tones_of_sendDtmf2 {s : Sender} {dtmf : Char} {ts : BitVec 32} {duration : ℤ}
    {r : Sender × List Packet} (h : s.sendDtmf2 dtmf ts duration = some r) :
    ∃ event, tevType dtmf = some event ∧ Tones event ts r.2 := by
  obtain ⟨event, pt, htype, -, -, d1, d2, d3, hps⟩ := sendDtmf2_eq h
  rw [hps]
  refine ⟨event, htype, ?_, ?_, ?_⟩
  · simp only [List.forall_mem_cons]
    exact ⟨isTone_tone .., isTone_tone .., isTone_tone .., isTone_tone .., isTone_tone ..,
      List.forall_mem_nil _⟩
  · simp [ended_tone]
  · simp only [List.forall_mem_cons, ended_tone]
    exact ⟨by simp, fun _ => rfl, fun _ => rfl, fun _ => rfl, fun _ => rfl, List.forall_mem_nil _⟩

/-- The events of a time are pending. -/
def PendingTone (event : Byte) (ts : BitVec 32) (ended : Bool) (cur : Option PendingEvents) :
    Prop :=
  ∃ duration, cur = some ⟨ts, [⟨event, 10, false, ended, duration⟩]⟩

/-- No events of the time are pending. -/
def NotPending (ts : BitVec 32) (cur : Option PendingEvents) : Prop :=
  ∀ c, cur = some c → c.timestamp ≠ ts

lemma IsTone.read {event : Byte} {ts : BitVec 32} {p : Packet} (h : IsTone event ts p) :
    ∃ duration, readEvents p.payload = [⟨event, 10, false, p.ended, duration⟩] := by
  obtain ⟨-, ended, duration, hread⟩ := h
  refine ⟨duration, ?_⟩
  rw [Packet.ended, hread]
  simp

/-- The first packet of a digit that arrives. -/
lemma check_first {event : Byte} {ts : BitVec 32} {p : Packet} {cur : Option PendingEvents}
    (h : IsTone event ts p) (hcur : NotPending ts cur)
    (hmark : p.ended = true → p.rtp.markbit = false) :
    PendingTone event ts p.ended (checkTelephoneEvents cur p).1 ∧
      (checkTelephoneEvents cur p).2 = if p.ended then [event] else [] := by
  obtain ⟨duration, hread⟩ := h.read
  have hnotify : notifyEventsEnded (readEvents p.payload) = if p.ended then [event] else [] := by
    rw [hread, notifyEventsEnded]
    cases p.ended
    · rfl
    · rfl
  by_cases hm : p.rtp.markbit = true
  · have hended : p.ended = false := by
      by_contra hne
      rw [hmark (by simpa using hne)] at hm
      cases hm
    rw [hended] at hread hnotify ⊢
    simp only [checkTelephoneEvents, hm, if_true, hread, h.timestamp, updateEnded]
    exact ⟨⟨duration, rfl⟩, rfl⟩
  · have hfalse : p.rtp.markbit = false := Bool.not_eq_true _ ▸ hm
    cases cur with
    | none =>
      simp only [checkTelephoneEvents, hfalse, Bool.false_eq_true, if_false, hnotify]
      exact ⟨⟨duration, by rw [hread, h.timestamp]⟩, rfl⟩
    | some c =>
      have hne : c.timestamp ≠ p.rtp.timestamp := by
        rw [h.timestamp]
        exact hcur c rfl
      simp only [checkTelephoneEvents, hfalse, hne, Bool.false_eq_true, if_false, hnotify]
      exact ⟨⟨duration, by rw [hread, h.timestamp]⟩, rfl⟩

/-- A packet of the pending digit. -/
lemma check_again {event : Byte} {ts : BitVec 32} {p : Packet} {cur : Option PendingEvents}
    {ended : Bool} (h : IsTone event ts p) (hcur : PendingTone event ts ended cur)
    (horder : ended = true → p.ended = true) (hmark : p.ended = true → p.rtp.markbit = false) :
    PendingTone event ts p.ended (checkTelephoneEvents cur p).1 ∧
      (checkTelephoneEvents cur p).2 = if p.ended && !ended then [event] else [] := by
  obtain ⟨duration, hread⟩ := h.read
  obtain ⟨duration', rfl⟩ := hcur
  by_cases hm : p.rtp.markbit = true
  · have hended : p.ended = false := by
      by_contra hne
      rw [hmark (by simpa using hne)] at hm
      cases hm
    rw [hended] at hread ⊢
    simp only [checkTelephoneEvents, hm, if_true, hread, updateEnded, notifyEventsEnded]
    exact ⟨⟨duration, by rw [h.timestamp]; rfl⟩, rfl⟩
  · have hfalse : p.rtp.markbit = false := Bool.not_eq_true _ ▸ hm
    simp only [checkTelephoneEvents, hfalse, h.timestamp, Bool.false_eq_true, if_false, if_true,
      hread, updateEnded]
    cases hended : p.ended
    · have hnot : ended = false := by
        by_contra hne
        rw [horder (by simpa using hne)] at hended
        cases hended
      rw [hnot]
      exact ⟨⟨duration', rfl⟩, rfl⟩
    · cases ended
      · exact ⟨⟨duration', rfl⟩, rfl⟩
      · exact ⟨⟨duration', rfl⟩, rfl⟩

lemma checkAll_cons (cur : Option PendingEvents) (p : Packet) (ps : List Packet) :
    checkAll cur (p :: ps) = ((checkAll (checkTelephoneEvents cur p).1 ps).1,
      (checkTelephoneEvents cur p).2 ++ (checkAll (checkTelephoneEvents cur p).1 ps).2) := rfl

lemma checkAll_append (cur : Option PendingEvents) (ps qs : List Packet) :
    checkAll cur (ps ++ qs) = ((checkAll (checkAll cur ps).1 qs).1,
      (checkAll cur ps).2 ++ (checkAll (checkAll cur ps).1 qs).2) := by
  induction ps generalizing cur with
  | nil => rfl
  | cons p ps ih => simp only [List.cons_append, checkAll, ih, List.append_assoc]

/-- More packets of the pending digit: its end is reported if it has not been yet. -/
lemma checkAll_again {event : Byte} {ts : BitVec 32} {rs : List Packet}
    {cur : Option PendingEvents} {ended : Bool} (h : Tones event ts rs)
    (hcur : PendingTone event ts ended cur) (horder : ended = true → ∀ p ∈ rs, p.ended = true) :
    (∃ ended', PendingTone event ts ended' (checkAll cur rs).1) ∧
      (checkAll cur rs).2 = if !ended && rs.any Packet.ended then [event] else [] := by
  induction rs generalizing cur ended with
  | nil => exact ⟨⟨ended, hcur⟩, by simp [checkAll]⟩
  | cons p rs ih =>
    obtain ⟨htone, hrest⟩ := List.forall_mem_cons.mp h.tone
    obtain ⟨hmark, hmarks⟩ := List.forall_mem_cons.mp h.mark
    obtain ⟨hafter, hpairs⟩ := List.pairwise_cons.mp h.order
    obtain ⟨hpending, hreported⟩ :=
      check_again htone hcur (fun hended => horder hended p List.mem_cons_self) hmark
    obtain ⟨hfinal, hlater⟩ := ih ⟨hrest, hpairs, hmarks⟩ hpending fun hended q hq =>
      hafter q hq hended
    refine ⟨hfinal, ?_⟩
    rw [checkAll_cons, hreported, hlater, List.any_cons]
    cases hp : p.ended with
    | true => simp
    | false =>
      have hnot : ended = false := by
        by_contra hne
        rw [horder (by simpa using hne) p List.mem_cons_self] at hp
        cases hp
      simp [hnot]

/-- All packets of a digit that arrive: it is reported if its end is among them. -/
lemma checkAll_tones {event : Byte} {ts : BitVec 32} {rs : List Packet}
    {cur : Option PendingEvents} (h : Tones event ts rs) (hcur : NotPending ts cur) :
    (∀ ts', ts' ≠ ts → NotPending ts' cur → NotPending ts' (checkAll cur rs).1) ∧
      (checkAll cur rs).2 = if rs.any Packet.ended then [event] else [] := by
  cases rs with
  | nil => exact ⟨fun _ _ hcur' => hcur', rfl⟩
  | cons p rs =>
    obtain ⟨htone, hrest⟩ := List.forall_mem_cons.mp h.tone
    obtain ⟨hmark, hmarks⟩ := List.forall_mem_cons.mp h.mark
    obtain ⟨hafter, hpairs⟩ := List.pairwise_cons.mp h.order
    obtain ⟨hpending, hreported⟩ := check_first htone hcur hmark
    obtain ⟨⟨ended, duration, hfinal⟩, hlater⟩ :=
      checkAll_again ⟨hrest, hpairs, hmarks⟩ hpending fun hended q hq => hafter q hq hended
    refine ⟨fun ts' hne _ c hc => ?_, ?_⟩
    · rw [checkAll_cons, hfinal] at hc
      obtain rfl := Option.some.inj hc
      exact hne.symm
    · rw [checkAll_cons, hreported, hlater, List.any_cons]
      cases p.ended with
      | true => simp
      | false => simp

/-- The end of the digit is among the packets. -/
def EndArrived (rs : List Packet) (ts : BitVec 32) : Prop :=
  ∃ p ∈ rs, p.rtp.timestamp = ts ∧ p.ended = true

instance (rs : List Packet) (ts : BitVec 32) : Decidable (EndArrived rs ts) :=
  inferInstanceAs (Decidable (∃ p ∈ rs, _))

lemma Tones.endArrived_iff {event : Byte} {ts : BitVec 32} {rs : List Packet}
    (h : Tones event ts rs) : EndArrived rs ts ↔ rs.any Packet.ended = true := by
  rw [List.any_eq_true]
  constructor
  · rintro ⟨p, hp, -, hended⟩
    exact ⟨p, hp, hended⟩
  · rintro ⟨p, hp, hended⟩
    exact ⟨p, hp, (h.tone p hp).timestamp, hended⟩

lemma EndArrived.append_iff {rs rs' : List Packet} {ts : BitVec 32} :
    EndArrived (rs ++ rs') ts ↔ EndArrived rs ts ∨ EndArrived rs' ts := by
  simp only [EndArrived, List.mem_append, or_and_right, exists_or]

lemma exists_digit {digits : List (Byte × BitVec 32)} {pss : List (List Packet)}
    (hsent : List.Forall₂ (fun d ps => Tones d.1 d.2 ps) digits pss) {p : Packet}
    (hp : p ∈ pss.flatten) : ∃ d ∈ digits, p.rtp.timestamp = d.2 := by
  induction hsent with
  | nil => cases hp
  | @cons d ps digits pss htones _ ih =>
    rw [List.flatten_cons, List.mem_append] at hp
    rcases hp with hp | hp
    · exact ⟨d, List.mem_cons_self, (htones.tone p hp).timestamp⟩
    · obtain ⟨d', hd', hts⟩ := ih hp
      exact ⟨d', List.mem_cons_of_mem _ hd', hts⟩

/-- On a channel that keeps the order each digit is reported once, in the order of sending, if and
only if its end arrives. -/
lemma checkAll_digits {digits : List (Byte × BitVec 32)} {pss : List (List Packet)}
    (hsent : List.Forall₂ (fun d ps => Tones d.1 d.2 ps) digits pss)
    (hnodup : (digits.map Prod.snd).Nodup) {rs : List Packet} (hrs : Delivers pss.flatten rs)
    {cur : Option PendingEvents} (hcur : ∀ d ∈ digits, NotPending d.2 cur) :
    (checkAll cur rs).2 =
      (digits.filter fun d => decide (EndArrived rs d.2)).map Prod.fst := by
  induction hsent generalizing rs cur with
  | nil =>
    cases hrs
    rfl
  | @cons d ps digits pss htones hsent ih =>
    rw [List.flatten_cons] at hrs
    obtain ⟨s, s', rfl, hs, hs'⟩ := hrs.append_left
    have hs := htones.of_delivers hs
    rw [List.map_cons, List.nodup_cons] at hnodup
    obtain ⟨hhead, hcur⟩ := List.forall_mem_cons.mp hcur
    obtain ⟨hnot, hreported⟩ := checkAll_tones hs hhead
    have hother : ∀ d' ∈ digits, d'.2 ≠ d.2 := fun d' hd' heq =>
      hnodup.1 (List.mem_map.mpr ⟨d', hd', heq⟩)
    have hlater := ih hnodup.2 hs' fun d' hd' => hnot d'.2 (hother d' hd') (hcur d' hd')
    -- the end of a later digit is not among the packets of this one, and the other way round
    have hnone : ¬EndArrived s' d.2 := by
      rintro ⟨p, hp, hts, -⟩
      obtain ⟨d', hd', hts'⟩ := exists_digit hsent (hs'.mem hp)
      exact hother d' hd' (hts'.symm.trans hts)
    have hlate : ∀ d' ∈ digits,
        decide (EndArrived (s ++ s') d'.2) = decide (EndArrived s' d'.2) := by
      intro d' hd'
      refine decide_eq_decide.mpr (EndArrived.append_iff.trans (or_iff_right ?_))
      rintro ⟨p, hp, hts, -⟩
      exact hother d' hd' (hts.symm.trans (hs.tone p hp).timestamp)
    have hiff : EndArrived (s ++ s') d.2 ↔ s.any Packet.ended = true :=
      EndArrived.append_iff.trans ((or_iff_left hnone).trans hs.endArrived_iff)
    rw [checkAll_append, hreported, hlater, List.filter_cons, List.filter_congr hlate]
    simp only [decide_eq_true_eq, hiff]
    split_ifs
    · rfl
    · rfl

end Tones

end MTalk.Rtp
