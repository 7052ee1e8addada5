import MTalk.Rtp.SessionRuns

/-!
# Digits from one session to another

A session sends digits between its media packets, another one receives them. The network may lose
and repeat the telephone events as long as it keeps their order. Then each digit of which an end has
arrived is reported exactly once, whatever else the receiving session does meanwhile.
-/

namespace MTalk.Rtp

open Channels

section Sending

/-- What a session sends. -/
inductive Send
  | media (payload : List Byte) (ts : BitVec 32)
  | dtmf (dtmf : Char) (ts : BitVec 32) (duration : ℤ)

/-- The event and the time of a digit. -/
def Send.digit : Send → Option (Byte × BitVec 32)
  | .media _ _ => none
  | .dtmf c ts _ => (tevType c).map fun event => (event, ts)

/-- `rtp_session_send_with_ts` or `rtp_session_send_dtmf2`. -/
def Sender.send (s : Sender) : Send → Sender × List Packet
  | .media payload ts =>
    let (s, p) := s.sendmWithTs (s.createPacket payload) ts
    (s, [p])
  | .dtmf c ts duration =>
    match s.sendDtmf2 c ts duration with
    | some r => r
    | none => (s, [])

def Sender.sendAll (s : Sender) : List Send → List Packet
  | [] => []
  | a :: sends => (s.send a).2 ++ (s.send a).1.sendAll sends

/-- The telephone events among the packets. -/
def telephoneEvents (pt : BitVec 7) (ps : List Packet) : List Packet :=
  ps.filter fun p => p.rtp.paytype = pt

lemma sendDtmf2_isSome {s : Sender} {pt : BitVec 7} (hpt : s.telephoneEventsPt = some pt)
    (c : Char) (ts : BitVec 32) (duration : ℤ) :
    (s.sendDtmf2 c ts duration).isSome = (tevType c).isSome := by
  rw [Sender.sendDtmf2]
  cases tevType c with
  | none => rfl
  | some event =>
    simp only [Sender.createTelephoneEventPacket, hpt]
    rfl

/-- The payload types of a sender do not change. -/
lemma Sender.send_eq (s : Sender) (a : Send) :
    ∃ seq, (s.send a).1 = { s with sndSeq := seq } := by
  cases a with
  | media payload ts =>
    rw [Sender.send, Sender.sendmWithTs]
    split_ifs
    · exact ⟨_, rfl⟩
    · exact ⟨_, rfl⟩
  | dtmf c ts duration =>
    rw [Sender.send]
    cases h : s.sendDtmf2 c ts duration with
    | none => exact ⟨s.sndSeq, rfl⟩
    | some r =>
      obtain ⟨event, pt, -, -, hr, -⟩ := sendDtmf2_eq h
      exact ⟨_, hr⟩

/-- The telephone events that a sender sends are those of its digits. -/
lemma telephoneEvents_sendAll {s : Sender} {pt : BitVec 7} (hpt : s.telephoneEventsPt = some pt)
    (hmedia : BitVec.ofInt 7 s.pt ≠ pt) (sends : List Send) :
    ∃ pss, telephoneEvents pt (s.sendAll sends) = pss.flatten ∧
      List.Forall₂ (fun d ps => Tones d.1 d.2 ps) (sends.filterMap Send.digit) pss := by
  induction sends generalizing s with
  | nil => exact ⟨[], rfl, .nil⟩
  | cons a sends ih =>
    obtain ⟨seq, hseq⟩ := s.send_eq a
    obtain ⟨pss, hflat, htones⟩ :=
      ih (s := (s.send a).1) (by rw [hseq]; exact hpt) (by rw [hseq]; exact hmedia)
    rw [Sender.sendAll, telephoneEvents, List.filter_append, ← telephoneEvents, ← telephoneEvents,
      hflat]
    cases a with
    | media payload ts =>
      refine ⟨pss, ?_, htones⟩
      have hnone : telephoneEvents pt (s.send (.media payload ts)).2 = [] := by
        have hne : s.telephoneEventsPt ≠ some (BitVec.ofInt 7 s.pt) := by
          rw [hpt]
          exact fun heq => hmedia (Option.some.inj heq).symm
        simp only [Sender.send, Sender.sendmWithTs, Sender.createPacket, hne, if_false,
          telephoneEvents, List.filter_cons, hmedia, decide_false, List.filter_nil,
          Bool.false_eq_true]
      rw [hnone, List.nil_append]
    | dtmf c ts duration =>
      have hsome := sendDtmf2_isSome hpt c ts duration
      cases h : s.sendDtmf2 c ts duration with
      | none =>
        rw [h, Option.isSome_none, eq_comm, Option.isSome_eq_false_iff, Option.isNone_iff_eq_none]
          at hsome
        refine ⟨pss, ?_, ?_⟩
        · rw [Sender.send, h]
          rfl
        · rw [List.filterMap_cons, Send.digit, hsome]
          exact htones
      | some r =>
        obtain ⟨event, htype, hr⟩ := tones_of_sendDtmf2 h
        obtain ⟨event', pt', -, hpt', -, d1, d2, d3, hps⟩ := sendDtmf2_eq h
        obtain rfl : pt = pt' := Option.some.inj (hpt.symm.trans hpt')
        refine ⟨r.2 :: pss, ?_, ?_⟩
        · rw [Sender.send, h, List.flatten_cons]
          refine congrArg (· ++ pss.flatten) (List.filter_eq_self.mpr fun p hp => ?_)
          dsimp only at hp hps
          rw [hps] at hp
          simp only [List.mem_cons, List.not_mem_nil, or_false] at hp
          rcases hp with rfl | rfl | rfl | rfl | rfl <;> exact decide_eq_true rfl
        · rw [List.filterMap_cons, Send.digit, htype]
          exact .cons hr htones

end Sending

section Receiving

/-- The telephone events that have been checked. -/
def checkedTones (reports : List Report) : List Message :=
  reports.filterMap fun r => match r with
    | .telephoneEventPacket m => some m
    | _ => none

/-- The digits that have been reported. -/
def reportedEvents (reports : List Report) : List Byte :=
  reports.filterMap fun r => match r with
    | .telephoneEvent event => some event
    | _ => none

/-- Nothing is said about telephone events. -/
def Quiet (reports : List Report) : Prop :=
  checkedTones reports = [] ∧ reportedEvents reports = []

lemma checkedTones_append (r r' : List Report) :
    checkedTones (r ++ r') = checkedTones r ++ checkedTones r' := List.filterMap_append

lemma reportedEvents_append (r r' : List Report) :
    reportedEvents (r ++ r') = reportedEvents r ++ reportedEvents r' := List.filterMap_append

lemma Quiet.append {r r' : List Report} (h : Quiet r) (h' : Quiet r') : Quiet (r ++ r') := by
  rw [Quiet, checkedTones_append, reportedEvents_append, h.1, h.2, h'.1, h'.2]
  exact ⟨rfl, rfl⟩

lemma quiet_nil : Quiet [] := ⟨rfl, rfl⟩

lemma quiet_freed (block : ℕ) : Quiet [.freed block] := ⟨rfl, rfl⟩

lemma quiet_freeAll (ms : List Message) : Quiet (freeAll ms) := by
  induction ms with
  | nil => exact quiet_nil
  | cons m ms ih => exact ih

lemma quiet_trashed (blocks : List ℕ) : Quiet (blocks.map Report.trashed) := by
  induction blocks with
  | nil => exact quiet_nil
  | cons block blocks ih => exact ih

lemma quiet_resync {J : Type} {e : Setup J} (s : Session J) : Quiet (s.resync e).2 :=
  quiet_freeAll s.rq

/-- A telephone event that is later than those in the queue, or a copy of the last one. -/
lemma queuePacket_later {q : List Message} {maxrqsz : ℕ} {m : Message} (hpayload : m.payload ≠ [])
    (hroom : q.length < maxrqsz)
    (hlater : ∀ m' ∈ q, m'.toPacket = m.toPacket ∨
      m.rtp.seqNumber ≠ m'.rtp.seqNumber ∧ SeqIsGreater m.rtp.seqNumber m'.rtp.seqNumber) :
    (queuePacket q maxrqsz m).queue = q ++ [m] ∨
      (queuePacket q maxrqsz m).queue = q ∧ ∃ m' ∈ q, m'.toPacket = m.toPacket := by
  have hput : (rtpPutq q m).1 = q ++ [m] ∨
      (rtpPutq q m).1 = q ∧ ∃ m' ∈ q, m'.toPacket = m.toPacket := by
    rw [rtpPutq]
    cases hlast : q.reverse with
    | nil =>
      rw [List.reverse_eq_nil_iff] at hlast
      rw [hlast]
      exact .inl rfl
    | cons tmp older =>
      have hq : q = older.reverse ++ [tmp] := by
        rw [← List.reverse_reverse q, hlast, List.reverse_cons]
      have hmem : tmp ∈ q := by simp [hq]
      rw [rtpPutqLoop]
      rcases hlater tmp hmem with hcopy | ⟨hne, hgreater⟩
      · right
        have hseq : m.rtp.seqNumber = tmp.rtp.seqNumber :=
          congrArg (fun p : Packet => p.rtp.seqNumber) hcopy.symm
        rw [if_pos hseq]
        refine ⟨?_, tmp, hmem, hcopy⟩
        rw [hq]
        exact List.reverse_cons
      · left
        rw [if_neg hne, if_pos hgreater, hq]
        exact List.reverse_cons.trans (congrArg (· ++ [m]) List.reverse_cons)
  rw [queuePacket, if_neg hpayload]
  have hshort : (rtpPutq q m).1.length ≤ maxrqsz := by
    rcases hput with heq | ⟨heq, -⟩
    · rw [heq, List.length_append, List.length_singleton]
      exact hroom
    · rw [heq]
      exact hroom.le
  have htrim : (trimLoop maxrqsz (rtpPutq q m).1).1 = (rtpPutq q m).1 := by
    cases h : (rtpPutq q m).1 with
    | nil => rfl
    | cons tmp rest =>
      rw [h] at hshort
      rw [trimLoop, if_neg (not_lt.mpr hshort)]
  dsimp only
  rw [htrim]
  exact hput

end Receiving

namespace Session

variable {J : Type} (e : Setup J)

/-- The telephone event that a piece takes. -/
def takenTone (s : Session J) : Piece → Option Message
  | .parse mp _ => mp.packet.filter fun m =>
    decide (e.telephoneEventsPt = some m.rtp.paytype) && (s.checkSsrc e m.rtp).2.2
  | _ => none

/-- The telephone events that a session takes in a run. -/
def takenTones (s : Session J) : List Piece → List Message
  | [] => []
  | p :: pieces => (s.takenTone e p).toList ++ (s.piece e p).1.takenTones pieces

lemma takenTones_concat (s : Session J) (pieces : List Piece) (p : Piece) :
    s.takenTones e (pieces ++ [p]) =
      s.takenTones e pieces ++ ((s.play e pieces).1.takenTone e p).toList := by
  induction pieces generalizing s with
  | nil => exact List.append_nil _
  | cons q pieces ih =>
    rw [List.cons_append, takenTones, takenTones, ih, List.append_assoc]
    rfl

/-- Each telephone event that is taken has data, finds room in the queue and is later than those in
the queue or a copy of them. -/
def TonesInOrder (_ : List Report) (s : Session J) (p : Piece) : Prop :=
  ∀ m ∈ s.takenTone e p, m.payload ≠ [] ∧ s.tevRq.length < e.maxRqSize ∧
    ∀ m' ∈ s.tevRq, m'.toPacket = m.toPacket ∨
      m.rtp.seqNumber ≠ m'.rtp.seqNumber ∧ SeqIsGreater m.rtp.seqNumber m'.rtp.seqNumber

/-- The telephone events that were taken are checked or wait, up to copies, and the digits of those
that were checked have been reported. -/
structure Heard (taken : List Message) (reports : List Report) (s : Session J) : Prop where
  sublist : (checkedTones reports ++ s.tevRq).Sublist taken
  covers : ∀ m ∈ taken, ∃ m' ∈ checkedTones reports ++ s.tevRq, m'.toPacket = m.toPacket
  pending : s.currentTev = (checkAll none ((checkedTones reports).map Message.toPacket)).1
  reported : reportedEvents reports =
    (checkAll none ((checkedTones reports).map Message.toPacket)).2

variable {e} {taken : List Message} {reports : List Report} {s : Session J}

/-- A step that does nothing with telephone events. -/
lemma Heard.quiet (h : Heard taken reports s) {t : Session J} {r : List Report}
    (htev : t.tevRq = s.tevRq) (hcur : t.currentTev = s.currentTev) (hr : Quiet r) :
    Heard taken (reports ++ r) t := by
  have hchecked : checkedTones (reports ++ r) = checkedTones reports := by
    rw [checkedTones_append, hr.1, List.append_nil]
  have hevents : reportedEvents (reports ++ r) = reportedEvents reports := by
    rw [reportedEvents_append, hr.2, List.append_nil]
  refine ⟨?_, ?_, ?_, ?_⟩
  · rw [hchecked, htev]
    exact h.sublist
  · rw [hchecked, htev]
    exact h.covers
  · rw [hchecked, hcur]
    exact h.pending
  · rw [hchecked, hevents]
    exact h.reported

lemma checkTev_reports {mp : Message} {q : List Message} (h : s.tevRq = mp :: q) :
    checkedTones s.checkTev.2 = [mp] ∧
      reportedEvents s.checkTev.2 = (checkTelephoneEvents s.currentTev mp.toPacket).2 := by
  rw [checkTev_cons h]
  constructor
  · simp [checkedTones, List.filterMap_append, List.filterMap_map]
  · simp [reportedEvents, List.filterMap_append, List.filterMap_map]

/-- The first telephone event of the queue is checked. -/
lemma Heard.checkTev (h : Heard taken reports s) :
    Heard taken (reports ++ s.checkTev.2) s.checkTev.1 := by
  cases hq : s.tevRq with
  | nil =>
    rw [checkTev_nil hq]
    exact h.quiet rfl rfl quiet_nil
  | cons mp q =>
    obtain ⟨hchecked, hevents⟩ := checkTev_reports hq
    have hsplit : checkedTones (reports ++ s.checkTev.2) ++ q =
        checkedTones reports ++ s.tevRq := by
      rw [checkedTones_append, hchecked, hq, List.append_assoc]
      rfl
    have hall : checkAll none ((checkedTones (reports ++ s.checkTev.2)).map Message.toPacket) =
        ((checkTelephoneEvents s.currentTev mp.toPacket).1,
          reportedEvents reports ++ (checkTelephoneEvents s.currentTev mp.toPacket).2) := by
      rw [checkedTones_append, hchecked, List.map_append, checkAll_append, ← h.pending,
        ← h.reported]
      refine congrArg (Prod.mk _) (congrArg (reportedEvents reports ++ ·) ?_)
      exact List.append_nil _
    refine ⟨?_, ?_, ?_, ?_⟩
    · rw [checkTev_cons hq] at hsplit ⊢
      exact hsplit ▸ h.sublist
    · rw [checkTev_cons hq] at hsplit ⊢
      exact hsplit ▸ h.covers
    · rw [hall, checkTev_cons hq]
    · rw [hall, reportedEvents_append, hevents]

/-- A telephone event is taken. -/
lemma Heard.parseTelephoneEvent (h : Heard taken reports s) {m : Message}
    (hpayload : m.payload ≠ []) (hroom : s.tevRq.length < e.maxRqSize)
    (hlater : ∀ m' ∈ s.tevRq, m'.toPacket = m.toPacket ∨
      m.rtp.seqNumber ≠ m'.rtp.seqNumber ∧ SeqIsGreater m.rtp.seqNumber m'.rtp.seqNumber) :
    Heard (taken ++ [m]) (reports ++ (s.parseTelephoneEvent e m).2)
      (s.parseTelephoneEvent e m).1 := by
  have hquiet : Quiet (s.parseTelephoneEvent e m).2 := quiet_freeAll _
  have hchecked : checkedTones (reports ++ (s.parseTelephoneEvent e m).2) =
      checkedTones reports := by
    rw [checkedTones_append, hquiet.1, List.append_nil]
  refine ⟨?_, ?_, ?_, ?_⟩
  · rw [hchecked]
    rcases queuePacket_later hpayload hroom hlater with hq | ⟨hq, -⟩
    · rw [Session.parseTelephoneEvent, hq, ← List.append_assoc]
      exact h.sublist.append (List.Sublist.refl [m])
    · rw [Session.parseTelephoneEvent, hq]
      exact h.sublist.trans (List.sublist_append_left _ _)
  · rw [hchecked]
    intro m' hm'
    rcases queuePacket_later hpayload hroom hlater with hq | ⟨hq, copy, hcopy, heq⟩
    · rw [Session.parseTelephoneEvent, hq, ← List.append_assoc]
      rcases List.mem_append.mp hm' with hm' | hm'
      · obtain ⟨m'', hm'', heq⟩ := h.covers m' hm'
        exact ⟨m'', List.mem_append_left _ hm'', heq⟩
      · exact ⟨m, List.mem_append_right _ (List.mem_singleton_self m),
          congrArg _ (List.mem_singleton.mp hm').symm⟩
    · rw [Session.parseTelephoneEvent, hq]
      rcases List.mem_append.mp hm' with hm' | hm'
      · exact h.covers m' hm'
      · rw [List.mem_singleton.mp hm']
        exact ⟨copy, List.mem_append_right _ hcopy, heq⟩
  · rw [hchecked]
    exact h.pending
  · rw [hchecked, reportedEvents_append, hquiet.2, List.append_nil]
    exact h.reported

lemma Heard.parseMedia (h : Heard taken reports s) (m : Message) (localStrTs : BitVec 32) :
    Heard taken (reports ++ (s.parseMedia e m localStrTs).2) (s.parseMedia e m localStrTs).1 := by
  obtain ⟨jittctl, hwRecvPt, tsJump, permissive, hfollow⟩ :=
    followPacket_eq (e := e) s m.rtp localStrTs
  rw [Session.parseMedia, hfollow]
  set t : Session J := { s with
    jittctl := jittctl, hwRecvPt := hwRecvPt, tsJump := tsJump, permissive := permissive } with ht
  have hcheck := timestampChecked (e := e) t m.rtp.timestamp
  generalize t.checkTimestamp e m.rtp.timestamp = x at hcheck ⊢
  cases hcheck with
  | starting => exact h.quiet rfl rfl (quiet_nil.append (quiet_freeAll _))
  | jump => exact h.quiet rfl rfl ((quiet_resync (e := e) t).append (quiet_freeAll _))
  | late _ _ r s' hs' =>
    rcases hs' with hs' | hs'
    · obtain ⟨rfl, rfl⟩ := Prod.mk.inj hs'
      exact h.quiet rfl rfl (quiet_nil.append (quiet_freed _))
    · obtain ⟨rfl, rfl⟩ := Prod.mk.inj hs'
      exact h.quiet rfl rfl ((quiet_resync (e := e) t).append (quiet_freed _))
  | inTime => exact h.quiet rfl rfl (quiet_nil.append (quiet_freeAll _))

lemma Heard.checkSsrc (h : Heard taken reports s) {rtp : Header}
    {x : Session J × List Report × Bool} (hx : SsrcChecked e s rtp x) :
    Heard taken (reports ++ x.2.1) x.1 ∧ x.1.tevRq = s.tevRq := by
  obtain ⟨count, hcount⟩ := s.countCandidate_eq rtp.ssrc
  cases hx with
  | locks => exact ⟨h.quiet rfl rfl quiet_nil, rfl⟩
  | same => exact ⟨h.quiet rfl rfl quiet_nil, rfl⟩
  | foreign =>
    rw [hcount]
    exact ⟨h.quiet rfl rfl quiet_nil, rfl⟩
  | changes _ _ _ s' hs' =>
    rw [hcount] at hs'
    subst hs'
    exact ⟨h.quiet rfl rfl (quiet_resync (e := e) _), rfl⟩

lemma Heard.untaken (h : Heard taken reports s) :
    Heard (taken ++ (none : Option Message).toList) reports s :=
  (List.append_nil taken).symm ▸ h

lemma Heard.piece (h : Heard taken reports s) {p : Piece} (hp : TonesInOrder e reports s p) :
    Heard (taken ++ (s.takenTone e p).toList) (reports ++ (s.piece e p).2) (s.piece e p).1 := by
  cases p with
  | parse mp userTs =>
    rw [Session.piece]
    cases hpacket : mp.packet with
    | none =>
      rw [takenTone, hpacket, Option.filter_none, Option.toList_none, List.append_nil]
      rcases rtpParse_of_no_packet e hpacket s userTs with heq | heq
      · rw [heq]
        exact h.quiet rfl rfl (quiet_freed _)
      · rw [heq]
        exact h.quiet rfl rfl ⟨rfl, rfl⟩
    | some m =>
      rw [rtpParse_of_packet e hpacket, parsePacket]
      have hchecked := ssrcChecked (e := e) s m.rtp
      have htaken : s.takenTone e (.parse mp userTs) =
          if (decide (e.telephoneEventsPt = some m.rtp.paytype) &&
            (s.checkSsrc e m.rtp).2.2) = true then some m else none := by
        rw [takenTone, hpacket, Option.filter_some]
      rw [TonesInOrder, htaken] at hp
      rw [htaken]
      generalize s.checkSsrc e m.rtp = x at hchecked hp ⊢
      obtain ⟨hheard, hq⟩ := h.checkSsrc hchecked
      obtain ⟨t, change, kept⟩ := x
      cases kept with
      | false =>
        simp only [Bool.and_false, Bool.false_eq_true, if_false, Option.toList_none,
          List.append_nil]
        have hfree := hheard.quiet (t := t) rfl rfl (quiet_freed m.block)
        rwa [List.append_assoc] at hfree
      | true =>
        by_cases htev : e.telephoneEventsPt = some m.rtp.paytype
        · simp only [htev, decide_true, Bool.and_self, if_true, Option.toList_some] at hp ⊢
          obtain ⟨hpayload, hroom, hlater⟩ := hp m rfl
          have hevent := hheard.parseTelephoneEvent (e := e) hpayload (hq ▸ hroom) (hq ▸ hlater)
          rwa [List.append_assoc] at hevent
        · simp only [htev, decide_false, Bool.false_and, Bool.false_eq_true, if_false, if_true,
            Option.toList_none, List.append_nil]
          have hmedia := hheard.parseMedia (e := e) m userTs
          rwa [List.append_assoc] at hmedia
  | query userTs =>
    obtain ⟨rcvQueryTsOffset, heq⟩ := s.startQuery_eq userTs
    rw [Session.piece, heq]
    refine Heard.untaken ?_
    exact h.quiet rfl rfl quiet_nil
  | checkTev =>
    refine Heard.untaken ?_
    exact h.checkTev
  | getMedia userTs =>
    refine Heard.untaken ?_
    rw [Session.piece]
    have hgot := mediaGot (e := e) s userTs
    generalize s.getMedia e userTs = x at hgot ⊢
    cases hgot with
    | starting => exact h.quiet rfl rfl quiet_nil
    | @nothing t ht q old _ =>
      cases ht with
      | before => exact h.quiet rfl rfl (quiet_freeAll old)
      | now => exact h.quiet rfl rfl (quiet_freeAll old)
    | @message t ht mp q old _ jittctl changedTs change hchange =>
      have hquiet : Quiet (freeAll old ++ (change ++ [.returned mp changedTs])) := by
        refine (quiet_freeAll old).append (Quiet.append ?_ ⟨rfl, rfl⟩)
        rcases hchange with rfl | rfl
        · exact quiet_nil
        · exact ⟨rfl, rfl⟩
      cases ht with
      | before => exact h.quiet rfl rfl hquiet
      | now => exact h.quiet rfl rfl hquiet
  | resync =>
    refine Heard.untaken ?_
    exact h.quiet rfl rfl (quiet_resync (e := e) s)
  | reset =>
    refine Heard.untaken ?_
    exact h.quiet rfl rfl (quiet_resync (e := e) _)
  | flushSockets blocks =>
    refine Heard.untaken ?_
    exact h.quiet rfl rfl (quiet_trashed blocks)

lemma heard_create (jittctl : J) : Heard [] [] (create e jittctl) :=
  ⟨List.Sublist.refl _, by simp, rfl, rfl⟩

lemma heard_play {jittctl : J} {pieces : List Piece}
    (hguard : Guarded e (TonesInOrder e) [] (create e jittctl) pieces) :
    Heard ((create e jittctl).takenTones e pieces) ((create e jittctl).play e pieces).2
      ((create e jittctl).play e pieces).1 := by
  have hrun := run_rule e (s := create e jittctl)
    (P := fun played reports s => s = ((create e jittctl).play e played).1 ∧
      Heard ((create e jittctl).takenTones e played) reports s) ?_
    ⟨rfl, heard_create jittctl⟩ hguard
  · exact hrun.2
  · rintro played reports s p ⟨rfl, hheard⟩ hp
    refine ⟨?_, ?_⟩
    · rw [play_append, play_cons]
      rfl
    · rw [takenTones_concat]
      exact hheard.piece hp

end Session

namespace Host

variable {J : Type} (e : Setup J)

/-- Digits are sent by one session and received by another one. If the network keeps the order of
the telephone events, whatever it loses and repeats, then once the queue is empty the digits that
have been reported are those of which an end was taken, each one once and in the order of sending.
-/
theorem digits_reported_once (jittctl : J) (actions : List Action) (sender : Sender)
    (sends : List Send) (pt : BitVec 7) (hpt : sender.telephoneEventsPt = some pt)
    (hmedia : BitVec.ofInt 7 sender.pt ≠ pt)
    (htimes : ((sends.filterMap Send.digit).map Prod.snd).Nodup)
    (hchannel : Delivers (telephoneEvents pt (sender.sendAll sends))
      (((Session.create e jittctl).takenTones e ((create e jittctl).pieces e actions)).map
        Message.toPacket))
    (hguard : Session.Guarded e (Session.TonesInOrder e) [] (Session.create e jittctl)
      ((create e jittctl).pieces e actions))
    (hdone : ((create e jittctl).run e actions).1.session.tevRq = []) :
    reportedEvents ((create e jittctl).run e actions).2 =
      ((sends.filterMap Send.digit).filter fun d => decide (EndArrived
        (((Session.create e jittctl).takenTones e ((create e jittctl).pieces e actions)).map
          Message.toPacket) d.2)).map Prod.fst := by
  have hheard := Session.heard_play hguard
  set taken := (Session.create e jittctl).takenTones e ((create e jittctl).pieces e actions)
  rw [show Session.create e jittctl = (create e jittctl).session from rfl, play_pieces] at hheard
  set reports := ((create e jittctl).run e actions).2
  have hsub := hheard.sublist
  have hcovers := hheard.covers
  rw [hdone, List.append_nil] at hsub hcovers
  obtain ⟨pss, hflat, htones⟩ := telephoneEvents_sendAll hpt hmedia sends
  rw [hflat] at hchannel
  have hdelivers := hchannel.sublist (hsub.map Message.toPacket)
  rw [hheard.reported, checkAll_digits htones htimes hdelivers fun _ _ _ hc => by cases hc]
  have hends : ∀ ts, EndArrived ((checkedTones reports).map Message.toPacket) ts ↔
      EndArrived (taken.map Message.toPacket) ts := by
    intro ts
    constructor
    · rintro ⟨p, hp, hend⟩
      exact ⟨p, (hsub.map Message.toPacket).subset hp, hend⟩
    · rintro ⟨p, hp, hend⟩
      obtain ⟨m, hm, rfl⟩ := List.mem_map.mp hp
      obtain ⟨m', hm', heq⟩ := hcovers m hm
      exact ⟨m.toPacket, List.mem_map.mpr ⟨m', hm', heq⟩, hend⟩
  simp only [hends]

def digitSender : Sender := ⟨65535, 7, 0, some 101⟩

def digitSends : List Send := [.media [1, 2] 0, .dtmf '5' 160 480]

/-- The end of the digit. -/
def digitEnd : Packet := Sender.tone ⟨2, 7, 0, some 101⟩ 101 false ⟨5, 10, false, true, 480⟩ 160

def digitRun : List Action :=
  [.arrive ⟨0, digitEnd.bytes⟩, .recvm 0, .arrive ⟨1, digitEnd.bytes⟩, .recvm 160]

theorem digits_reported_once_five :
    reportedEvents ((Host.create audioSetup (0, 0)).run audioSetup digitRun).2 = [5] := by
  have htaken : ((Session.create audioSetup (0, 0)).takenTones audioSetup
      ((Host.create audioSetup (0, 0)).pieces audioSetup digitRun)).map Message.toPacket =
        [digitEnd, digitEnd] := by decide +kernel
  have hsent : ∃ p1 p2, telephoneEvents 101 (digitSender.sendAll digitSends) =
      [p1, p2, digitEnd, digitEnd, digitEnd] := ⟨_, _, rfl⟩
  obtain ⟨p1, p2, hsent⟩ := hsent
  have hguard : Session.Guarded audioSetup (Session.TonesInOrder audioSetup) []
      (Session.create audioSetup (0, 0))
      ((Host.create audioSetup (0, 0)).pieces audioSetup digitRun) := by
    refine ⟨?_, ?_, ?_, ?_, ?_, ?_, ?_, ?_, trivial⟩
    · rintro m ⟨⟩
    · intro m hm
      have hm' : some m = some ⟨digitEnd, 0⟩ := hm.symm.trans (by decide +kernel)
      obtain rfl := Option.some.inj hm'
      exact ⟨by decide, by decide +kernel, by decide +kernel⟩
    · rintro m ⟨⟩
    · rintro m ⟨⟩
    · rintro m ⟨⟩
    · intro m hm
      have hm' : some m = some ⟨digitEnd, 1⟩ := hm.symm.trans (by decide +kernel)
      obtain rfl := Option.some.inj hm'
      exact ⟨by decide, by decide +kernel, by decide +kernel⟩
    · rintro m ⟨⟩
    · rintro m ⟨⟩
  have hresult := Host.digits_reported_once audioSetup (0, 0) digitRun digitSender digitSends
    101 rfl (by decide) (by decide)
    (by
      rw [htaken, hsent]
      exact .lost (.lost (.again (.again (.lost (.lost (.lost .nil))))))) hguard (by decide +kernel)
  rw [hresult, htaken]
  decide

end Host

end MTalk.Rtp
