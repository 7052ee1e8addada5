import MTalk.Rtp.Locks

/-!
# The order of delivery

The sequence numbers and timestamps of a source count up and wrap around. As long as the numbers
that meet in a session are less than half of their range apart, the queue is in the order of
sending, and the messages that are returned between two resynchronizations never go back in time.
-/

namespace MTalk.Rtp

open SerialNumbers

/-- The true numbers of the packets: the sequence number of a block without wrapping, and the time
that a source gives to a sequence number. -/
structure Numbering where
  index : ℕ → ℤ
  time : BitVec 32 → ℤ → ℤ
  mono : ∀ ssrc, Monotone (time ssrc)

namespace Numbering

variable (num : Numbering)

def indexOf (m : Message) : ℤ := num.index m.block

def timeOf (m : Message) : ℤ := num.time m.rtp.ssrc (num.indexOf m)

/-- The header has these numbers. -/
structure Fits (m : Message) : Prop where
  seq : m.rtp.seqNumber = BitVec.ofInt 16 (num.indexOf m)
  timestamp : m.rtp.timestamp = BitVec.ofInt 32 (num.timeOf m)

variable {num}

lemma timeOf_le {m m' : Message} (hssrc : m.rtp.ssrc = m'.rtp.ssrc)
    (h : num.indexOf m ≤ num.indexOf m') : num.timeOf m ≤ num.timeOf m' := by
  rw [timeOf, timeOf, hssrc]
  exact num.mono _ h

lemma Fits.seqNumber_eq_iff {m m' : Message} (h : num.Fits m) (h' : num.Fits m')
    (hnear : Near 15 (num.indexOf m) (num.indexOf m')) :
    m.rtp.seqNumber = m'.rtp.seqNumber ↔ num.indexOf m = num.indexOf m' := by
  rw [h.seq, h'.seq]
  exact ofInt_inj hnear

lemma Fits.seqIsGreater_iff {m m' : Message} (h : num.Fits m) (h' : num.Fits m')
    (hnear : Near 15 (num.indexOf m) (num.indexOf m')) :
    SeqIsGreater m.rtp.seqNumber m'.rtp.seqNumber ↔ num.indexOf m' ≤ num.indexOf m := by
  rw [h.seq, h'.seq]
  exact newer_ofInt hnear

end Numbering

section Queue

variable {num : Numbering}

/-- `rtp_putq` keeps the order of a queue, here from the newest message on. -/
lemma sorted_rtpPutqLoop {mp : Message} {q : List Message} (hmp : num.Fits mp)
    (hq : ∀ m ∈ q, num.Fits m) (hnear : ∀ m ∈ q, Near 15 (num.indexOf mp) (num.indexOf m))
    (hsorted : q.Pairwise fun a b => num.indexOf b < num.indexOf a) :
    (rtpPutqLoop mp q).1.Pairwise fun a b => num.indexOf b < num.indexOf a := by
  induction q with
  | nil => exact List.pairwise_singleton _ _
  | cons tmp older ih =>
    rw [List.forall_mem_cons] at hq hnear
    obtain ⟨hbelow, holder⟩ := List.pairwise_cons.mp hsorted
    rw [rtpPutqLoop]
    simp only [hmp.seqNumber_eq_iff hq.1 hnear.1, hmp.seqIsGreater_iff hq.1 hnear.1]
    split_ifs with heq hgreater
    · exact hsorted
    · have hlt : num.indexOf tmp < num.indexOf mp := lt_of_le_of_ne hgreater (Ne.symm heq)
      refine List.pairwise_cons.mpr ⟨fun m hm => ?_, hsorted⟩
      rcases List.mem_cons.mp hm with rfl | hm
      · exact hlt
      · exact (hbelow m hm).trans hlt
    · refine List.pairwise_cons.mpr ⟨fun m hm => ?_, ih hq.2 hnear.2 holder⟩
      have hmem := (perm_rtpPutqLoop mp older).mem_iff.mp (List.mem_append_left _ hm)
      rcases List.mem_cons.mp hmem with rfl | hm
      · exact not_le.mp hgreater
      · exact hbelow m hm

lemma sorted_queuePacket {mp : Message} {q : List Message} (maxrqsz : ℕ) (hmp : num.Fits mp)
    (hq : ∀ m ∈ q, num.Fits m) (hnear : ∀ m ∈ q, Near 15 (num.indexOf mp) (num.indexOf m))
    (hsorted : q.Pairwise fun a b => num.indexOf a < num.indexOf b) :
    (queuePacket q maxrqsz mp).queue.Pairwise fun a b => num.indexOf a < num.indexOf b := by
  rw [queuePacket]
  split_ifs
  · exact hsorted
  · have hput : (rtpPutq q mp).1.Pairwise fun a b => num.indexOf a < num.indexOf b := by
      refine List.pairwise_reverse.mpr (sorted_rtpPutqLoop hmp ?_ ?_ ?_)
      · exact fun m hm => hq m (List.mem_reverse.mp hm)
      · exact fun m hm => hnear m (List.mem_reverse.mp hm)
      · exact List.pairwise_reverse.mpr hsorted
    have htrim := (trimLoop_eq maxrqsz (rtpPutq q mp).1).1
    exact hput.sublist (htrim ▸ List.sublist_append_right _ _)

lemma rtpGetqLoop_eq (timestamp : BitVec 32) (ret : Message) (q : List Message) :
    ret :: q = (rtpGetqLoop timestamp ret q).2.2 ++ (rtpGetqLoop timestamp ret q).1 ::
      (rtpGetqLoop timestamp ret q).2.1 := by
  induction q generalizing ret with
  | nil => rfl
  | cons tmp q ih =>
    rw [rtpGetqLoop]
    split_ifs
    · rfl
    · exact congrArg (ret :: ·) (ih tmp)
    · rfl

end Queue

namespace Session

variable {J : Type} {e : Setup J}

/-- The message that is taken stands after the freed ones and before those that stay. -/
lemma takeMessage_eq (s : Session J) (userTs : BitVec 32) :
    (∃ mp q old, s.takeMessage e userTs = (some mp, q, old) ∧ s.rq = old ++ mp :: q) ∨
      s.takeMessage e userTs = (none, s.rq, []) := by
  rw [takeMessage]
  cases h : s.rq with
  | nil =>
    right
    split_ifs
    · rfl
    · rfl
    · rfl
  | cons tmp q =>
    split_ifs
    · rw [rtpGetqPermissive]
      split_ifs
      · exact .inl ⟨tmp, q, [], rfl, rfl⟩
      · exact .inr rfl
    · rw [rtpGetq]
      split_ifs
      · exact .inl ⟨_, _, _, rfl, rtpGetqLoop_eq _ tmp q⟩
      · exact .inr rfl
    · exact .inl ⟨tmp, q, [], rfl, rfl⟩

/-- A message that is not before the last one stands at the end. -/
lemma pairwise_concat {num : Numbering} {ms : List Message} {mp : Message}
    (h : ms.Pairwise fun a b => num.timeOf a ≤ num.timeOf b)
    (hlast : ∀ l ∈ ms.getLast?, num.timeOf l ≤ num.timeOf mp) :
    (ms ++ [mp]).Pairwise fun a b => num.timeOf a ≤ num.timeOf b := by
  refine List.pairwise_append.mpr ⟨h, List.pairwise_singleton _ _, fun a ha b hb => ?_⟩
  rw [List.mem_singleton.mp hb]
  have hne := List.ne_nil_of_mem ha
  refine le_trans ?_ (hlast (ms.getLast hne) (List.getLast?_eq_getLast_of_ne_nil hne))
  rcases List.mem_append.mp (List.dropLast_append_getLast hne ▸ ha) with hinit | hend
  · rw [← List.dropLast_append_getLast hne, List.pairwise_append] at h
    exact h.2.2 a hinit _ (List.mem_singleton_self _)
  · rw [List.mem_singleton.mp hend]

/-- The messages are in the order of sending, and those that were returned are not after them. -/
structure InOrder (num : Numbering) (reports : List Report) (s : Session J) : Prop
    extends OneSource reports s where
  fits : ∀ m ∈ s.rq, num.Fits m
  sorted : s.rq.Pairwise fun a b => num.indexOf a < num.indexOf b
  first : s.firstPacketDelivered = false → sinceResync reports = []
  last : ∀ l ∈ (sinceResync reports).getLast?, num.Fits l ∧ s.rcvLastTs = l.rtp.timestamp
  ahead : ∀ l ∈ (sinceResync reports).getLast?, ∀ m ∈ s.rq, num.timeOf l ≤ num.timeOf m
  delivered : (sinceResync reports).Pairwise fun a b => num.timeOf a ≤ num.timeOf b

variable {num : Numbering} {reports : List Report} {s : Session J}

/-- The packet has its numbers, and they are near to those that it is compared with. -/
structure InWindow (num : Numbering) (reports : List Report) (s : Session J) (m : Message) :
    Prop where
  fits : num.Fits m
  queue : m.rtp.ssrc = s.rcvSsrc → ∀ m' ∈ s.rq, Near 15 (num.indexOf m) (num.indexOf m')
  last : m.rtp.ssrc = s.rcvSsrc →
    ∀ l ∈ (sinceResync reports).getLast?, Near 31 (num.timeOf m) (num.timeOf l)

/-- Every media packet is in the window. -/
def MediaInWindow (e : Setup J) (num : Numbering) (reports : List Report) (s : Session J) :
    Piece → Prop
  | .parse mp _ => ∀ m ∈ mp.packet, e.telephoneEventsPt ≠ some m.rtp.paytype →
    InWindow num reports s m
  | _ => True

lemma sinceResync_resync (reports : List Report) (s : Session J) :
    sinceResync (reports ++ (s.resync e).2) = [] := by
  simp [Session.resync]

lemma inOrder_resync (num : Numbering) (reports : List Report) (s : Session J) :
    InOrder num (reports ++ (s.resync e).2) (s.resync e).1 := by
  have hnone := sinceResync_resync (e := e) reports s
  refine ⟨oneSource_resync reports s, ?_, ?_, ?_, ?_, ?_, ?_⟩
  · simp [Session.resync]
  · exact List.Pairwise.nil
  · exact fun _ => hnone
  · simp [hnone]
  · simp [hnone]
  · rw [hnone]
    exact List.Pairwise.nil

/-- A step that keeps the queue, what was returned and what is known about it. -/
lemma InOrder.of_same (h : InOrder num reports s) {t : Session J} {r : List Report}
    (hsource : OneSource (reports ++ r) t) (hrq : t.rq = s.rq)
    (hfirst : t.firstPacketDelivered = s.firstPacketDelivered) (hlast : t.rcvLastTs = s.rcvLastTs)
    (hsince : sinceResync (reports ++ r) = sinceResync reports) : InOrder num (reports ++ r) t := by
  refine ⟨hsource, ?_, ?_, ?_, ?_, ?_, ?_⟩
  · exact hrq ▸ h.fits
  · exact hrq ▸ h.sorted
  · rw [hfirst, hsince]
    exact h.first
  · rw [hlast, hsince]
    exact h.last
  · rw [hrq, hsince]
    exact h.ahead
  · rw [hsince]
    exact h.delivered

/-- A media packet that the last returned message is not after is queued in its place. -/
lemma InOrder.queuePacket (h : InOrder num reports s) (hset : s.ssrcSet = true) {m : Message}
    (hm : s.rcvSsrc = m.rtp.ssrc) (hwindow : InWindow num reports s m)
    (hahead : ∀ l ∈ (sinceResync reports).getLast?, num.timeOf l ≤ num.timeOf m) :
    InOrder num (reports ++ freeAll (queuePacket s.rq e.maxRqSize m).freed)
      { s with rq := (Rtp.queuePacket s.rq e.maxRqSize m).queue } := by
  have hsince : ∀ old, sinceResync (reports ++ freeAll old) = sinceResync reports := by simp
  refine ⟨h.toOneSource.queuePacket hset hm, ?_, ?_, ?_, ?_, ?_, ?_⟩
  · intro m' hm'
    rcases mem_queue_of_mem hm' with rfl | hm'
    · exact hwindow.fits
    · exact h.fits m' hm'
  · exact sorted_queuePacket _ hwindow.fits h.fits (hwindow.queue hm.symm) h.sorted
  · rw [hsince]
    exact h.first
  · rw [hsince]
    exact h.last
  · rw [hsince]
    intro l hl m' hm'
    rcases mem_queue_of_mem hm' with rfl | hm'
    · exact hahead l hl
    · exact h.ahead l hl m' hm'
  · rw [hsince]
    exact h.delivered

/-- A packet that is not late has a time that is not before the last one. -/
lemma InOrder.ahead_of_inTime (h : InOrder num reports s) {m : Message}
    (hm : s.rcvSsrc = m.rtp.ssrc) (hwindow : InWindow num reports s m)
    (hlate : ¬TimestampIsStrictlyNewerThan s.rcvLastTs m.rtp.timestamp) :
    ∀ l ∈ (sinceResync reports).getLast?, num.timeOf l ≤ num.timeOf m := by
  intro l hl
  obtain ⟨hfits, hts⟩ := h.last l hl
  have hnear := (hwindow.last hm.symm l hl).symm
  rw [hts, hfits.timestamp, hwindow.fits.timestamp, TimestampIsStrictlyNewerThan,
    TimestampIsNewerThan, newer_ofInt hnear, ne_eq, ofInt_inj hnear] at hlate
  by_contra hlt
  exact hlate ⟨(not_le.mp hlt).le, (not_le.mp hlt).ne'⟩

lemma InOrder.parseMedia (h : InOrder num reports s) (hset : s.ssrcSet = true) {m : Message}
    (hm : s.rcvSsrc = m.rtp.ssrc) (hwindow : InWindow num reports s m) (localStrTs : BitVec 32) :
    InOrder num (reports ++ (s.parseMedia e m localStrTs).2) (s.parseMedia e m localStrTs).1 := by
  have hsource := h.toOneSource.parseMedia (e := e) hset hm localStrTs
  obtain ⟨jittctl, hwRecvPt, tsJump, permissive, hfollow⟩ :=
    followPacket_eq (e := e) s m.rtp localStrTs
  rw [Session.parseMedia, hfollow] at hsource ⊢
  set t : Session J := { s with
    jittctl := jittctl, hwRecvPt := hwRecvPt, tsJump := tsJump, permissive := permissive } with ht
  have horder : InOrder num reports t :=
    ⟨⟨h.queued, h.returned, h.unset⟩, h.fits, h.sorted, h.first, h.last, h.ahead, h.delivered⟩
  have hin : InWindow num reports t m := ⟨hwindow.fits, hwindow.queue, hwindow.last⟩
  have hcheck := timestampChecked (e := e) t m.rtp.timestamp
  generalize t.checkTimestamp e m.rtp.timestamp = x at hcheck hsource ⊢
  cases hcheck with
  | starting hfirst =>
    refine horder.queuePacket hset hm hin fun l hl => ?_
    rw [h.first hfirst] at hl
    cases hl
  | jump =>
    have hjump := inOrder_resync (e := e) num reports t
    have hnone := sinceResync_resync (e := e) reports t
    have hqueue := hjump.queuePacket (e := e) (m := m) hset hm
      ⟨hwindow.fits, by simp [Session.resync], by simp [hnone]⟩ (by simp [hnone])
    rwa [List.append_assoc] at hqueue
  | late _ _ r s' hs' =>
    rcases hs' with hs' | hs'
    · obtain ⟨rfl, rfl⟩ := Prod.mk.inj hs'
      exact horder.of_same hsource rfl rfl rfl (by simp)
    · obtain ⟨rfl, rfl⟩ := Prod.mk.inj hs'
      have hfree := (inOrder_resync (e := e) num reports t).of_same
        (r := [.freed m.block]) (t := (t.resync e).1) (by rwa [List.append_assoc]) rfl rfl rfl
        (by simp)
      rwa [List.append_assoc] at hfree
  | inTime _ _ hlate => exact horder.queuePacket hset hm hin (horder.ahead_of_inTime hm hin hlate)

lemma InOrder.checkSsrc (h : InOrder num reports s) {rtp : Header}
    {x : Session J × List Report × Bool} (hx : SsrcChecked e s rtp x) :
    InOrder num (reports ++ x.2.1) x.1 := by
  have hsource := (h.toOneSource.checkSsrc hx).1
  obtain ⟨count, hcount⟩ := s.countCandidate_eq rtp.ssrc
  cases hx with
  | locks => exact h.of_same hsource rfl rfl rfl (by simp)
  | same => exact h.of_same hsource rfl rfl rfl (by simp)
  | foreign =>
    rw [hcount] at hsource ⊢
    exact h.of_same hsource rfl rfl rfl (by simp)
  | changes _ _ _ s' hs' => exact inOrder_resync num reports s'

/-- The window stays after the check of the source. -/
lemma InWindow.checkSsrc {m : Message} (h : InWindow num reports s m)
    (hsource : OneSource reports s) {x : Session J × List Report × Bool}
    (hx : SsrcChecked e s m.rtp x) (hkept : x.2.2 = true) :
    InWindow num (reports ++ x.2.1) x.1 m := by
  cases hx with
  | locks hset =>
    obtain ⟨hrq, hsince⟩ := hsource.unset hset
    exact ⟨h.fits, by simp [hrq], by simp [hsince]⟩
  | same hset hssrc =>
    refine ⟨h.fits, fun _ => h.queue hssrc.symm, fun _ => ?_⟩
    simpa using h.last hssrc.symm
  | foreign => cases hkept
  | changes _ _ _ s' hs' =>
    refine ⟨h.fits, by simp [Session.resync], fun _ l hl => ?_⟩
    rw [sinceResync_resync] at hl
    cases hl

lemma InOrder.parsePacket (h : InOrder num reports s) (m : Message)
    (hwindow : e.telephoneEventsPt ≠ some m.rtp.paytype → InWindow num reports s m)
    (localStrTs : BitVec 32) :
    InOrder num (reports ++ (s.parsePacket e m localStrTs).2) (s.parsePacket e m localStrTs).1 := by
  have hall := h.toOneSource.parsePacket (e := e) m localStrTs
  have hchecked := ssrcChecked (e := e) s m.rtp
  rw [Session.parsePacket] at hall ⊢
  generalize s.checkSsrc e m.rtp = x at hchecked hall ⊢
  obtain ⟨hsource, hkept⟩ := h.toOneSource.checkSsrc hchecked
  have horder := h.checkSsrc hchecked
  have hin := fun hmedia => (hwindow hmedia).checkSsrc h.toOneSource hchecked
  obtain ⟨t, change, kept⟩ := x
  cases kept with
  | true =>
    obtain ⟨hset, hm⟩ := hkept rfl
    dsimp only at hall ⊢
    rw [if_pos rfl] at hall ⊢
    split_ifs at hall ⊢ with htev
    · have hevent := horder.of_same (r := (t.parseTelephoneEvent e m).2)
        (t := (t.parseTelephoneEvent e m).1) (by rwa [List.append_assoc]) rfl rfl rfl
        (by simp [Session.parseTelephoneEvent])
      rwa [List.append_assoc] at hevent
    · have hmedia := InOrder.parseMedia (e := e) horder hset hm (hin htev rfl) localStrTs
      rwa [List.append_assoc] at hmedia
  | false =>
    have hfree := horder.of_same (r := [.freed m.block]) (t := t)
      (by rwa [List.append_assoc]) rfl rfl rfl (by simp)
    rwa [List.append_assoc] at hfree

lemma InOrder.rtpParse (h : InOrder num reports s) {mp : Datagram} {localStrTs : BitVec 32}
    (hwindow : MediaInWindow e num reports s (.parse mp localStrTs)) :
    InOrder num (reports ++ (s.rtpParse e mp localStrTs).2) (s.rtpParse e mp localStrTs).1 := by
  cases hpacket : mp.packet with
  | some m =>
    rw [rtpParse_of_packet e hpacket]
    exact h.parsePacket m (hwindow m hpacket) localStrTs
  | none =>
    have hsource := h.toOneSource.rtpParse (e := e) mp localStrTs
    rcases rtpParse_of_no_packet e hpacket s localStrTs with heq | heq
    · rw [heq] at hsource ⊢
      exact h.of_same hsource rfl rfl rfl (by simp)
    · rw [heq] at hsource ⊢
      exact h.of_same hsource rfl rfl rfl (by simp [collect])

lemma InOrder.checkTev (h : InOrder num reports s) :
    InOrder num (reports ++ s.checkTev.2) s.checkTev.1 := by
  have hsource := h.toOneSource.checkTev
  cases hq : s.tevRq with
  | nil =>
    rw [checkTev_nil hq] at hsource ⊢
    exact h.of_same hsource rfl rfl rfl (by simp)
  | cons mp q =>
    rw [checkTev_cons hq] at hsource ⊢
    refine h.of_same hsource rfl rfl rfl ?_
    rw [sinceResync_append, collect_append]
    exact collect_telephoneEvents _ _

lemma Synchronized.inOrder {t : Session J} {userTs : BitVec 32} (ht : Synchronized s userTs t)
    (h : InOrder num reports s) : InOrder num reports t := by
  have hsource := (ht.oneSource h.toOneSource).1
  cases ht with
  | before => exact h
  | now => exact ⟨hsource, h.fits, h.sorted, h.first, h.last, h.ahead, h.delivered⟩

/-- The message that is returned is not before the last one and not after those that stay. -/
lemma InOrder.getMedia (h : InOrder num reports s) (userTs : BitVec 32) :
    InOrder num (reports ++ (s.getMedia e userTs).2) (s.getMedia e userTs).1 := by
  have hsource := (h.toOneSource.getMedia (e := e) userTs).1
  have hgot := mediaGot (e := e) s userTs
  generalize s.getMedia e userTs = x at hgot hsource ⊢
  cases hgot with
  | starting => exact h.of_same hsource rfl rfl rfl (by simp)
  | @nothing t ht q old htake =>
    have horder := ht.inOrder h
    rcases takeMessage_eq (e := e) t userTs with ⟨mp, q', old', hsome, -⟩ | hnone
    · rw [hsome] at htake
      cases htake
    · rw [hnone] at htake
      obtain ⟨-, hq, rfl⟩ : (none : Option Message) = none ∧ t.rq = q ∧ [] = old := by
        simpa using htake
      exact horder.of_same hsource hq.symm rfl rfl (by simp)
  | @message t ht mp q old htake jittctl changedTs change hchange =>
    have horder := ht.inOrder h
    rcases takeMessage_eq (e := e) t userTs with ⟨mp', q', old', hsome, hrq⟩ | hnone
    · rw [hsome] at htake
      obtain ⟨rfl, rfl, rfl⟩ : mp' = mp ∧ q' = q ∧ old' = old := by simpa using htake
      have hsince : sinceResync
          (reports ++ (freeAll old' ++ (change ++ [.returned mp' changedTs]))) =
            sinceResync reports ++ [mp'] := by
        rcases hchange with rfl | rfl
        · rw [sinceResync_append, collect_append, collect_freeAll]
          rfl
        · rw [sinceResync_append, collect_append, collect_freeAll]
          rfl
      have hmp : mp' ∈ t.rq := by simp [hrq]
      have hstay : ∀ m ∈ q', m ∈ t.rq := fun m hm => by simp [hrq, hm]
      have hsorted := (List.pairwise_append.mp (hrq ▸ horder.sorted)).2.1
      obtain ⟨hbelow, hrest⟩ := List.pairwise_cons.mp hsorted
      have hlast : ∀ l ∈ (sinceResync reports ++ [mp']).getLast?, l = mp' := by
        simp
      refine ⟨hsource, fun m hm => horder.fits m (hstay m hm), hrest, by simp, ?_, ?_, ?_⟩
      · rw [hsince]
        intro l hl
        rw [hlast l hl]
        exact ⟨horder.fits mp' hmp, rfl⟩
      · rw [hsince]
        intro l hl m hm
        rw [hlast l hl]
        refine Numbering.timeOf_le ?_ (hbelow m hm).le
        exact (horder.queued mp' hmp).trans (horder.queued m (hstay m hm)).symm
      · rw [hsince]
        exact pairwise_concat horder.delivered fun l hl => horder.ahead l hl mp' hmp
    · rw [hnone] at htake
      cases htake

lemma InOrder.piece (h : InOrder num reports s) {p : Piece}
    (hwindow : MediaInWindow e num reports s p) :
    InOrder num (reports ++ (s.piece e p).2) (s.piece e p).1 := by
  have hsource := h.toOneSource.piece (e := e) p
  cases p with
  | parse mp userTs => exact h.rtpParse hwindow
  | query userTs =>
    obtain ⟨rcvQueryTsOffset, heq⟩ := s.startQuery_eq userTs
    rw [Session.piece, heq] at hsource ⊢
    exact h.of_same hsource rfl rfl rfl (by simp)
  | checkTev => exact h.checkTev
  | getMedia userTs => exact h.getMedia userTs
  | resync => exact inOrder_resync num reports s
  | reset =>
    have horder := inOrder_resync (e := e) num reports { s with
      recvNotStarted := true, rcvTsOffset := 0, rcvQueryTsOffset := 0, rcvLastTs := 0
      rcvLastAppTs := 0 }
    exact ⟨hsource, horder.fits, horder.sorted, horder.first, horder.last, horder.ahead,
      horder.delivered⟩
  | flushSockets blocks =>
    refine h.of_same hsource rfl rfl rfl ?_
    rw [sinceResync_append]
    exact collect_trashed _ blocks

lemma inOrder_create (jittctl : J) : InOrder num [] (create e jittctl) where
  toOneSource := oneSource_create jittctl
  fits := by simp [create]
  sorted := List.Pairwise.nil
  first := fun _ => rfl
  last := by simp [sinceResync]
  ahead := by simp [sinceResync]
  delivered := List.Pairwise.nil


end Session

namespace Host

variable {J : Type} (e : Setup J)

/-- If every media packet has near numbers when it is parsed, the queue is in the order of sending
and what has been returned since the last resynchronization never goes back in time. -/
theorem returned_in_order (num : Numbering) (jittctl : J) (actions : List Action)
    (hwindow : Session.Guarded e (Session.MediaInWindow e num) [] (Session.create e jittctl)
      ((create e jittctl).pieces e actions)) :
    let s := ((create e jittctl).run e actions).1.session
    let returned := sinceResync ((create e jittctl).run e actions).2
    (returned.Pairwise fun a b => num.timeOf a ≤ num.timeOf b) ∧
      (s.rq.Pairwise fun a b => num.indexOf a < num.indexOf b) ∧
        ∀ l ∈ returned.getLast?, ∀ m ∈ s.rq, num.timeOf l ≤ num.timeOf m := by
  have hplay := Session.run_rule e
    (P := fun _ reports s => Session.InOrder num reports s)
    (fun _ _ _ _ h hwindow => h.piece hwindow) (Session.inOrder_create jittctl) hwindow
  rw [show Session.create e jittctl = (create e jittctl).session from rfl, play_pieces] at hplay
  exact ⟨hplay.delivered, hplay.sorted, hplay.ahead⟩

def talkNumbers : Numbering where
  index b := 65535 + b
  time _ i := 160 * i
  mono _ := fun i j h => by dsimp only; omega

lemma fits_talk (i : ℕ) : talkNumbers.Fits ⟨talk 7 i, i⟩ := ⟨rfl, rfl⟩

theorem returned_in_order_talk :
    (sinceResync ((Host.create audioSetup (0, 0)).run audioSetup talkRun).2).Pairwise
      fun a b => talkNumbers.timeOf a ≤ talkNumbers.timeOf b := by
  refine (Host.returned_in_order audioSetup talkNumbers (0, 0) talkRun ?_).1
  have h0 : (talkDatagram 0).packet = some ⟨talk 7 0, 0⟩ := by decide
  have h1 : (talkDatagram 1).packet = some ⟨talk 7 1, 1⟩ := by decide
  refine ⟨trivial, fun m hm _ => ?_, trivial, trivial, trivial, fun m hm _ => ?_, trivial, trivial,
    trivial, trivial, trivial, trivial, trivial, trivial, trivial⟩
  · obtain rfl := Option.some.inj (h0.symm.trans hm)
    exact ⟨fits_talk 0, by decide, by decide⟩
  · obtain rfl := Option.some.inj (h1.symm.trans hm)
    exact ⟨fits_talk 1, by decide +kernel, by decide +kernel⟩

end Host

end MTalk.Rtp
