import MTalk.Library.SerialNumbers
import MTalk.Rtp.Packets

/-!
# The queue of received packets

`rtp_putq` looks for the place of a packet from the newest one on, `rtp_getq` takes the newest
packet that is due and discards the older ones. A queue is the list of its messages with the oldest
one in front. Every function also gives the messages that it frees.
-/

namespace MTalk.Rtp

open SerialNumbers

/-- `RTP_SEQ_IS_GREATER`. -/
abbrev SeqIsGreater (seq1 seq2 : BitVec 16) : Prop := Newer (n := 15) seq1 seq2

/-- `RTP_TIMESTAMP_IS_NEWER_THAN`. -/
abbrev TimestampIsNewerThan (ts1 ts2 : BitVec 32) : Prop := Newer (n := 31) ts1 ts2

/-- `RTP_TIMESTAMP_IS_STRICTLY_NEWER_THAN`. -/
abbrev TimestampIsStrictlyNewerThan (ts1 ts2 : BitVec 32) : Prop :=
  TimestampIsNewerThan ts1 ts2 ∧ ts1 ≠ ts2

/-- The loop of `rtp_putq`, over the queue with the newest message in front. -/
def rtpPutqLoop (mp : Message) : List Message → List Message × List Message
  | [] => ([mp], [])
  | tmp :: older =>
    if mp.rtp.seqNumber = tmp.rtp.seqNumber then (tmp :: older, [mp])
    else if SeqIsGreater mp.rtp.seqNumber tmp.rtp.seqNumber then (mp :: tmp :: older, [])
    else
      let (q, freed) := rtpPutqLoop mp older
      (tmp :: q, freed)

/-- `rtp_putq`: the queue after it and the message if it was a duplicate. -/
def rtpPutq (q : List Message) (mp : Message) : List Message × List Message :=
  let (r, freed) := rtpPutqLoop mp q.reverse
  (r.reverse, freed)

/-- The loop of `rtp_getq` after `ret` has been taken out of the queue: the message that is
returned, the queue and the messages that are freed. -/
def rtpGetqLoop (timestamp : BitVec 32) (ret : Message) :
    List Message → Message × List Message × List Message
  | [] => (ret, [], [])
  | tmp :: q =>
    if TimestampIsNewerThan timestamp tmp.rtp.timestamp then
      if tmp.rtp.timestamp = ret.rtp.timestamp then (ret, tmp :: q, [])
      else
        let (r, q, freed) := rtpGetqLoop timestamp tmp q
        (r, q, ret :: freed)
    else (ret, tmp :: q, [])

/-- `rtp_getq`; the number of the freed messages is `*rejected`. -/
def rtpGetq (q : List Message) (timestamp : BitVec 32) :
    Option Message × List Message × List Message :=
  match q with
  | [] => (none, [], [])
  | tmp :: q =>
    if TimestampIsNewerThan timestamp tmp.rtp.timestamp then
      let (ret, q, freed) := rtpGetqLoop timestamp tmp q
      (some ret, q, freed)
    else (none, tmp :: q, [])

def rtpGetqPermissive (q : List Message) (timestamp : BitVec 32) :
    Option Message × List Message × List Message :=
  match q with
  | [] => (none, [], [])
  | tmp :: rest =>
    if TimestampIsNewerThan timestamp tmp.rtp.timestamp then (some tmp, rest, [])
    else (none, tmp :: rest, [])

def getq : List Message → Option Message × List Message
  | [] => (none, [])
  | tmp :: q => (some tmp, q)

/-- The loop of `queue_packet` that removes the oldest messages of a queue that is too long. -/
def trimLoop (maxrqsz : ℕ) : List Message → List Message × List Message
  | [] => ([], [])
  | tmp :: q =>
    if maxrqsz < (tmp :: q).length then
      let (q, freed) := trimLoop maxrqsz q
      (q, tmp :: freed)
    else (tmp :: q, [])

/-- What `queue_packet` does to a queue and to its statistics. -/
structure Queued where
  queue : List Message
  freed : List Message
  discarded : ℕ

/-- `queue_packet`. A packet without data is not queued, and a duplicate is not counted. -/
def queuePacket (q : List Message) (maxrqsz : ℕ) (mp : Message) : Queued :=
  if mp.payload = [] then ⟨q, [mp], 1⟩
  else
    let (q, duplicate) := rtpPutq q mp
    let (q, oldest) := trimLoop maxrqsz q
    ⟨q, duplicate ++ oldest, oldest.length⟩

section Blocks

open List

lemma perm_rtpPutqLoop (mp : Message) (q : List Message) :
    (rtpPutqLoop mp q).1 ++ (rtpPutqLoop mp q).2 ~ mp :: q := by
  induction q with
  | nil => exact .refl _
  | cons tmp older ih =>
    rw [rtpPutqLoop]
    split
    · exact perm_append_singleton mp (tmp :: older)
    · split
      · exact (append_nil _).symm ▸ .refl _
      · exact (ih.cons tmp).trans (.swap mp tmp older)

/-- `rtp_putq` keeps every message of the queue and queues or frees the new one. -/
lemma perm_rtpPutq (q : List Message) (mp : Message) :
    (rtpPutq q mp).1 ++ (rtpPutq q mp).2 ~ mp :: q := by
  have hloop := perm_rtpPutqLoop mp q.reverse
  refine ((reverse_perm _).append_right _).trans (hloop.trans ?_)
  exact (reverse_perm q).cons mp

lemma perm_rtpGetqLoop (timestamp : BitVec 32) (ret : Message) (q : List Message) :
    (rtpGetqLoop timestamp ret q).1 :: (rtpGetqLoop timestamp ret q).2.1 ++
      (rtpGetqLoop timestamp ret q).2.2 ~ ret :: q := by
  induction q generalizing ret with
  | nil => exact .refl _
  | cons tmp q ih =>
    rw [rtpGetqLoop]
    split
    · split
      · simp
      · exact perm_middle.trans ((ih tmp).cons ret)
    · simp

/-- `rtp_getq` returns, keeps or frees every message. -/
lemma perm_rtpGetq (q : List Message) (timestamp : BitVec 32) :
    (rtpGetq q timestamp).1.toList ++ (rtpGetq q timestamp).2.1 ++ (rtpGetq q timestamp).2.2 ~
      q := by
  cases q with
  | nil => exact .refl _
  | cons tmp q =>
    rw [rtpGetq]
    split
    · exact perm_rtpGetqLoop timestamp tmp q
    · simp

lemma perm_rtpGetqPermissive (q : List Message) (timestamp : BitVec 32) :
    (rtpGetqPermissive q timestamp).1.toList ++ (rtpGetqPermissive q timestamp).2.1 ++
      (rtpGetqPermissive q timestamp).2.2 ~ q := by
  cases q with
  | nil => exact .refl _
  | cons tmp q =>
    rw [rtpGetqPermissive]
    split
    · simp
    · simp

lemma getq_eq (q : List Message) : (getq q).1.toList ++ (getq q).2 = q := by
  cases q with
  | nil => rfl
  | cons tmp q => rfl

/-- The loop removes messages in front until the others fit. -/
lemma trimLoop_eq (maxrqsz : ℕ) (q : List Message) :
    (trimLoop maxrqsz q).2 ++ (trimLoop maxrqsz q).1 = q ∧
      (trimLoop maxrqsz q).1.length = min q.length maxrqsz := by
  induction q with
  | nil => simp [trimLoop]
  | cons tmp q ih =>
    rw [trimLoop]
    split
    next hlong =>
      rw [List.length_cons] at hlong ⊢
      refine ⟨congrArg (tmp :: ·) ih.1, ih.2.trans ?_⟩
      omega
    next hshort => exact ⟨rfl, (min_eq_left (not_lt.mp hshort)).symm⟩

/-- `queue_packet` keeps, queues or frees every message, and the queue is not too long. -/
lemma perm_queuePacket (q : List Message) (maxrqsz : ℕ) (mp : Message) :
    (queuePacket q maxrqsz mp).queue ++ (queuePacket q maxrqsz mp).freed ~ mp :: q := by
  rw [queuePacket]
  split
  · exact perm_append_singleton mp q
  · have hput := perm_rtpPutq q mp
    have htrim := (trimLoop_eq maxrqsz (rtpPutq q mp).1).1
    dsimp only
    rw [← htrim] at hput
    refine Perm.trans ?_ hput
    refine (perm_append_comm_assoc _ _ _).trans ?_
    exact perm_append_comm.trans (perm_append_comm.append_right _)

end Blocks

end MTalk.Rtp
