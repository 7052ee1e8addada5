import Mathlib.Algebra.Order.Group.Multiset
import Mathlib.Tactic.Abel
import MTalk.Rtp.Sessions

/-!
# What becomes of the message blocks

Every block that comes from the socket is freed once, handed over once or still in one of the
queues.
-/

namespace MTalk.Rtp

/-- The block that leaves the session; the other reports are about blocks that stay. -/
def Report.blocks : Report → List ℕ
  | .freed block => [block]
  | .stun block => [block]
  | .trashed block => [block]
  | .returned m _ => [m.block]
  | _ => []

def released (reports : List Report) : Multiset ℕ := (reports.flatMap Report.blocks : List ℕ)

@[simp] lemma released_nil : released [] = 0 := rfl

@[simp] lemma released_append (r r' : List Report) :
    released (r ++ r') = released r + released r' := by
  simp [released]

@[simp] lemma released_cons (r : Report) (rs : List Report) :
    released (r :: rs) = (r.blocks : Multiset ℕ) + released rs := by
  simp [released]

@[simp] lemma released_freeAll (ms : List Message) :
    released (freeAll ms) = (ms.map Message.block : List ℕ) := by
  induction ms with
  | nil => rfl
  | cons m ms ih =>
    rw [freeAll, List.map_cons, released_cons, ← freeAll, ih]
    rfl

namespace Session

variable {J : Type} (e : Setup J) (s : Session J)

/-- The blocks in the queues. -/
def held : Multiset ℕ :=
  (s.rq.map Message.block : List ℕ) + (s.tevRq.map Message.block : List ℕ)

/-- The blocks of the session and the incoming ones are released or held after the step. -/
def Accounts (incoming : Multiset ℕ) (x : Session J × List Report) : Prop :=
  released x.2 + x.1.held = s.held + incoming

variable {e s}

lemma Accounts.same : s.Accounts 0 (s, []) := by
  simp [Accounts]

lemma Accounts.trans {i j : Multiset ℕ} {x y : Session J × List Report} (hx : s.Accounts i x)
    (hy : x.1.Accounts j y) : s.Accounts (i + j) (y.1, x.2 ++ y.2) := by
  rw [Accounts] at hx hy ⊢
  rw [released_append, add_assoc, hy, ← add_assoc, hx, add_assoc]

lemma held_of_queues {s' : Session J} (hrq : s'.rq = s.rq) (htev : s'.tevRq = s.tevRq) :
    s'.held = s.held := by
  rw [held, held, hrq, htev]

/-- A step from a session that holds the same blocks. -/
lemma Accounts.of_held {i : Multiset ℕ} {t : Session J} {x : Session J × List Report}
    (hx : t.Accounts i x) (h : t.held = s.held) : s.Accounts i x := by
  rwa [Accounts, h] at hx

lemma blocks_of_perm {l l' : List Message} (h : l.Perm l') :
    ((l.map Message.block : List ℕ) : Multiset ℕ) = (l'.map Message.block : List ℕ) :=
  Multiset.coe_eq_coe.mpr (h.map _)

/-- A step of the media queue. -/
lemma accounts_rq {s' : Session J} {i : Multiset ℕ} {r : List Report} (htev : s'.tevRq = s.tevRq)
    (h : released r + (s'.rq.map Message.block : List ℕ) = (s.rq.map Message.block : List ℕ) + i) :
    s.Accounts i (s', r) := by
  rw [Accounts, held, held, htev, ← add_assoc, h]
  abel

lemma accounts_tevRq {s' : Session J} {i : Multiset ℕ} {r : List Report} (hrq : s'.rq = s.rq)
    (h : released r + (s'.tevRq.map Message.block : List ℕ) =
      (s.tevRq.map Message.block : List ℕ) + i) : s.Accounts i (s', r) := by
  rw [Accounts, held, held, hrq, add_left_comm, h]
  abel

lemma accounts_resync : s.Accounts 0 (s.resync e) := by
  refine accounts_rq rfl ?_
  simp [Report.blocks]

lemma accounts_reset : s.Accounts 0 (s.reset e) := by
  refine accounts_rq rfl ?_
  simp [Report.blocks]

lemma accounts_checkSsrc (rtp : Header) :
    s.Accounts 0 ((s.checkSsrc e rtp).1, (s.checkSsrc e rtp).2.1) := by
  obtain ⟨count, hcount⟩ := s.countCandidate_eq rtp.ssrc
  have hcheck := ssrcChecked (e := e) s rtp
  generalize s.checkSsrc e rtp = x at hcheck ⊢
  cases hcheck with
  | locks => exact Accounts.same
  | same => exact Accounts.same
  | foreign =>
    rw [hcount]
    exact Accounts.same
  | changes _ _ _ s' hs' =>
    rw [hcount] at hs'
    subst hs'
    exact accounts_resync (s := { s with
      incSsrcCandidate := rtp.ssrc, incSameSsrcCount := count, rcvLastTs := rtp.timestamp
      rcvSsrc := rtp.ssrc })

lemma accounts_checkTimestamp (timestamp : BitVec 32) :
    s.Accounts 0 ((s.checkTimestamp e timestamp).1, (s.checkTimestamp e timestamp).2.1) := by
  have hcheck := timestampChecked (e := e) s timestamp
  generalize s.checkTimestamp e timestamp = x at hcheck ⊢
  cases hcheck with
  | starting => exact Accounts.same
  | jump => exact accounts_resync
  | late _ _ _ _ hs' =>
    rcases hs' with hs' | hs'
    · exact hs' ▸ Accounts.same
    · exact hs' ▸ accounts_resync
  | inTime => exact Accounts.same

lemma accounts_queuePacket (q : List Message) (maxrqsz : ℕ) (m : Message) :
    released (freeAll (queuePacket q maxrqsz m).freed) +
      ((queuePacket q maxrqsz m).queue.map Message.block : List ℕ) =
        (q.map Message.block : List ℕ) + {m.block} := by
  have hperm := blocks_of_perm (perm_queuePacket q maxrqsz m)
  rw [List.map_append, ← Multiset.coe_add, List.map_cons, ← Multiset.cons_coe] at hperm
  rw [released_freeAll, add_comm, hperm, add_comm, Multiset.singleton_add]

lemma accounts_parseTelephoneEvent (m : Message) :
    s.Accounts {m.block} (s.parseTelephoneEvent e m) :=
  accounts_tevRq rfl (accounts_queuePacket s.tevRq e.maxRqSize m)

lemma accounts_free (block : ℕ) : s.Accounts {block} (s, [.freed block]) := by
  simp [Accounts, Report.blocks, add_comm]

lemma accounts_parseMedia (m : Message) (localStrTs : BitVec 32) :
    s.Accounts {m.block} (s.parseMedia e m localStrTs) := by
  obtain ⟨jittctl, hwRecvPt, tsJump, permissive, hfollow⟩ :=
    followPacket_eq (e := e) s m.rtp localStrTs
  rw [parseMedia, hfollow]
  set t : Session J := { s with
    jittctl := jittctl, hwRecvPt := hwRecvPt, tsJump := tsJump, permissive := permissive } with ht
  have hcheck := accounts_checkTimestamp (e := e) (s := t) m.rtp.timestamp
  refine Accounts.of_held (t := t) ?_ rfl
  generalize t.checkTimestamp e m.rtp.timestamp = x at hcheck ⊢
  obtain ⟨u, jump, kept⟩ := x
  rw [← zero_add ({m.block} : Multiset ℕ)]
  cases kept with
  | true =>
    have hqueue : u.Accounts {m.block}
        ({ u with rq := (queuePacket u.rq e.maxRqSize m).queue },
          freeAll (queuePacket u.rq e.maxRqSize m).freed) :=
      accounts_rq rfl (accounts_queuePacket u.rq e.maxRqSize m)
    exact hcheck.trans hqueue
  | false => exact hcheck.trans (accounts_free (s := u) m.block)

lemma accounts_parsePacket (m : Message) (localStrTs : BitVec 32) :
    s.Accounts {m.block} (s.parsePacket e m localStrTs) := by
  have hcheck := accounts_checkSsrc (e := e) (s := s) m.rtp
  rw [parsePacket]
  generalize s.checkSsrc e m.rtp = x at hcheck ⊢
  obtain ⟨t, change, kept⟩ := x
  rw [← zero_add ({m.block} : Multiset ℕ)]
  cases kept with
  | true =>
    dsimp only
    rw [if_pos rfl]
    split_ifs
    · exact hcheck.trans (accounts_parseTelephoneEvent (e := e) (s := t) m)
    · exact hcheck.trans (accounts_parseMedia (e := e) (s := t) m localStrTs)
  | false => exact hcheck.trans (accounts_free (s := t) m.block)

lemma accounts_rtpParse (mp : Datagram) (localStrTs : BitVec 32) :
    s.Accounts {mp.block} (s.rtpParse e mp localStrTs) := by
  rw [rtpParse]
  split
  · exact accounts_free mp.block
  next rtp rest hread =>
    split_ifs
    · simp [Accounts, Report.blocks, add_comm]
    · exact accounts_free mp.block
    · split
      · exact accounts_free mp.block
      · exact accounts_parsePacket _ localStrTs

lemma accounts_rtpRecv (socket : List Datagram) (userTs : BitVec 32) :
    s.Accounts (socket.map Datagram.block : List ℕ) (s.rtpRecv e socket userTs) := by
  induction socket generalizing s with
  | nil => exact Accounts.same
  | cons mp socket ih => exact (accounts_rtpParse mp userTs).trans ih

lemma released_telephoneEvents (events : List Byte) :
    released (events.map Report.telephoneEvent) = 0 := by
  induction events with
  | nil => rfl
  | cons event events ih =>
    rw [List.map_cons, released_cons, ih]
    rfl

lemma accounts_checkTev : s.Accounts 0 s.checkTev := by
  cases h : s.tevRq with
  | nil =>
    rw [checkTev_nil h]
    exact Accounts.same
  | cons mp q =>
    rw [checkTev_cons h]
    refine accounts_tevRq rfl ?_
    simp [released_telephoneEvents, h, Report.blocks]

lemma released_returnMessage (mp : Message) :
    released (s.returnMessage e mp).2 = {mp.block} ∧ (s.returnMessage e mp).1.held = s.held := by
  obtain ⟨jittctl, changedTs, change, heq, hchange⟩ := returnMessage_eq (e := e) s mp
  rw [heq]
  rcases hchange with rfl | rfl
  · exact ⟨rfl, rfl⟩
  · exact ⟨rfl, rfl⟩

lemma held_synchronize (userTs : BitVec 32) : (s.synchronize userTs).1.held = s.held := by
  rcases s.synchronize_eq userTs with ⟨-, heq⟩ | ⟨-, heq⟩ | ⟨mp, q, -, -, heq⟩
  · rw [heq]
  · rw [heq]
  · rw [heq]
    rfl

lemma accounts_getMedia (userTs : BitVec 32) : s.Accounts 0 (s.getMedia e userTs) := by
  have hheld := held_synchronize (s := s) userTs
  rw [getMedia]
  generalize s.synchronize userTs = x at hheld ⊢
  obtain ⟨t, synchronized⟩ := x
  refine Accounts.of_held ?_ hheld
  cases synchronized with
  | false => exact Accounts.same
  | true =>
    have hperm := blocks_of_perm (perm_takeMessage (e := e) t userTs)
    dsimp only
    rw [if_pos rfl]
    generalize t.takeMessage e userTs = y at hperm ⊢
    obtain ⟨mp, q, old⟩ := y
    simp only [List.map_append, ← Multiset.coe_add] at hperm
    cases mp with
    | none =>
      refine accounts_rq rfl ?_
      simpa [add_comm] using hperm
    | some mp =>
      obtain ⟨hreturned, hq⟩ := released_returnMessage (e := e) (s := { t with rq := q }) mp
      rw [Accounts]
      dsimp only
      rw [hq, released_append, hreturned, held, held, ← hperm, released_freeAll]
      simp only [Option.toList_some, List.map_cons, List.map_nil, Multiset.coe_singleton]
      abel

lemma accounts_answer (userTs : BitVec 32) : s.Accounts 0 (s.answer e userTs) :=
  accounts_checkTev.trans (accounts_getMedia userTs)

lemma held_startQuery (userTs : BitVec 32) : (s.startQuery userTs).held = s.held := by
  obtain ⟨rcvQueryTsOffset, heq⟩ := s.startQuery_eq userTs
  rw [heq]
  rfl

/-- What is at the socket is read, or it stays there. -/
lemma accounts_recvmWithTs (socket : List Datagram) (userTs : BitVec 32) :
    released (s.recvmWithTs e socket userTs).2.2 + (s.recvmWithTs e socket userTs).1.held +
      ((s.recvmWithTs e socket userTs).2.1.map Datagram.block : List ℕ) =
        s.held + (socket.map Datagram.block : List ℕ) := by
  rw [recvmWithTs]
  split_ifs
  · have hread := (accounts_rtpRecv (e := e) (s := s.startQuery userTs) socket userTs).trans
      (accounts_answer (e := e) userTs)
    rw [add_zero] at hread
    exact (add_zero _).trans ((hread.of_held (held_startQuery userTs)))
  · have hanswer := (accounts_answer (e := e) userTs).of_held (held_startQuery (s := s) userTs)
    rw [Accounts, add_zero] at hanswer
    exact congrArg (· + _) hanswer

end Session

/-- The block of a datagram that arrives. -/
def Action.blocks : Action → List ℕ
  | .arrive mp => [mp.block]
  | _ => []

/-- The blocks that come from the network. -/
def arrived (actions : List Action) : Multiset ℕ := (actions.flatMap Action.blocks : List ℕ)

namespace Host

variable {J : Type} {e : Setup J} (h : Host J)

/-- The blocks in the queues and at the socket. -/
def held : Multiset ℕ := h.session.held + (h.socket.map Datagram.block : List ℕ)

lemma accounts_step (a : Action) :
    released (h.step e a).2 + (h.step e a).1.held = h.held + (a.blocks : Multiset ℕ) := by
  cases a with
  | arrive mp =>
    simp only [step, held, Action.blocks, released_nil, List.map_append, List.map_cons,
      List.map_nil, ← Multiset.coe_add, zero_add, add_assoc]
  | recvm userTs =>
    have hrecvm := Session.accounts_recvmWithTs (e := e) (s := h.session) h.socket userTs
    rw [add_assoc] at hrecvm
    exact hrecvm.trans (add_zero _).symm
  | resync =>
    have hresync := Session.accounts_resync (e := e) (s := h.session)
    rw [Session.Accounts, add_zero] at hresync
    have hsocket := congrArg (· + ((h.socket.map Datagram.block : List ℕ) : Multiset ℕ)) hresync
    exact (add_assoc _ _ _).symm.trans (hsocket.trans (add_zero _).symm)
  | reset =>
    have hreset := Session.accounts_reset (e := e) (s := h.session)
    rw [Session.Accounts, add_zero] at hreset
    have hsocket := congrArg (· + ((h.socket.map Datagram.block : List ℕ) : Multiset ℕ)) hreset
    exact (add_assoc _ _ _).symm.trans (hsocket.trans (add_zero _).symm)
  | flushSockets =>
    have htrashed : ∀ socket : List Datagram,
        released (socket.map fun mp => .trashed mp.block) =
          (socket.map Datagram.block : List ℕ) := by
      intro socket
      induction socket with
      | nil => rfl
      | cons mp socket ih =>
        rw [List.map_cons, released_cons, ih]
        rfl
    simp only [step, htrashed, held, List.map_nil, Action.blocks, Multiset.coe_nil, add_zero]
    exact add_comm _ _

lemma accounts_run (actions : List Action) :
    released (h.run e actions).2 + (h.run e actions).1.held = h.held + arrived actions := by
  induction actions generalizing h with
  | nil => exact (zero_add _).trans (add_zero _).symm
  | cons a actions ih =>
    have hstep := accounts_step (e := e) h a
    have hrun := ih (h.step e a).1
    rw [arrived, List.flatMap_cons, ← Multiset.coe_add, ← add_assoc, ← hstep]
    rw [add_assoc, ← arrived, ← hrun, ← add_assoc, ← released_append]
    rfl

/-- Whatever happens to a session, each block that arrives is freed, handed over, trashed with the
socket, in a queue or at the socket, and this only once. -/
theorem released_add_held_run (jittctl : J) (actions : List Action) :
    released ((create e jittctl).run e actions).2 + ((create e jittctl).run e actions).1.held =
      arrived actions :=
  (accounts_run (create e jittctl) actions).trans (zero_add _)

end Host

end MTalk.Rtp
