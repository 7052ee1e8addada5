import MTalk.Rtp.Sessions

/-!
# Runs of a session in pieces

A call of `rtp_session_recvm_with_ts` does several things one after the other. A run of a session
with its socket is a sequence of such pieces, and what each piece keeps holds after the run.
-/

namespace MTalk.Rtp

/-- The packet in a datagram, if it is one that the session looks at. -/
def Datagram.packet (mp : Datagram) : Option Message :=
  (readHeader mp.bytes).bind fun (rtp, rest) =>
    if rtp.version = 2 then
      (readSources rtp.cc.toNat rest).map fun (csrc, payload) => ⟨⟨rtp, csrc, payload⟩, mp.block⟩
    else none

/-- A datagram is a packet exactly if it is what a session sends for this packet: with version 2 and
as many sources as the header says. -/
lemma Datagram.packet_eq_some (mp : Datagram) (m : Message) :
    mp.packet = some m ↔ m.block = mp.block ∧ m.bytes = mp.bytes ∧ m.rtp.version = 2 ∧
      m.csrc.length = m.rtp.cc.toNat := by
  rw [Datagram.packet]
  constructor
  · intro h
    obtain ⟨⟨rtp, rest⟩, hheader, h⟩ := Option.bind_eq_some_iff.mp h
    dsimp only at h
    split_ifs at h with hversion
    obtain ⟨⟨csrc, payload⟩, hsources, rfl⟩ := Option.map_eq_some_iff.mp h
    obtain ⟨hrest, hlength⟩ := bytes_of_readSources hsources
    refine ⟨rfl, ?_, hversion, hlength⟩
    rw [bytes_of_readHeader hheader, hrest]
    exact List.append_assoc _ _ _
  · obtain ⟨⟨rtp, csrc, payload⟩, block⟩ := m
    rintro ⟨hblock, hbytes, hversion, hlength⟩
    dsimp only at hblock hbytes hversion hlength
    rw [← hbytes, Packet.bytes, List.append_assoc, readHeader_bytes, Option.bind_some]
    dsimp only
    rw [if_pos hversion, ← hlength, readSources_bytes, ← hblock]
    rfl

/-- What a session does at once. -/
inductive Piece
  | parse (mp : Datagram) (userTs : BitVec 32)
  | query (userTs : BitVec 32)
  | checkTev
  | getMedia (userTs : BitVec 32)
  | resync
  | reset
  | flushSockets (blocks : List ℕ)

namespace Session

variable {J : Type} (e : Setup J)

lemma rtpParse_of_packet {mp : Datagram} {m : Message} (h : mp.packet = some m) (s : Session J)
    (localStrTs : BitVec 32) : s.rtpParse e mp localStrTs = s.parsePacket e m localStrTs := by
  rw [rtpParse]
  rw [Datagram.packet] at h
  cases hheader : readHeader mp.bytes with
  | none =>
    rw [hheader] at h
    cases h
  | some x =>
    obtain ⟨rtp, rest⟩ := x
    rw [hheader, Option.bind_some] at h
    dsimp only at h ⊢
    by_cases hversion : rtp.version = 2
    · rw [if_pos hversion] at h
      rw [if_neg (not_not.mpr hversion)]
      obtain ⟨⟨csrc, payload⟩, hsources, rfl⟩ := Option.map_eq_some_iff.mp h
      rw [hsources]
    · rw [if_neg hversion] at h
      cases h

lemma rtpParse_of_no_packet {mp : Datagram} (h : mp.packet = none) (s : Session J)
    (localStrTs : BitVec 32) : s.rtpParse e mp localStrTs = (s, [.freed mp.block]) ∨
      s.rtpParse e mp localStrTs = (s, [.stun mp.block]) := by
  rw [rtpParse]
  rw [Datagram.packet] at h
  cases hheader : readHeader mp.bytes with
  | none => exact .inl rfl
  | some x =>
    obtain ⟨rtp, rest⟩ := x
    rw [hheader, Option.bind_some] at h
    dsimp only at h ⊢
    by_cases hversion : rtp.version = 2
    · rw [if_pos hversion] at h
      rw [if_neg (not_not.mpr hversion), Option.map_eq_none_iff.mp h]
      exact .inl rfl
    · rw [if_pos hversion]
      split_ifs
      · exact .inr rfl
      · exact .inl rfl

/-- A datagram is what some session sends for exactly one packet, and then this packet is handled,
or it is no packet, and then its block is freed or handed over and the session stays as it is. -/
theorem rtpParse_inverts_send (s : Session J) (mp : Datagram) (localStrTs : BitVec 32) :
    (∃! p : Packet, p.bytes = mp.bytes ∧ p.rtp.version = 2 ∧ p.csrc.length = p.rtp.cc.toNat ∧
      s.rtpParse e mp localStrTs = s.parsePacket e ⟨p, mp.block⟩ localStrTs) ∨
    (∀ p : Packet, p.bytes = mp.bytes → p.rtp.version = 2 → p.csrc.length ≠ p.rtp.cc.toNat) ∧
      (s.rtpParse e mp localStrTs = (s, [.freed mp.block]) ∨
        s.rtpParse e mp localStrTs = (s, [.stun mp.block])) := by
  cases hpacket : mp.packet with
  | some m =>
    obtain ⟨hblock, hbytes, hversion, hlength⟩ := (mp.packet_eq_some m).mp hpacket
    refine .inl ⟨m.toPacket, ⟨hbytes, hversion, hlength, ?_⟩, ?_⟩
    · rw [rtpParse_of_packet e hpacket, ← hblock]
    · rintro p ⟨hbytes', hversion', hlength', -⟩
      have hp := (mp.packet_eq_some ⟨p, mp.block⟩).mpr ⟨rfl, hbytes', hversion', hlength'⟩
      exact congrArg Message.toPacket (Option.some.inj (hp.symm.trans hpacket))
  | none =>
    refine .inr ⟨fun p hbytes hversion hlength => ?_, rtpParse_of_no_packet e hpacket s localStrTs⟩
    have hp := (mp.packet_eq_some ⟨p, mp.block⟩).mpr ⟨rfl, hbytes, hversion, hlength⟩
    rw [hpacket] at hp
    cases hp

def piece (s : Session J) : Piece → Session J × List Report
  | .parse mp userTs => s.rtpParse e mp userTs
  | .query userTs => (s.startQuery userTs, [])
  | .checkTev => s.checkTev
  | .getMedia userTs => s.getMedia e userTs
  | .resync => s.resync e
  | .reset => s.reset e
  | .flushSockets blocks => (s, blocks.map Report.trashed)

def play (s : Session J) : List Piece → Session J × List Report
  | [] => (s, [])
  | p :: pieces =>
    let (s, reports) := s.piece e p
    let (s, later) := s.play pieces
    (s, reports ++ later)

lemma play_cons (s : Session J) (p : Piece) (pieces : List Piece) :
    s.play e (p :: pieces) = (((s.piece e p).1.play e pieces).1,
      (s.piece e p).2 ++ ((s.piece e p).1.play e pieces).2) := rfl

lemma play_append (s : Session J) (ps qs : List Piece) :
    s.play e (ps ++ qs) = (((s.play e ps).1.play e qs).1,
      (s.play e ps).2 ++ ((s.play e ps).1.play e qs).2) := by
  induction ps generalizing s with
  | nil => rfl
  | cons p ps ih => rw [List.cons_append, play_cons, play_cons, ih, List.append_assoc]

lemma play_parse (s : Session J) (socket : List Datagram) (userTs : BitVec 32) :
    s.play e (socket.map fun mp => .parse mp userTs) = s.rtpRecv e socket userTs := by
  induction socket generalizing s with
  | nil => rfl
  | cons mp socket ih =>
    rw [List.map_cons, play_cons, ih]
    rfl

lemma play_answer (s : Session J) (userTs : BitVec 32) :
    s.play e [.checkTev, .getMedia userTs] = s.answer e userTs := by
  rw [play_cons, play_cons, play, List.append_nil]
  rfl

/-- The guard holds for each piece in the state that it is played in. -/
def Guarded (G : List Report → Session J → Piece → Prop) (reports : List Report) (s : Session J) :
    List Piece → Prop
  | [] => True
  | p :: pieces =>
    G reports s p ∧ Guarded G (reports ++ (s.piece e p).2) (s.piece e p).1 pieces

/-- The rule of runs: what every guarded piece keeps, together with what has been played and
reported so far, holds after a guarded run. -/
theorem play_rule {P : List Piece → List Report → Session J → Prop}
    {G : List Report → Session J → Piece → Prop}
    (hpiece : ∀ played reports s p, P played reports s → G reports s p →
      P (played ++ [p]) (reports ++ (s.piece e p).2) (s.piece e p).1)
    {played : List Piece} {reports : List Report} {s : Session J} (h : P played reports s)
    {pieces : List Piece} (hguard : Guarded e G reports s pieces) :
    P (played ++ pieces) (reports ++ (s.play e pieces).2) (s.play e pieces).1 := by
  induction pieces generalizing played reports s with
  | nil => simpa [play] using h
  | cons p pieces ih =>
    have hrest := ih (hpiece played reports s p h hguard.1) hguard.2
    rw [play_cons]
    simpa [List.append_assoc] using hrest

/-- The rule for a whole run. -/
theorem run_rule {P : List Piece → List Report → Session J → Prop}
    {G : List Report → Session J → Piece → Prop}
    (hpiece : ∀ played reports s p, P played reports s → G reports s p →
      P (played ++ [p]) (reports ++ (s.piece e p).2) (s.piece e p).1)
    {s : Session J} (h : P [] [] s) {pieces : List Piece} (hguard : Guarded e G [] s pieces) :
    P pieces (s.play e pieces).2 (s.play e pieces).1 := by
  simpa using play_rule e hpiece h hguard

/-- A guard that every piece of the run meets in any state. -/
lemma guarded_of_forall {G : List Report → Session J → Piece → Prop} {pieces : List Piece}
    (h : ∀ p ∈ pieces, ∀ reports s, G reports s p) (reports : List Report) (s : Session J) :
    Guarded e G reports s pieces := by
  induction pieces generalizing reports s with
  | nil => trivial
  | cons p pieces ih =>
    rw [List.forall_mem_cons] at h
    exact ⟨h.1 reports s, ih h.2 _ _⟩

end Session

namespace Host

variable {J : Type} (e : Setup J)

/-- The pieces of a step. -/
def stepPieces (h : Host J) : Action → List Piece
  | .arrive _ => []
  | .recvm userTs =>
    if h.session.readsSocket userTs then
      .query userTs :: ((h.socket.map fun mp => .parse mp userTs) ++ [.checkTev, .getMedia userTs])
    else [.query userTs, .checkTev, .getMedia userTs]
  | .resync => [.resync]
  | .reset => [.reset]
  | .flushSockets => [.flushSockets (h.socket.map Datagram.block)]

def pieces (h : Host J) : List Action → List Piece
  | [] => []
  | a :: actions => h.stepPieces a ++ (h.step e a).1.pieces actions

lemma play_stepPieces (h : Host J) (a : Action) :
    h.session.play e (h.stepPieces a) = ((h.step e a).1.session, (h.step e a).2) := by
  cases a with
  | arrive mp => rfl
  | recvm userTs =>
    by_cases hread : h.session.readsSocket userTs = true
    · rw [stepPieces, if_pos hread, step, Session.recvmWithTs, if_pos hread, Session.play_cons,
        Session.play_append, Session.piece, Session.play_parse, Session.play_answer]
      rfl
    · rw [stepPieces, if_neg hread, step, Session.recvmWithTs, if_neg hread, Session.play_cons,
        Session.piece, Session.play_answer]
      rfl
  | resync => exact congrArg (Prod.mk _) (List.append_nil _)
  | reset => exact congrArg (Prod.mk _) (List.append_nil _)
  | flushSockets =>
    refine congrArg (Prod.mk _) ((List.append_nil _).trans ?_)
    rw [List.map_map]
    rfl

/-- A run of a session with its socket plays its pieces. -/
lemma play_pieces (h : Host J) (actions : List Action) :
    h.session.play e (h.pieces e actions) =
      ((h.run e actions).1.session, (h.run e actions).2) := by
  induction actions generalizing h with
  | nil => rfl
  | cons a actions ih =>
    rw [pieces, Session.play_append, play_stepPieces, ih]
    rfl

end Host

/-- A media packet of a talker. -/
def talk (ssrc : BitVec 32) (i : ℕ) : Packet where
  rtp :=
    { version := 2
      padbit := false
      extbit := false
      cc := 0
      markbit := false
      paytype := 0
      seqNumber := BitVec.ofInt 16 (65535 + i)
      timestamp := BitVec.ofInt 32 (160 * (65535 + i))
      ssrc := ssrc }
  csrc := []
  payload := [1, 2]

def talkDatagram (i : ℕ) : Datagram := ⟨i, (talk 7 i).bytes⟩

/-- Two packets around the turn of the sequence numbers, and four queries. -/
def talkRun : List Action :=
  [.arrive (talkDatagram 0), .recvm 0, .arrive (talkDatagram 1), .recvm 160, .recvm 640, .recvm 800]

end MTalk.Rtp
