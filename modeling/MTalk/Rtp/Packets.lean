import Mathlib.Data.List.Basic

/-!
# RTP packets

The header of a packet in host order, the datagram that is sent for it and what is read from a
datagram. A message keeps the number of its message block, so that a run can say what became of each
block.
-/

namespace MTalk.Rtp

abbrev Byte := BitVec 8

/-- The first twelve bytes of `rtp_header_t`, in host order. -/
structure Header where
  version : BitVec 2
  padbit : Bool
  extbit : Bool
  cc : BitVec 4
  markbit : Bool
  paytype : BitVec 7
  seqNumber : BitVec 16
  timestamp : BitVec 32
  ssrc : BitVec 32
deriving DecidableEq

/-- A packet: the header, the contributing sources and the payload. -/
structure Packet where
  rtp : Header
  csrc : List (BitVec 32)
  payload : List Byte
deriving DecidableEq

/-- A message block with a packet. -/
structure Message extends Packet where
  block : ℕ
deriving DecidableEq

/-- A message block with what came from the socket. -/
structure Datagram where
  block : ℕ
  bytes : List Byte
deriving DecidableEq

def htons (v : BitVec 16) : List Byte := [v.extractLsb' 8 8, v.extractLsb' 0 8]

def htonl (v : BitVec 32) : List Byte :=
  [v.extractLsb' 24 8, v.extractLsb' 16 8, v.extractLsb' 8 8, v.extractLsb' 0 8]

def ntohs (b1 b0 : Byte) : BitVec 16 := b1 ++ b0

def ntohl (b3 b2 b1 b0 : Byte) : BitVec 32 := b3 ++ b2 ++ b1 ++ b0

/-- The byte of the version, the two bits and the number of sources. -/
def Header.first (h : Header) : Byte :=
  h.version ++ BitVec.ofBool h.padbit ++ BitVec.ofBool h.extbit ++ h.cc

/-- The byte of the mark and the payload type. -/
def Header.second (h : Header) : Byte := BitVec.ofBool h.markbit ++ h.paytype

def Header.bytes (h : Header) : List Byte :=
  h.first :: h.second :: (htons h.seqNumber ++ htonl h.timestamp ++ htonl h.ssrc)

/-- The bytes that `rtp_session_rtp_send` sends. -/
def Packet.bytes (p : Packet) : List Byte :=
  p.rtp.bytes ++ p.csrc.flatMap htonl ++ p.payload

/-- The header of a datagram and the bytes after its twelve; a shorter one has none. -/
def readHeader : List Byte → Option (Header × List Byte)
  | b0 :: b1 :: s1 :: s0 :: t3 :: t2 :: t1 :: t0 :: r3 :: r2 :: r1 :: r0 :: rest =>
    some ({ version := b0.extractLsb' 6 2
            padbit := b0.getLsbD 5
            extbit := b0.getLsbD 4
            cc := b0.extractLsb' 0 4
            markbit := b1.getLsbD 7
            paytype := b1.extractLsb' 0 7
            seqNumber := ntohs s1 s0
            timestamp := ntohl t3 t2 t1 t0
            ssrc := ntohl r3 r2 r1 r0 }, rest)
  | _ => none

/-- `n` sources and the bytes after them. -/
def readSources : ℕ → List Byte → Option (List (BitVec 32) × List Byte)
  | 0, rest => some ([], rest)
  | n + 1, b3 :: b2 :: b1 :: b0 :: rest =>
    (readSources n rest).map fun r => (ntohl b3 b2 b1 b0 :: r.1, r.2)
  | _ + 1, _ => none

section Words

lemma ntohs_htons (v : BitVec 16) : ntohs (v.extractLsb' 8 8) (v.extractLsb' 0 8) = v := by
  have hjoin : v.extractLsb' 8 8 ++ v.extractLsb' 0 8 = v.extractLsb' 0 (8 + 8) :=
    BitVec.extractLsb'_append_extractLsb'_eq_extractLsb' rfl
  rw [ntohs, hjoin]
  exact BitVec.extractLsb'_eq_self

lemma ntohl_htonl (v : BitVec 32) :
    ntohl (v.extractLsb' 24 8) (v.extractLsb' 16 8) (v.extractLsb' 8 8) (v.extractLsb' 0 8) =
      v := by
  have h1 : v.extractLsb' 24 8 ++ v.extractLsb' 16 8 = v.extractLsb' 16 (8 + 8) :=
    BitVec.extractLsb'_append_extractLsb'_eq_extractLsb' rfl
  have h2 : v.extractLsb' 16 (8 + 8) ++ v.extractLsb' 8 8 = v.extractLsb' 8 (8 + 8 + 8) :=
    BitVec.extractLsb'_append_extractLsb'_eq_extractLsb' rfl
  have h3 : v.extractLsb' 8 (8 + 8 + 8) ++ v.extractLsb' 0 8 = v.extractLsb' 0 (8 + 8 + 8 + 8) :=
    BitVec.extractLsb'_append_extractLsb'_eq_extractLsb' rfl
  rw [ntohl, h1, h2, h3]
  exact BitVec.extractLsb'_eq_self

lemma htons_ntohs (b1 b0 : Byte) : htons (ntohs b1 b0) = [b1, b0] := by
  rw [htons, ntohs, BitVec.extractLsb'_append_eq_left, BitVec.extractLsb'_append_eq_right]

lemma htonl_ntohl (b3 b2 b1 b0 : Byte) : htonl (ntohl b3 b2 b1 b0) = [b3, b2, b1, b0] := by
  simp only [htonl, ntohl, List.cons.injEq, and_true]
  refine ⟨?_, ?_, ?_, ?_⟩ <;> ext i hi <;> simp <;> grind

lemma first_fields (v : BitVec 2) (p x : Bool) (c : BitVec 4) :
    let b : Byte := v ++ BitVec.ofBool p ++ BitVec.ofBool x ++ c
    b.extractLsb' 6 2 = v ∧ b.getLsbD 5 = p ∧ b.getLsbD 4 = x ∧ b.extractLsb' 0 4 = c := by
  revert v p x c
  decide

lemma fields_first (b : Byte) :
    (b.extractLsb' 6 2 ++ BitVec.ofBool (b.getLsbD 5) ++ BitVec.ofBool (b.getLsbD 4) ++
      b.extractLsb' 0 4 : Byte) = b := by
  revert b
  decide

lemma second_fields (k : Bool) (t : BitVec 7) :
    let b : Byte := BitVec.ofBool k ++ t
    b.getLsbD 7 = k ∧ b.extractLsb' 0 7 = t := by
  revert k t
  decide

lemma fields_second (b : Byte) :
    (BitVec.ofBool (b.getLsbD 7) ++ b.extractLsb' 0 7 : Byte) = b := by
  revert b
  decide

end Words

section RoundTrip

/-- What was written as a header is read as it. -/
lemma readHeader_bytes (h : Header) (rest : List Byte) :
    readHeader (h.bytes ++ rest) = some (h, rest) := by
  obtain ⟨h1, h2, h3, h4⟩ := first_fields h.version h.padbit h.extbit h.cc
  obtain ⟨h5, h6⟩ := second_fields h.markbit h.paytype
  simp only [Header.bytes, htons, htonl, List.cons_append, List.nil_append, readHeader]
  rw [Header.first, Header.second, h1, h2, h3, h4, h5, h6, ntohs_htons, ntohl_htonl, ntohl_htonl]

/-- The bytes of a header are those that it was read from. -/
lemma bytes_of_readHeader {bytes rest : List Byte} {h : Header}
    (hread : readHeader bytes = some (h, rest)) : bytes = h.bytes ++ rest := by
  unfold readHeader at hread
  split at hread
  next b0 b1 s1 s0 t3 t2 t1 t0 r3 r2 r1 r0 rest' =>
    obtain ⟨rfl, rfl⟩ := Prod.mk.inj (Option.some.inj hread)
    rw [Header.bytes, Header.first, Header.second, htons_ntohs, htonl_ntohl, htonl_ntohl]
    rw [fields_first, fields_second]
    rfl
  next => cases hread

lemma readSources_bytes (cs : List (BitVec 32)) (rest : List Byte) :
    readSources cs.length (cs.flatMap htonl ++ rest) = some (cs, rest) := by
  induction cs with
  | nil => rfl
  | cons c cs ih =>
    rw [List.flatMap_cons, List.append_assoc, List.length_cons, htonl]
    simp only [List.cons_append, List.nil_append, readSources]
    rw [ih, ntohl_htonl]
    rfl

lemma bytes_of_readSources {n : ℕ} {bytes rest : List Byte} {cs : List (BitVec 32)}
    (hread : readSources n bytes = some (cs, rest)) :
    bytes = cs.flatMap htonl ++ rest ∧ cs.length = n := by
  induction n generalizing bytes cs rest with
  | zero =>
    obtain ⟨rfl, rfl⟩ := Prod.mk.inj (Option.some.inj hread)
    exact ⟨rfl, rfl⟩
  | succ n ih =>
    match bytes with
    | b3 :: b2 :: b1 :: b0 :: tail =>
      obtain ⟨⟨cs', rest'⟩, htail, heq⟩ := Option.map_eq_some_iff.mp hread
      obtain ⟨rfl, rfl⟩ := Prod.mk.inj heq
      obtain ⟨rfl, hlength⟩ := ih htail
      refine ⟨?_, by rw [List.length_cons, hlength]⟩
      rw [List.flatMap_cons, htonl_ntohl]
      rfl
    | [] => cases hread
    | [_] => cases hread
    | [_, _] => cases hread
    | [_, _, _] => cases hread

/-- The sources are all there exactly if the datagram is long enough for them. -/
lemma readSources_isSome (n : ℕ) (bytes : List Byte) :
    (readSources n bytes).isSome ↔ 4 * n ≤ bytes.length := by
  induction n generalizing bytes with
  | zero => simp [readSources]
  | succ n ih =>
    match bytes with
    | b3 :: b2 :: b1 :: b0 :: tail =>
      rw [readSources, Option.isSome_map, ih]
      simp only [List.length_cons]
      omega
    | [] => simp [readSources]
    | [_] =>
      simp [readSources]
      omega
    | [_, _] =>
      simp [readSources]
      omega
    | [_, _, _] =>
      simp [readSources]
      omega

end RoundTrip

end MTalk.Rtp
