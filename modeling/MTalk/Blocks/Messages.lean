import MTalk.Blocks.Memory
import Mathlib.Data.List.Nodup

/-!
# Messages made of blocks

The functions of `str_utils.c` on messages: what they return and what becomes of the memory.
-/

namespace MTalk.Blocks

namespace Memory

/-- What lies between the pointers of a block. -/
def bytes (mem : Memory) (mp : Mblk) : List Byte :=
  ((((mem.datab mp.datap).map Datab.bytes).getD []).drop mp.rptr).take (mp.wptr - mp.rptr)

/-- The data of a message. -/
def content (mem : Memory) (m : Msg) : List Byte := m.flatMap mem.bytes

/-- The pointers of a block point into its data block. -/
def Fits (mem : Memory) (mp : Mblk) : Prop :=
  ∀ db, mem.datab mp.datap = some db → mp.wptr ≤ db.bytes.length

end Memory

/-- The data blocks that a message refers to. -/
def Msg.refs (m : Msg) : List ℕ := m.map Mblk.datap

def msgdsize (m : Msg) : ℕ := (m.map fun mp => mp.wptr - mp.rptr).sum

def allocb (a : Malloc) (size : ℕ) (mem : Memory) : Mblk × Memory :=
  (⟨(mem.databAlloc a size).1, 0, 0, 0, 0, le_rfl⟩, (mem.databAlloc a size).2)

/-- A block around a buffer of the caller. -/
def esballoc (base : ℕ) (buf : List Byte) (freefn : Option ℕ) (mem : Memory) : Mblk × Memory :=
  (⟨mem.next, 0, 0, 0, 0, le_rfl⟩, mem.add ⟨base, buf, freefn, 1⟩)

def freeb (mp : Mblk) (mem : Memory) : Option Memory := mem.databUnref mp.datap

def freemsg : Msg → Memory → Option Memory
  | [], mem => some mem
  | mp :: cont, mem => (freeb mp mem).bind fun mem => freemsg cont mem

def dupb (mp : Mblk) (mem : Memory) : Option (Mblk × Memory) :=
  (mem.databRef mp.datap).map fun mem => (mp, mem)

def dupmsg : Msg → Memory → Option (Msg × Memory)
  | [], mem => some ([], mem)
  | mp :: cont, mem =>
    (dupb mp mem).bind fun r => (dupmsg cont r.2).map fun s => (r.1 :: s.1, s.2)

/-- `memcpy` to the write pointer, which goes on behind the data. -/
def putBytes (mp : Mblk) (data : List Byte) (mem : Memory) : Option (Mblk × Memory) :=
  (mem.datab mp.datap).bind fun db =>
    if mp.wptr + data.length ≤ db.bytes.length then
      some (⟨mp.datap, mp.rptr, mp.wptr + data.length, mp.reserved1, mp.reserved2,
          le_trans mp.le (Nat.le_add_right _ _)⟩,
        mem.set mp.datap { db with
          bytes := db.bytes.take mp.wptr ++ data ++ db.bytes.drop (mp.wptr + data.length) })
    else none

def copyb (a : Malloc) (mp : Mblk) (mem : Memory) : Option (Mblk × Memory) :=
  (mem.datab mp.datap).bind fun _ =>
    let r := allocb a (mp.wptr - mp.rptr) mem
    putBytes r.1 (mem.bytes mp) r.2

def copymsg (a : Malloc) : Msg → Memory → Option (Msg × Memory)
  | [], mem => some ([], mem)
  | mp :: cont, mem =>
    (copyb a mp mem).bind fun r => (copymsg a cont r.2).map fun s => (r.1 :: s.1, s.2)

/-- The loop of `msgpullup`, with what remains to be copied. -/
def pullupLoop (mem : Memory) : Msg → ℕ → List Byte
  | [], _ => []
  | mp :: cont, remain =>
    if remain = 0 then []
    else if mp.wptr - mp.rptr ≤ remain then
      mem.bytes mp ++ pullupLoop mem cont (remain - (mp.wptr - mp.rptr))
    else (mem.bytes mp).take remain

/-- `msgpullup` when there is something to do: the data are copied to a new data block, which
takes the place of the others. -/
def pullup (a : Malloc) (firstm : Mblk) (cont : Msg) (len : ℕ) (mem : Memory) :
    Option (Msg × Memory) :=
  (putBytes ⟨(mem.databAlloc a len).1, 0, 0, firstm.reserved1, firstm.reserved2, le_rfl⟩
      (pullupLoop mem (firstm :: cont) len) (mem.databAlloc a len).2).bind fun r =>
    (freemsg cont r.2).bind fun mem =>
      (mem.databUnref firstm.datap).map fun mem => ([r.1], mem)

/-- `msgpullup`, where `none` stands for the length `-1`. -/
def msgpullup (a : Malloc) (len : Option ℕ) : Msg → Memory → Option (Msg × Memory)
  | [], _ => none
  | firstm :: cont, mem =>
    if cont = [] ∧ len = none then some ([firstm], mem)
    else pullup a firstm cont (len.getD (msgdsize (firstm :: cont))) mem

/-- How many bytes are missing from the write pointer behind the data to a multiple of four. -/
def padcnt (db : Datab) (mp : Mblk) (size : ℕ) (pad : Bool) : ℕ :=
  if pad then (4 - (db.base + mp.wptr + size) % 4) % 4 else 0

/-- `appendb`: the block and, if it is not large enough, the new one behind it. -/
def appendb (a : Malloc) (mp : Mblk) (data : List Byte) (pad : Bool) (mem : Memory) :
    Option (Msg × Memory) :=
  (mem.datab mp.datap).bind fun db =>
    let zeros := List.replicate (padcnt db mp data.length pad) 0
    if mp.wptr + data.length + padcnt db mp data.length pad > db.bytes.length then
      let r := allocb a (max db.bytes.length data.length) mem
      (putBytes r.1 (data ++ zeros) r.2).map fun s => ([mp, s.1], s.2)
    else (putBytes mp (data ++ zeros) mem).map fun s => ([s.1], s.2)

/-- `msgappend` appends to the last block. -/
def msgappend (a : Malloc) (data : List Byte) (pad : Bool) : Msg → Memory → Option (Msg × Memory)
  | [], _ => none
  | [mp], mem => appendb a mp data pad mem
  | mp :: mp' :: cont, mem =>
    (msgappend a data pad (mp' :: cont) mem).map fun s => (mp :: s.1, s.2)

/-- The block that `msgb_allocator_alloc` finds unused in the pool. -/
def findUnused (mem : Memory) (size : ℕ) (q : List Mblk) : Option Mblk :=
  q.find? fun m => (mem.datab m.datap).any fun db => decide (db.ref = 1 ∧ size ≤ db.bytes.length)

/-- `msgb_allocator_alloc`: the block, the pool and the memory. -/
def msgbAllocatorAlloc (a : Malloc) (size : ℕ) (q : List Mblk) (mem : Memory) :
    Option (Mblk × List Mblk × Memory) :=
  match findUnused mem size q with
  | some found => (dupb found mem).map fun r => (r.1, q, r.2)
  | none =>
    let r := allocb a size mem
    (dupb r.1 r.2).map fun s => (s.1, q ++ [r.1], s.2)

namespace Memory

variable {mem mem' mem'' : Memory} {ds : List ℕ} {mp : Mblk} {m : Msg}

/-- Blocks keep their data and still fit. -/
def Keeps (bs : List Mblk) (mem mem' : Memory) : Prop :=
  ∀ b ∈ bs, mem'.bytes b = mem.bytes b ∧ (mem.Fits b → mem'.Fits b)

lemma Keeps.trans {bs : List Mblk} (h : Keeps bs mem mem') (h' : Keeps bs mem' mem'') :
    Keeps bs mem mem'' :=
  fun b hb => ⟨(h' b hb).1.trans (h b hb).1, fun hf => (h' b hb).2 ((h b hb).2 hf)⟩

lemma Keeps.mono {bs cs : List Mblk} (h : Keeps bs mem mem') (hsub : cs ⊆ bs) :
    Keeps cs mem mem' := fun b hb => h b (hsub hb)

lemma SameBytes.keeps (h : SameBytes ds mem mem') {bs : List Mblk}
    (hbs : ∀ b ∈ bs, b.datap ∈ ds) : Keeps bs mem mem' := by
  intro b hb
  have hsame := h b.datap (hbs b hb)
  refine ⟨by rw [bytes, bytes, hsame], fun hf db hdb => ?_⟩
  rw [hdb, Option.map_some] at hsame
  obtain ⟨db', hdb', heq⟩ := Option.map_eq_some_iff.mp hsame.symm
  rw [← heq]
  exact hf db' hdb'

lemma Keeps.content (h : Keeps m mem mem') : mem'.content m = mem.content m :=
  List.flatMap_congr fun b hb => (h b hb).1

@[simp] lemma content_nil (mem : Memory) : mem.content [] = [] := rfl

@[simp] lemma content_cons (mem : Memory) (mp : Mblk) (m : Msg) :
    mem.content (mp :: m) = mem.bytes mp ++ mem.content m := List.flatMap_cons

@[simp] lemma content_append (mem : Memory) (m m' : Msg) :
    mem.content (m ++ m') = mem.content m ++ mem.content m' := List.flatMap_append

@[simp] lemma bytes_of_empty (mem : Memory) (h : mp.rptr = mp.wptr) : mem.bytes mp = [] := by
  simp [bytes, h]

end Memory

@[simp] lemma Msg.refs_nil : Msg.refs [] = [] := rfl

@[simp] lemma Msg.refs_cons (mp : Mblk) (m : Msg) :
    Msg.refs (mp :: m) = mp.datap :: Msg.refs m := rfl

@[simp] lemma Msg.refs_append (m m' : Msg) : Msg.refs (m ++ m') = Msg.refs m ++ Msg.refs m' :=
  List.map_append

section

variable {mem mem' : Memory} {ds : List ℕ} {mp : Mblk} {m : Msg} {a : Malloc} {data : List Byte}

lemma length_bytes {ds : List ℕ} (h : mem.Counted ds) (hd : mp.datap ∈ ds) (hf : mem.Fits mp) :
    (mem.bytes mp).length = mp.wptr - mp.rptr := by
  obtain ⟨db, hdb⟩ := h.exists_datab hd
  have hle := hf db hdb
  simp only [Memory.bytes, hdb, Option.map_some, Option.getD_some, List.length_take,
    List.length_drop]
  omega

/-- The data of a message has the size that `msgdsize` gives. -/
lemma length_content (h : mem.Counted ds) (hm : Msg.refs m ⊆ ds) (hf : ∀ b ∈ m, mem.Fits b) :
    (mem.content m).length = msgdsize m := by
  induction m with
  | nil => rfl
  | cons mp cont ih =>
    rw [Msg.refs_cons, List.cons_subset] at hm
    rw [Memory.content_cons, List.length_append,
      length_bytes h hm.1 (hf mp List.mem_cons_self),
      ih hm.2 fun b hb => hf b (List.mem_cons_of_mem mp hb)]
    rfl

lemma freemsg_spec (h : mem.Counted (Msg.refs m ++ ds)) :
    ∃ mem', freemsg m mem = some mem' ∧ mem'.Counted ds ∧ Memory.SameBytes ds mem mem' := by
  induction m generalizing mem with
  | nil => exact ⟨mem, rfl, h, .refl ds mem⟩
  | cons mp cont ih =>
    obtain ⟨mem₁, h₁, hc₁, hs₁⟩ := h.databUnref
    obtain ⟨mem', h', hc', hs'⟩ := ih hc₁
    refine ⟨mem', ?_, hc', (hs₁.mono (List.subset_append_right _ _)).trans hs'⟩
    rw [freemsg, freeb, h₁]
    exact h'

lemma dupmsg_spec (h : mem.Counted ds) (hm : Msg.refs m ⊆ ds) :
    ∃ mem', dupmsg m mem = some (m, mem') ∧ mem'.Counted (Msg.refs m ++ ds) ∧
      Memory.SameBytes ds mem mem' := by
  induction m generalizing mem ds with
  | nil => exact ⟨mem, rfl, h, .refl ds mem⟩
  | cons mp cont ih =>
    rw [Msg.refs_cons, List.cons_subset] at hm
    obtain ⟨mem₁, h₁, hc₁, hs₁⟩ := h.databRef hm.1
    obtain ⟨mem', h', hc', hs'⟩ := ih hc₁ fun x hx => List.mem_cons_of_mem _ (hm.2 hx)
    refine ⟨mem', ?_, hc'.perm List.perm_middle,
      (hs₁.trans hs').mono (List.subset_cons_self _ _)⟩
    rw [dupmsg, dupb, h₁, Option.map_some, Option.bind_some, h']
    rfl

lemma bytes_eq_drop (mem : Memory) (mp : Mblk) : mem.bytes mp =
    ((((mem.datab mp.datap).map Datab.bytes).getD []).take mp.wptr).drop mp.rptr :=
  List.drop_take.symm

/-- Writing to a block adds to its data, and keeps the data of other blocks as far as they do not
reach behind its write pointer. -/
lemma putBytes_spec (mp : Mblk) (data : List Byte) (bs : List Mblk) {db : Datab}
    (h : mem.Counted ds) (hdb : mem.datab mp.datap = some db)
    (hroom : mp.wptr + data.length ≤ db.bytes.length)
    (hbs : ∀ b ∈ bs, b.datap = mp.datap → b.wptr ≤ mp.wptr) :
    ∃ mp' mem', putBytes mp data mem = some (mp', mem') ∧ mem'.Counted ds ∧
      mp'.datap = mp.datap ∧ mem'.bytes mp' = mem.bytes mp ++ data ∧ mem'.Fits mp' ∧
      Memory.Keeps bs mem mem' ∧ ∀ d, d ≠ mp.datap → mem'.datab d = mem.datab d := by
  have hd : mp.datap ∈ ds := (h.live _).mp (by rw [hdb]; rfl)
  let written := db.bytes.take mp.wptr ++ data ++ db.bytes.drop (mp.wptr + data.length)
  have hlength : written.length = db.bytes.length := by
    simp only [written, List.length_append, List.length_take, List.length_drop]
    omega
  have hstart : ∀ n ≤ mp.wptr, written.take n = db.bytes.take n := by
    intro n hn
    simp only [written]
    rw [List.append_assoc, List.take_append_of_le_length, List.take_take, min_eq_left hn]
    rw [List.length_take]
    omega
  have hall : written.take (mp.wptr + data.length) = db.bytes.take mp.wptr ++ data := by
    simp only [written]
    rw [List.take_append_of_le_length, List.take_of_length_le]
    · simp only [List.length_append, List.length_take]
      omega
    · simp only [List.length_append, List.length_take]
      omega
  refine ⟨⟨mp.datap, mp.rptr, mp.wptr + data.length, mp.reserved1, mp.reserved2,
    le_trans mp.le (Nat.le_add_right _ _)⟩, mem.set mp.datap { db with bytes := written }, ?_, ?_,
    rfl, ?_, ?_, ?_, fun d hne => by rw [Memory.datab_set, if_neg hne]⟩
  · rw [putBytes, hdb, Option.bind_some, if_pos hroom]
  · exact h.set hdb hd (h.ref _ db hdb) fun _ _ => rfl
  · rw [bytes_eq_drop, bytes_eq_drop, Memory.datab_set, if_pos rfl, hdb]
    simp only [Option.map_some, Option.getD_some]
    rw [hall, List.drop_append_of_le_length]
    rw [List.length_take]
    have hle := mp.le
    omega
  · intro db' hdb'
    rw [Memory.datab_set, if_pos rfl] at hdb'
    obtain rfl := Option.some.inj hdb'
    dsimp only
    rw [hlength]
    exact hroom
  · intro b hb
    by_cases heq : b.datap = mp.datap
    · refine ⟨?_, fun hf db' hdb' => ?_⟩
      · rw [bytes_eq_drop, bytes_eq_drop, Memory.datab_set, if_pos heq, heq, hdb]
        simp only [Option.map_some, Option.getD_some]
        rw [hstart b.wptr (hbs b hb heq)]
      · rw [Memory.datab_set, if_pos heq] at hdb'
        obtain rfl := Option.some.inj hdb'
        dsimp only
        rw [hlength]
        exact hf db (heq ▸ hdb)
    · refine ⟨?_, fun hf db' hdb' => ?_⟩
      · rw [bytes_eq_drop, bytes_eq_drop, Memory.datab_set, if_neg heq]
      · rw [Memory.datab_set, if_neg heq] at hdb'
        exact hf db' hdb'

/-- A new block is empty and fits, and nothing else refers to its data block. -/
lemma allocb_spec (h : mem.Counted ds) (a : Malloc) (size : ℕ) :
    (allocb a size mem).2.Counted ((allocb a size mem).1.datap :: ds) ∧
      (allocb a size mem).1.datap ∉ ds ∧
      (∃ db, (allocb a size mem).2.datab (allocb a size mem).1.datap = some db ∧
        db.bytes.length = size) ∧
      Memory.SameBytes ds mem (allocb a size mem).2 := by
  obtain ⟨hc, hs⟩ := h.add
    (show (⟨a.base mem.next size, a.bytes mem.next size, none, 1⟩ : Datab).ref = 1 from rfl)
  exact ⟨hc, h.next_notMem, ⟨_, Function.update_self _ _ _, a.length_bytes _ _⟩, hs⟩

lemma copyb_spec (h : mem.Counted ds) (hd : mp.datap ∈ ds) (hf : mem.Fits mp) :
    ∃ mp' mem', copyb a mp mem = some (mp', mem') ∧ mem'.Counted (mp'.datap :: ds) ∧
      mem'.bytes mp' = mem.bytes mp ∧ mem'.Fits mp' ∧ Memory.SameBytes ds mem mem' := by
  obtain ⟨db, hdb⟩ := h.exists_datab hd
  obtain ⟨hc, hnew, ⟨new, hnewdb, hsize⟩, hs⟩ := allocb_spec h a (mp.wptr - mp.rptr)
  have hlength := length_bytes h hd hf
  obtain ⟨mp', mem', hput, hc', hdatap, hbytes, hfits, -, hother⟩ :=
    putBytes_spec (allocb a (mp.wptr - mp.rptr) mem).1 (mem.bytes mp) [] hc hnewdb
      (by rw [hlength, hsize]; exact (Nat.zero_add _).le) (by simp)
  refine ⟨mp', mem', ?_, hdatap ▸ hc', ?_, hfits, fun d hd => ?_⟩
  · rw [copyb, hdb, Option.bind_some]
    exact hput
  · rw [hbytes, Memory.bytes_of_empty _ rfl, List.nil_append]
  · rw [hother d fun heq => hnew (heq ▸ hd)]
    exact hs d hd

lemma copymsg_spec (h : mem.Counted ds) (hm : Msg.refs m ⊆ ds) (hf : ∀ b ∈ m, mem.Fits b) :
    ∃ m' mem', copymsg a m mem = some (m', mem') ∧ mem'.Counted (Msg.refs m' ++ ds) ∧
      m'.length = m.length ∧ mem'.content m' = mem.content m ∧ (∀ b ∈ m', mem'.Fits b) ∧
      Memory.SameBytes ds mem mem' := by
  induction m generalizing mem ds with
  | nil => exact ⟨[], mem, rfl, h, rfl, rfl, by simp, .refl ds mem⟩
  | cons mp cont ih =>
    rw [Msg.refs_cons, List.cons_subset] at hm
    obtain ⟨mp', mem₁, h₁, hc₁, hb₁, hf₁, hs₁⟩ := copyb_spec (a := a) h hm.1
      (hf mp List.mem_cons_self)
    have hkeeps : Memory.Keeps cont mem mem₁ :=
      hs₁.keeps fun b hb => hm.2 (List.mem_map_of_mem hb)
    obtain ⟨m', mem', h', hc', hl', hb', hf', hs'⟩ := ih hc₁
      (fun x hx => List.mem_cons_of_mem _ (hm.2 hx))
      (fun b hb => (hkeeps b hb).2 (hf b (List.mem_cons_of_mem mp hb)))
    have hkeep : Memory.Keeps [mp'] mem₁ mem' := hs'.keeps (by simp)
    refine ⟨mp' :: m', mem', ?_, hc'.perm List.perm_middle, by simp [hl'], ?_, ?_,
      hs₁.trans (hs'.mono (List.subset_cons_self _ _))⟩
    · rw [copymsg, h₁, Option.bind_some, h']
      rfl
    · rw [Memory.content_cons, Memory.content_cons, (hkeep mp' List.mem_cons_self).1, hb₁, hb',
        hkeeps.content]
    · intro b hb
      rcases List.mem_cons.mp hb with rfl | hb
      · exact (hkeep b List.mem_cons_self).2 hf₁
      · exact hf' b hb

lemma pullupLoop_eq (h : mem.Counted ds) (hm : Msg.refs m ⊆ ds) (hf : ∀ b ∈ m, mem.Fits b)
    (remain : ℕ) : pullupLoop mem m remain = (mem.content m).take remain := by
  induction m generalizing remain with
  | nil => simp [pullupLoop]
  | cons mp cont ih =>
    rw [Msg.refs_cons, List.cons_subset] at hm
    have hlength := length_bytes h hm.1 (hf mp List.mem_cons_self)
    have hrest := ih hm.2 fun b hb => hf b (List.mem_cons_of_mem mp hb)
    rw [pullupLoop, Memory.content_cons]
    split_ifs with hzero hwhole
    · simp [hzero]
    · rw [hrest, List.take_append, hlength]
      congr 1
      rw [List.take_of_length_le (by omega)]
    · rw [List.take_append_of_le_length (by omega)]

lemma pullup_spec {cont : Msg} (h : mem.Counted (Msg.refs (mp :: cont) ++ ds))
    (hf : ∀ b ∈ mp :: cont, mem.Fits b) (len : ℕ) :
    ∃ mp' mem', pullup a mp cont len mem = some ([mp'], mem') ∧
      mem'.Counted (mp'.datap :: ds) ∧ mem'.bytes mp' = (mem.content (mp :: cont)).take len ∧
      mem'.Fits mp' ∧ Memory.SameBytes ds mem mem' := by
  obtain ⟨hc₁, hnew, ⟨db, hdb, hdbsize⟩, hs₁⟩ := allocb_spec h a len
  have hdata := pullupLoop_eq h (List.subset_append_left _ _) hf len
  obtain ⟨mp', mem₂, h₂, hc₂, hdatap, hbytes, hfits, -, hother⟩ :=
    putBytes_spec ⟨mem.next, 0, 0, mp.reserved1, mp.reserved2, le_rfl⟩
      (pullupLoop mem (mp :: cont) len) [] hc₁ hdb
      (by rw [hdata, hdbsize, List.length_take]; dsimp only; omega) (by simp)
  have hs₂ : Memory.SameBytes (Msg.refs (mp :: cont) ++ ds) mem mem₂ := by
    intro d hd
    rw [hother d fun heq => hnew (heq ▸ hd)]
    exact hs₁ d hd
  have hc₂' : mem₂.Counted (Msg.refs cont ++ (mp.datap :: mem.next :: ds)) := by
    refine hc₂.perm (List.Perm.symm ?_)
    exact (List.perm_middle.trans (List.perm_middle.cons _)).trans (List.Perm.swap _ _ _)
  obtain ⟨mem₃, h₃, hc₃, hs₃⟩ := freemsg_spec hc₂'
  obtain ⟨mem₄, h₄, hc₄, hs₄⟩ := hc₃.databUnref
  dsimp only at hdatap
  have hs₂₄ : Memory.SameBytes (mem.next :: ds) mem₂ mem₄ :=
    (hs₃.mono (List.subset_cons_self _ _)).trans hs₄
  have hkeep : Memory.Keeps [mp'] mem₂ mem₄ := hs₂₄.keeps (by simp [hdatap])
  refine ⟨mp', mem₄, ?_, hdatap ▸ hc₄, ?_, (hkeep mp' List.mem_cons_self).2 hfits, ?_⟩
  · change (putBytes ⟨mem.next, 0, 0, mp.reserved1, mp.reserved2, le_rfl⟩ _
      (allocb a len mem).2).bind _ = _
    rw [h₂, Option.bind_some, h₃, Option.bind_some, h₄]
    rfl
  · rw [(hkeep mp' List.mem_cons_self).1, hbytes, Memory.bytes_of_empty _ rfl, List.nil_append,
      hdata]
  · exact (hs₂.mono (List.subset_append_right _ _)).trans (hs₂₄.mono (List.subset_cons_self _ _))

lemma msgpullup_spec (h : mem.Counted (Msg.refs m ++ ds)) (hne : m ≠ [])
    (hf : ∀ b ∈ m, mem.Fits b) (len : Option ℕ) :
    ∃ m' mem', msgpullup a len m mem = some (m', mem') ∧ m' ≠ [] ∧
      mem'.Counted (Msg.refs m' ++ ds) ∧
      mem'.content m' = (mem.content m).take (len.getD (mem.content m).length) ∧
      (∀ b ∈ m', mem'.Fits b) ∧ Memory.SameBytes ds mem mem' := by
  have hsize := length_content h (List.subset_append_left _ _) hf
  cases m with
  | nil => exact absurd rfl hne
  | cons firstm cont =>
    rw [msgpullup]
    by_cases hnothing : cont = [] ∧ len = none
    · obtain ⟨rfl, rfl⟩ := hnothing
      refine ⟨[firstm], mem, if_pos ⟨rfl, rfl⟩, by simp, h, ?_, hf, .refl ds mem⟩
      rw [Option.getD_none, List.take_length]
    · obtain ⟨mp', mem', h', hc', hb', hf', hs'⟩ := pullup_spec (a := a) h hf
        (len.getD (msgdsize (firstm :: cont)))
      refine ⟨[mp'], mem', ?_, by simp, hc', ?_, by simpa using hf', hs'⟩
      · rw [if_neg hnothing, h']
      · rw [Memory.content_cons, hb', Memory.content_nil, List.append_nil, hsize]

/-- There is room for the data behind the last block or in a new one of the size of the old. -/
def Room (db : Datab) (mp : Mblk) (size : ℕ) (pad : Bool) : Prop :=
  mp.wptr + size + padcnt db mp size pad ≤ db.bytes.length ∨
    size + padcnt db mp size pad ≤ max db.bytes.length size

lemma appendb_spec {db : Datab} (h : mem.Counted (mp.datap :: ds))
    (hdb : mem.datab mp.datap = some db) (hf : mem.Fits mp) {pad : Bool}
    (hroom : Room db mp data.length pad) {bs : List Mblk} (hin : ∀ b ∈ bs, b.datap ∈ mp.datap :: ds)
    (hbs : ∀ b ∈ bs, b.datap = mp.datap → b.wptr ≤ mp.wptr) :
    ∃ c mem', appendb a mp data pad mem = some (c, mem') ∧ c ≠ [] ∧
      mem'.Counted (Msg.refs c ++ ds) ∧
      mem'.content c = mem.bytes mp ++ data ++ List.replicate (padcnt db mp data.length pad) 0 ∧
      (∀ b ∈ c, mem'.Fits b) ∧ Memory.Keeps bs mem mem' := by
  have hlength : (data ++ List.replicate (padcnt db mp data.length pad) (0 : Byte)).length =
      data.length + padcnt db mp data.length pad := by simp
  by_cases hfull : mp.wptr + data.length + padcnt db mp data.length pad > db.bytes.length
  · obtain ⟨hc₁, hnew, ⟨new, hnewdb, hsize⟩, hs₁⟩ :=
      allocb_spec h a (max db.bytes.length data.length)
    have hfits : data.length + padcnt db mp data.length pad ≤ max db.bytes.length data.length :=
      hroom.resolve_left (by omega)
    obtain ⟨mp', mem', hput, hc', hdatap, hbytes, hfits', hkeep, hother⟩ := putBytes_spec
      (allocb a (max db.bytes.length data.length) mem).1
      (data ++ List.replicate (padcnt db mp data.length pad) 0) (mp :: bs) hc₁ hnewdb
      (by rw [hlength, hsize]; exact (Nat.zero_add _).trans_le hfits) (by
        intro b hb heq
        refine absurd ?_ hnew
        rw [← heq]
        rcases List.mem_cons.mp hb with rfl | hb
        · exact List.mem_cons_self
        · exact hin b hb)
    have hkeep' : Memory.Keeps (mp :: bs) mem mem' := by
      refine (hs₁.keeps fun b hb => ?_).trans hkeep
      rcases List.mem_cons.mp hb with rfl | hb
      · exact List.mem_cons_self
      · exact hin b hb
    refine ⟨[mp, mp'], mem', ?_, by simp, ?_, ?_, ?_, hkeep'.mono (List.subset_cons_self _ _)⟩
    · rw [appendb, hdb, Option.bind_some]
      dsimp only
      rw [if_pos hfull, hput]
      rfl
    · refine hc'.perm ?_
      rw [← hdatap]
      exact List.Perm.swap _ _ _
    · have hempty : (allocb a (max db.bytes.length data.length) mem).2.bytes
          (allocb a (max db.bytes.length data.length) mem).1 = [] := Memory.bytes_of_empty _ rfl
      rw [Memory.content_cons, Memory.content_cons, Memory.content_nil,
        (hkeep' mp List.mem_cons_self).1, hbytes, hempty]
      simp
    · intro b hb
      rcases List.mem_cons.mp hb with rfl | hb
      · exact (hkeep' b List.mem_cons_self).2 hf
      · rw [List.mem_singleton.mp hb]
        exact hfits'
  · obtain ⟨mp', mem', hput, hc', hdatap, hbytes, hfits', hkeep, hother⟩ := putBytes_spec mp
      (data ++ List.replicate (padcnt db mp data.length pad) 0) bs h hdb
      (by rw [hlength]; omega) hbs
    refine ⟨[mp'], mem', ?_, by simp, ?_, ?_, by simpa using hfits', hkeep⟩
    · rw [appendb, hdb, Option.bind_some]
      dsimp only
      rw [if_neg hfull, hput]
      rfl
    · rw [Msg.refs_cons, Msg.refs_nil, hdatap]
      exact hc'
    · rw [Memory.content_cons, Memory.content_nil, hbytes]
      simp

lemma putBytes_eq_none_iff {db : Datab} (hdb : mem.datab mp.datap = some db) :
    putBytes mp data mem = none ↔ db.bytes.length < mp.wptr + data.length := by
  rw [putBytes, hdb, Option.bind_some]
  split_ifs with hroom
  · simp [hroom]
  · simpa using hroom

/-- Exactly without room a block is written behind its end. -/
lemma appendb_eq_none_iff {db : Datab} (hdb : mem.datab mp.datap = some db) (pad : Bool) :
    appendb a mp data pad mem = none ↔ ¬Room db mp data.length pad := by
  have hlength : (data ++ List.replicate (padcnt db mp data.length pad) (0 : Byte)).length =
      data.length + padcnt db mp data.length pad := by simp
  rw [appendb, hdb, Option.bind_some]
  dsimp only
  unfold Room
  split_ifs with hfull
  · have hnew : (allocb a (max db.bytes.length data.length) mem).2.datab
        (allocb a (max db.bytes.length data.length) mem).1.datap =
        some ⟨a.base mem.next (max db.bytes.length data.length),
          a.bytes mem.next (max db.bytes.length data.length), none, 1⟩ := Function.update_self _ _ _
    rw [Option.map_eq_none_iff, putBytes_eq_none_iff hnew, a.length_bytes, hlength]
    change max _ _ < 0 + _ ↔ _
    omega
  · rw [Option.map_eq_none_iff, putBytes_eq_none_iff hdb, hlength]
    omega

lemma msgappend_append (init : Msg) (mp : Mblk) (data : List Byte) (pad : Bool) (mem : Memory) :
    msgappend a data pad (init ++ [mp]) mem =
      (appendb a mp data pad mem).map fun s => (init ++ s.1, s.2) := by
  induction init with
  | nil => simp [msgappend]
  | cons b init ih =>
    obtain ⟨b', rest, heq⟩ : ∃ b' rest, init ++ [mp] = b' :: rest :=
      List.exists_cons_of_ne_nil (by simp)
    rw [List.cons_append, heq, msgappend, ← heq, ih, Option.map_map]
    rfl

/-- When no block of the pool is found, those that are large enough are referred to elsewhere. -/
lemma findUnused_eq_none {q : List Mblk} (h : mem.Counted (Msg.refs q ++ ds))
    (hdistinct : (Msg.refs q).Nodup) {size : ℕ} (hfind : findUnused mem size q = none) {db : Datab}
    (hmp : mp ∈ q) (hdb : mem.datab mp.datap = some db) (hsize : size ≤ db.bytes.length) :
    mp.datap ∈ ds := by
  have hused := List.find?_eq_none.mp hfind mp hmp
  rw [hdb, Option.any_some, decide_eq_true_eq] at hused
  have hcount := h.ref _ db hdb
  have hd : mp.datap ∈ Msg.refs q := List.mem_map_of_mem hmp
  rw [List.count_append, List.count_eq_one_of_mem hdistinct hd] at hcount
  apply List.count_pos_iff.mp
  by_contra hzero
  exact hused ⟨by omega, hsize⟩

/-- The allocator gives an empty block of the size, to whose data block the pool refers once more
and nothing else. -/
lemma msgbAllocatorAlloc_spec {q : List Mblk} (h : mem.Counted (Msg.refs q ++ ds))
    (hq : ∀ b ∈ q, b.wptr = 0) (hdistinct : (Msg.refs q).Nodup) (size : ℕ) :
    ∃ mp q' mem', msgbAllocatorAlloc a size q mem = some (mp, q', mem') ∧
      mem'.Counted (Msg.refs q' ++ mp.datap :: ds) ∧ (∀ b ∈ q', b.wptr = 0) ∧
      (Msg.refs q').Nodup ∧ (q' = q ∧ mp ∈ q ∨ q' = q ++ [mp] ∧ findUnused mem size q = none) ∧
      mp.wptr = 0 ∧ mp.datap ∉ ds ∧ (∃ db, mem'.datab mp.datap = some db ∧ size ≤ db.bytes.length) ∧
      Memory.SameBytes (Msg.refs q ++ ds) mem mem' := by
  unfold msgbAllocatorAlloc
  cases hfind : findUnused mem size q with
  | some found =>
    have hmem : found ∈ q := List.mem_of_find?_eq_some hfind
    have hunused := List.find?_some hfind
    obtain ⟨db, hdb, hdb'⟩ := (Option.any_eq_true _ _).mp hunused
    obtain ⟨hone, hsize⟩ := of_decide_eq_true hdb'
    have hd : found.datap ∈ Msg.refs q := List.mem_map_of_mem hmem
    obtain ⟨mem', h', hc', hs'⟩ := h.databRef (List.mem_append_left ds hd)
    have hcount := h.ref _ db hdb
    rw [hone, List.count_append] at hcount
    have hpos := List.count_pos_iff.mpr hd
    have hnot : found.datap ∉ ds := List.count_eq_zero.mp (by omega)
    have hsame := hs' found.datap List.mem_cons_self
    rw [hdb, Option.map_some] at hsame
    obtain ⟨db₁, hdb₁, hbytes⟩ := Option.map_eq_some_iff.mp hsame
    refine ⟨found, q, mem', ?_, hc'.perm List.perm_middle.symm, hq, hdistinct,
      .inl ⟨rfl, hmem⟩, hq found hmem, hnot,
      ⟨db₁, hdb₁, by rw [hbytes]; exact hsize⟩, hs'.mono (List.subset_cons_self _ _)⟩
    dsimp only
    rw [dupb, h']
    rfl
  | none =>
    obtain ⟨hc₁, hnew, ⟨db, hdb, hsize⟩, hs₁⟩ := allocb_spec h a size
    obtain ⟨mem', h', hc', hs'⟩ := hc₁.databRef List.mem_cons_self
    have hsame := hs' _ List.mem_cons_self
    rw [hdb, Option.map_some] at hsame
    obtain ⟨db₁, hdb₁, hbytes⟩ := Option.map_eq_some_iff.mp hsame
    refine ⟨(allocb a size mem).1, q ++ [(allocb a size mem).1], mem', ?_, hc'.perm ?_, ?_, ?_,
      .inr ⟨rfl, rfl⟩, rfl, fun hd => hnew (List.mem_append_right _ hd),
      ⟨db₁, hdb₁, by rw [hbytes, hsize]⟩, ?_⟩
    · dsimp only
      rw [dupb, h']
      rfl
    · rw [Msg.refs_append]
      simp only [Msg.refs_cons, Msg.refs_nil, List.append_assoc, List.cons_append, List.nil_append]
      exact ((List.perm_middle.trans (List.perm_middle.cons _))).symm
    · intro b hb
      rcases List.mem_append.mp hb with hb | hb
      · exact hq b hb
      · rw [List.mem_singleton.mp hb]
        rfl
    · rw [Msg.refs_append, Msg.refs_cons, Msg.refs_nil, (List.perm_append_singleton _ _).nodup_iff]
      exact List.nodup_cons.mpr ⟨fun hd => hnew (List.mem_append_left _ hd), hdistinct⟩
    · exact hs₁.trans (hs'.mono fun x hx => List.mem_cons_of_mem _ (List.mem_cons_of_mem _ hx))

end

end MTalk.Blocks
