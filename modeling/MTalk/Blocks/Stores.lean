import MTalk.Blocks.Messages
import MTalk.Library.Refinements
import Mathlib.Data.List.InsertIdx

/-!
# Programs that hold messages

A program holds messages and an allocator with its pool of blocks. Seen from outside, a message is
the list of its bytes, as long as nobody appends to a block behind which another message goes on.
-/

namespace MTalk.Blocks

/-- The memory, the messages that the program holds, and the pool of the allocator. -/
structure Store where
  mem : Memory
  held : List Msg
  pool : List Mblk

/-- What the program does, with the places of the messages among those it holds. -/
inductive Action
  | alloc (size : ℕ)
  | wrap (base : ℕ) (buf : List Byte) (freefn : Option ℕ)
  | free (i : ℕ)
  | dup (i : ℕ)
  | copy (i : ℕ)
  | pullup (i : ℕ) (len : Option ℕ)
  | append (i : ℕ) (data : List Byte) (pad : Bool)
  | concat (i j : ℕ)
  | skip (i n : ℕ)
  | poolAlloc (size : ℕ)
  | write (i : ℕ) (data : List Byte)

namespace Store

def start : Store := ⟨.empty, [], []⟩

def push (s : Store) (m : Msg) (mem : Memory) : Store :=
  { s with mem := mem, held := s.held ++ [m] }

def replace (s : Store) (i : ℕ) (m : Msg) (mem : Memory) : Store :=
  { s with mem := mem, held := s.held.set i m }

/-- The read pointer of the first block goes on. -/
def skip (n : ℕ) : Msg → Option Msg
  | [] => none
  | mp :: cont =>
    if h : mp.rptr + n ≤ mp.wptr then
      some (⟨mp.datap, mp.rptr + n, mp.wptr, mp.reserved1, mp.reserved2, h⟩ :: cont)
    else none

/-- One action. `wrap` is `esballoc` with the write pointer put behind the buffer, and `write` fills
the last block as `recvfrom` does. -/
def step (a : Malloc) (s : Store) : Action → Option Store
  | .alloc size => some (s.push [(allocb a size s.mem).1] (allocb a size s.mem).2)
  | .wrap base buf freefn =>
    some (s.push [⟨(esballoc base buf freefn s.mem).1.datap, 0, buf.length, 0, 0, Nat.zero_le _⟩]
      (esballoc base buf freefn s.mem).2)
  | .free i => s.held[i]?.bind fun m =>
      (freemsg m s.mem).map fun mem => { s with mem := mem, held := s.held.eraseIdx i }
  | .dup i => s.held[i]?.bind fun m => (dupmsg m s.mem).map fun r => s.push r.1 r.2
  | .copy i => s.held[i]?.bind fun m => (copymsg a m s.mem).map fun r => s.push r.1 r.2
  | .pullup i len => s.held[i]?.bind fun m =>
      (msgpullup a len m s.mem).map fun r => s.replace i r.1 r.2
  | .append i data pad => s.held[i]?.bind fun m =>
      (msgappend a data pad m s.mem).map fun r => s.replace i r.1 r.2
  | .concat i j => s.held[i]?.bind fun m => s.held[j]?.map fun newm =>
      { s with held := (s.held.set i (m ++ newm)).eraseIdx j }
  | .skip i n => s.held[i]?.bind fun m => (skip n m).map fun m => s.replace i m s.mem
  | .poolAlloc size => (msgbAllocatorAlloc a size s.pool s.mem).map fun r =>
      { s.push [r.1] r.2.2 with pool := r.2.1 }
  | .write i data => s.held[i]?.bind fun m => m.getLast?.bind fun mp =>
      (putBytes mp data s.mem).map fun r => s.replace i (m.dropLast ++ [r.1]) r.2

/-- The bytes of the messages held. -/
def contents (s : Store) : List (List Byte) := s.held.map s.mem.content

/-- The blocks of the other messages and of the pool. -/
def others (s : Store) (i : ℕ) : List Mblk := (s.held.eraseIdx i).flatten ++ s.pool

/-- The message ends with a block behind whose data no other block has data. -/
def Alone (s : Store) (i : ℕ) (init : Msg) (mp : Mblk) : Prop :=
  s.held[i]? = some (init ++ [mp]) ∧
    ∀ b ∈ init ++ s.others i, b.datap = mp.datap → b.wptr ≤ mp.wptr

end Store

/-- What an action means for the bytes; `k` is the number of zeros that pad. -/
def Action.meaning (k : ℕ) (l : List (List Byte)) : Action → List (List Byte)
  | .alloc _ => l ++ [[]]
  | .wrap _ buf _ => l ++ [buf]
  | .free i => l.eraseIdx i
  | .dup i => l ++ [l.getD i []]
  | .copy i => l ++ [l.getD i []]
  | .pullup i len => l.set i ((l.getD i []).take (len.getD (l.getD i []).length))
  | .append i data _ => l.set i (l.getD i [] ++ data ++ List.replicate k 0)
  | .concat i j => (l.set i (l.getD i [] ++ l.getD j [])).eraseIdx j
  | .skip i n => l.set i ((l.getD i []).drop n)
  | .poolAlloc _ => l ++ [[]]
  | .write i data => l.set i (l.getD i [] ++ data)

/-- How many zeros an action may add. -/
def Action.padding : Action → ℕ
  | .append _ _ true => 3
  | _ => 0

/-- What the program sees to. -/
def Store.Proper (s : Store) : Action → Prop
  | .alloc _ => True
  | .wrap _ _ _ => True
  | .free i => i < s.held.length
  | .dup i => i < s.held.length
  | .copy i => i < s.held.length
  | .pullup i _ => i < s.held.length
  | .append i data pad => ∃ init mp, s.Alone i init mp ∧
      ∀ db, s.mem.datab mp.datap = some db → Room db mp data.length pad
  | .concat i j => i < s.held.length ∧ j < s.held.length ∧ i ≠ j
  | .skip i n => ∃ mp cont, s.held[i]? = some (mp :: cont) ∧ mp.rptr + n ≤ mp.wptr
  | .poolAlloc _ => True
  | .write i data => ∃ init mp, s.Alone i init mp ∧
      ∀ db, s.mem.datab mp.datap = some db → mp.wptr + data.length ≤ db.bytes.length

/-- The references are counted, every block fits, and no message is without a block. -/
structure Store.Sane (s : Store) : Prop where
  counted : s.mem.Counted (Msg.refs (s.held.flatten ++ s.pool))
  fits : ∀ b ∈ s.held.flatten, s.mem.Fits b
  unused : ∀ b ∈ s.pool, b.wptr = 0
  distinct : (Msg.refs s.pool).Nodup
  whole : ∀ m ∈ s.held, m ≠ []

namespace Store.Sane

variable {a : Malloc} {s : Store} {m m' : Msg} {mem' : Memory} {i : ℕ}

lemma perm_others (hm : s.held[i]? = some m) :
    (s.held.flatten ++ s.pool).Perm (m ++ s.others i) := by
  obtain ⟨hi, rfl⟩ := List.getElem?_eq_some_iff.mp hm
  unfold others
  rw [← List.append_assoc]
  exact ((List.getElem_cons_eraseIdx_perm hi).symm.flatten.trans
    (by rw [List.flatten_cons])).append_right s.pool

lemma refs_perm {bs cs : List Mblk} (h : bs.Perm cs) : (Msg.refs bs).Perm (Msg.refs cs) := h.map _

/-- The references of one message and those of the others. -/
lemma counted_others (hs : s.Sane) (hm : s.held[i]? = some m) :
    s.mem.Counted (Msg.refs m ++ Msg.refs (s.others i)) := by
  have h := hs.counted.perm (refs_perm (perm_others hm))
  rwa [Msg.refs_append] at h

lemma fits_of_getElem (hs : s.Sane) (hm : s.held[i]? = some m) : ∀ b ∈ m, s.mem.Fits b :=
  fun b hb => hs.fits b (List.mem_flatten.mpr ⟨m, List.mem_of_getElem? hm, hb⟩)

lemma refs_subset (hm : s.held[i]? = some m) :
    Msg.refs m ⊆ Msg.refs (s.held.flatten ++ s.pool) := by
  intro d hd
  obtain ⟨b, hb, rfl⟩ := List.mem_map.mp hd
  refine List.mem_map_of_mem (List.mem_append_left _ ?_)
  exact List.mem_flatten.mpr ⟨m, List.mem_of_getElem? hm, hb⟩

/-- One more message and another pool, while the others keep their bytes. -/
lemma push_pool (hs : s.Sane) {q : List Mblk} (hne : m' ≠ [])
    (hc : mem'.Counted (Msg.refs m' ++ Msg.refs (s.held.flatten ++ q)))
    (hf : ∀ b ∈ m', mem'.Fits b) (hq : ∀ b ∈ q, b.wptr = 0) (hdistinct : (Msg.refs q).Nodup)
    (hsame : Memory.SameBytes (Msg.refs s.held.flatten) s.mem mem') :
    ({ s.push m' mem' with pool := q } : Store).Sane ∧
      ({ s.push m' mem' with pool := q } : Store).contents = s.contents ++ [mem'.content m'] := by
  have hkeeps : Memory.Keeps s.held.flatten s.mem mem' :=
    hsame.keeps fun b hb => List.mem_map_of_mem hb
  unfold Store.push
  refine ⟨⟨hc.perm ?_, fun b hb => ?_, hq, hdistinct, fun m hm => ?_⟩, ?_⟩
  · rw [← Msg.refs_append]
    apply refs_perm
    dsimp only
    rw [List.flatten_append, List.flatten_cons, List.flatten_nil, List.append_nil,
      List.append_assoc]
    exact List.perm_append_comm_assoc _ _ _
  · dsimp only at hb ⊢
    rw [List.flatten_append, List.mem_append] at hb
    rcases hb with hb | hb
    · exact (hkeeps b hb).2 (hs.fits b hb)
    · exact hf b (by simpa using hb)
  · rcases List.mem_append.mp hm with hm | hm
    · exact hs.whole m hm
    · rw [List.mem_singleton.mp hm]
      exact hne
  · unfold contents
    rw [List.map_append, List.map_singleton]
    congr 1
    refine List.map_congr_left fun m hm => ?_
    exact (hkeeps.mono fun b hb => List.mem_flatten.mpr ⟨m, hm, hb⟩).content

lemma push (hs : s.Sane) (hne : m' ≠ [])
    (hc : mem'.Counted (Msg.refs m' ++ Msg.refs (s.held.flatten ++ s.pool)))
    (hf : ∀ b ∈ m', mem'.Fits b)
    (hsame : Memory.SameBytes (Msg.refs (s.held.flatten ++ s.pool)) s.mem mem') :
    (s.push m' mem').Sane ∧ (s.push m' mem').contents = s.contents ++ [mem'.content m'] := by
  apply hs.push_pool hne hc hf hs.unused hs.distinct
  rw [Msg.refs_append] at hsame
  exact hsame.mono (List.subset_append_left _ _)

/-- One message becomes another one, while the others keep their bytes. -/
lemma replace (hs : s.Sane) (hi : i < s.held.length) (hne : m' ≠ [])
    (hc : mem'.Counted (Msg.refs m' ++ Msg.refs (s.others i)))
    (hf : ∀ b ∈ m', mem'.Fits b) (hkeeps : Memory.Keeps (s.others i) s.mem mem') :
    (s.replace i m' mem').Sane ∧
      (s.replace i m' mem').contents = s.contents.set i (mem'.content m') := by
  have hother : ∀ b ∈ (s.held.eraseIdx i).flatten, b ∈ s.others i :=
    fun b hb => List.mem_append_left _ hb
  unfold Store.replace
  refine ⟨⟨hc.perm ?_, fun b hb => ?_, hs.unused, hs.distinct, fun m₁ hm₁ => ?_⟩, ?_⟩
  · rw [← Msg.refs_append]
    apply refs_perm
    unfold others
    rw [← List.append_assoc]
    exact ((List.set_perm_cons_eraseIdx hi m').symm.flatten).append_right s.pool
  · have hb' := (List.set_perm_cons_eraseIdx hi m').flatten.mem_iff.mp hb
    rw [List.flatten_cons, List.mem_append] at hb'
    rcases hb' with hb' | hb'
    · exact hf b hb'
    · refine (hkeeps b (hother b hb')).2 (hs.fits b ?_)
      obtain ⟨m₁, hm₁, hb₁⟩ := List.mem_flatten.mp hb'
      exact List.mem_flatten.mpr ⟨m₁, List.mem_of_mem_eraseIdx hm₁, hb₁⟩
  · rcases List.mem_or_eq_of_mem_set hm₁ with hm₁ | rfl
    · exact hs.whole m₁ hm₁
    · exact hne
  · unfold contents
    rw [List.map_set]
    refine List.ext_getElem? fun k => ?_
    by_cases hk : i = k
    · simp [hk, List.getElem?_set]
    · rw [List.getElem?_set_ne hk, List.getElem?_set_ne hk, List.getElem?_map, List.getElem?_map]
      cases hmk : s.held[k]? with
      | none => rfl
      | some m₁ =>
        rw [Option.map_some, Option.map_some]
        congr 1
        refine (hkeeps.mono fun b hb => hother b (List.mem_flatten.mpr ⟨m₁, ?_, hb⟩)).content
        exact List.mem_eraseIdx_iff_getElem?.mpr ⟨k, Ne.symm hk, hmk⟩

lemma contents_getD (hm : s.held[i]? = some m) : s.contents.getD i [] = s.mem.content m := by
  rw [contents, List.getD_eq_getElem?_getD, List.getElem?_map, hm]
  rfl

lemma exists_held (hi : i < s.held.length) : ∃ m, s.held[i]? = some m :=
  ⟨s.held[i], List.getElem?_eq_getElem hi⟩

/-- The message goes, while the others keep their bytes. -/
lemma erase (hs : s.Sane) (hc : mem'.Counted (Msg.refs (s.others i)))
    (hkeeps : Memory.Keeps (s.others i) s.mem mem') :
    ({ s with mem := mem', held := s.held.eraseIdx i } : Store).Sane ∧
      ({ s with mem := mem', held := s.held.eraseIdx i } : Store).contents =
        s.contents.eraseIdx i := by
  refine ⟨⟨hc, fun b hb => ?_, hs.unused, hs.distinct, fun m₁ hm₁ => ?_⟩, ?_⟩
  · apply (hkeeps b (List.mem_append_left _ hb)).2
    obtain ⟨m₁, hm₁, hb₁⟩ := List.mem_flatten.mp hb
    exact hs.fits b (List.mem_flatten.mpr ⟨m₁, List.mem_of_mem_eraseIdx hm₁, hb₁⟩)
  · exact hs.whole m₁ (List.mem_of_mem_eraseIdx hm₁)
  · rw [contents, contents, List.eraseIdx_map]
    refine List.map_congr_left fun m₁ hm₁ => ?_
    apply Memory.Keeps.content
    exact hkeeps.mono fun b hb => List.mem_append_left _ (List.mem_flatten.mpr ⟨m₁, hm₁, hb⟩)

/-- One message becomes the end of another one. -/
lemma concat (hs : s.Sane) {j : ℕ} {newm : Msg} (hm : s.held[i]? = some m)
    (hnewm : s.held[j]? = some newm) (hne : i ≠ j) :
    ({ s with held := (s.held.set i (m ++ newm)).eraseIdx j } : Store).Sane ∧
      ({ s with held := (s.held.set i (m ++ newm)).eraseIdx j } : Store).contents =
        (s.contents.set i (s.mem.content m ++ s.mem.content newm)).eraseIdx j := by
  obtain ⟨hi, rfl⟩ := List.getElem?_eq_some_iff.mp hm
  obtain ⟨hj, rfl⟩ := List.getElem?_eq_some_iff.mp hnewm
  have hj' : j < (s.held.set i (s.held[i] ++ s.held[j])).length := by rwa [List.length_set]
  have hperm : ((s.held.set i (s.held[i] ++ s.held[j])).eraseIdx j).flatten.Perm
      s.held.flatten := by
    apply (List.perm_append_left_iff s.held[j]).mp
    have hset := (List.set_perm_cons_eraseIdx hi (s.held[i] ++ s.held[j])).flatten
    have herase := (List.getElem_cons_eraseIdx_perm hj').flatten
    rw [List.getElem_set_ne hne, List.flatten_cons] at herase
    rw [List.flatten_cons] at hset
    refine herase.trans (hset.trans ?_)
    rw [List.append_assoc]
    refine (List.perm_append_comm_assoc _ _ _).trans (List.Perm.append_left _ ?_)
    rw [← List.flatten_cons]
    exact (List.getElem_cons_eraseIdx_perm hi).flatten
  refine ⟨⟨hs.counted.perm (refs_perm (hperm.symm.append_right s.pool)),
    fun b hb => hs.fits b (hperm.mem_iff.mp hb), hs.unused, hs.distinct, fun m₁ hm₁ => ?_⟩, ?_⟩
  · rcases List.mem_or_eq_of_mem_set (List.mem_of_mem_eraseIdx hm₁) with hm₁ | rfl
    · exact hs.whole m₁ hm₁
    · exact List.append_ne_nil_of_left_ne_nil (hs.whole _ (List.getElem_mem hi)) _
  · rw [contents, contents, ← List.eraseIdx_map, List.map_set, Memory.content_append]

/-- The last block of a message that is alone behind its data. -/
lemma counted_alone (hs : s.Sane) {init : Msg} {mp : Mblk} (h : s.Alone i init mp) :
    s.mem.Counted (mp.datap :: (Msg.refs init ++ Msg.refs (s.others i))) := by
  refine (hs.counted_others h.1).perm ?_
  rw [Msg.refs_append, Msg.refs_cons, Msg.refs_nil, List.append_assoc]
  exact List.perm_middle

lemma datap_mem {init : Msg} {mp : Mblk} {b : Mblk} (hb : b ∈ init ++ s.others i) :
    b.datap ∈ mp.datap :: (Msg.refs init ++ Msg.refs (s.others i)) := by
  rw [← Msg.refs_append]
  exact List.mem_cons_of_mem _ (List.mem_map_of_mem hb)

/-- The last block of a message grows, while all others keep their bytes. -/
lemma grow (hs : s.Sane) {init c : Msg} {mp : Mblk} {more : List Byte} (h : s.Alone i init mp)
    (hne : c ≠ []) (hc : mem'.Counted (Msg.refs c ++ (Msg.refs init ++ Msg.refs (s.others i))))
    (hbytes : mem'.content c = s.mem.bytes mp ++ more) (hf : ∀ b ∈ c, mem'.Fits b)
    (hkeeps : Memory.Keeps (init ++ s.others i) s.mem mem') :
    (s.replace i (init ++ c) mem').Sane ∧ (s.replace i (init ++ c) mem').contents =
      s.contents.set i (s.contents.getD i [] ++ more) := by
  have hi : i < s.held.length := (List.getElem?_eq_some_iff.mp h.1).1
  have hinit : Memory.Keeps init s.mem mem' := hkeeps.mono (List.subset_append_left _ _)
  obtain ⟨hs', hl⟩ := hs.replace hi (List.append_ne_nil_of_right_ne_nil init hne)
    (hc.perm (by
      rw [Msg.refs_append, List.append_assoc]
      exact List.perm_append_comm_assoc _ _ _))
    (fun b hb => by
      rcases List.mem_append.mp hb with hb | hb
      · apply (hinit b hb).2
        exact hs.fits_of_getElem h.1 b (List.mem_append_left _ hb)
      · exact hf b hb)
    (hkeeps.mono (List.subset_append_right _ _))
  refine ⟨hs', ?_⟩
  rw [hl, contents_getD h.1, Memory.content_append, hinit.content, hbytes, Memory.content_append,
    Memory.content_cons, Memory.content_nil, List.append_nil, List.append_assoc]

/-- The read pointer of a first block goes on. -/
lemma skip (hs : s.Sane) {mp : Mblk} {cont : Msg} {n : ℕ} (hm : s.held[i]? = some (mp :: cont))
    (h : mp.rptr + n ≤ mp.wptr) :
    (s.replace i (⟨mp.datap, mp.rptr + n, mp.wptr, mp.reserved1, mp.reserved2, h⟩ :: cont)
      s.mem).Sane ∧
    (s.replace i (⟨mp.datap, mp.rptr + n, mp.wptr, mp.reserved1, mp.reserved2, h⟩ :: cont)
      s.mem).contents = s.contents.set i ((s.contents.getD i []).drop n) := by
  have hi : i < s.held.length := (List.getElem?_eq_some_iff.mp hm).1
  have hfits := hs.fits_of_getElem hm
  have hcounted := hs.counted_others hm
  obtain ⟨hs', hl⟩ := hs.replace hi
    (List.cons_ne_nil ⟨mp.datap, mp.rptr + n, mp.wptr, mp.reserved1, mp.reserved2, h⟩ cont) hcounted
    (fun b hb => by
      rcases List.mem_cons.mp hb with rfl | hb
      · exact hfits mp List.mem_cons_self
      · exact hfits b (List.mem_cons_of_mem mp hb))
    (fun b hb => ⟨rfl, fun hf => hf⟩)
  refine ⟨hs', ?_⟩
  have hlength := length_bytes hcounted (List.mem_append_left _ List.mem_cons_self)
    (hfits mp List.mem_cons_self)
  rw [hl, contents_getD hm, Memory.content_cons, Memory.content_cons,
    List.drop_append_of_le_length (by omega), bytes_eq_drop, bytes_eq_drop, List.drop_drop]

end Store.Sane

lemma padcnt_le (db : Datab) (mp : Mblk) (size : ℕ) (pad : Bool) :
    padcnt db mp size pad ≤ if pad then 3 else 0 := by
  unfold padcnt
  split_ifs
  · omega
  · omega

/-- One proper action does to the bytes what it means. -/
theorem Store.refines (a : Malloc) : Refinements.Refines (Store.step a) Store.Proper Store.Sane
    Store.contents fun x l l' => ∃ k ≤ x.padding, l' = x.meaning k l := by
  intro s x hs hx
  cases x with
  | alloc size =>
    obtain ⟨hc, hnew, ⟨db, hdb, hsize⟩, hsame⟩ := allocb_spec hs.counted a size
    obtain ⟨hs', hl⟩ := hs.push (List.cons_ne_nil (allocb a size s.mem).1 []) hc
      (by simp [Memory.Fits, allocb]) hsame
    refine ⟨_, rfl, hs', 0, le_rfl, ?_⟩
    rw [hl]
    simp [Action.meaning, allocb]
  | wrap base buf freefn =>
    obtain ⟨hc, hsame⟩ := hs.counted.add (show (⟨base, buf, freefn, 1⟩ : Datab).ref = 1 from rfl)
    have hnew : (s.mem.add ⟨base, buf, freefn, 1⟩).datab s.mem.next = some ⟨base, buf, freefn, 1⟩ :=
      Function.update_self _ _ _
    obtain ⟨hs', hl⟩ := hs.push
      (List.cons_ne_nil ⟨s.mem.next, 0, buf.length, 0, 0, Nat.zero_le _⟩ []) hc
      (by simp [Memory.Fits, hnew]) hsame
    refine ⟨_, rfl, hs', 0, le_rfl, hl.trans ?_⟩
    simp [Action.meaning, Memory.bytes, hnew]
  | free i =>
    obtain ⟨m, hm⟩ := Sane.exists_held hx
    obtain ⟨mem', hfree, hc, hsame⟩ := freemsg_spec (hs.counted_others hm)
    obtain ⟨hs', hl⟩ := hs.erase hc (hsame.keeps fun b hb => List.mem_map_of_mem hb)
    refine ⟨_, ?_, hs', 0, le_rfl, hl⟩
    rw [step, hm, Option.bind_some, hfree]
    rfl
  | dup i => 
    obtain ⟨m, hm⟩ := Sane.exists_held hx
    obtain ⟨mem', hdup, hc, hsame⟩ := dupmsg_spec hs.counted (Sane.refs_subset hm)
    have hkeeps : Memory.Keeps m s.mem mem' :=
      hsame.keeps fun b hb => Sane.refs_subset hm (List.mem_map_of_mem hb)
    obtain ⟨hs', hl⟩ := hs.push (hs.whole m (List.mem_of_getElem? hm)) hc
      (fun b hb => (hkeeps b hb).2 (hs.fits_of_getElem hm b hb)) hsame
    refine ⟨_, ?_, hs', 0, le_rfl, ?_⟩
    · rw [step, hm, Option.bind_some, hdup]
      rfl
    · rw [hl, Action.meaning, Sane.contents_getD hm, hkeeps.content]
  | copy i =>
    obtain ⟨m, hm⟩ := Sane.exists_held hx
    obtain ⟨m', mem', hcopy, hc, hlength, hbytes, hfits, hsame⟩ :=
      copymsg_spec (a := a) hs.counted (Sane.refs_subset hm) (hs.fits_of_getElem hm)
    have hne : m' ≠ [] := by
      apply List.ne_nil_of_length_pos
      rw [hlength]
      exact List.length_pos_of_ne_nil (hs.whole m (List.mem_of_getElem? hm))
    obtain ⟨hs', hl⟩ := hs.push hne hc hfits hsame
    refine ⟨_, ?_, hs', 0, le_rfl, ?_⟩
    · rw [step, hm, Option.bind_some, hcopy]
      rfl
    · rw [hl, Action.meaning, Sane.contents_getD hm, hbytes]
  | pullup i len =>
    obtain ⟨m, hm⟩ := Sane.exists_held hx
    obtain ⟨m', mem', hpullup, hne, hc, hbytes, hfits, hsame⟩ :=
      msgpullup_spec (a := a) (hs.counted_others hm) (hs.whole m (List.mem_of_getElem? hm))
        (hs.fits_of_getElem hm) len
    obtain ⟨hs', hl⟩ := hs.replace hx hne hc hfits
      (hsame.keeps fun b hb => List.mem_map_of_mem hb)
    refine ⟨_, ?_, hs', 0, le_rfl, ?_⟩
    · rw [step, hm, Option.bind_some, hpullup]
      rfl
    · rw [hl, Action.meaning, Sane.contents_getD hm, hbytes]
  | append i data pad =>
    obtain ⟨init, mp, halone, hroom⟩ := hx
    have hcounted := hs.counted_alone halone
    obtain ⟨db, hdb⟩ := hcounted.exists_datab List.mem_cons_self
    obtain ⟨c, mem', happend, hne, hc, hbytes, hfits, hkeeps⟩ := appendb_spec (a := a) hcounted hdb
      (hs.fits_of_getElem halone.1 mp (by simp)) (hroom db hdb) (fun b hb => Sane.datap_mem hb)
      halone.2
    rw [List.append_assoc] at hbytes
    obtain ⟨hs', hl⟩ := hs.grow halone hne hc hbytes hfits hkeeps
    refine ⟨_, ?_, hs', padcnt db mp data.length pad, ?_, ?_⟩
    · rw [step, halone.1, Option.bind_some, msgappend_append, happend]
      rfl
    · refine (padcnt_le db mp data.length pad).trans ?_
      cases pad
      · exact le_rfl
      · exact le_rfl
    · rw [hl, Action.meaning, List.append_assoc]
  | concat i j =>
    obtain ⟨hi, hj, hne⟩ := hx
    obtain ⟨m, hm⟩ := Sane.exists_held hi
    obtain ⟨newm, hnewm⟩ := Sane.exists_held hj
    obtain ⟨hs', hl⟩ := hs.concat hm hnewm hne
    refine ⟨_, ?_, hs', 0, le_rfl, ?_⟩
    · rw [step, hm, Option.bind_some, hnewm]
      rfl
    · rw [hl, Action.meaning, Sane.contents_getD hm, Sane.contents_getD hnewm]
  | skip i n =>
    obtain ⟨mp, cont, hm, hle⟩ := hx
    obtain ⟨hs', hl⟩ := hs.skip hm hle
    refine ⟨_, ?_, hs', 0, le_rfl, hl⟩
    rw [step, hm, Option.bind_some, Store.skip, dif_pos hle]
    rfl
  | poolAlloc size =>
    have hcounted := hs.counted.perm (Sane.refs_perm List.perm_append_comm)
    rw [Msg.refs_append] at hcounted
    obtain ⟨mp, q, mem', halloc, hc, hq, hdistinct, -, hempty, -, -, hsame⟩ :=
      msgbAllocatorAlloc_spec (a := a) hcounted hs.unused hs.distinct size
    obtain ⟨hs', hl⟩ := hs.push_pool (List.cons_ne_nil mp []) (hc.perm (by
        rw [Msg.refs_append, Msg.refs_cons, Msg.refs_nil, List.cons_append, List.nil_append]
        exact List.perm_middle.trans (List.perm_append_comm.cons _)))
      (by simp [Memory.Fits, hempty]) hq hdistinct (hsame.mono (List.subset_append_right _ _))
    refine ⟨_, ?_, hs', 0, le_rfl, ?_⟩
    · rw [step, halloc]
      rfl
    · have hle := mp.le
      rw [hl, Memory.content_cons, Memory.content_nil, Memory.bytes_of_empty _ (by omega)]
      rfl
  | write i data =>
    obtain ⟨init, mp, halone, hroom⟩ := hx
    have hcounted := hs.counted_alone halone
    obtain ⟨db, hdb⟩ := hcounted.exists_datab List.mem_cons_self
    obtain ⟨mp', mem', hput, hc, hdatap, hbytes, hfits, hkeeps, -⟩ :=
      putBytes_spec mp data _ hcounted hdb (hroom db hdb) halone.2
    obtain ⟨hs', hl⟩ := hs.grow halone (List.cons_ne_nil mp' []) (by
        rw [← hdatap] at hc
        exact hc) (by simpa using hbytes) (by simpa using hfits) hkeeps
    refine ⟨_, ?_, hs', 0, le_rfl, hl⟩
    rw [step, halone.1, Option.bind_some, List.getLast?_concat, Option.bind_some, hput,
      List.dropLast_concat]
    rfl

namespace Store

lemma start_sane : start.Sane where
  counted := .of_empty
  fits := by simp [start]
  unused := by simp [start]
  distinct := by simp [start]
  whole := by simp [start]

/-- Memory that is handed out filled with zeros, eight bytes after the other. -/
def zeroed : Malloc where
  base d _ := 8 * d
  bytes _ size := List.replicate size 0
  length_bytes _ _ := List.length_replicate

/-- A message is made around a buffer, it is duplicated, its first copy is freed, and the second one
is appended to. -/
def copyRun : List Action := [.wrap 0 [1, 2] none, .dup 0, .free 0, .append 0 [3] true]

lemma copyRun_guarded : Refinements.Guarded (step zeroed) Proper start copyRun := by
  refine .cons trivial rfl (.cons Nat.one_pos rfl (.cons Nat.two_pos rfl (.cons ?_ rfl trivial)))
  refine ⟨[], ⟨0, 0, 2, 0, 0, Nat.zero_le 2⟩, ⟨rfl, fun b hb => ?_⟩, fun db hdb => ?_⟩
  · cases hb
  · cases hdb
    exact .inr le_rfl

/-- Messages behave as lists of bytes in every run of proper actions: none of them touches a block
that is gone or writes behind the end of one, exactly the blocks are there that a message or the
pool refers to, and each of the others has been freed once. -/
theorem messages_are_bytes (a : Malloc) (xs : List Action)
    (h : Refinements.Guarded (step a) Proper start xs) :
    ∃ s, Refinements.run (step a) start xs = some s ∧
      Refinements.Means (fun x l l' => ∃ k ≤ x.padding, l' = x.meaning k l) xs [] s.contents ∧
      s.mem.Counted (Msg.refs (s.held.flatten ++ s.pool)) := by
  obtain ⟨s, hrun, hs, hmeans⟩ := (refines a).run start_sane h
  exact ⟨s, hrun, hmeans, hs.counted⟩

theorem messages_are_bytes_copyRun : ∃ s, Refinements.run (step zeroed) start copyRun = some s ∧
    Refinements.Means (fun x l l' => ∃ k ≤ x.padding, l' = x.meaning k l) copyRun [] s.contents ∧
    s.mem.Counted (Msg.refs (s.held.flatten ++ s.pool)) :=
  messages_are_bytes zeroed copyRun copyRun_guarded

/-- After every run the allocator gives a block that no message refers to, and it makes a new one
only when the messages refer to each block of the pool that is large enough. -/
theorem allocator_reuses (a : Malloc) (xs : List Action)
    (h : Refinements.Guarded (step a) Proper start xs) :
    ∃ s, Refinements.run (step a) start xs = some s ∧ ∀ size, ∃ mp q mem',
      msgbAllocatorAlloc a size s.pool s.mem = some (mp, q, mem') ∧ mp.rptr = 0 ∧ mp.wptr = 0 ∧
      (∃ db, mem'.datab mp.datap = some db ∧ size ≤ db.bytes.length) ∧
      mp.datap ∉ Msg.refs s.held.flatten ∧
      (q = s.pool ∧ mp ∈ s.pool ∨ q = s.pool ++ [mp] ∧
        ∀ b ∈ s.pool, ∀ db, s.mem.datab b.datap = some db → size ≤ db.bytes.length →
          b.datap ∈ Msg.refs s.held.flatten) := by
  obtain ⟨s, hrun, hs, -⟩ := (refines a).run start_sane h
  refine ⟨s, hrun, fun size => ?_⟩
  have hcounted := hs.counted.perm (Sane.refs_perm List.perm_append_comm)
  rw [Msg.refs_append] at hcounted
  obtain ⟨mp, q, mem', halloc, -, -, -, hpool, hwptr, hfree, hsize, -⟩ :=
    msgbAllocatorAlloc_spec (a := a) hcounted hs.unused hs.distinct size
  have hle := mp.le
  refine ⟨mp, q, mem', halloc, by omega, hwptr, hsize, hfree, hpool.imp_right fun ⟨hq, hnone⟩ => ?_⟩
  exact ⟨hq, fun b hb db hdb => findUnused_eq_none hcounted hs.distinct hnone hb hdb⟩

theorem allocator_reuses_copyRun :
    ∃ s, Refinements.run (step zeroed) start copyRun = some s ∧ ∀ size, ∃ mp q mem',
      msgbAllocatorAlloc zeroed size s.pool s.mem = some (mp, q, mem') ∧ mp.rptr = 0 ∧
      mp.wptr = 0 ∧ (∃ db, mem'.datab mp.datap = some db ∧ size ≤ db.bytes.length) ∧
      mp.datap ∉ Msg.refs s.held.flatten ∧
      (q = s.pool ∧ mp ∈ s.pool ∨ q = s.pool ++ [mp] ∧
        ∀ b ∈ s.pool, ∀ db, s.mem.datab b.datap = some db → size ≤ db.bytes.length →
          b.datap ∈ Msg.refs s.held.flatten) :=
  allocator_reuses zeroed copyRun copyRun_guarded

/-- After every run `msgappend` writes behind the end of a block exactly when it pads and neither
the last block of the message nor a new one has room for the data and the zeros. -/
theorem append_overflows_iff (a : Malloc) (xs : List Action)
    (h : Refinements.Guarded (step a) Proper start xs) :
    ∃ s, Refinements.run (step a) start xs = some s ∧ ∀ i m, s.held[i]? = some m →
      ∃ mp db, m.getLast? = some mp ∧ s.mem.datab mp.datap = some db ∧ ∀ data pad,
        step a s (.append i data pad) = none ↔ pad = true ∧
          db.bytes.length < mp.wptr + data.length + padcnt db mp data.length true ∧
          max db.bytes.length data.length < data.length + padcnt db mp data.length true := by
  obtain ⟨s, hrun, hs, -⟩ := (refines a).run start_sane h
  refine ⟨s, hrun, fun i m hm => ?_⟩
  obtain ⟨init, mp, rfl⟩ :=
    (List.eq_nil_or_concat' m).resolve_left (hs.whole m (List.mem_of_getElem? hm))
  obtain ⟨db, hdb⟩ := hs.counted.exists_datab
    (Sane.refs_subset hm (show mp.datap ∈ Msg.refs (init ++ [mp]) by simp))
  refine ⟨mp, db, List.getLast?_concat, hdb, fun data pad => ?_⟩
  rw [step, hm, Option.bind_some, msgappend_append, Option.map_map, Option.map_eq_none_iff,
    appendb_eq_none_iff hdb, Room]
  cases pad with
  | true => simp
  | false =>
    have hzero : padcnt db mp data.length false = 0 := rfl
    simp [hzero]

/-- A new block of three bytes has no room for the zero behind them. -/
example : Refinements.run (step zeroed) start [.alloc 2, .append 0 [1, 2, 3] true] = none := rfl

theorem append_overflows_iff_copyRun :
    ∃ s, Refinements.run (step zeroed) start copyRun = some s ∧ ∀ i m, s.held[i]? = some m →
      ∃ mp db, m.getLast? = some mp ∧ s.mem.datab mp.datap = some db ∧ ∀ data pad,
        step zeroed s (.append i data pad) = none ↔ pad = true ∧
          db.bytes.length < mp.wptr + data.length + padcnt db mp data.length true ∧
          max db.bytes.length data.length < data.length + padcnt db mp data.length true :=
  append_overflows_iff zeroed copyRun copyRun_guarded

end Store

end MTalk.Blocks
