import MTalk.Blocks.Messages
import MTalk.Library.WhileLoop
import MTalk.Library.Refinements

/-!
# Bufferizers

`MSBufferizer` of `msqueue.c`: messages are put in, and any number of bytes is read as soon as there
are as many. Between two calls the rest of the program works on the same memory.
-/

namespace MTalk.Blocks

structure MSBufferizer where
  q : List Msg
  size : ℕ

/-- Why a loop gives no result: it has not come to an end so far, or it follows a null pointer,
uses a block that is gone or writes behind the end of one. -/
inductive Stop
  | running
  | fault
deriving DecidableEq

/-- Inside the loop of `ms_bufferizer_read`: the bytes copied so far, the blocks of the first
message that the loop has left behind and those from `m` on, and the messages behind the first one.
-/
structure Reading where
  data : List Byte
  passed : Msg
  m : Msg
  behind : List Msg
  mem : Memory

namespace MSBufferizer

def init : MSBufferizer := ⟨[], 0⟩

def put (obj : MSBufferizer) (m : Msg) : MSBufferizer := ⟨obj.q ++ [m], obj.size + msgdsize m⟩

def putFromQueue (obj : MSBufferizer) (q : List Msg) : MSBufferizer := q.foldl put obj

end MSBufferizer

/-- The block with the read pointer moved over at most `n` bytes. -/
def Mblk.consume (mp : Mblk) (n : ℕ) : Mblk :=
  ⟨mp.datap, mp.rptr + min (mp.wptr - mp.rptr) n, mp.wptr, mp.reserved1, mp.reserved2, by
    have hle := mp.le
    omega⟩

namespace Reading

def start (q : List Msg) (mem : Memory) : Reading := ⟨[], [], q.headD [], q.tail, mem⟩

/-- The queue that the loop leaves. -/
def queue (s : Reading) : List Msg := if s.m = [] then s.behind else (s.passed ++ s.m) :: s.behind

/-- One iteration of the loop. -/
def body (datalen : ℕ) (s : Reading) : Except Stop (Option Reading) :=
  if s.data.length < datalen then
    match s.m with
    | [] => .error .fault
    | m :: cont =>
      if (s.mem.datab m.datap).isNone then .error .fault
      else
        let sz := s.data.length
        let data := s.data ++ (s.mem.bytes m).take (datalen - sz)
        let m' := m.consume (datalen - sz)
        if m'.rptr = m'.wptr then
          if cont = [] then
            match freemsg (s.passed ++ [m']) s.mem with
            | none => .error .fault
            | some mem => .ok (some ⟨data, [], s.behind.headD [], s.behind.tail, mem⟩)
          else .ok (some { s with data := data, passed := s.passed ++ [m'], m := cont })
        else .ok (some { s with data := data, m := m' :: cont })
  else .ok none

/-- How often the loop can iterate at most. -/
def measure (datalen : ℕ) (s : Reading) : ℕ :=
  s.m.length + s.behind.flatten.length + (datalen - s.data.length)

end Reading

/-- `ms_bufferizer_read`: the number of bytes returned, these bytes, the bufferizer and the
memory. -/
def MSBufferizer.read (obj : MSBufferizer) (datalen : ℕ) (mem : Memory) :
    Option (ℕ × List Byte × MSBufferizer × Memory) :=
  if datalen ≤ obj.size then
    (WhileLoop.run .running (Reading.body datalen)
      ((Reading.start obj.q mem).measure datalen + 1)
      (Reading.start obj.q mem)).toOption.map fun s =>
        (datalen, s.data, ⟨s.queue, obj.size - datalen⟩, s.mem)
  else some (0, [], obj, mem)

lemma bytes_consume (mem : Memory) (mp : Mblk) (n : ℕ) :
    mem.bytes (mp.consume n) = (mem.bytes mp).drop n := by
  rw [bytes_eq_drop, bytes_eq_drop, List.drop_drop]
  unfold Mblk.consume
  dsimp only
  rcases le_total (mp.wptr - mp.rptr) n with hle | hle
  · rw [min_eq_left hle, List.drop_of_length_le, List.drop_of_length_le]
    · rw [List.length_take]
      omega
    · rw [List.length_take]
      omega
  · rw [min_eq_right hle]

namespace Reading

/-- What has been copied and what is left make up what there was, the blocks left behind are empty,
and the references are counted. -/
structure Inv (mem₀ : Memory) (ds : List ℕ) (all : List Byte) (datalen : ℕ) (s : Reading) :
    Prop where
  enough : datalen ≤ all.length
  le : s.data.length ≤ datalen
  split : s.data ++ (s.mem.content s.m ++ s.mem.content s.behind.flatten) = all
  empty : ∀ b ∈ s.passed, b.rptr = b.wptr
  counted : s.mem.Counted (Msg.refs (s.passed ++ s.m ++ s.behind.flatten) ++ ds)
  fits : ∀ b ∈ s.passed ++ s.m ++ s.behind.flatten, s.mem.Fits b
  whole : ∀ m ∈ s.behind, m ≠ []
  last : s.m = [] → s.passed = [] ∧ s.behind = []
  same : Memory.SameBytes ds mem₀ s.mem

variable {mem₀ : Memory} {ds : List ℕ} {all : List Byte} {datalen : ℕ} {s : Reading}

lemma headD_append_flatten_tail (q : List Msg) : q.headD [] ++ q.tail.flatten = q.flatten := by
  cases q with
  | nil => rfl
  | cons m q => rfl

namespace Inv

/-- The loop does not meet the end of the messages before it has read enough. -/
lemma exists_m (h : Inv mem₀ ds all datalen s) (hless : s.data.length < datalen) :
    ∃ m cont, s.m = m :: cont := by
  apply List.exists_cons_of_ne_nil
  intro hnil
  have hsplit := h.split
  rw [hnil, (h.last hnil).2] at hsplit
  have hlength := congrArg List.length hsplit
  have henough := h.enough
  simp at hlength
  omega

variable {m : Mblk} {cont : Msg}

lemma length_bytes (h : Inv mem₀ ds all datalen s) (hm : s.m = m :: cont) :
    (s.mem.bytes m).length = m.wptr - m.rptr := by
  apply Blocks.length_bytes h.counted
  · rw [hm]
    simp
  · apply h.fits
    rw [hm]
    simp

/-- What is read of a block goes over to the data. -/
lemma split_consume (h : Inv mem₀ ds all datalen s) (hm : s.m = m :: cont) (k : ℕ) :
    s.data ++ (s.mem.bytes m).take k ++ (s.mem.bytes (m.consume k) ++
      (s.mem.content cont ++ s.mem.content s.behind.flatten)) = all := by
  rw [← h.split, hm, bytes_consume, Memory.content_cons]
  simp only [List.append_assoc]
  rw [← List.append_assoc (List.take k _), List.take_append_drop]

lemma length_data (h : Inv mem₀ ds all datalen s) (hm : s.m = m :: cont) :
    (s.data ++ (s.mem.bytes m).take (datalen - s.data.length)).length =
      s.data.length + min (datalen - s.data.length) (m.wptr - m.rptr) := by
  rw [List.length_append, List.length_take, h.length_bytes hm]

lemma fits_consume (h : Inv mem₀ ds all datalen s) (hm : s.m = m :: cont) (k : ℕ) :
    s.mem.Fits (m.consume k) := by
  apply h.fits m
  rw [hm]
  simp

/-- The loop goes on in the same block. -/
lemma stay (h : Inv mem₀ ds all datalen s) (hm : s.m = m :: cont) :
    Inv mem₀ ds all datalen { s with
      data := s.data ++ (s.mem.bytes m).take (datalen - s.data.length)
      m := m.consume (datalen - s.data.length) :: cont } where
  enough := h.enough
  le := by
    rw [h.length_data hm]
    have hle := h.le
    omega
  split := by
    rw [Memory.content_cons, List.append_assoc (s.mem.bytes _)]
    exact h.split_consume hm _
  empty := h.empty
  counted := by
    have hcounted := h.counted
    rw [hm] at hcounted
    simpa [Mblk.consume] using hcounted
  fits := by
    intro b hb
    have hfits := h.fits b
    rw [hm] at hfits
    simp only [List.mem_append, List.mem_cons] at hb hfits
    rcases hb with (hb | rfl | hb) | hb
    · exact hfits (.inl (.inl hb))
    · exact h.fits_consume hm _
    · exact hfits (.inl (.inr (.inr hb)))
    · exact hfits (.inr hb)
  whole := h.whole
  last := by simp
  same := h.same

/-- The loop goes on in the next block of the message. -/
lemma advance (h : Inv mem₀ ds all datalen s) (hm : s.m = m :: cont) (hcont : cont ≠ [])
    (hend : (m.consume (datalen - s.data.length)).rptr =
      (m.consume (datalen - s.data.length)).wptr) :
    Inv mem₀ ds all datalen { s with
      data := s.data ++ (s.mem.bytes m).take (datalen - s.data.length)
      passed := s.passed ++ [m.consume (datalen - s.data.length)]
      m := cont } where
  enough := h.enough
  le := (h.stay hm).le
  split := by
    have hsplit := (h.stay hm).split
    rw [Memory.content_cons, Memory.bytes_of_empty _ hend] at hsplit
    exact hsplit
  empty := by
    intro b hb
    rcases List.mem_append.mp hb with hb | hb
    · exact h.empty b hb
    · rw [List.mem_singleton.mp hb]
      exact hend
  counted := by
    have hcounted := (h.stay hm).counted
    simpa using hcounted
  fits := by
    intro b hb
    apply (h.stay hm).fits b
    simpa using hb
  whole := h.whole
  last := fun hnil => absurd hnil hcont
  same := h.same

/-- The message is freed and the loop goes on in the next one. -/
lemma leave (h : Inv mem₀ ds all datalen s) (hm : s.m = [m])
    (hend : (m.consume (datalen - s.data.length)).rptr =
      (m.consume (datalen - s.data.length)).wptr) :
    ∃ mem, freemsg (s.passed ++ [m.consume (datalen - s.data.length)]) s.mem = some mem ∧
      Inv mem₀ ds all datalen ⟨s.data ++ (s.mem.bytes m).take (datalen - s.data.length), [],
        s.behind.headD [], s.behind.tail, mem⟩ := by
  have hstay := h.stay hm
  have hcounted := hstay.counted
  dsimp only at hcounted
  rw [Msg.refs_append, List.append_assoc] at hcounted
  obtain ⟨mem, hfree, hc, hsame⟩ := freemsg_spec hcounted
  have hkeeps : Memory.Keeps s.behind.flatten s.mem mem :=
    hsame.keeps fun b hb => List.mem_append_left _ (List.mem_map_of_mem hb)
  refine ⟨mem, hfree, h.enough, hstay.le, ?_, by simp, ?_, ?_, ?_, ?_, ?_⟩
  · have hsplit := hstay.split
    dsimp only at hsplit ⊢
    rw [Memory.content_cons, Memory.bytes_of_empty _ hend, Memory.content_nil, List.nil_append,
      List.nil_append] at hsplit
    rw [← Memory.content_append, headD_append_flatten_tail, hkeeps.content]
    exact hsplit
  · dsimp only
    rw [List.nil_append, headD_append_flatten_tail]
    exact hc
  · intro b hb
    dsimp only at hb
    rw [List.nil_append, headD_append_flatten_tail] at hb
    exact (hkeeps b hb).2 (h.fits b (List.mem_append_right _ hb))
  · exact fun b hb => h.whole b (List.mem_of_mem_tail hb)
  · intro hnil
    cases hbehind : s.behind with
    | nil => exact ⟨rfl, rfl⟩
    | cons next behind =>
      dsimp only at hnil
      rw [hbehind, List.headD_cons] at hnil
      exact absurd hnil (h.whole next (hbehind ▸ List.mem_cons_self))
  · exact h.same.trans (hsame.mono (List.subset_append_right _ _))

/-- As long as there is more to read an iteration keeps the invariant and comes closer to the end.
-/
lemma exists_iteration (h : Inv mem₀ ds all datalen s) (hless : s.data.length < datalen) :
    ∃ s', WhileLoop.Iteration (body datalen) s s' ∧ Inv mem₀ ds all datalen s' ∧
      s'.measure datalen < s.measure datalen := by
  obtain ⟨m, cont, hm⟩ := h.exists_m hless
  obtain ⟨db, hdb⟩ := h.counted.exists_datab (d := m.datap) (by simp [hm])
  have hlength := h.length_data hm
  unfold WhileLoop.Iteration body
  simp only [if_pos hless, hm, hdb, Option.isNone_some, Bool.false_eq_true, if_false]
  split_ifs with hend hcont
  · subst hcont
    obtain ⟨mem, hfree, hinv⟩ := h.leave hm hend
    refine ⟨_, by rw [hfree], hinv, ?_⟩
    have hflatten := congrArg List.length (headD_append_flatten_tail s.behind)
    rw [List.length_append] at hflatten
    unfold measure
    dsimp only
    rw [hlength, hm, List.length_singleton]
    omega
  · refine ⟨_, rfl, h.advance hm hcont hend, ?_⟩
    unfold measure
    dsimp only
    rw [hlength, hm, List.length_cons]
    omega
  · refine ⟨_, rfl, h.stay hm, ?_⟩
    have hle := m.le
    unfold Mblk.consume at hend
    unfold measure
    dsimp only at hend ⊢
    rw [hlength, hm, List.length_cons, List.length_cons]
    omega

lemma of_iteration {s' : Reading} (h : Inv mem₀ ds all datalen s)
    (hit : WhileLoop.Iteration (body datalen) s s') : Inv mem₀ ds all datalen s' := by
  by_cases hless : s.data.length < datalen
  · obtain ⟨s₁, hit₁, hs₁, -⟩ := h.exists_iteration hless
    rw [WhileLoop.Iteration, hit₁] at hit
    rwa [← Option.some.inj (Except.ok.inj hit)]
  · rw [WhileLoop.Iteration, body, if_neg hless] at hit
    cases hit

/-- The loop ends, and it has read what it was to read. -/
lemma run_spec (h : Inv mem₀ ds all datalen s) :
    ∃ r, WhileLoop.run .running (body datalen) (s.measure datalen + 1) s = .ok r ∧
      Inv mem₀ ds all datalen r ∧ r.data = all.take datalen := by
  obtain ⟨r, hr⟩ : ∃ r,
      WhileLoop.run .running (body datalen) (s.measure datalen + 1) s = .ok r := by
    apply WhileLoop.exists_run_of_lt (measure datalen) (fun s₁ hs₁ => ?_) h (Nat.lt_succ_self _)
    by_cases hless : s₁.data.length < datalen
    · exact .inr (hs₁.exists_iteration hless)
    · exact .inl (if_neg hless)
  obtain ⟨hinv, hexit⟩ := WhileLoop.invariant_of_run (fun _ _ => of_iteration) hr h
  refine ⟨r, hr, hinv, ?_⟩
  have hlength : r.data.length = datalen := by
    apply le_antisymm hinv.le
    by_contra hless
    obtain ⟨s', hit, -⟩ := hinv.exists_iteration (not_le.mp hless)
    rw [WhileLoop.Iteration, hexit] at hit
    cases hit
  rw [← hinv.split, List.take_append_of_le_length hlength.ge, ← hlength, List.take_length]

end Inv

end Reading

namespace MSBufferizer

/-- The bytes that a bufferizer holds. -/
def content (obj : MSBufferizer) (mem : Memory) : List Byte := mem.content obj.q.flatten

/-- A bufferizer that shares a memory with references from elsewhere. -/
structure Sane (obj : MSBufferizer) (ds : List ℕ) (mem : Memory) : Prop where
  counted : mem.Counted (Msg.refs obj.q.flatten ++ ds)
  fits : ∀ b ∈ obj.q.flatten, mem.Fits b
  whole : ∀ m ∈ obj.q, m ≠ []
  size : obj.size = (obj.content mem).length

variable {obj : MSBufferizer} {ds ds' : List ℕ} {mem mem' : Memory} {m : Msg}

/-- Others may work on the memory as long as they keep the blocks of the bufferizer. -/
lemma Sane.of_keeps (h : obj.Sane ds mem) (hc : mem'.Counted (Msg.refs obj.q.flatten ++ ds'))
    (hkeeps : Memory.Keeps obj.q.flatten mem mem') :
    obj.Sane ds' mem' ∧ obj.content mem' = obj.content mem := by
  have hcontent : obj.content mem' = obj.content mem := hkeeps.content
  refine ⟨⟨hc, fun b hb => (hkeeps b hb).2 (h.fits b hb), h.whole, ?_⟩, hcontent⟩
  rw [hcontent, h.size]

lemma Sane.put (h : obj.Sane (Msg.refs m ++ ds) mem) (hne : m ≠ []) (hf : ∀ b ∈ m, mem.Fits b) :
    (obj.put m).Sane ds mem ∧ (obj.put m).content mem = obj.content mem ++ mem.content m := by
  have hflatten : (obj.put m).q.flatten = obj.q.flatten ++ m := by simp [MSBufferizer.put]
  have hcontent : (obj.put m).content mem = obj.content mem ++ mem.content m := by
    rw [content, hflatten, Memory.content_append, content]
  refine ⟨⟨?_, ?_, ?_, ?_⟩, hcontent⟩
  · rw [hflatten, Msg.refs_append, List.append_assoc]
    exact h.counted
  · intro b hb
    rw [hflatten] at hb
    rcases List.mem_append.mp hb with hb | hb
    · exact h.fits b hb
    · exact hf b hb
  · intro m' hm'
    rcases List.mem_append.mp hm' with hm' | hm'
    · exact h.whole m' hm'
    · rw [List.mem_singleton.mp hm']
      exact hne
  · have hsub : Msg.refs m ⊆ Msg.refs obj.q.flatten ++ (Msg.refs m ++ ds) := by
      intro d hd
      simp [hd]
    rw [hcontent, List.length_append, length_content h.counted hsub hf, MSBufferizer.put, h.size]

lemma Sane.putFromQueue {q : List Msg} (h : obj.Sane (Msg.refs q.flatten ++ ds) mem)
    (hne : ∀ m ∈ q, m ≠ []) (hf : ∀ b ∈ q.flatten, mem.Fits b) :
    (obj.putFromQueue q).Sane ds mem ∧
      (obj.putFromQueue q).content mem = obj.content mem ++ mem.content q.flatten := by
  induction q generalizing obj with
  | nil => exact ⟨h, by simp [MSBufferizer.putFromQueue]⟩
  | cons m q ih =>
    rw [List.flatten_cons] at hf h
    rw [Msg.refs_append, List.append_assoc] at h
    obtain ⟨hput, hcontent⟩ := h.put (hne m List.mem_cons_self)
      fun b hb => hf b (List.mem_append_left _ hb)
    obtain ⟨hrest, hrestcontent⟩ := ih hput (fun m' hm' => hne m' (List.mem_cons_of_mem m hm'))
      fun b hb => hf b (List.mem_append_right _ hb)
    refine ⟨hrest, hrestcontent.trans ?_⟩
    rw [hcontent, List.flatten_cons, Memory.content_append, List.append_assoc]

lemma headD_ne_nil {q : List Msg} (hq : ∀ m ∈ q, m ≠ []) (hnil : q.headD [] = []) : q = [] := by
  cases q with
  | nil => rfl
  | cons m q => exact absurd hnil (hq m List.mem_cons_self)

/-- A read returns what was asked for if there is as much, and else nothing; what is returned goes
from the front of the bytes that the bufferizer holds. -/
lemma Sane.read (h : obj.Sane ds mem) (datalen : ℕ) :
    ∃ data obj' mem', obj.read datalen mem = some (data.length, data, obj', mem') ∧
      obj'.Sane ds mem' ∧ data ++ obj'.content mem' = obj.content mem ∧
      data.length = (if datalen ≤ (obj.content mem).length then datalen else 0) ∧
      Memory.SameBytes ds mem mem' := by
  rw [← h.size]
  by_cases hle : datalen ≤ obj.size
  · have hflatten := Reading.headD_append_flatten_tail obj.q
    have hstart : Reading.Inv mem ds (obj.content mem) datalen (Reading.start obj.q mem) := by
      refine ⟨h.size ▸ hle, Nat.zero_le _, ?_, by simp [Reading.start], ?_, ?_, ?_, ?_,
        .refl ds mem⟩
      · unfold Reading.start content
        dsimp only
        rw [List.nil_append, ← Memory.content_append, hflatten]
      · unfold Reading.start
        dsimp only
        rw [List.nil_append, hflatten]
        exact h.counted
      · unfold Reading.start
        dsimp only
        rw [List.nil_append, hflatten]
        exact h.fits
      · exact fun m hm => h.whole m (List.mem_of_mem_tail hm)
      · intro hnil
        have hq := headD_ne_nil h.whole hnil
        exact ⟨rfl, by rw [Reading.start, hq]; rfl⟩
    obtain ⟨r, hr, hinv, hdata⟩ := hstart.run_spec
    have hlength : r.data.length = datalen := by
      rw [hdata, List.length_take, ← h.size]
      omega
    have hqueue : r.queue.flatten = r.passed ++ r.m ++ r.behind.flatten := by
      unfold Reading.queue
      split_ifs with hnil
      · rw [hnil, (hinv.last hnil).1, List.nil_append, List.nil_append]
      · rw [List.flatten_cons]
    have hpassed : r.mem.content r.passed = [] := by
      apply List.flatMap_eq_nil_iff.mpr
      exact fun b hb => Memory.bytes_of_empty _ (hinv.empty b hb)
    have hcontent : r.mem.content r.queue.flatten =
        r.mem.content r.m ++ r.mem.content r.behind.flatten := by
      rw [hqueue, Memory.content_append, Memory.content_append, hpassed, List.nil_append]
    refine ⟨r.data, ⟨r.queue, obj.size - datalen⟩, r.mem, ?_, ⟨?_, ?_, ?_, ?_⟩, ?_, ?_, hinv.same⟩
    · rw [MSBufferizer.read, if_pos hle, hr, hlength]
      rfl
    · rw [hqueue]
      exact hinv.counted
    · rw [hqueue]
      exact hinv.fits
    · intro m hm
      unfold Reading.queue at hm
      split_ifs at hm with hnil
      · exact hinv.whole m hm
      · rcases List.mem_cons.mp hm with rfl | hm
        · exact List.append_ne_nil_of_right_ne_nil _ hnil
        · exact hinv.whole m hm
    · have hsplit := congrArg List.length hinv.split
      rw [List.length_append, ← hcontent, ← h.size] at hsplit
      unfold content
      dsimp only
      omega
    · rw [content, hcontent]
      exact hinv.split
    · rw [if_pos hle, hlength]
  · refine ⟨[], obj, mem, ?_, h, rfl, ?_, .refl ds mem⟩
    · rw [MSBufferizer.read, if_neg hle]
      rfl
    · rw [if_neg hle]
      rfl

end MSBufferizer

/-- A bufferizer at work: the memory, what others refer to, the bufferizer, and the bytes that have
been read from it. -/
structure Buffering where
  mem : Memory
  elsewhere : List ℕ
  obj : MSBufferizer
  taken : List Byte

inductive Call
  | put (m : Msg)
  | putFromQueue (q : List Msg)
  | read (datalen : ℕ)

/-- The messages that a call hands over. -/
def Call.given : Call → List Msg
  | .put m => [m]
  | .putFromQueue q => q
  | .read _ => []

/-- How many bytes a call takes out of so many. -/
def Call.taking (length : ℕ) : Call → ℕ
  | .read datalen => if datalen ≤ length then datalen else 0
  | _ => 0

/-- The memory as others have left it, what they refer to from now on, and a call. -/
structure Turn where
  mem : Memory
  elsewhere : List ℕ
  call : Call

/-- The bytes that are handed over in a turn. -/
def Turn.given (t : Turn) : List Byte := t.mem.content t.call.given.flatten

namespace Buffering

def pending (s : Buffering) : List Byte := s.obj.content s.mem

/-- A turn: the caller takes as many bytes as `ms_bufferizer_read` says. -/
def step (s : Buffering) (t : Turn) : Option Buffering :=
  match t.call with
  | .put m => some ⟨t.mem, t.elsewhere, s.obj.put m, s.taken⟩
  | .putFromQueue q => some ⟨t.mem, t.elsewhere, s.obj.putFromQueue q, s.taken⟩
  | .read datalen => (s.obj.read datalen t.mem).map fun r =>
      ⟨r.2.2.2, t.elsewhere, r.2.2.1, s.taken ++ r.2.1.take r.1⟩

/-- What others see to: they count their references, keep the blocks of the bufferizer, and hand
over messages that fit. -/
structure Proper (s : Buffering) (t : Turn) : Prop where
  counted : t.mem.Counted
    (Msg.refs s.obj.q.flatten ++ (Msg.refs t.call.given.flatten ++ t.elsewhere))
  keeps : Memory.Keeps s.obj.q.flatten s.mem t.mem
  whole : ∀ m ∈ t.call.given, m ≠ []
  fits : ∀ b ∈ t.call.given.flatten, t.mem.Fits b

def Sane (s : Buffering) : Prop := s.obj.Sane s.elsewhere s.mem

/-- What a turn does: bytes go in at the end and out at the front, and others keep theirs. -/
def Means (t : Turn) (s s' : Buffering) : Prop :=
  s'.elsewhere = t.elsewhere ∧ Memory.SameBytes t.elsewhere t.mem s'.mem ∧
    ∃ data, s'.taken = s.taken ++ data ∧ data ++ s'.pending = s.pending ++ t.given ∧
      data.length = t.call.taking s.pending.length

theorem refines : Refinements.Refines step Proper Sane id Means := by
  intro s t hs ht
  obtain ⟨mem, ds, call⟩ := t
  obtain ⟨hsane, hcontent⟩ := MSBufferizer.Sane.of_keeps hs ht.counted ht.keeps
  cases call with
  | put m =>
    obtain ⟨hput, hlater⟩ := hsane.putFromQueue ht.whole ht.fits
    refine ⟨_, rfl, hput, rfl, .refl _ _, [], (List.append_nil _).symm, ?_, rfl⟩
    exact hlater.trans (by rw [hcontent]; rfl)
  | putFromQueue q =>
    obtain ⟨hput, hlater⟩ := hsane.putFromQueue ht.whole ht.fits
    refine ⟨_, rfl, hput, rfl, .refl _ _, [], (List.append_nil _).symm, ?_, rfl⟩
    exact hlater.trans (by rw [hcontent]; rfl)
  | read datalen =>
    obtain ⟨data, obj', mem', hread, hsane', hsplit, hlength, hsame⟩ := hsane.read datalen
    refine ⟨⟨mem', ds, obj', s.taken ++ data⟩, ?_, hsane', rfl, hsame, data, rfl, ?_, ?_⟩
    · change (s.obj.read datalen mem).map _ = _
      rw [hread, Option.map_some, List.take_length]
    · exact hsplit.trans (hcontent.trans (List.append_nil _).symm)
    · rw [hlength, hcontent]
      rfl

lemma taken_append_pending {ts : List Turn} {s s' : Buffering}
    (h : Refinements.Means Means ts s s') :
    s'.taken ++ s'.pending = s.taken ++ s.pending ++ ts.flatMap Turn.given := by
  induction ts generalizing s with
  | nil =>
    cases h
    simp
  | cons t ts ih =>
    obtain ⟨s₁, ⟨-, -, data, htaken, hsplit, -⟩, hrest⟩ := h
    rw [ih hrest, htaken, List.append_assoc s.taken, hsplit, List.flatMap_cons]
    simp only [List.append_assoc]

def start (mem : Memory) (ds : List ℕ) : Buffering := ⟨mem, ds, .init, []⟩

/-- A message of two blocks is put in and read out in two parts. -/
def pairMemory : Memory := (Memory.empty.add ⟨0, [1, 2], none, 1⟩).add ⟨8, [3], none, 1⟩

def pair : Msg := [⟨0, 0, 2, 0, 0, Nat.zero_le 2⟩, ⟨1, 0, 1, 0, 0, Nat.zero_le 1⟩]

def pairTurns : List Turn :=
  [⟨pairMemory, [], .put pair⟩, ⟨pairMemory, [], .read 2⟩, ⟨pairMemory, [], .read 1⟩]

lemma pairMemory_counted : pairMemory.Counted [0, 1] :=
  ((Memory.Counted.of_empty.add rfl).1.add rfl).1.perm (List.Perm.swap _ _ _)

lemma pairTurns_guarded : Refinements.Guarded step Proper (start .empty []) pairTurns := by
  refine .cons ⟨pairMemory_counted, ?_, ?_, ?_⟩ rfl (.cons ⟨pairMemory_counted, ?_, ?_, ?_⟩ rfl
    (.cons ⟨pairMemory_counted, ?_, ?_, ?_⟩ rfl trivial))
  · simp [Memory.Keeps, start, MSBufferizer.init]
  · simp [Call.given, pair]
  · simp [Call.given, pair, Memory.Fits, pairMemory, Memory.add, Function.update, Memory.empty]
  · exact fun b _ => ⟨rfl, fun hf => hf⟩
  · simp [Call.given]
  · simp [Call.given]
  · exact fun b _ => ⟨rfl, fun hf => hf⟩
  · simp [Call.given]
  · simp [Call.given]

end Buffering

end MTalk.Blocks
