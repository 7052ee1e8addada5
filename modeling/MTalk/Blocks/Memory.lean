import Mathlib.Data.List.Count
import Mathlib.Data.List.Perm.Basic
import Mathlib.Logic.Function.Basic
import Mathlib.Algebra.Order.Ring.Int

/-!
# Data blocks with reference counts

The blocks of memory that messages refer to. A call that touches a block which is not there, or
writes behind its end, is a fault of the memory and gives no result.
-/

namespace MTalk.Blocks

abbrev Byte := BitVec 8

/-- A data block: its address, what lies between `db_base` and `db_lim`, the function that is to be
called with it when it is freed, and the number of references. -/
structure Datab where
  base : ℕ
  bytes : List Byte
  freefn : Option ℕ
  ref : ℤ

/-- A message block without its links. The pointers are given from `db_base` on. -/
structure Mblk where
  datap : ℕ
  rptr : ℕ
  wptr : ℕ
  reserved1 : BitVec 32
  reserved2 : BitVec 32
  le : rptr ≤ wptr
deriving DecidableEq

/-- A message: a block and those that `b_cont` leads to. -/
abbrev Msg := List Mblk

/-- The data blocks that are there, the number of the next one, and the blocks that have been freed,
the latest first, with the functions called then. -/
structure Memory where
  datab : ℕ → Option Datab
  next : ℕ
  freed : List (ℕ × Option ℕ)

/-- Where the blocks come to lie and what is found in them. -/
structure Malloc where
  base : ℕ → ℕ → ℕ
  bytes : ℕ → ℕ → List Byte
  length_bytes : ∀ d size, (bytes d size).length = size

namespace Memory

def empty : Memory := ⟨fun _ => none, 0, []⟩

def add (mem : Memory) (db : Datab) : Memory :=
  { mem with datab := Function.update mem.datab mem.next (some db), next := mem.next + 1 }

def set (mem : Memory) (d : ℕ) (db : Datab) : Memory :=
  { mem with datab := Function.update mem.datab d (some db) }

def free (mem : Memory) (d : ℕ) (db : Datab) : Memory :=
  { mem with datab := Function.update mem.datab d none, freed := (d, db.freefn) :: mem.freed }

def databAlloc (a : Malloc) (size : ℕ) (mem : Memory) : ℕ × Memory :=
  (mem.next, mem.add ⟨a.base mem.next size, a.bytes mem.next size, none, 1⟩)

def databRef (d : ℕ) (mem : Memory) : Option Memory :=
  (mem.datab d).map fun db => mem.set d { db with ref := db.ref + 1 }

def databUnref (d : ℕ) (mem : Memory) : Option Memory :=
  (mem.datab d).map fun db =>
    if db.ref - 1 = 0 then mem.free d db else mem.set d { db with ref := db.ref - 1 }

/-- The references to the data blocks are those of a list, blocks without references are not there,
and every other block that has been there was freed once. -/
structure Counted (mem : Memory) (ds : List ℕ) : Prop where
  ref : ∀ d db, mem.datab d = some db → db.ref = ds.count d
  live : ∀ d, (mem.datab d).isSome ↔ d ∈ ds
  fresh : ∀ d, (mem.datab d).isSome → d < mem.next
  once : (mem.freed.map Prod.fst).Nodup
  freed : ∀ d, d ∈ mem.freed.map Prod.fst ↔ d < mem.next ∧ mem.datab d = none

/-- The blocks of a list hold the same bytes. -/
def SameBytes (ds : List ℕ) (mem mem' : Memory) : Prop :=
  ∀ d ∈ ds, (mem'.datab d).map Datab.bytes = (mem.datab d).map Datab.bytes

variable {mem mem' mem'' : Memory} {ds ds' : List ℕ} {d : ℕ} {db : Datab}

lemma SameBytes.refl (ds : List ℕ) (mem : Memory) : SameBytes ds mem mem := fun _ _ => rfl

lemma SameBytes.trans (h : SameBytes ds mem mem') (h' : SameBytes ds mem' mem'') :
    SameBytes ds mem mem'' := fun d hd => (h' d hd).trans (h d hd)

lemma SameBytes.mono (h : SameBytes ds mem mem') (hsub : ds' ⊆ ds) : SameBytes ds' mem mem' :=
  fun d hd => h d (hsub hd)

namespace Counted

lemma of_empty : Memory.empty.Counted [] := by
  constructor
  · simp [Memory.empty]
  · simp [Memory.empty]
  · simp [Memory.empty]
  · simp [Memory.empty]
  · simp [Memory.empty]

lemma perm (h : mem.Counted ds) (hp : ds.Perm ds') : mem.Counted ds' where
  ref d db hd := (h.ref d db hd).trans (by rw [hp.count_eq])
  live d := (h.live d).trans hp.mem_iff
  fresh := h.fresh
  once := h.once
  freed := h.freed

lemma exists_datab (h : mem.Counted ds) (hd : d ∈ ds) : ∃ db, mem.datab d = some db :=
  Option.isSome_iff_exists.mp ((h.live d).mpr hd)

lemma next_notMem (h : mem.Counted ds) : mem.next ∉ ds := by
  intro hd
  exact absurd (h.fresh _ ((h.live _).mpr hd)) (lt_irrefl _)

/-- A new block is referred to once. -/
lemma add (h : mem.Counted ds) (href : db.ref = 1) :
    (mem.add db).Counted (mem.next :: ds) ∧ SameBytes ds mem (mem.add db) := by
  have hne : ∀ d ∈ ds, d ≠ mem.next := fun d hd heq => h.next_notMem (heq ▸ hd)
  unfold Memory.add
  refine ⟨⟨fun d db' hd => ?_, fun d => ?_, fun d hd => ?_, h.once, fun d => ?_⟩, fun d hd => ?_⟩
  · dsimp only at hd
    by_cases heq : d = mem.next
    · rw [heq, Function.update_self] at hd
      obtain rfl := Option.some.inj hd
      rw [heq, List.count_cons_self, List.count_eq_zero_of_not_mem h.next_notMem, href]
      rfl
    · rw [Function.update_of_ne heq] at hd
      rw [List.count_cons_of_ne (Ne.symm heq)]
      exact h.ref d db' hd
  · dsimp only
    by_cases heq : d = mem.next
    · simp [heq]
    · rw [Function.update_of_ne heq, h.live]
      simp [heq]
  · dsimp only at hd ⊢
    by_cases heq : d = mem.next
    · omega
    · rw [Function.update_of_ne heq] at hd
      exact (h.fresh d hd).trans (Nat.lt_succ_self _)
  · dsimp only
    rw [h.freed]
    by_cases heq : d = mem.next
    · simp [heq]
    · rw [Function.update_of_ne heq]
      constructor
      · exact fun ⟨hlt, hnone⟩ => ⟨by omega, hnone⟩
      · exact fun ⟨hlt, hnone⟩ => ⟨by omega, hnone⟩
  · dsimp only
    rw [Function.update_of_ne (hne d hd)]

/-- A block is changed, and the references to it with it. -/
lemma set (h : mem.Counted ds) (hdb : mem.datab d = some db) {db' : Datab}
    (hd : d ∈ ds') (href : db'.ref = ds'.count d)
    (hother : ∀ d', d' ≠ d → ds'.count d' = ds.count d') : (mem.set d db').Counted ds' := by
  unfold Memory.set
  refine ⟨fun d' db₁ hd' => ?_, fun d' => ?_, fun d' hd' => ?_, h.once, fun d' => ?_⟩
  · dsimp only at hd'
    by_cases heq : d' = d
    · rw [heq, Function.update_self] at hd'
      obtain rfl := Option.some.inj hd'
      rw [heq]
      exact href
    · rw [Function.update_of_ne heq] at hd'
      rw [hother d' heq]
      exact h.ref d' db₁ hd'
  · dsimp only
    by_cases heq : d' = d
    · simp [heq, hd]
    · rw [Function.update_of_ne heq, h.live, ← List.count_pos_iff, ← List.count_pos_iff,
        hother d' heq]
  · dsimp only at hd'
    by_cases heq : d' = d
    · rw [heq]
      exact h.fresh d (by rw [hdb]; rfl)
    · rw [Function.update_of_ne heq] at hd'
      exact h.fresh d' hd'
  · dsimp only
    rw [h.freed]
    by_cases heq : d' = d
    · simp [heq, hdb]
    · rw [Function.update_of_ne heq]

/-- The last reference goes. -/
lemma free (h : mem.Counted (d :: ds)) (hdb : mem.datab d = some db) (hd : d ∉ ds) :
    (mem.free d db).Counted ds := by
  unfold Memory.free
  refine ⟨fun d' db' hd' => ?_, fun d' => ?_, fun d' hd' => ?_, ?_, fun d' => ?_⟩
  · dsimp only at hd'
    by_cases heq : d' = d
    · rw [heq, Function.update_self] at hd'
      cases hd'
    · rw [Function.update_of_ne heq] at hd'
      rw [h.ref d' db' hd', List.count_cons_of_ne (Ne.symm heq)]
  · dsimp only
    by_cases heq : d' = d
    · simp [heq, hd]
    · rw [Function.update_of_ne heq, h.live]
      simp [heq]
  · dsimp only at hd'
    by_cases heq : d' = d
    · rw [heq, Function.update_self] at hd'
      cases hd'
    · rw [Function.update_of_ne heq] at hd'
      exact h.fresh d' hd'
  · dsimp only
    rw [List.map_cons, List.nodup_cons]
    refine ⟨fun hmem => ?_, h.once⟩
    have hnone := ((h.freed d).mp hmem).2
    rw [hdb] at hnone
    cases hnone
  · dsimp only
    rw [List.map_cons, List.mem_cons, h.freed]
    by_cases heq : d' = d
    · have hlt := h.fresh d (by rw [hdb]; rfl)
      simp [heq, hlt]
    · rw [Function.update_of_ne heq]
      simp [heq]

end Counted

lemma datab_set (mem : Memory) (d : ℕ) (db : Datab) (d' : ℕ) :
    (mem.set d db).datab d' = if d' = d then some db else mem.datab d' := by
  unfold Memory.set
  exact Function.update_apply mem.datab d (some db) d'

lemma datab_free (mem : Memory) {d d' : ℕ} (db : Datab) (hd : d' ≠ d) :
    (mem.free d db).datab d' = mem.datab d' := Function.update_of_ne hd _ _

namespace Counted

/-- One more reference. -/
lemma databRef (h : mem.Counted ds) (hd : d ∈ ds) :
    ∃ mem', mem.databRef d = some mem' ∧ mem'.Counted (d :: ds) ∧ SameBytes (d :: ds) mem mem' := by
  obtain ⟨db, hdb⟩ := h.exists_datab hd
  refine ⟨mem.set d { db with ref := db.ref + 1 }, by rw [Memory.databRef, hdb]; rfl, ?_, ?_⟩
  · refine h.set hdb List.mem_cons_self ?_ fun d' hne => List.count_cons_of_ne (Ne.symm hne)
    rw [List.count_cons_self, h.ref d db hdb]
    push_cast
    rfl
  · intro d' _
    rw [datab_set]
    split_ifs with heq
    · rw [heq, hdb]
      rfl
    · rfl

/-- One reference less: the block is freed with the last one. -/
lemma databUnref (h : mem.Counted (d :: ds)) :
    ∃ mem', mem.databUnref d = some mem' ∧ mem'.Counted ds ∧ SameBytes ds mem mem' := by
  obtain ⟨db, hdb⟩ := h.exists_datab List.mem_cons_self
  have href := h.ref d db hdb
  rw [List.count_cons_self] at href
  push_cast at href
  by_cases hlast : db.ref - 1 = 0
  · have hd : d ∉ ds := List.count_eq_zero.mp (by omega)
    refine ⟨mem.free d db, by rw [Memory.databUnref, hdb, Option.map_some, if_pos hlast],
      h.free hdb hd, fun d' hd' => ?_⟩
    rw [datab_free mem db fun heq : d' = d => hd (heq ▸ hd')]
  · have hd : d ∈ ds := List.count_pos_iff.mp (by omega)
    refine ⟨mem.set d { db with ref := db.ref - 1 },
      by rw [Memory.databUnref, hdb, Option.map_some, if_neg hlast], ?_, fun d' _ => ?_⟩
    · refine h.set hdb hd ?_ fun d' hne => (List.count_cons_of_ne (Ne.symm hne)).symm
      dsimp only
      omega
    · rw [datab_set]
      split_ifs with heq
      · rw [heq, hdb]
        rfl
      · rfl

end Counted

end Memory

end MTalk.Blocks
