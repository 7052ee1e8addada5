import Mathlib

/-!
# Arrays with checked indices

A fixed array is a list, read and written at an integer index that has to be in range. The rules
say what a read gives after a write.
-/

namespace JavaArrays

variable {ε α : Type}

/-- Whether an index is in range. -/
def InRange (a : List α) (i : ℤ) : Prop := 0 ≤ i ∧ i < a.length

instance (a : List α) (i : ℤ) : Decidable (InRange a i) := inferInstanceAs (Decidable (_ ∧ _))

def load (oob : ε) (a : List α) (i : ℤ) : Except ε α :=
  if 0 ≤ i then
    match a[i.toNat]? with
    | some x => .ok x
    | none => .error oob
  else .error oob

def store (oob : ε) (a : List α) (i : ℤ) (x : α) : Except ε (List α) :=
  if InRange a i then .ok (a.set i.toNat x) else .error oob

variable {oob : ε} {a b : List α} {i k : ℤ} {x y : α}

lemma exists_load (h : InRange a i) : ∃ x, load oob a i = .ok x := by
  have hlt : i.toNat < a.length := (Int.toNat_lt h.1).mpr h.2
  exact ⟨a[i.toNat], by rw [load, if_pos h.1, List.getElem?_eq_getElem hlt]⟩

lemma inRange_of_load (h : load oob a i = .ok x) : InRange a i := by
  unfold load at h
  split at h
  next h0 =>
    split at h
    next hget =>
      have := (List.getElem?_eq_some_iff.mp hget).1
      exact ⟨h0, by omega⟩
    next => simp at h
  next => simp at h

lemma mem_of_load (h : load oob a i = .ok x) : x ∈ a := by
  unfold load at h
  split at h
  next =>
    split at h
    next hget =>
      obtain rfl := Except.ok.inj h
      exact List.mem_of_getElem? hget
    next => simp at h
  next => simp at h

lemma store_ok (h : InRange a i) : store oob a i x = .ok (a.set i.toNat x) := if_pos h

/-- What a write leaves: the new element, and every other element as it was. -/
structure Stored (oob : ε) (a : List α) (i : ℤ) (x : α) (b : List α) : Prop where
  length : b.length = a.length
  same : load oob b i = .ok x
  other : ∀ k, k ≠ i → load oob b k = load oob a k

lemma stored_set (h : InRange a i) : Stored oob a i x (a.set i.toNat x) := by
  have hlt : i.toNat < a.length := (Int.toNat_lt h.1).mpr h.2
  constructor
  · exact List.length_set
  · rw [load, if_pos h.1, List.getElem?_set_self hlt]
  · intro k hk
    unfold load
    by_cases h0 : 0 ≤ k
    · have hne : i.toNat ≠ k.toNat := by
        have := h.1
        omega
      rw [List.getElem?_set_ne hne]
    · rw [if_neg h0, if_neg h0]

@[simp] lemma inRange_set {n : ℕ} : InRange (a.set n x) k ↔ InRange a k := by
  rw [InRange, InRange, List.length_set]

/-- A read after a write. -/
lemma load_set (h : InRange a i) :
    load oob (a.set i.toNat x) k = if k = i then .ok x else load oob a k := by
  have hset : Stored oob a i x (a.set i.toNat x) := stored_set h
  split
  next hk =>
    rw [hk]
    exact hset.same
  next hk => exact hset.other k hk

lemma exists_store (h : InRange a i) (x : α) :
    ∃ b, store oob a i x = .ok b ∧ Stored oob a i x b := ⟨_, store_ok h, stored_set h⟩

lemma stored_of_store (h : store oob a i x = .ok b) : InRange a i ∧ Stored oob a i x b := by
  unfold store at h
  split at h
  next hr =>
    obtain rfl := Except.ok.inj h
    exact ⟨hr, stored_set hr⟩
  next => simp at h

lemma mem_of_store (h : store oob a i x = .ok b) (hy : y ∈ b) : y = x ∨ y ∈ a := by
  unfold store at h
  split at h
  next =>
    obtain rfl := Except.ok.inj h
    exact (List.mem_or_eq_of_mem_set hy).symm
  next => simp at h

lemma Stored.inRange (h : Stored oob a i x b) : InRange b k ↔ InRange a k := by
  rw [InRange, InRange, h.length]

lemma load_replicate {n : ℕ} (h0 : 0 ≤ i) (hn : i < n) : load oob (List.replicate n x) i = .ok x := by
  have hlt : i.toNat < n := by omega
  rw [load, if_pos h0, List.getElem?_replicate, if_pos hlt]

end JavaArrays
