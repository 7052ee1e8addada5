import Mathlib.Tactic.Positivity
import Mathlib.Tactic.Ring

/-!
# Serial numbers

Counters that wrap around are compared by their difference: of two numbers the one that is less than
half of the range ahead is the newer one. Where the counters stand for integers that are less than
half of the range apart this is the order of these integers.
-/

namespace MTalk.SerialNumbers

variable {n : ℕ}

/-- The first number is not before the second one. -/
def Newer (a b : BitVec (n + 1)) : Prop := (a - b).toNat < 2 ^ n

instance (a b : BitVec (n + 1)) : Decidable (Newer a b) := inferInstanceAs (Decidable (_ < _))

/-- The two integers are less than half of the range apart. -/
def Near (n : ℕ) (x y : ℤ) : Prop := x - y < 2 ^ n ∧ y - x < 2 ^ n

instance (n : ℕ) (x y : ℤ) : Decidable (Near n x y) := inferInstanceAs (Decidable (_ ∧ _))

lemma Near.symm {x y : ℤ} (h : Near n x y) : Near n y x := ⟨h.2, h.1⟩

lemma newer_refl (a : BitVec (n + 1)) : Newer a a := by
  simp [Newer]

lemma toNat_ofInt_sub (x y : ℤ) :
    ((BitVec.ofInt (n + 1) x - BitVec.ofInt (n + 1) y).toNat : ℤ) = (x - y) % 2 ^ (n + 1) := by
  have hsub : BitVec.ofInt (n + 1) x - BitVec.ofInt (n + 1) y = BitVec.ofInt (n + 1) (x - y) := by
    rw [sub_eq_add_neg x y, BitVec.ofInt_add, BitVec.ofInt_neg, BitVec.sub_eq_add_neg]
  rw [hsub, BitVec.toNat_ofInt, Int.toNat_of_nonneg]
  · push_cast
    rfl
  · exact Int.emod_nonneg _ (by positivity)

/-- Near to each other the serial numbers have the order of the integers. -/
theorem newer_ofInt {x y : ℤ} (h : Near n x y) :
    Newer (BitVec.ofInt (n + 1) x) (BitVec.ofInt (n + 1) y) ↔ y ≤ x := by
  have hmod := toNat_ofInt_sub (n := n) x y
  have hpos : (0 : ℤ) < 2 ^ n := by positivity
  have hdouble : (2 : ℤ) ^ (n + 1) = 2 * 2 ^ n := pow_succ' 2 n
  obtain ⟨h1, h2⟩ := h
  rw [hdouble] at hmod
  rw [Newer, ← Int.ofNat_lt, hmod]
  push_cast
  constructor
  · intro hlt
    by_contra hyx
    have hwrap : (x - y) % (2 * 2 ^ n) = x - y + 2 * 2 ^ n := by
      rw [← Int.add_emod_right, Int.emod_eq_of_lt]
      · omega
      · omega
    omega
  · intro hyx
    rw [Int.emod_eq_of_lt]
    · exact h1
    · omega
    · omega

lemma ofInt_inj {x y : ℤ} (h : Near n x y) :
    BitVec.ofInt (n + 1) x = BitVec.ofInt (n + 1) y ↔ x = y := by
  constructor
  · intro heq
    have hxy : y ≤ x := (newer_ofInt h).mp (heq ▸ newer_refl _)
    have hyx : x ≤ y := (newer_ofInt h.symm).mp (heq ▸ newer_refl _)
    exact le_antisymm hyx hxy
  · rintro rfl
    rfl

end MTalk.SerialNumbers
