import Mathlib

/-!
# Walks of a partial step

A step that may end, as a function to `Option`, and the walk it makes from a point. On a finite set
where no two points have the same successor a walk ends or comes back to the point where it began;
from a point that is no successor it ends.
-/

namespace PartialWalks

variable {α : Type*} {next : α → Option α}

/-- The point after some steps, if the walk goes that far. -/
def iter (next : α → Option α) : ℕ → α → Option α
  | 0, a => some a
  | n + 1, a => (next a).bind (iter next n)

/-- The first points of a walk. -/
def points (next : α → Option α) : ℕ → α → List α
  | 0, _ => []
  | n + 1, a => a :: ((next a).map (points next n)).getD []

@[simp] lemma iter_zero (a : α) : iter next 0 a = some a := rfl

lemma iter_one (a : α) : iter next 1 a = next a := by
  cases h : next a <;> simp [iter, h]

lemma iter_succ_of_next {a b : α} (h : next a = some b) (n : ℕ) :
    iter next (n + 1) a = iter next n b := by
  rw [iter, h]
  rfl

lemma iter_add (m n : ℕ) (a : α) : iter next (m + n) a = (iter next m a).bind (iter next n) := by
  induction m generalizing a with
  | zero => simp
  | succ m ih =>
    rw [Nat.add_right_comm, iter, iter]
    cases next a with
    | none => rfl
    | some b => exact ih b

lemma iter_succ (n : ℕ) (a : α) : iter next (n + 1) a = (iter next n a).bind next := by
  rw [iter_add]
  congr 1
  funext b
  exact iter_one b

/-- A walk that goes far goes near. -/
lemma iter_ne_none_of_le {m n : ℕ} {a : α} (hmn : m ≤ n) (h : iter next n a ≠ none) :
    iter next m a ≠ none := by
  intro hnone
  rw [← Nat.add_sub_cancel' hmn, iter_add, hnone] at h
  exact h rfl

/-- A walk that comes back goes on for ever. -/
lemma iter_ne_none_of_return {m : ℕ} (hm : 0 < m) {a : α} (h : iter next m a = some a) (n : ℕ) :
    iter next n a ≠ none := by
  induction n using Nat.strong_induction_on with
  | _ n ih =>
    rcases Nat.lt_or_ge n m with hlt | hge
    · apply iter_ne_none_of_le hlt.le
      rw [h]
      simp
    · rw [← Nat.add_sub_cancel' hge, iter_add, h]
      exact ih (n - m) (by omega)

/-- The points of a longer walk. -/
lemma points_succ {n : ℕ} {a b : α} (h : iter next n a = some b) :
    points next (n + 1) a = points next n a ++ [b] := by
  induction n generalizing a with
  | zero =>
    cases h
    cases hnext : next b <;> simp [points, hnext]
  | succ n ih =>
    obtain ⟨c, hc, h⟩ := Option.bind_eq_some_iff.mp h
    rw [points, hc, Option.map_some, Option.getD_some, ih h, points, hc]
    rfl

lemma length_points {n : ℕ} {a : α} (h : iter next n a ≠ none) : (points next n a).length = n := by
  induction n with
  | zero => rfl
  | succ n ih =>
    have hshort := iter_ne_none_of_le n.le_succ h
    obtain ⟨b, hb⟩ := Option.ne_none_iff_exists'.mp hshort
    rw [points_succ hb, List.length_append, ih hshort, List.length_singleton]

/-- A walk that has ended has no further points. -/
lemma points_of_iter_eq_none {n : ℕ} {a : α} (h : iter next n a = none) :
    points next (n + 1) a = points next n a := by
  induction n generalizing a with
  | zero => cases h
  | succ n ih =>
    rw [points, points]
    cases hnext : next a with
    | none => rfl
    | some b =>
      rw [iter_succ_of_next hnext] at h
      rw [Option.map_some, Option.map_some, Option.getD_some, Option.getD_some, ih h]

lemma mem_points {n : ℕ} {a b : α} : b ∈ points next n a ↔ ∃ k < n, iter next k a = some b := by
  induction n generalizing a with
  | zero => simp [points]
  | succ n ih =>
    have hrest : b ∈ ((next a).map (points next n)).getD [] ↔
        ∃ k < n, iter next (k + 1) a = some b := by
      cases hnext : next a with
      | none => simp [iter, hnext]
      | some c => simp only [Option.map_some, Option.getD_some, ih, iter_succ_of_next hnext]
    rw [points, List.mem_cons, hrest]
    constructor
    · rintro (rfl | ⟨k, hk, hb⟩)
      · exact ⟨0, by omega, rfl⟩
      · exact ⟨k + 1, by omega, hb⟩
    · rintro ⟨k, hk, hb⟩
      cases k with
      | zero =>
        cases hb
        exact .inl rfl
      | succ k => exact .inr ⟨k, by omega, hb⟩

lemma mem_tail_points {n : ℕ} {a b : α} :
    b ∈ (points next (n + 1) a).tail ↔ ∃ k < n, iter next (k + 1) a = some b := by
  cases hnext : next a with
  | none => simp [points, iter, hnext]
  | some c =>
    simp only [points, hnext, Option.map_some, Option.getD_some, List.tail_cons, mem_points,
      iter_succ_of_next hnext]

lemma next_of_head_tail {n : ℕ} {a b : α} (h : b ∈ (points next n a).tail.head?) :
    next a = some b := by
  cases n with
  | zero => simp [points] at h
  | succ n =>
    cases hnext : next a with
    | none => simp [points, hnext] at h
    | some c =>
      cases n with
      | zero => simp [points, hnext] at h
      | succ n =>
        simp only [points, hnext, Option.map_some, Option.getD_some, List.tail_cons,
          List.head?_cons, Option.mem_def, Option.some.injEq] at h
        rw [h]

/-- Each point of a walk is followed by the next one. -/
lemma isChain_points (n : ℕ) (a : α) :
    (points next n a).IsChain fun b c => next b = some c := by
  induction n generalizing a with
  | zero => exact .nil
  | succ n ih =>
    cases hnext : next a with
    | none => simp [points, hnext]
    | some b =>
      cases n with
      | zero => simp [points, hnext]
      | succ n =>
        have hrest := ih b
        rw [points, hnext, Option.map_some, Option.getD_some]
        rw [points] at hrest ⊢
        exact .cons_cons hnext hrest

/-! A walk that comes back to its beginning. -/

lemma head_points {n : ℕ} (hn : 0 < n) (a : α) : (points next n a).head? = some a := by
  obtain ⟨n, rfl⟩ : ∃ m, n = m + 1 := ⟨n - 1, by omega⟩
  rfl

lemma next_getLast_points {n : ℕ} {a b : α} (h : iter next n a ≠ none)
    (hb : b ∈ (points next n a).getLast?) : next b = iter next n a := by
  cases n with
  | zero => simp [points] at hb
  | succ n =>
    obtain ⟨c, hc⟩ := Option.ne_none_iff_exists'.mp (iter_ne_none_of_le n.le_succ h)
    rw [points_succ hc, List.getLast?_concat] at hb
    rw [iter_succ, hc, ← Option.some.inj hb]
    rfl

lemma next_mem_points {n : ℕ} {a b c : α} (hreturn : iter next n a = some a)
    (hb : b ∈ points next n a) (hc : next b = some c) : c ∈ points next n a := by
  obtain ⟨k, hk, hkb⟩ := mem_points.mp hb
  have hnext : iter next (k + 1) a = some c := by
    rw [iter_succ, hkb]
    exact hc
  rcases Nat.lt_or_ge (k + 1) n with hlt | hge
  · exact mem_points.mpr ⟨k + 1, hlt, hnext⟩
  · obtain rfl : k + 1 = n := by omega
    rw [hreturn] at hnext
    exact mem_points.mpr ⟨0, by omega, hnext⟩

lemma exists_before_mem_points {n : ℕ} {a c : α} (hn : 0 < n) (hreturn : iter next n a = some a)
    (hc : c ∈ points next n a) : ∃ b ∈ points next n a, next b = some c := by
  have hlater : ∃ k, 0 < k ∧ k ≤ n ∧ iter next k a = some c := by
    obtain ⟨k, hk, hkc⟩ := mem_points.mp hc
    rcases Nat.eq_zero_or_pos k with rfl | hpos
    · exact ⟨n, hn, le_rfl, hreturn.trans hkc⟩
    · exact ⟨k, hpos, hk.le, hkc⟩
  obtain ⟨k, hpos, hk, hkc⟩ := hlater
  obtain ⟨k, rfl⟩ : ∃ m, k = m + 1 := ⟨k - 1, by omega⟩
  rw [iter_succ] at hkc
  obtain ⟨b, hb, hbc⟩ := Option.bind_eq_some_iff.mp hkc
  exact ⟨b, mem_points.mpr ⟨k, by omega, hb⟩, hbc⟩

/-- A set of points that the step stays in and where it is injective. -/
structure Injective (next : α → Option α) (S : Set α) : Prop where
  closed : ∀ a ∈ S, ∀ b, next a = some b → b ∈ S
  injective : ∀ a ∈ S, ∀ a' ∈ S, ∀ b, next a = some b → next a' = some b → a = a'

namespace Injective

variable {S : Set α} (h : Injective next S)

include h

lemma mem_of_iter {n : ℕ} {a b : α} (ha : a ∈ S) (hb : iter next n a = some b) : b ∈ S := by
  induction n generalizing a with
  | zero =>
    cases hb
    exact ha
  | succ n ih =>
    obtain ⟨c, hc, hb⟩ := Option.bind_eq_some_iff.mp hb
    exact ih (h.closed a ha c hc) hb

/-- Walks that meet after the same number of steps began at one point. -/
lemma iter_injective {n : ℕ} {a a' b : α} (ha : a ∈ S) (ha' : a' ∈ S)
    (hb : iter next n a = some b) (hb' : iter next n a' = some b) : a = a' := by
  induction n generalizing a a' with
  | zero =>
    cases hb
    cases hb'
    rfl
  | succ n ih =>
    obtain ⟨c, hc, hb⟩ := Option.bind_eq_some_iff.mp hb
    obtain ⟨c', hc', hb'⟩ := Option.bind_eq_some_iff.mp hb'
    obtain rfl := ih (h.closed a ha c hc) (h.closed a' ha' c' hc') hb hb'
    exact h.injective a ha a' ha' c hc hc'

/-- A point that a walk is at twice is where the walk comes back to its beginning. -/
lemma iter_sub {m n : ℕ} {a b : α} (ha : a ∈ S) (hmn : m ≤ n) (hm : iter next m a = some b)
    (hn : iter next n a = some b) : iter next (n - m) a = some a := by
  rw [← Nat.sub_add_cancel hmn, iter_add] at hn
  obtain ⟨c, hc, hn⟩ := Option.bind_eq_some_iff.mp hn
  obtain rfl := h.iter_injective ha (h.mem_of_iter ha hc) hm hn
  exact hc

/-- A walk that does not come back is at no point twice. -/
lemma nodup_points {n : ℕ} {a : α} (ha : a ∈ S)
    (hreturn : ∀ m, 0 < m → m < n → iter next m a ≠ some a) : (points next n a).Nodup := by
  induction n with
  | zero => exact List.nodup_nil
  | succ n ih =>
    have hshort := ih fun m hm hmn => hreturn m hm (by omega)
    cases hn : iter next n a with
    | none => rwa [points_of_iter_eq_none hn]
    | some b =>
      rw [points_succ hn, List.nodup_append]
      refine ⟨hshort, List.nodup_singleton b, ?_⟩
      rintro c hc d hd rfl
      rw [List.mem_singleton] at hd
      rw [hd, mem_points] at hc
      obtain ⟨k, hk, hk'⟩ := hc
      exact hreturn (n - k) (by omega) (by omega) (h.iter_sub ha hk.le hk' hn)

/-- On a finite set a walk ends or comes back. -/
theorem exists_end_or_return (hS : S.Finite) {a : α} (ha : a ∈ S) :
    ∃ n, 0 < n ∧ (iter next n a = none ∨ iter next n a = some a) := by
  by_contra hall
  push Not at hall
  have hsome : ∀ n, ∃ b, iter next n a = some b := by
    intro n
    cases n with
    | zero => exact ⟨a, rfl⟩
    | succ n => exact Option.ne_none_iff_exists'.mp (hall (n + 1) n.succ_pos).1
  choose f hf using hsome
  have hmem : ∀ n, f n ∈ S := fun n => h.mem_of_iter ha (hf n)
  obtain ⟨m, -, n, -, hne, heq⟩ := Set.infinite_univ.exists_ne_map_eq_of_mapsTo
    (fun n _ => hmem n) hS
  have hreturn : ∀ i j, i < j → f i = f j → False := by
    intro i j hij hsame
    have hback := h.iter_sub ha hij.le (hf i) (by rw [hsame]; exact hf j)
    exact (hall (j - i) (by omega)).2 hback
  rcases Nat.lt_or_gt_of_ne hne with hlt | hgt
  · exact hreturn m n hlt heq
  · exact hreturn n m hgt heq.symm

/-- A walk from a point that is no successor ends. -/
theorem exists_end (hS : S.Finite) {a : α} (ha : a ∈ S) (hfirst : ∀ b ∈ S, next b ≠ some a) :
    ∃ n, iter next n a = none := by
  obtain ⟨n, hn, hend | hreturn⟩ := h.exists_end_or_return hS ha
  · exact ⟨n, hend⟩
  · obtain ⟨n, rfl⟩ : ∃ m, n = m + 1 := ⟨n - 1, by omega⟩
    rw [iter_succ] at hreturn
    obtain ⟨b, hb, hreturn⟩ := Option.bind_eq_some_iff.mp hreturn
    exact absurd hreturn (hfirst b (h.mem_of_iter ha hb))

end Injective

end PartialWalks
