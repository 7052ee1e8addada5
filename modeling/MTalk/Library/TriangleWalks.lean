import MTalk.Library.PartialWalks

/-!
# Walks across triangles

A triangulated surface as the third corners of its triangles: every side with a direction has at
most one triangle on its one hand. A walk comes into a triangle by a crossed side and leaves it by
the side at the head of that one, if it is crossed, and by the side at the tail otherwise. No two
sides are left to the same one. Where the crossed sides are those between two parts of the corners
the walk keeps one part on one hand, and turned round it goes back the way that it came.
-/

namespace TriangleWalks

open PartialWalks

variable {V : Type*}

/-- The third corner of a triangle seen from each of its sides. -/
def Rotates (apex : V × V → Option V) : Prop := ∀ u w x, apex (u, w) = some x → apex (w, x) = some u

/-- The side by which the triangle of `p` is left. -/
def step (apex : V × V → Option V) (crossed : V × V → Prop) [DecidablePred crossed] (p : V × V) :
    Option (V × V) :=
  (apex p).bind fun x =>
    if crossed (p.2, x) then some (x, p.2) else if crossed (x, p.1) then some (p.1, x) else none

/-- A crossed side is crossed in both directions. -/
structure Crossing (apex : V × V → Option V) (crossed : V × V → Prop) : Prop where
  rotates : Rotates apex
  swap : ∀ p, crossed p → crossed p.swap

/-- The crossed sides of the triangles are those between two parts of the corners. -/
structure Separates (apex : V × V → Option V) (crossed : V × V → Prop) (below : V → Prop) : Prop
    extends Crossing apex crossed where
  apart : ∀ p, crossed p → ¬ (below p.1 ↔ below p.2)
  crossed : ∀ u w x, apex (u, w) = some x → ¬ (below u ↔ below w) → crossed (u, w)

variable {apex : V × V → Option V} {crossed : V × V → Prop} [DecidablePred crossed] {p q : V × V}

lemma step_eq_some : step apex crossed p = some q ↔ ∃ x, apex p = some x ∧
    (crossed (p.2, x) ∧ q = (x, p.2) ∨
      ¬ crossed (p.2, x) ∧ crossed (x, p.1) ∧ q = (p.1, x)) := by
  rw [step, Option.bind_eq_some_iff]
  apply exists_congr
  intro x
  apply and_congr_right
  intro _
  split_ifs with h1 h2
  · simp [h1, eq_comm]
  · simp [h1, h2, eq_comm]
  · simp [h1, h2]

lemma step_eq_none_of_apex (h : apex p = none) : step apex crossed p = none := by
  rw [step, h]
  rfl

namespace Crossing

variable (h : Crossing apex crossed)

include h

lemma crossed_step (hq : step apex crossed p = some q) : crossed q := by
  obtain ⟨x, -, ⟨hx, rfl⟩ | ⟨-, hx, rfl⟩⟩ := step_eq_some.mp hq
  · exact h.swap _ hx
  · exact h.swap _ hx

/-- The triangle that a side was left from is the one on its other hand. -/
lemma injective_step : Injective (step apex crossed) {p | crossed p} := by
  constructor
  · exact fun p _ q hq => h.crossed_step hq
  · rintro ⟨u, w⟩ hp ⟨u', w'⟩ hp' q hq hq'
    obtain ⟨x, hx, hcase⟩ := step_eq_some.mp hq
    obtain ⟨x', hx', hcase'⟩ := step_eq_some.mp hq'
    have hround := h.rotates _ _ _ hx
    have hround' := h.rotates _ _ _ hx'
    have hback := h.rotates _ _ _ hround
    have hback' := h.rotates _ _ _ hround'
    dsimp only at hcase hcase'
    rcases hcase with ⟨-, rfl⟩ | ⟨hnot, -, rfl⟩
    · rcases hcase' with ⟨-, heq⟩ | ⟨hnot', -, heq⟩
      · obtain ⟨rfl, rfl⟩ := Prod.mk.inj heq
        rw [hround, Option.some.injEq] at hround'
        rw [hround']
      · obtain ⟨rfl, rfl⟩ := Prod.mk.inj heq
        rw [hround, Option.some.injEq] at hback'
        subst hback'
        exact absurd hp hnot'
    · rcases hcase' with ⟨-, heq⟩ | ⟨-, -, heq⟩
      · obtain ⟨rfl, rfl⟩ := Prod.mk.inj heq
        rw [hback, Option.some.injEq] at hround'
        subst hround'
        exact absurd hp' hnot
      · obtain ⟨rfl, rfl⟩ := Prod.mk.inj heq
        rw [hback, Option.some.injEq] at hback'
        rw [hback']

end Crossing

namespace Separates

variable {below : V → Prop} (h : Separates apex crossed below)

include h

omit [DecidablePred crossed] in
/-- The other two sides of a triangle that is entered: one of them is crossed. -/
lemma crossed_iff {u w x : V} (hp : crossed (u, w)) (hx : apex (u, w) = some x) :
    crossed (x, u) ↔ ¬ crossed (w, x) := by
  have hround := h.rotates _ _ _ hx
  have hback := h.rotates _ _ _ hround
  have hapart := h.apart _ hp
  have hwx : crossed (w, x) ↔ ¬ (below w ↔ below x) := ⟨h.apart _, h.crossed _ _ _ hround⟩
  have hxu : crossed (x, u) ↔ ¬ (below x ↔ below u) := ⟨h.apart _, h.crossed _ _ _ hback⟩
  rw [hwx, hxu]
  dsimp only at hapart
  tauto

lemma step_eq_none_iff (hp : crossed p) : step apex crossed p = none ↔ apex p = none := by
  refine ⟨fun hnone => ?_, step_eq_none_of_apex⟩
  by_contra hsome
  obtain ⟨x, hx⟩ := Option.ne_none_iff_exists'.mp hsome
  have hiff := h.crossed_iff hp hx
  by_cases hfirst : crossed (p.2, x)
  · have hstep := step_eq_some.mpr ⟨x, hx, .inl ⟨hfirst, rfl⟩⟩
    rw [hnone] at hstep
    cases hstep
  · have hstep := step_eq_some.mpr ⟨x, hx, .inr ⟨hfirst, hiff.mpr hfirst, rfl⟩⟩
    rw [hnone] at hstep
    cases hstep

/-- The walk keeps one part on one hand. -/
lemma below_step (hp : crossed p) (hq : step apex crossed p = some q) : below q.1 ↔ below p.1 := by
  obtain ⟨x, hx, ⟨hfirst, rfl⟩ | ⟨-, -, rfl⟩⟩ := step_eq_some.mp hq
  · have hp' := h.apart _ hp
    have hx' := h.apart _ hfirst
    dsimp only at hx' ⊢
    tauto
  · rfl

/-- Turned round the walk goes back. -/
lemma step_swap (hp : crossed p) (hq : step apex crossed p = some q) :
    step apex crossed q.swap = some p.swap := by
  obtain ⟨x, hx, hcase⟩ := step_eq_some.mp hq
  have hiff := h.crossed_iff hp hx
  have hround := h.rotates _ _ _ hx
  have hback := h.rotates _ _ _ hround
  rcases hcase with ⟨hfirst, rfl⟩ | ⟨-, -, rfl⟩
  · have hnot : ¬ crossed (x, p.1) := fun hc => hiff.mp hc hfirst
    exact step_eq_some.mpr ⟨p.1, hround, .inr ⟨hnot, hp, rfl⟩⟩
  · exact step_eq_some.mpr ⟨p.2, hback, .inl ⟨hp, rfl⟩⟩

lemma below_iter {n : ℕ} (hp : crossed p) (hq : iter (step apex crossed) n p = some q) :
    below q.1 ↔ below p.1 := by
  induction n generalizing p with
  | zero =>
    cases hq
    rfl
  | succ n ih =>
    obtain ⟨r, hr, hq⟩ := Option.bind_eq_some_iff.mp hq
    rw [ih (h.crossed_step hr) hq, h.below_step hp hr]

lemma iter_swap {n : ℕ} (hp : crossed p) (hq : iter (step apex crossed) n p = some q) :
    iter (step apex crossed) n q.swap = some p.swap := by
  induction n generalizing p with
  | zero =>
    cases hq
    rfl
  | succ n ih =>
    obtain ⟨r, hr, hq⟩ := Option.bind_eq_some_iff.mp hq
    rw [iter_succ, ih (h.crossed_step hr) hq]
    exact h.step_swap hp hr

/-- The walk never crosses a side in the other direction. -/
lemma ne_swap {n : ℕ} (hp : crossed p) (hq : iter (step apex crossed) n p = some q) :
    q ≠ p.swap := by
  rintro rfl
  have hbelow := h.below_iter hp hq
  exact h.apart _ hp hbelow.symm

/-- A side without a triangle on its other hand is left to by no other side. -/
lemma step_ne_of_apex (hp : apex p.swap = none) (hq : crossed q) :
    step apex crossed q ≠ some p := by
  intro hstep
  have hback := h.step_swap hq hstep
  rw [step_eq_none_of_apex hp] at hback
  cases hback

end Separates

/-- The sides of a whole line through `p`: every side that it crosses is there once in one of its
two directions, and the walk leads out of it in neither direction. -/
structure Whole (apex : V × V → Option V) (crossed : V × V → Prop) [DecidablePred crossed]
    (p : V × V) (line : List (V × V)) : Prop where
  start : p ∈ line
  sides : ∀ q ∈ line, crossed q
  once : line.Pairwise fun q r => r ≠ q ∧ r ≠ q.swap
  closed : ∀ q, q ∈ line ∨ q.swap ∈ line → ∀ r, step apex crossed q = some r →
    r ∈ line ∨ r.swap ∈ line
  reached : ∀ q ∈ line, ∃ n, iter (step apex crossed) n p = some q ∨
    iter (step apex crossed) n p.swap = some q.swap

/-- The sides after the first one of a walk, turned round, and then those of the other walk. -/
def joined (back forth : List (V × V)) : List (V × V) :=
  (back.tail.map Prod.swap).reverse ++ forth

namespace Separates

variable {below : V → Prop} (h : Separates apex crossed below)

include h

lemma crossed_iter {n : ℕ} (hp : crossed p) (hq : iter (step apex crossed) n p = some q) :
    crossed q := h.injective_step.mem_of_iter hp hq

/-- A walk that does not come back crosses no side twice. -/
lemma once_points {n : ℕ} (hp : crossed p)
    (hreturn : ∀ m, 0 < m → m < n → iter (step apex crossed) m p ≠ some p) :
    (points (step apex crossed) n p).Pairwise fun q r => r ≠ q ∧ r ≠ q.swap := by
  have hnodup := h.injective_step.nodup_points hp hreturn
  induction n with
  | zero => exact List.Pairwise.nil
  | succ n ih =>
    have hshort := ih (fun m hm hmn => hreturn m hm (by omega))
    cases hn : iter (step apex crossed) n p with
    | none =>
      rw [points_of_iter_eq_none hn] at hnodup ⊢
      exact hshort hnodup
    | some r =>
      rw [points_succ hn] at hnodup ⊢
      refine List.pairwise_append.mpr ⟨hshort (List.nodup_append.mp hnodup).1,
        List.pairwise_singleton _ _, fun q hq s hs => ?_⟩
      rw [List.mem_singleton] at hs
      subst hs
      refine ⟨fun hsame => ?_, ?_⟩
      · exact (List.nodup_append.mp hnodup).2.2 q hq s (List.mem_singleton_self s) hsame.symm
      · obtain ⟨k, hk, hkq⟩ := mem_points.mp hq
        have hon : iter (step apex crossed) (n - k) q = some s := by
          rw [← Nat.add_sub_cancel' hk.le, iter_add, hkq] at hn
          exact hn
        exact h.ne_swap (h.crossed_iter hp hkq) hon

/-- A line that comes back is whole. -/
lemma whole_loop {n : ℕ} (hn : 0 < n) (hp : crossed p)
    (hback : iter (step apex crossed) n p = some p)
    (hfirst : ∀ m, 0 < m → m < n → iter (step apex crossed) m p ≠ some p) :
    Whole apex crossed p (points (step apex crossed) n p) := by
  constructor
  · exact mem_points.mpr ⟨0, hn, rfl⟩
  · intro q hq
    obtain ⟨k, -, hk⟩ := mem_points.mp hq
    exact h.crossed_iter hp hk
  · exact h.once_points hp hfirst
  · rintro q (hq | hq) r hr
    · exact .inl (next_mem_points hback hq hr)
    · obtain ⟨b, hb, hbq⟩ := exists_before_mem_points hn hback hq
      obtain ⟨k, -, hk⟩ := mem_points.mp hb
      have hturn := h.step_swap (h.crossed_iter hp hk) hbq
      rw [Prod.swap_swap, hr, Option.some.injEq] at hturn
      rw [hturn, Prod.swap_swap]
      exact .inr hb
  · intro q hq
    obtain ⟨k, -, hk⟩ := mem_points.mp hq
    exact ⟨k, .inl hk⟩

omit h in
lemma mem_joined {back forth : List (V × V)} :
    q ∈ joined back forth ↔ q.swap ∈ back.tail ∨ q ∈ forth := by
  rw [joined, List.mem_append, List.mem_reverse, List.mem_map]
  refine or_congr_left ⟨?_, fun hq => ⟨q.swap, hq, Prod.swap_swap q⟩⟩
  rintro ⟨r, hr, rfl⟩
  rwa [Prod.swap_swap]

/-- No step leads out of a line that ends in both directions. -/
lemma closed_joined {n n' : ℕ} (hp : crossed p) (hend : iter (step apex crossed) (n + 1) p = none)
    (hend' : iter (step apex crossed) (n' + 1) p.swap = none) {r : V × V}
    (hq : q ∈ joined (points (step apex crossed) (n' + 1) p.swap)
        (points (step apex crossed) (n + 1) p) ∨
      q.swap ∈ joined (points (step apex crossed) (n' + 1) p.swap)
        (points (step apex crossed) (n + 1) p))
    (hr : step apex crossed q = some r) :
    r ∈ joined (points (step apex crossed) (n' + 1) p.swap)
        (points (step apex crossed) (n + 1) p) ∨
      r.swap ∈ joined (points (step apex crossed) (n' + 1) p.swap)
        (points (step apex crossed) (n + 1) p) := by
  have hp' := h.swap p hp
  simp only [mem_joined, mem_tail_points, mem_points, Prod.swap_swap] at hq ⊢
  -- a step on from a side of the one walk, or back from a side of the other one
  have hon : ∀ {m : ℕ} {a : V × V}, iter (step apex crossed) (m + 1) a = none →
      ∀ k < m + 1, iter (step apex crossed) k a = some q →
        k < m ∧ iter (step apex crossed) (k + 1) a = some r := by
    intro m a hm k hk hkq
    have hnext : iter (step apex crossed) (k + 1) a = some r := by
      rw [iter_succ, hkq]
      exact hr
    refine ⟨?_, hnext⟩
    by_contra hge
    obtain rfl : k = m := by omega
    rw [hm] at hnext
    cases hnext
  have hback : ∀ {a : V × V} (k : ℕ), crossed a → iter (step apex crossed) (k + 1) a = some q.swap →
      iter (step apex crossed) k a = some r.swap := by
    intro a k ha hk
    rw [iter_succ] at hk
    obtain ⟨b, hb, hbq⟩ := Option.bind_eq_some_iff.mp hk
    have hturn := h.step_swap (h.crossed_iter ha hb) hbq
    rw [Prod.swap_swap, hr, Option.some.injEq] at hturn
    rw [hb, hturn, Prod.swap_swap]
  rcases hq with (⟨k, hk, hkq⟩ | ⟨k, hk, hkq⟩) | (⟨k, hk, hkq⟩ | ⟨k, hk, hkq⟩)
  · have hprev := hback k hp' hkq
    cases k with
    | zero =>
      rw [iter_zero, Option.some.injEq] at hprev
      rw [← Prod.swap_injective hprev]
      exact .inl (.inr ⟨0, by omega, rfl⟩)
    | succ k => exact .inl (.inl ⟨k, by omega, hprev⟩)
  · obtain ⟨hlt, hnext⟩ := hon hend k hk hkq
    exact .inl (.inr ⟨k + 1, by omega, hnext⟩)
  · obtain ⟨hlt, hnext⟩ := hon hend' (k + 1) (by omega) hkq
    exact .inr (.inl ⟨k + 1, hlt, hnext⟩)
  · cases k with
    | zero =>
      rw [iter_zero, Option.some.injEq] at hkq
      have hq0 : iter (step apex crossed) 0 p.swap = some q := by
        rw [iter_zero, hkq, Prod.swap_swap]
      obtain ⟨hlt, hnext⟩ := hon hend' 0 (by omega) hq0
      exact .inr (.inl ⟨0, hlt, hnext⟩)
    | succ k => exact .inr (.inr ⟨k, by omega, hback k hp hkq⟩)

/-- Where the walk ends the two walks from a side have no other side in common. -/
lemma ne_of_ends {n j k : ℕ} {r : V × V} (hp : crossed p)
    (hend : iter (step apex crossed) (n + 1) p = none)
    (hq : iter (step apex crossed) (j + 1) p.swap = some q)
    (hr : iter (step apex crossed) k p = some r) : r ≠ q ∧ r ≠ q.swap := by
  have hp' := h.swap p hp
  constructor
  · rintro rfl
    have hbelow := h.below_iter hp hr
    have hbelow' := h.below_iter hp' hq
    exact h.apart p hp (hbelow.symm.trans hbelow')
  · rintro rfl
    have hback := h.iter_swap hp' hq
    rw [Prod.swap_swap] at hback
    refine iter_ne_none_of_return (m := k + (j + 1)) (by omega) ?_ (n + 1) hend
    rw [iter_add, hr]
    exact hback

/-- A line that ends in both directions is whole. -/
lemma whole_open {n n' : ℕ} (hp : crossed p) (hend : iter (step apex crossed) (n + 1) p = none)
    (hend' : iter (step apex crossed) (n' + 1) p.swap = none) :
    Whole apex crossed p (joined (points (step apex crossed) (n' + 1) p.swap)
      (points (step apex crossed) (n + 1) p)) := by
  have hp' := h.swap p hp
  have hreturn : ∀ m, 0 < m → iter (step apex crossed) m p ≠ some p := fun m hm hback =>
    iter_ne_none_of_return hm hback (n + 1) hend
  have hreturn' : ∀ m, 0 < m → iter (step apex crossed) m p.swap ≠ some p.swap :=
    fun m hm hback => iter_ne_none_of_return hm hback (n' + 1) hend'
  constructor
  · exact mem_joined.mpr (.inr (mem_points.mpr ⟨0, by omega, rfl⟩))
  · intro q hq
    rcases mem_joined.mp hq with hq | hq
    · obtain ⟨k, -, hk⟩ := mem_tail_points.mp hq
      have hcrossed := h.swap _ (h.crossed_iter hp' hk)
      rwa [Prod.swap_swap] at hcrossed
    · obtain ⟨k, -, hk⟩ := mem_points.mp hq
      exact h.crossed_iter hp hk
  · refine List.pairwise_append.mpr ⟨?_, h.once_points hp fun m hm _ => hreturn m hm, ?_⟩
    · rw [List.pairwise_reverse, List.pairwise_map]
      refine (h.once_points hp' fun m hm _ => hreturn' m hm).tail.imp ?_
      rintro a b ⟨hne, hne'⟩
      refine ⟨fun hsame => hne (Prod.swap_injective hsame).symm, fun hsame => hne' ?_⟩
      rw [Prod.swap_swap] at hsame
      exact hsame.symm
    · intro x hx y hy
      rw [List.mem_reverse, List.mem_map] at hx
      obtain ⟨q, hq, rfl⟩ := hx
      obtain ⟨j, -, hj⟩ := mem_tail_points.mp hq
      obtain ⟨k, -, hk⟩ := mem_points.mp hy
      rw [Prod.swap_swap]
      have hne := h.ne_of_ends hp hend hj hk
      exact ⟨hne.2, hne.1⟩
  · exact fun q hq r hr => h.closed_joined hp hend hend' hq hr
  · intro q hq
    rcases mem_joined.mp hq with hq | hq
    · obtain ⟨k, -, hk⟩ := mem_tail_points.mp hq
      exact ⟨k + 1, .inr hk⟩
    · obtain ⟨k, -, hk⟩ := mem_points.mp hq
      exact ⟨k, .inl hk⟩

end Separates

end TriangleWalks
