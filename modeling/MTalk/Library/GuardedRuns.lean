import Mathlib

/-!
# Runs of a step function that may fail

`Returns` says that a computation completes with a result that has a property. A property of every
state of a run is then held against a guard on the steps: what is preserved by each guarded step
holds all along a run whose steps are guarded, and, where the guard is exact for one step, it is
exact for runs.
-/

namespace MTalk.GuardedRuns

variable {ε α β : Type}

lemma bind_eq_ok {x : Except ε α} {f : α → Except ε β} {b : β} :
    x >>= f = .ok b ↔ ∃ a, x = .ok a ∧ f a = .ok b := by
  rcases x with e | a <;> simp [bind, Except.bind]

@[simp] lemma ok_bind (a : α) (f : α → Except ε β) : (Except.ok a : Except ε α) >>= f = f a := rfl

@[simp] lemma error_bind (e : ε) (f : α → Except ε β) :
    (Except.error e : Except ε α) >>= f = .error e := rfl

/-- A sequence of two computations fails only as one of them does. -/
lemma bind_ne_error {e : ε} {x : Except ε α} {f : α → Except ε β} (hx : x ≠ .error e)
    (hf : ∀ a, x = .ok a → f a ≠ .error e) : x >>= f ≠ .error e := by
  cases x with
  | error e' =>
    rw [error_bind]
    intro h
    exact hx (congrArg _ (Except.error.inj h))
  | ok a => exact hf a rfl

/-- The computation completes with a result that has the property. -/
def Returns (x : Except ε α) (P : α → Prop) : Prop := ∃ a, x = .ok a ∧ P a

variable {x : Except ε α} {f : α → Except ε β} {P Q : α → Prop}

@[simp] lemma returns_ok {a : α} : Returns (.ok a : Except ε α) P ↔ P a := by
  simp [Returns]

@[simp] lemma returns_pure {a : α} : Returns (pure a : Except ε α) P ↔ P a := returns_ok

@[simp] lemma returns_error {e : ε} : Returns (.error e) P ↔ False := by
  simp [Returns]

lemma returns_bind {R : β → Prop} :
    Returns (x >>= f) R ↔ Returns x fun a => Returns (f a) R := by
  rcases x with e | a
  · simp
  · simp

lemma returns_congr (h : ∀ a, x = .ok a → (P a ↔ Q a)) : Returns x P ↔ Returns x Q := by
  constructor
  · rintro ⟨a, ha, hp⟩
    exact ⟨a, ha, (h a ha).mp hp⟩
  · rintro ⟨a, ha, hq⟩
    exact ⟨a, ha, (h a ha).mpr hq⟩

lemma Returns.mono (hx : Returns x P) (h : ∀ a, x = .ok a → P a → Q a) : Returns x Q := by
  obtain ⟨a, ha, hp⟩ := hx
  exact ⟨a, ha, h a ha hp⟩

variable {S A E : Type} {step : S → A → Except E S} {good : S → Prop} {guard : S → A → Prop}

/-- Every step of the run returns and every state of the run is good. -/
def Holds (step : S → A → Except E S) (good : S → Prop) : S → List A → Prop
  | s, [] => good s
  | s, a :: as => good s ∧ ∃ s', step s a = .ok s' ∧ Holds step good s' as

/-- Every state that the run reaches before a step fails is good. -/
def HoldsWhileReturning (step : S → A → Except E S) (good : S → Prop) : S → List A → Prop
  | s, [] => good s
  | s, a :: as => good s ∧ ∀ s', step s a = .ok s' → HoldsWhileReturning step good s' as

/-- Every step of the run meets the guard in the state it is taken in. -/
def Guarded (step : S → A → Except E S) (guard : S → A → Prop) : S → List A → Prop
  | _, [] => True
  | s, a :: as => guard s a ∧ ∀ s', step s a = .ok s' → Guarded step guard s' as

/-- The invariant rule for a fold that completes. -/
theorem foldlM_invariant {I : S → Prop} (hstep : ∀ s a s', I s → step s a = .ok s' → I s')
    {as : List A} {s s' : S} (hs : I s) (hr : as.foldlM step s = .ok s') : I s' := by
  induction as generalizing s with
  | nil =>
    rw [List.foldlM_nil] at hr
    exact Except.ok.inj hr ▸ hs
  | cons a as ih =>
    rw [List.foldlM_cons, bind_eq_ok] at hr
    obtain ⟨s₁, h₁, hr⟩ := hr
    exact ih (hstep s a s₁ hs h₁) hr

/-- A fold whose steps complete and keep a property completes with the property. -/
theorem foldlM_returns {I : S → Prop} {as : List A}
    (hstep : ∀ a ∈ as, ∀ s, I s → Returns (step s a) I) {s : S} (hs : I s) :
    Returns (as.foldlM step s) I := by
  induction as generalizing s with
  | nil => exact returns_pure.mpr hs
  | cons a as ih =>
    rw [List.foldlM_cons]
    refine returns_bind.mpr ((hstep a List.mem_cons_self s hs).mono fun s₁ _ hs₁ => ?_)
    exact ih (fun b hb => hstep b (List.mem_cons_of_mem a hb)) hs₁

/-- The same with a property for each number of rounds. -/
theorem foldlM_range_returns {I : ℕ → S → Prop} {step : S → ℕ → Except E S} {n : ℕ}
    (hstep : ∀ k < n, ∀ s, I k s → Returns (step s k) (I (k + 1))) {s : S} (hs : I 0 s) :
    Returns ((List.range n).foldlM step s) (I n) := by
  induction n with
  | zero => exact returns_pure.mpr hs
  | succ n ih =>
    rw [List.range_succ, List.foldlM_append]
    refine returns_bind.mpr ((ih fun k hk => hstep k (by omega)).mono fun s₁ _ hs₁ => ?_)
    rw [List.foldlM_cons]
    refine returns_bind.mpr ((hstep n (by omega) s₁ hs₁).mono fun s₂ _ hs₂ => ?_)
    exact returns_pure.mpr hs₂

/-- The computation fails with one exception, or it completes with a result that has the
property. -/
def ReturnsUnless (e : ε) (x : Except ε α) (P : α → Prop) : Prop := x = .error e ∨ Returns x P

lemma Returns.unless {e : ε} (h : Returns x P) : ReturnsUnless e x P := Or.inr h

lemma ReturnsUnless.bind {e : ε} {Q : β → Prop} (h : ReturnsUnless e x P)
    (hf : ∀ a, x = .ok a → P a → ReturnsUnless e (f a) Q) : ReturnsUnless e (x >>= f) Q := by
  rcases h with hx | ⟨a, ha, hp⟩
  · rw [hx]
    exact Or.inl rfl
  · rw [ha, ok_bind]
    exact hf a ha hp

lemma ReturnsUnless.ne_error {e e' : ε} (h : ReturnsUnless e x P) (hne : e ≠ e') :
    x ≠ .error e' := by
  rcases h with hx | ⟨a, ha, -⟩
  · rw [hx]
    exact fun heq => hne (Except.error.inj heq)
  · rw [ha]
    exact fun heq => by simp at heq

lemma ReturnsUnless.of_ok {e : ε} {a : α} (h : ReturnsUnless e x P) (ha : x = .ok a) : P a := by
  rcases h with hx | ⟨b, hb, hp⟩
  · rw [hx] at ha
    cases ha
  · rw [hb] at ha
    exact Except.ok.inj ha ▸ hp

/-- A fold whose steps keep a property, as far as they complete, keeps the property. -/
theorem foldlM_returnsUnless {I : S → Prop} {e : E} {as : List A}
    (hstep : ∀ a ∈ as, ∀ s, I s → ReturnsUnless e (step s a) I) {s : S} (hs : I s) :
    ReturnsUnless e (as.foldlM step s) I := by
  induction as generalizing s with
  | nil => exact (returns_pure.mpr hs).unless
  | cons a as ih =>
    rw [List.foldlM_cons]
    apply (hstep a List.mem_cons_self s hs).bind
    intro s₁ _ hs₁
    exact ih (fun b hb => hstep b (List.mem_cons_of_mem a hb)) hs₁

/-- A fold fails with an exception only as one of its steps does. -/
theorem foldlM_ne_error {I : S → Prop} {e : E} (hinv : ∀ s a s', I s → step s a = .ok s' → I s')
    (hstep : ∀ s a, I s → step s a ≠ .error e) (as : List A) {s : S} (hs : I s) :
    as.foldlM step s ≠ .error e := by
  induction as generalizing s with
  | nil => exact fun h => by simp [pure, Except.pure] at h
  | cons a as ih =>
    rw [List.foldlM_cons]
    exact bind_ne_error (hstep s a hs) fun s₁ h₁ => ih (hinv s a s₁ hs h₁)

lemma Holds.start {s : S} {as : List A} (h : Holds step good s as) : good s := by
  cases as with
  | nil => exact h
  | cons a as => exact h.1

/-- A guard that is exact for one step from good states is exact for runs from them. -/
theorem holds_iff_guarded
    (hstep : ∀ s a, good s → (Returns (step s a) good ↔ guard s a))
    {s : S} (hs : good s) (as : List A) : Holds step good s as ↔ Guarded step guard s as := by
  induction as generalizing s with
  | nil => simp [Holds, Guarded, hs]
  | cons a as ih =>
    constructor
    · rintro ⟨-, s', h', hrun⟩
      refine ⟨(hstep s a hs).mp ⟨s', h', hrun.start⟩, fun s₁ h₁ => ?_⟩
      rw [h', Except.ok.injEq] at h₁
      subst h₁
      exact (ih hrun.start).mp hrun
    · rintro ⟨hguard, hrest⟩
      obtain ⟨s', h', hs'⟩ := (hstep s a hs).mpr hguard
      exact ⟨hs, s', h', (ih hs').mpr (hrest s' h')⟩

/-- What every guarded step preserves when it returns holds all along a guarded run. -/
theorem holdsWhileReturning_of_guarded
    (hstep : ∀ s a s', good s → guard s a → step s a = .ok s' → good s')
    {s : S} (hs : good s) {as : List A} (h : Guarded step guard s as) :
    HoldsWhileReturning step good s as := by
  induction as generalizing s with
  | nil => exact hs
  | cons a as ih =>
    obtain ⟨hguard, hrest⟩ := h
    exact ⟨hs, fun s' h' => ih (hstep s a s' hs hguard h') (hrest s' h')⟩

end MTalk.GuardedRuns
