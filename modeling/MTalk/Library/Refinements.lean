import Mathlib.Data.List.Basic

/-!
# Programs that run as their specification says

A program takes steps that may fail. It is seen through a view, and a relation says what an action
does to what is seen. When each guarded step from a good state does what the relation says and ends
in a good state, so does each run.
-/

namespace MTalk.Refinements

variable {S A T : Type*}

/-- The states one action after the other; a step that fails ends the run. -/
def run (step : S → A → Option S) : S → List A → Option S
  | s, [] => some s
  | s, x :: xs => (step s x).bind fun s => run step s xs

/-- Every action of the run meets the guard in the state it is taken in. -/
def Guarded (step : S → A → Option S) (guard : S → A → Prop) : S → List A → Prop
  | _, [] => True
  | s, x :: xs => guard s x ∧ ∀ s', step s x = some s' → Guarded step guard s' xs

/-- What the actions do to what is seen, one after the other. -/
def Means (means : A → T → T → Prop) : List A → T → T → Prop
  | [], t, t' => t = t'
  | x :: xs, t, t' => ∃ t₁, means x t t₁ ∧ Means means xs t₁ t'

/-- Each guarded step from a good state does what is meant. -/
def Refines (step : S → A → Option S) (guard : S → A → Prop) (good : S → Prop) (view : S → T)
    (means : A → T → T → Prop) : Prop :=
  ∀ s x, good s → guard s x → ∃ s', step s x = some s' ∧ good s' ∧ means x (view s) (view s')

variable {step : S → A → Option S} {guard : S → A → Prop} {good : S → Prop} {view : S → T}
  {means : A → T → T → Prop}

lemma Guarded.cons {s s' : S} {x : A} {xs : List A} (hx : guard s x) (hstep : step s x = some s')
    (hxs : Guarded step guard s' xs) : Guarded step guard s (x :: xs) := by
  refine ⟨hx, fun s₁ hs₁ => ?_⟩
  rw [hstep] at hs₁
  rwa [← Option.some.inj hs₁]

lemma Refines.run (h : Refines step guard good view means) {s : S} (hs : good s) {xs : List A}
    (hxs : Guarded step guard s xs) :
    ∃ s', run step s xs = some s' ∧ good s' ∧ Means means xs (view s) (view s') := by
  induction xs generalizing s with
  | nil => exact ⟨s, rfl, hs, rfl⟩
  | cons x xs ih =>
    obtain ⟨s₁, hstep, hs₁, hmeans⟩ := h s x hs hxs.1
    obtain ⟨s', hrun, hs', hrest⟩ := ih hs₁ (hxs.2 s₁ hstep)
    refine ⟨s', ?_, hs', view s₁, hmeans, hrest⟩
    rw [Refinements.run, hstep]
    exact hrun

end MTalk.Refinements
