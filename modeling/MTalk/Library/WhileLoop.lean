import Mathlib

/-!
# While loops with exceptions

A loop body either leaves the loop (`none`), continues in a new state, or throws. `run`
executes the loop with a fuel bound and reports `stuck` when the fuel is used up, so that a
loop returns exactly when some amount of fuel gives a result. The rules below reduce facts
about whole runs to facts about one iteration.
-/

namespace WhileLoop

variable {ε σ : Type*}

/-- Runs `body` until it leaves the loop. -/
def run (stuck : ε) (body : σ → Except ε (Option σ)) : ℕ → σ → Except ε σ
  | 0, _ => .error stuck
  | fuel + 1, s =>
    match body s with
    | .error e => .error e
    | .ok none => .ok s
    | .ok (some s') => run stuck body fuel s'

/-- One iteration leads from `s` to `s'`. -/
def Iteration (body : σ → Except ε (Option σ)) (s s' : σ) : Prop := body s = .ok (some s')

/-- Finitely many iterations lead from `s` to `s'`. -/
abbrev Iterates (body : σ → Except ε (Option σ)) : σ → σ → Prop :=
  Relation.ReflTransGen (Iteration body)

/-- The loop started in `s` returns in state `r`. -/
def Returns (stuck : ε) (body : σ → Except ε (Option σ)) (s r : σ) : Prop :=
  ∃ fuel, run stuck body fuel s = .ok r

/-- At most the given number of iterations, as far as the loop goes. -/
def advance (body : σ → Except ε (Option σ)) : ℕ → σ → Except ε σ
  | 0, s => .ok s
  | k + 1, s =>
    match body s with
    | .error e => .error e
    | .ok none => .ok s
    | .ok (some s') => advance body k s'

variable {stuck : ε} {body : σ → Except ε (Option σ)}

lemma iterates_of_advance {k : ℕ} {s s' : σ} (h : advance body k s = .ok s') :
    Iterates body s s' := by
  induction k generalizing s with
  | zero =>
    obtain rfl := Except.ok.inj h
    exact .refl
  | succ k ih =>
    unfold advance at h
    split at h
    next => simp at h
    next =>
      obtain rfl := Except.ok.inj h
      exact .refl
    next s1 hb => exact .head hb (ih h)

lemma run_succ_of_iteration {s s' : σ} (h : Iteration body s s') (fuel : ℕ) :
    run stuck body (fuel + 1) s = run stuck body fuel s' := by
  unfold Iteration at h
  simp only [run, h]

lemma run_succ_of_exit {s : σ} (h : body s = .ok none) (fuel : ℕ) :
    run stuck body (fuel + 1) s = .ok s := by
  simp only [run, h]

/-- A loop returns exactly when its iterations reach a state that leaves the loop. -/
theorem returns_iff {s r : σ} :
    Returns stuck body s r ↔ Iterates body s r ∧ body r = .ok none := by
  constructor
  · rintro ⟨fuel, h⟩
    induction fuel generalizing s with
    | zero => simp [run] at h
    | succ fuel ih =>
      cases hb : body s with
      | error e => simp [run, hb] at h
      | ok o =>
        cases o with
        | none =>
          rw [run_succ_of_exit hb] at h
          cases h
          exact ⟨.refl, hb⟩
        | some s' =>
          rw [run_succ_of_iteration hb] at h
          have hr := ih h
          exact ⟨.head hb hr.1, hr.2⟩
  · rintro ⟨hreach, hexit⟩
    induction hreach using Relation.ReflTransGen.head_induction_on with
    | refl => exact ⟨1, run_succ_of_exit hexit 0⟩
    | head hstep _ ih =>
      obtain ⟨fuel, hf⟩ := ih
      exact ⟨fuel + 1, (run_succ_of_iteration hstep fuel).trans hf⟩

/-- The result does not depend on the fuel. -/
lemma run_unique {n m : ℕ} {s r r' : σ} (h : run stuck body n s = .ok r)
    (h' : run stuck body m s = .ok r') : r = r' := by
  induction n generalizing m s with
  | zero => simp [run] at h
  | succ n ih =>
    cases m with
    | zero => simp [run] at h'
    | succ m =>
      cases hb : body s with
      | error e => simp [run, hb] at h
      | ok o =>
        cases o with
        | none =>
          rw [run_succ_of_exit hb] at h h'
          exact Except.ok.inj (h.symm.trans h')
        | some s' =>
          rw [run_succ_of_iteration hb] at h h'
          exact ih h h'

/-- More fuel does not change a result. -/
lemma run_of_le {n m : ℕ} {s r : σ} (h : run stuck body n s = .ok r) (hnm : n ≤ m) :
    run stuck body m s = .ok r := by
  induction n generalizing m s with
  | zero => simp [run] at h
  | succ n ih =>
    obtain ⟨m, rfl⟩ : ∃ m', m = m' + 1 := ⟨m - 1, by omega⟩
    cases hb : body s with
    | error e => simp [run, hb] at h
    | ok o =>
      cases o with
      | none =>
        rw [run_succ_of_exit hb] at h ⊢
        exact h
      | some s' =>
        rw [run_succ_of_iteration hb] at h ⊢
        exact ih h (by omega)

/-- The loop invariant rule for the states reached by iterations. -/
theorem Iterates.invariant {I : σ → Prop} (hI : ∀ s s', I s → Iteration body s s' → I s')
    {s s' : σ} (h : Iterates body s s') (hs : I s) : I s' := by
  induction h with
  | refl => exact hs
  | tail _ hstep ih => exact hI _ _ ih hstep

/-- The loop invariant rule for returning loops. -/
theorem invariant_of_run {I : σ → Prop} (hI : ∀ s s', I s → Iteration body s s' → I s')
    {fuel : ℕ} {s r : σ} (h : run stuck body fuel s = .ok r) (hs : I s) :
    I r ∧ body r = .ok none := by
  have hr := returns_iff.mp ⟨fuel, h⟩
  exact ⟨hr.1.invariant hI hs, hr.2⟩

/-- A loop whose bodies do not throw an exception does not throw it. -/
theorem run_ne_error {I : σ → Prop} {e : ε} (hI : ∀ s s', I s → Iteration body s s' → I s')
    (hbody : ∀ s, I s → body s ≠ .error e) (hstuck : stuck ≠ e) {s : σ} (hs : I s) (fuel : ℕ) :
    run stuck body fuel s ≠ .error e := by
  induction fuel generalizing s with
  | zero =>
    intro h
    exact hstuck (Except.error.inj h)
  | succ fuel ih =>
    cases hb : body s with
    | error e' =>
      have hne := hbody s hs
      simpa [run, hb] using hne
    | ok o =>
      cases o with
      | none =>
        rw [run_succ_of_exit hb]
        simp
      | some s' =>
        rw [run_succ_of_iteration hb]
        exact ih (hI s s' hs hb)

/-- The termination rule: iterations that keep `I` and descend a well-founded relation. -/
theorem returns_of_wellFounded {I : σ → Prop} {lt : σ → σ → Prop} (hwf : WellFounded lt)
    (hI : ∀ s, I s → body s = .ok none ∨ ∃ s', Iteration body s s' ∧ I s' ∧ lt s' s)
    {s : σ} (hs : I s) : ∃ r, Returns stuck body s r := by
  induction s using hwf.induction with
  | _ s ih =>
    rcases hI s hs with hexit | ⟨s', hstep, hs', hlt⟩
    · exact ⟨s, 1, run_succ_of_exit hexit 0⟩
    · obtain ⟨r, fuel, hr⟩ := ih s' hlt hs'
      exact ⟨r, fuel + 1, (run_succ_of_iteration hstep fuel).trans hr⟩

/-- The termination rule with a bound: a measure that iterations lower says how much fuel is
enough. -/
theorem exists_run_of_lt {I : σ → Prop} (size : σ → ℕ)
    (hI : ∀ s, I s → body s = .ok none ∨ ∃ s', Iteration body s s' ∧ I s' ∧ size s' < size s)
    {s : σ} (hs : I s) {fuel : ℕ} (hfuel : size s < fuel) :
    ∃ r, run stuck body fuel s = .ok r := by
  induction fuel generalizing s with
  | zero => omega
  | succ fuel ih =>
    rcases hI s hs with hexit | ⟨s', hstep, hs', hlt⟩
    · exact ⟨s, run_succ_of_exit hexit fuel⟩
    · rw [run_succ_of_iteration hstep]
      exact ih hs' (by omega)

/-- How many values of a finite set lie below `x`. -/
noncomputable def rank {P : Type*} [LinearOrder P] {F : Set P} (hF : F.Finite) (x : P) : ℕ :=
  (hF.toFinset.filter (· < x)).card

lemma rank_lt {P : Type*} [LinearOrder P] {F : Set P} (hF : F.Finite) {x y : P} (hy : y ∈ F)
    (hlt : y < x) : rank hF y < rank hF x := by
  apply Finset.card_lt_card
  rw [Finset.ssubset_iff_of_subset]
  · exact ⟨y, by simp [hy, hlt], by simp⟩
  · intro z hz
    rw [Finset.mem_filter] at hz ⊢
    exact ⟨hz.1, hz.2.trans hlt⟩

/-- The termination rule with a potential of finite range and two counters: every iteration
lowers the potential, or else the first counter, or else the second. -/
theorem returns_of_potential {P : Type*} [LinearOrder P] {I : σ → Prop} (potential : σ → P)
    (first second : σ → ℕ) (hfin : {x | ∃ s, I s ∧ potential s = x}.Finite)
    (hI : ∀ s, I s → body s = .ok none ∨ ∃ s', Iteration body s s' ∧ I s' ∧
      (potential s' < potential s ∨ potential s' = potential s ∧
        (first s' < first s ∨ first s' ≤ first s ∧ second s' < second s)))
    {s : σ} (hs : I s) : ∃ r, Returns stuck body s r := by
  have hwf : WellFounded (Prod.Lex (· < ·) (Prod.Lex (· < ·) (· < ·)) :
      ℕ × ℕ × ℕ → ℕ × ℕ × ℕ → Prop) := WellFounded.prod_lex wellFounded_lt
    (WellFounded.prod_lex wellFounded_lt wellFounded_lt)
  refine returns_of_wellFounded (InvImage.wf
    (fun s => (rank hfin (potential s), first s, second s)) hwf) (fun s hs => ?_) hs
  refine (hI s hs).imp_right ?_
  rintro ⟨s', hstep, hs', hless⟩
  refine ⟨s', hstep, hs', ?_⟩
  unfold InvImage
  dsimp only
  rcases hless with hlt | ⟨heq, hlt | ⟨hle, hlt⟩⟩
  · exact .left _ _ (rank_lt hfin ⟨s', hs', rfl⟩ hlt)
  · rw [heq]
    exact .right _ (.left _ _ hlt)
  · rw [heq]
    rcases hle.lt_or_eq with hlt' | heq'
    · exact .right _ (.left _ _ hlt')
    · rw [heq']
      exact .right _ (.right _ hlt)

/-- The divergence rule: a loop that can always iterate once more uses up any fuel. -/
theorem run_stuck {I : σ → Prop} (hI : ∀ s, I s → ∃ s', Iteration body s s' ∧ I s')
    {s : σ} (hs : I s) (fuel : ℕ) : run stuck body fuel s = .error stuck := by
  induction fuel generalizing s with
  | zero => rfl
  | succ fuel ih =>
    obtain ⟨s', hstep, hs'⟩ := hI s hs
    rw [run_succ_of_iteration hstep]
    exact ih hs'

theorem not_returns {I : σ → Prop} (hI : ∀ s, I s → ∃ s', Iteration body s s' ∧ I s')
    {s : σ} (hs : I s) (r : σ) : ¬Returns stuck body s r := by
  rintro ⟨fuel, h⟩
  rw [run_stuck hI hs] at h
  simp at h

/-- Iteration is deterministic, so two states of one run lie behind each other. -/
lemma Iterates.linear {s a b : σ} (ha : Iterates body s a) (hb : Iterates body s b) :
    Iterates body a b ∨ Iterates body b a := by
  apply Relation.ReflTransGen.total_of_right_unique _ ha hb
  intro x y z hy hz
  unfold Iteration at hy hz
  rw [hy] at hz
  simpa using hz

end WhileLoop
