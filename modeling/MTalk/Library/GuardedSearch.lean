import Mathlib.Data.Finset.Card
import Mathlib.Data.List.Nodup
import Mathlib.Order.WellFounded
import Mathlib.Data.Fintype.Card
import Mathlib.Logic.Relation

/-!
# Depth-first search with a guard

A search visits a node and goes on to its successors. A guard on the nodes visited so far may put
a node off, and a second search then starts from the nodes put off without a guard.
-/

namespace MTalk.GuardedSearch

variable {V : Type}

/-- The nodes visited and the nodes put off, the latest first. -/
structure Visits (V : Type) where
  visited : List V
  postponed : List V

def Visits.enter (s : Visits V) (v : V) : Visits V := { s with visited := v :: s.visited }

def Visits.postpone (s : Visits V) (v : V) : Visits V := { s with postponed := v :: s.postponed }

/-- The node can be reached from one of several. -/
def Reached (succ : V → List V) (ws : List V) (x : V) : Prop :=
  ∃ w ∈ ws, Relation.ReflTransGen (fun a b => b ∈ succ a) w x

variable {succ : V → List V} {ready : List V → V → Bool}

lemma Reached.of_mem {ws : List V} {x : V} (h : x ∈ ws) : Reached succ ws x := ⟨x, h, .refl⟩

lemma Reached.step {ws : List V} {x y : V} (h : Reached succ ws x) (hy : y ∈ succ x) :
    Reached succ ws y := by
  obtain ⟨w, hw, hx⟩ := h
  exact ⟨w, hw, hx.tail hy⟩

lemma Reached.trans {ws us : List V} {x : V} (h : Reached succ us x)
    (hu : ∀ u ∈ us, Reached succ ws u) : Reached succ ws x := by
  obtain ⟨u, hu', hx⟩ := h
  obtain ⟨w, hw, hwu⟩ := hu u hu'
  exact ⟨w, hw, hwu.trans hx⟩

/-- A reached node is a start or a successor of a reached node. -/
lemma Reached.cases {ws : List V} {x : V} (h : Reached succ ws x) :
    x ∈ ws ∨ ∃ y, Reached succ ws y ∧ x ∈ succ y := by
  obtain ⟨w, hw, hx⟩ := h
  rcases Relation.ReflTransGen.cases_tail hx with rfl | ⟨y, hy, hxy⟩
  · exact Or.inl hw
  · exact Or.inr ⟨y, ⟨w, hw, hy⟩, hxy⟩

/-- What a search from several nodes does to the visits. -/
structure Explored (succ : V → List V) (ready : List V → V → Bool) (ws : List V)
    (s s' : Visits V) : Prop where
  suffix : s.visited <:+ s'.visited
  keeps : ∀ x ∈ s.postponed, x ∈ s'.postponed
  nodup : s.visited.Nodup → s'.visited.Nodup
  reached : ∀ x ∈ s'.visited, x ∈ s.visited ∨ Reached succ ws x
  put_off : ∀ x ∈ s'.postponed, x ∈ s.postponed ∨ Reached succ ws x ∧ ∃ r, ready r x = false
  guarded : ∀ x r, x :: r <:+ s'.visited → x :: r <:+ s.visited ∨ ready r x = true
  starts : ∀ w ∈ ws, w ∈ s'.visited ∨ w ∈ s'.postponed
  closed : ∀ x ∈ s'.visited, x ∈ s.visited ∨
    ∀ w ∈ succ x, w ∈ s'.visited ∨ w ∈ s'.postponed

namespace Explored

variable {ws us : List V} {w v : V} {s s₁ s' : Visits V}

lemma nil (s : Visits V) : Explored succ ready [] s s where
  suffix := List.suffix_refl _
  keeps x hx := hx
  nodup h := h
  reached x hx := Or.inl hx
  put_off x hx := Or.inl hx
  guarded x r h := Or.inl h
  starts w hw := by simp at hw
  closed x hx := Or.inl hx

lemma todo_mono (h : Explored succ ready ws s s') {x : V}
    (hx : x ∈ s.visited ∨ x ∈ s.postponed) : x ∈ s'.visited ∨ x ∈ s'.postponed :=
  hx.imp (fun hx => h.suffix.subset hx) (h.keeps x)

lemma append (h₁ : Explored succ ready ws s s₁) (h₂ : Explored succ ready us s₁ s') :
    Explored succ ready (ws ++ us) s s' where
  suffix := h₁.suffix.trans h₂.suffix
  keeps x hx := h₂.keeps x (h₁.keeps x hx)
  nodup h := h₂.nodup (h₁.nodup h)
  reached x hx := by
    rcases h₂.reached x hx with hx | hx
    · refine (h₁.reached x hx).imp_right fun h => ?_
      exact h.trans fun u hu => .of_mem (List.mem_append_left _ hu)
    · exact Or.inr (hx.trans fun u hu => .of_mem (List.mem_append_right _ hu))
  put_off x hx := by
    rcases h₂.put_off x hx with hx | ⟨hx, hr⟩
    · refine (h₁.put_off x hx).imp_right fun ⟨h, hr⟩ => ⟨?_, hr⟩
      exact h.trans fun u hu => .of_mem (List.mem_append_left _ hu)
    · exact Or.inr ⟨hx.trans fun u hu => .of_mem (List.mem_append_right _ hu), hr⟩
  guarded x r h := by
    rcases h₂.guarded x r h with h | h
    · exact h₁.guarded x r h
    · exact Or.inr h
  starts w hw := by
    rcases List.mem_append.mp hw with hw | hw
    · exact h₂.todo_mono (h₁.starts w hw)
    · exact h₂.starts w hw
  closed x hx := by
    rcases h₂.closed x hx with hx | hx
    · exact (h₁.closed x hx).imp_right fun h w hw => h₂.todo_mono (h w hw)
    · exact Or.inr hx

lemma visited (hv : v ∈ s.visited) : Explored succ ready [v] s s where
  suffix := List.suffix_refl _
  keeps x hx := hx
  nodup h := h
  reached x hx := Or.inl hx
  put_off x hx := Or.inl hx
  guarded x r h := Or.inl h
  starts w hw := by
    obtain rfl := List.mem_singleton.mp hw
    exact Or.inl hv
  closed x hx := Or.inl hx

lemma postponed (hr : ready s.visited v = false) :
    Explored succ ready [v] s (s.postpone v) where
  suffix := List.suffix_refl _
  keeps x hx := List.mem_cons_of_mem _ hx
  nodup h := h
  reached x hx := Or.inl hx
  put_off x hx := by
    rcases List.mem_cons.mp hx with rfl | hx
    · exact Or.inr ⟨.of_mem (List.mem_singleton_self x), _, hr⟩
    · exact Or.inl hx
  guarded x r h := Or.inl h
  starts w hw := by
    obtain rfl := List.mem_singleton.mp hw
    exact Or.inr List.mem_cons_self
  closed x hx := Or.inl hx

/-- A node is entered and its successors are explored. -/
lemma entered (hv : v ∉ s.visited) (hr : ready s.visited v = true)
    (h : Explored succ ready (succ v) (s.enter v) s') : Explored succ ready [v] s s' where
  suffix := (List.suffix_cons v s.visited).trans h.suffix
  keeps x hx := h.keeps x hx
  nodup hs := h.nodup (List.nodup_cons.mpr ⟨hv, hs⟩)
  reached x hx := by
    rcases h.reached x hx with hx | hx
    · rcases List.mem_cons.mp hx with rfl | hx
      · exact Or.inr (.of_mem (List.mem_singleton_self x))
      · exact Or.inl hx
    · refine Or.inr (hx.trans fun u hu => ?_)
      exact (Reached.of_mem (List.mem_singleton_self v)).step hu
  put_off x hx := by
    refine (h.put_off x hx).imp_right fun ⟨hx, hr⟩ => ⟨hx.trans fun u hu => ?_, hr⟩
    exact (Reached.of_mem (List.mem_singleton_self v)).step hu
  guarded x r hx := by
    rcases h.guarded x r hx with hx | hx
    · rcases List.suffix_cons_iff.mp hx with hx | hx
      · obtain ⟨rfl, rfl⟩ := List.cons.inj hx
        exact Or.inr hr
      · exact Or.inl hx
    · exact Or.inr hx
  starts w hw := by
    obtain rfl := List.mem_singleton.mp hw
    exact Or.inl (h.suffix.subset List.mem_cons_self)
  closed x hx := by
    rcases h.closed x hx with hx | hx
    · rcases List.mem_cons.mp hx with rfl | hx
      · exact Or.inr h.starts
      · exact Or.inl hx
    · exact Or.inr hx

end Explored

/-- The rule for a fold of searches, from the rule for one. -/
lemma explored_foldlM {step : Visits V → V → Option (Visits V)}
    (hstep : ∀ w s s', step s w = some s' → Explored succ ready [w] s s') {ws : List V}
    {s s' : Visits V} (h : ws.foldlM step s = some s') : Explored succ ready ws s s' := by
  induction ws generalizing s with
  | nil =>
    rw [List.foldlM_nil] at h
    obtain rfl := Option.some.inj h
    exact .nil s
  | cons w ws ih =>
    rw [List.foldlM_cons, Option.bind_eq_bind, Option.bind_eq_some_iff] at h
    obtain ⟨s₁, h₁, h⟩ := h
    exact (hstep w s s₁ h₁).append (ih h)

variable [DecidableEq V]

/-- The search from one node. -/
def visit (succ : V → List V) (ready : List V → V → Bool) :
    ℕ → V → Visits V → Option (Visits V)
  | 0, _, _ => none
  | fuel + 1, v, s =>
    if v ∈ s.visited then some s
    else if ready s.visited v then
      (succ v).foldlM (fun s w => visit succ ready fuel w s) (s.enter v)
    else some (s.postpone v)

/-- The search from several nodes. -/
def visitAll (succ : V → List V) (ready : List V → V → Bool) (fuel : ℕ) (ws : List V)
    (s : Visits V) : Option (Visits V) :=
  ws.foldlM (fun s w => visit succ ready fuel w s) s

lemma explored_of_visit {fuel : ℕ} {v : V} {s s' : Visits V}
    (h : visit succ ready fuel v s = some s') : Explored succ ready [v] s s' := by
  induction fuel generalizing v s s' with
  | zero => simp [visit] at h
  | succ fuel ih =>
    unfold visit at h
    split_ifs at h with hv hr
    · obtain rfl := Option.some.inj h
      exact .visited hv
    · exact .entered hv hr (explored_foldlM (fun w s s' h => ih h) h)
    · obtain rfl := Option.some.inj h
      exact .postponed (by simpa using hr)

theorem explored_of_visitAll {fuel : ℕ} {ws : List V} {s s' : Visits V}
    (h : visitAll succ ready fuel ws s = some s') : Explored succ ready ws s s' :=
  explored_foldlM (fun _ _ _ h => explored_of_visit h) h

/-- A search without a guard puts nothing off. -/
lemma postponed_of_forced {fuel : ℕ} {ws : List V} {s s' : Visits V}
    (h : visitAll succ (fun _ _ => true) fuel ws s = some s') (hs : s.postponed = []) :
    s'.postponed = [] := by
  rw [List.eq_nil_iff_forall_not_mem]
  intro x hx
  rcases (explored_of_visitAll h).put_off x hx with hx | ⟨-, r, hr⟩
  · exact List.not_mem_nil (hs ▸ hx)
  · simp at hr

/-- A search without a guard visits what can be reached, each node once. -/
theorem reached_of_visit {fuel : ℕ} {v : V} {s : Visits V}
    (h : visit succ (fun _ _ => true) fuel v ⟨[], []⟩ = some s) :
    s.visited.Nodup ∧ ∀ x, x ∈ s.visited ↔ Relation.ReflTransGen (fun a b => b ∈ succ a) v x := by
  have he := explored_of_visit h
  have hdone : ∀ x, x ∈ s.visited ∨ x ∈ s.postponed → x ∈ s.visited := by
    rintro x (hx | hx)
    · exact hx
    · rcases he.put_off x hx with hx | ⟨-, r, hr⟩
      · exact absurd hx List.not_mem_nil
      · simp at hr
  refine ⟨he.nodup List.nodup_nil, fun x => ⟨fun hx => ?_, fun hx => ?_⟩⟩
  · rcases he.reached x hx with hx | ⟨w, hw, hx⟩
    · exact absurd hx List.not_mem_nil
    · rwa [List.mem_singleton.mp hw] at hx
  · induction hx with
    | refl => exact hdone v (he.starts v (List.mem_singleton_self v))
    | @tail y x _ hyx ih =>
      rcases he.closed y ih with hy | hy
      · exact absurd hy List.not_mem_nil
      · exact hdone x (hy x hyx)

/-- Every node that feeds a node has been visited. -/
def Fed (preds : V → List V) (visited : List V) (x : V) : Prop := ∀ p ∈ preds x, p ∈ visited

omit [DecidableEq V] in
lemma fed_foldlM (preds : V → List V) {step : Visits V → V → Option (Visits V)}
    (hstep : ∀ w s s', step s w = some s' → s.visited ⊆ s'.visited ∧
      ∀ x, x ∉ s'.visited → Fed preds s'.visited x → Fed preds s.visited x ∧ x ≠ w)
    {ws : List V} {s s' : Visits V} (h : ws.foldlM step s = some s') :
    s.visited ⊆ s'.visited ∧
      ∀ x, x ∉ s'.visited → Fed preds s'.visited x → Fed preds s.visited x ∧ x ∉ ws := by
  induction ws generalizing s with
  | nil =>
    rw [List.foldlM_nil] at h
    obtain rfl := Option.some.inj h
    exact ⟨List.Subset.refl _, fun x _ hf => ⟨hf, List.not_mem_nil⟩⟩
  | cons w ws ih =>
    rw [List.foldlM_cons, Option.bind_eq_bind, Option.bind_eq_some_iff] at h
    obtain ⟨s₁, h₁, h⟩ := h
    obtain ⟨hsub₁, hfed₁⟩ := hstep w s s₁ h₁
    obtain ⟨hsub, hfed⟩ := ih h
    refine ⟨fun x hx => hsub (hsub₁ hx), fun x hx hf => ?_⟩
    obtain ⟨hf₁, hws⟩ := hfed x hx hf
    obtain ⟨hf₀, hw⟩ := hfed₁ x (fun h => hx (hsub h)) hf₁
    exact ⟨hf₀, by simp [hw, hws]⟩

/-- A search that visits the nodes fed so far leaves no node behind that it has fed. -/
lemma fed_of_visit {preds : V → List V} (hpreds : ∀ x y, x ∈ preds y → y ∈ succ x)
    (hready : ∀ r x, Fed preds r x → ready r x = true) {fuel : ℕ} {v : V} {s s' : Visits V}
    (h : visit succ ready fuel v s = some s') {x : V} (hx : x ∉ s'.visited)
    (hf : Fed preds s'.visited x) : Fed preds s.visited x ∧ x ≠ v := by
  induction fuel generalizing v s s' x with
  | zero => simp [visit] at h
  | succ fuel ih =>
    unfold visit at h
    split_ifs at h with hv hr
    · obtain rfl := Option.some.inj h
      exact ⟨hf, fun h => hx (h ▸ hv)⟩
    · have hall := fed_foldlM preds (fun w s s' h =>
        ⟨(explored_of_visit h).suffix.subset, fun x hx hf => ih h hx hf⟩) h
      obtain ⟨hf', hx'⟩ := hall.2 x hx hf
      refine ⟨fun p hp => ?_, fun heq => hx (heq ▸ hall.1 List.mem_cons_self)⟩
      rcases List.mem_cons.mp (hf' p hp) with rfl | hp'
      · exact absurd (hpreds p x hp) hx'
      · exact hp'
    · obtain rfl := Option.some.inj h
      exact ⟨hf, fun heq => hr (hready _ _ (heq ▸ hf))⟩

lemma fed_of_visitAll {preds : V → List V} (hpreds : ∀ x y, x ∈ preds y → y ∈ succ x)
    (hready : ∀ r x, Fed preds r x → ready r x = true) {fuel : ℕ} {ws : List V} {s s' : Visits V}
    (h : visitAll succ ready fuel ws s = some s') {x : V} (hx : x ∉ s'.visited)
    (hf : Fed preds s'.visited x) : Fed preds s.visited x ∧ x ∉ ws :=
  (fed_foldlM preds (fun _ _ _ h => ⟨(explored_of_visit h).suffix.subset,
    fun _ hx hf => fed_of_visit hpreds hready h hx hf⟩) h).2 x hx hf

/-- The nodes of a finite set that are still to be visited. -/
def unvisited (U : Finset V) (s : Visits V) : Finset V := U.filter (· ∉ s.visited)

lemma unvisited_subset (U : Finset V) {s s' : Visits V} (h : s.visited ⊆ s'.visited) :
    unvisited U s' ⊆ unvisited U s := by
  intro x hx
  obtain ⟨hU, hv⟩ := Finset.mem_filter.mp hx
  exact Finset.mem_filter.mpr ⟨hU, fun hs => hv (h hs)⟩

lemma card_unvisited_enter {U : Finset V} {s : Visits V} {v : V} (hU : v ∈ U)
    (hv : v ∉ s.visited) : (unvisited U (s.enter v)).card < (unvisited U s).card := by
  apply Finset.card_lt_card
  rw [Finset.ssubset_iff_of_subset (unvisited_subset U (List.subset_cons_self v s.visited))]
  refine ⟨v, Finset.mem_filter.mpr ⟨hU, hv⟩, fun h => ?_⟩
  exact (Finset.mem_filter.mp h).2 List.mem_cons_self

lemma exists_foldlM {U : Finset V} {step : Visits V → V → Option (Visits V)} {n : ℕ}
    (hgrow : ∀ w s s', step s w = some s' → s.visited ⊆ s'.visited)
    (hstep : ∀ w ∈ U, ∀ s, (unvisited U s).card < n → ∃ s', step s w = some s')
    {ws : List V} (hws : ∀ w ∈ ws, w ∈ U) {s : Visits V} (hs : (unvisited U s).card < n) :
    ∃ s', ws.foldlM step s = some s' := by
  induction ws generalizing s with
  | nil => exact ⟨s, rfl⟩
  | cons w ws ih =>
    obtain ⟨s₁, h₁⟩ := hstep w (hws w List.mem_cons_self) s hs
    have hle := Finset.card_le_card (unvisited_subset U (hgrow w s s₁ h₁))
    obtain ⟨s', h⟩ := ih (fun u hu => hws u (List.mem_cons_of_mem w hu)) (hle.trans_lt hs)
    refine ⟨s', ?_⟩
    rw [List.foldlM_cons, h₁, Option.bind_eq_bind, Option.bind_some]
    exact h

/-- The search in a finite set returns when there is fuel for each node still to be visited. -/
lemma exists_visit {U : Finset V} (hU : ∀ v ∈ U, ∀ w ∈ succ v, w ∈ U) {fuel : ℕ} {v : V}
    (hv : v ∈ U) {s : Visits V} (hs : (unvisited U s).card < fuel) :
    ∃ s', visit succ ready fuel v s = some s' := by
  induction fuel generalizing v s with
  | zero => omega
  | succ fuel ih =>
    unfold visit
    split_ifs with hvis hr
    · exact ⟨s, rfl⟩
    · have hlt := card_unvisited_enter hv hvis
      exact exists_foldlM (n := fuel) (fun w s s' h => (explored_of_visit h).suffix.subset)
        (fun w hw s hs => ih hw hs) (hU v hv) (by omega)
    · exact ⟨_, rfl⟩

theorem exists_visitAll {U : Finset V} (hU : ∀ v ∈ U, ∀ w ∈ succ v, w ∈ U) {fuel : ℕ}
    (hfuel : U.card < fuel) {ws : List V} (hws : ∀ w ∈ ws, w ∈ U) (s : Visits V) :
    ∃ s', visitAll succ ready fuel ws s = some s' := by
  have hcard := Finset.card_le_card (Finset.filter_subset (· ∉ s.visited) U)
  exact exists_foldlM (n := fuel) (fun w s s' h => (explored_of_visit h).suffix.subset)
    (fun w hw s hs => exists_visit hU hw hs) hws (by unfold unvisited; omega)

/-- The nodes that a guarded search visits: those reached that are fed by such nodes only. -/
inductive Schedulable (succ preds : V → List V) (ws : List V) : V → Prop
  | intro {x : V} (hx : Reached succ ws x) (hp : ∀ p ∈ preds x, Schedulable succ preds ws p) :
      Schedulable succ preds ws x

omit [DecidableEq V] in
lemma Schedulable.reached {preds : V → List V} {ws : List V} {x : V}
    (h : Schedulable succ preds ws x) : Reached succ ws x := by
  cases h with
  | intro hx _ => exact hx

omit [DecidableEq V] in
lemma Schedulable.pred {preds : V → List V} {ws : List V} {x p : V}
    (h : Schedulable succ preds ws x) (hp : p ∈ preds x) : Schedulable succ preds ws p := by
  cases h with
  | intro _ h => exact h p hp

omit [DecidableEq V] in
/-- No such node lies on a loop. -/
lemma Schedulable.not_pred {preds : V → List V} {ws : List V} {x : V}
    (h : Schedulable succ preds ws x) : x ∉ preds x := by
  induction h with
  | intro _ _ ih =>
    intro hx
    exact ih _ hx hx

omit [DecidableEq V] in
/-- They are the nodes before which, in a finite graph, there is neither a node that is not reached
nor a loop. -/
theorem schedulable_iff {preds : V → List V} {ws : List V} {x : V}
    (hfin : {p | Relation.ReflTransGen (fun p y => p ∈ preds y) p x}.Finite) :
    Schedulable succ preds ws x ↔ ∀ p, Relation.ReflTransGen (fun p y => p ∈ preds y) p x →
      Reached succ ws p ∧ ¬Relation.TransGen (fun p y => p ∈ preds y) p p := by
  constructor
  · intro h
    clear hfin
    induction h with
    | @intro x hx _ ih =>
      intro p hp
      rcases Relation.ReflTransGen.cases_tail hp with rfl | ⟨q, hpq, hqx⟩
      · refine ⟨hx, fun hloop => ?_⟩
        obtain ⟨q, hxq, hqx⟩ := Relation.TransGen.tail'_iff.mp hloop
        exact (ih q hqx x hxq).2 hloop
      · exact ih q hqx p hpq
  · intro h
    let S := {p | Relation.ReflTransGen (fun p y => p ∈ preds y) p x}
    have hfinite : Finite S := hfin
    let before : S → S → Prop := fun p y => Relation.TransGen (fun p y => p ∈ preds y) p.1 y.1
    have htrans : IsTrans S before := ⟨fun _ _ _ hpq hqy => hpq.trans hqy⟩
    have hirrefl : Std.Irrefl before := ⟨fun p hp => (h p.1 p.2).2 hp⟩
    have hwf : WellFounded before := Finite.wellFounded_of_trans_of_irrefl before
    have hall : ∀ p : S, Schedulable succ preds ws p.1 := by
      intro p
      induction p using hwf.induction with
      | _ p ih =>
        refine .intro (h p.1 p.2).1 fun q hq => ?_
        exact ih ⟨q, .head hq p.2⟩ (.single hq)
    exact hall ⟨x, .refl⟩

/-- The guarded search, and the search from the nodes that it has put off. -/
structure Search (succ preds : V → List V) (ws : List V) (first last : List V) : Prop where
  suffix : first <:+ last
  nodup : last.Nodup
  mem_first : ∀ x, x ∈ first ↔ Schedulable succ preds ws x
  mem_last : ∀ x, x ∈ last ↔ Reached succ ws x
  fed : ∀ x r, x :: r <:+ last → Schedulable succ preds ws x → Fed preds r x

omit [DecidableEq V] in
lemma suffix_of_mem_suffix {l m r : List V} {x : V} (hl : l.Nodup) (hm : m <:+ l)
    (hr : x :: r <:+ l) (hx : x ∈ m) : x :: r <:+ m := by
  rcases List.suffix_or_suffix_of_suffix hr hm with h | h
  · exact h
  · rcases List.suffix_cons_iff.mp h with rfl | h
    · exact List.suffix_refl _
    · exact absurd (h.subset hx) (List.nodup_cons.mp (hl.sublist hr.sublist)).1

/-- Two passes over the nodes are such a search. -/
theorem search_of_visitAll {preds : V → List V} (hpreds : ∀ x y, x ∈ preds y ↔ y ∈ succ x)
    (hready : ∀ r x, ready r x = true ↔ Fed preds r x) {fuel fuel' : ℕ} {ws : List V}
    {s s' : Visits V} (h : visitAll succ ready fuel ws ⟨[], []⟩ = some s)
    (h' : visitAll succ (fun _ _ => true) fuel' s.postponed ⟨s.visited, []⟩ = some s') :
    Search succ preds ws s.visited s'.visited ∧ s'.postponed = [] := by
  have he := explored_of_visitAll h
  have he' := explored_of_visitAll h'
  have hnone : s'.postponed = [] := postponed_of_forced h' rfl
  have hfed : ∀ x r, x :: r <:+ s.visited → Fed preds r x := by
    intro x r hx
    rcases he.guarded x r hx with hx | hx
    · exact absurd (hx.subset List.mem_cons_self) List.not_mem_nil
    · exact (hready r x).mp hx
  have hfirst : ∀ l, l <:+ s.visited → ∀ x ∈ l, Schedulable succ preds ws x := by
    intro l
    induction l with
    | nil =>
      intro _ x hx
      exact absurd hx List.not_mem_nil
    | cons y l ih =>
      intro hl x hx
      have hl' := (List.suffix_cons y l).trans hl
      rcases List.mem_cons.mp hx with rfl | hx
      · refine .intro ?_ fun p hp => ih hl' p (hfed x l hl p hp)
        rcases he.reached x (hl.subset List.mem_cons_self) with h | h
        · exact absurd h List.not_mem_nil
        · exact h
      · exact ih hl' x hx
  have hmem : ∀ x, x ∈ s.visited ↔ Schedulable succ preds ws x := by
    refine fun x => ⟨hfirst s.visited (List.suffix_refl _) x, fun hx => ?_⟩
    induction hx with
    | @intro x hx _ ih =>
      by_contra hnot
      obtain ⟨hf, hws⟩ := fed_of_visitAll (fun x y => (hpreds x y).mp)
        (fun r x => (hready r x).mpr) h hnot ih
      rcases hx.cases with hx | ⟨y, -, hy⟩
      · exact hws hx
      · exact List.not_mem_nil (hf y ((hpreds y x).mpr hy))
  refine ⟨⟨he'.suffix, ?_, hmem, fun x => ⟨fun hx => ?_, ?_⟩, ?_⟩, hnone⟩
  · exact he'.nodup (he.nodup List.nodup_nil)
  · rcases he'.reached x hx with hx | hx
    · exact ((hmem x).mp hx).reached
    · refine hx.trans fun u hu => ?_
      rcases he.put_off u hu with hu | ⟨hu, -⟩
      · exact absurd hu List.not_mem_nil
      · exact hu
  · have hdone : ∀ x, x ∈ s.visited ∨ x ∈ s.postponed → x ∈ s'.visited := by
      rintro x (hx | hx)
      · exact he'.suffix.subset hx
      · rcases he'.starts x hx with hx | hx
        · exact hx
        · rw [hnone] at hx
          exact absurd hx List.not_mem_nil
    rintro ⟨w, hw, hx⟩
    induction hx with
    | refl => exact hdone w (he.starts w hw)
    | @tail y x _ hyx ih =>
      rcases he'.closed y ih with hy | hy
      · rcases he.closed y hy with hy | hy
        · exact absurd hy List.not_mem_nil
        · exact hdone x (hy x hyx)
      · rcases hy x hyx with hx | hx
        · exact hx
        · rw [hnone] at hx
          exact absurd hx List.not_mem_nil
  · intro x r hx hs
    apply hfed x r
    apply suffix_of_mem_suffix _ he'.suffix hx ((hmem x).mpr hs)
    exact he'.nodup (he.nodup List.nodup_nil)

end MTalk.GuardedSearch
