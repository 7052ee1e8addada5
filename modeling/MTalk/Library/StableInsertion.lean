import Mathlib

/-!
# Insertion into an ordered list

An element is put in before the first one that it has to be before, so that of two elements of
which neither has to be before the other the earlier one stays in front. A relation then holds all
along the resulting list if it holds for each two elements in the order that they get.
-/

namespace StableInsertion

variable {α : Type} (before : α → α → Bool)

def insertBy (l : List α) (a : α) : List α :=
  l.takeWhile (fun b => !before a b) ++ a :: l.dropWhile fun b => !before a b

def insertAll (l : List α) : List α := l.foldl (insertBy before) []

/-- Neither of two elements is before the other where their order is not fixed, and an element that
is before another one can be told apart from it by every third. -/
structure WeakOrderOn (s : Set α) : Prop where
  asymm : ∀ a ∈ s, ∀ b ∈ s, before a b = true → before b a = false
  cotrans : ∀ a ∈ s, ∀ b ∈ s, ∀ c ∈ s, before a b = true → before a c = true ∨ before c b = true

variable {before} {l : List α} {a b : α}

lemma WeakOrderOn.mono {s t : Set α} (h : WeakOrderOn before t) (hst : s ⊆ t) :
    WeakOrderOn before s where
  asymm a ha b hb := h.asymm a (hst ha) b (hst hb)
  cotrans a ha b hb c hc := h.cotrans a (hst ha) b (hst hb) c (hst hc)

/-- The comparison of keys in a linear order. -/
lemma weakOrderOn_key {K : Type} [LinearOrder K] {s : Set α} {key : α → K}
    (h : ∀ a ∈ s, ∀ b ∈ s, before a b = decide (key a < key b)) : WeakOrderOn before s where
  asymm a ha b hb hab := by
    rw [h a ha b hb, decide_eq_true_iff] at hab
    rw [h b hb a ha, decide_eq_false_iff_not]
    exact hab.asymm
  cotrans a ha b hb c hc hab := by
    rw [h a ha b hb, decide_eq_true_iff] at hab
    rw [h a ha c hc, h c hc b hb, decide_eq_true_iff, decide_eq_true_iff]
    exact (lt_or_ge (key a) (key c)).imp_right fun hca => hca.trans_lt hab

lemma perm_insertBy (l : List α) (a : α) : (insertBy before l a).Perm (a :: l) := by
  unfold insertBy
  apply List.perm_middle.trans
  rw [List.takeWhile_append_dropWhile]

@[simp] lemma insertAll_nil : insertAll before [] = [] := rfl

lemma insertAll_concat (l : List α) (a : α) :
    insertAll before (l ++ [a]) = insertBy before (insertAll before l) a := by
  rw [insertAll, List.foldl_append]
  rfl

/-- No element is lost or doubled. -/
theorem perm_insertAll (before : α → α → Bool) (l : List α) : (insertAll before l).Perm l := by
  induction l using List.reverseRecOn with
  | nil => exact List.Perm.refl _
  | append_singleton l a ih =>
    rw [insertAll_concat]
    apply (perm_insertBy _ a).trans
    exact (ih.cons a).trans (List.perm_append_singleton a l).symm

@[simp] lemma mem_insertAll : a ∈ insertAll before l ↔ a ∈ l := (perm_insertAll before l).mem_iff

/-- In an ordered list everything behind the place of an element has to be behind the element. -/
lemma before_of_mem_dropWhile {s : Set α} (h : WeakOrderOn before s) (ha : a ∈ s)
    (hl : ∀ b ∈ l, b ∈ s) (hsorted : l.Pairwise fun b c => before c b = false)
    (hb : b ∈ l.dropWhile fun b => !before a b) : before a b = true := by
  induction l with
  | nil => cases hb
  | cons c l ih =>
    rw [List.pairwise_cons] at hsorted
    rw [List.dropWhile_cons] at hb
    split_ifs at hb with hc
    · exact ih (fun b hb => hl b (List.mem_cons_of_mem c hb)) hsorted.2 hb
    · have hfirst : before a c = true := by simpa using hc
      rcases List.mem_cons.mp hb with rfl | hb
      · exact hfirst
      · have hmem := List.mem_cons_of_mem c hb
        rcases h.cotrans a ha c (hl c List.mem_cons_self) b (hl b hmem) hfirst with hab | hbc
        · exact hab
        · rw [hsorted.1 b hb] at hbc
          cases hbc

lemma not_before_of_mem_takeWhile (hb : b ∈ l.takeWhile fun b => !before a b) :
    before a b = false := by
  have := List.mem_takeWhile_imp hb
  simpa using this

/-- A relation along an ordered list with one more element. -/
lemma pairwise_insertBy_iff {s : Set α} {Q : α → α → Prop} (h : WeakOrderOn before s) (ha : a ∈ s)
    (hl : ∀ b ∈ l, b ∈ s) (hsorted : l.Pairwise fun b c => before c b = false) :
    (insertBy before l a).Pairwise Q ↔
      l.Pairwise Q ∧ ∀ b ∈ l, if before a b then Q a b else Q b a := by
  have hdrop : ∀ b ∈ l.dropWhile (fun b => !before a b), before a b = true := fun b hb =>
    before_of_mem_dropWhile h ha hl hsorted hb
  have htake : ∀ b ∈ l.takeWhile (fun b => !before a b), before a b = false := fun b hb =>
    not_before_of_mem_takeWhile hb
  have hparts : ∀ P : α → Prop, (∀ b ∈ l, P b) ↔
      (∀ b ∈ l.takeWhile (fun b => !before a b), P b) ∧
        ∀ b ∈ l.dropWhile (fun b => !before a b), P b := by
    intro P
    rw [← List.forall_mem_append, List.takeWhile_append_dropWhile]
  have hpairs : l.Pairwise Q ↔ (l.takeWhile (fun b => !before a b) ++
      l.dropWhile fun b => !before a b).Pairwise Q := by
    rw [List.takeWhile_append_dropWhile]
  rw [hparts, hpairs, insertBy, List.pairwise_append, List.pairwise_append, List.pairwise_cons]
  constructor
  · rintro ⟨htail, ⟨hhead, hrest⟩, hcross⟩
    refine ⟨⟨htail, hrest, fun b hb c hc => hcross b hb c (List.mem_cons_of_mem a hc)⟩, ?_, ?_⟩
    · intro b hb
      rw [htake b hb, if_neg Bool.false_ne_true]
      exact hcross b hb a List.mem_cons_self
    · intro b hb
      rw [hdrop b hb, if_pos rfl]
      exact hhead b hb
  · rintro ⟨⟨htail, hrest, hcross⟩, hfront, hback⟩
    refine ⟨htail, ⟨fun b hb => ?_, hrest⟩, fun b hb c hc => ?_⟩
    · have := hback b hb
      rwa [hdrop b hb, if_pos rfl] at this
    · rcases List.mem_cons.mp hc with rfl | hc
      · have := hfront b hb
        rwa [htake b hb, if_neg Bool.false_ne_true] at this
      · exact hcross b hb c hc

/-- The resulting list is ordered. -/
theorem sorted_insertAll (h : WeakOrderOn before {a | a ∈ l}) :
    (insertAll before l).Pairwise fun a b => before b a = false := by
  induction l using List.reverseRecOn with
  | nil => exact List.Pairwise.nil
  | append_singleton l a ih =>
    have hsorted := ih (h.mono fun b hb => List.mem_append_left [a] hb)
    have hmem : ∀ b ∈ insertAll before l, b ∈ l ++ [a] := fun b hb =>
      List.mem_append_left [a] (mem_insertAll.mp hb)
    have ha : a ∈ l ++ [a] := by simp
    rw [insertAll_concat, pairwise_insertBy_iff h ha hmem hsorted]
    refine ⟨hsorted, fun b hb => ?_⟩
    split_ifs with hab
    · exact h.asymm a ha b (hmem b hb) hab
    · simpa using hab

/-- A relation holds along the resulting list exactly if it holds for each two elements in the order
that they get. -/
theorem pairwise_insertAll_iff {Q : α → α → Prop} (h : WeakOrderOn before {a | a ∈ l}) :
    (insertAll before l).Pairwise Q ↔
      l.Pairwise fun a b => if before b a then Q b a else Q a b := by
  induction l using List.reverseRecOn with
  | nil => simp
  | append_singleton l a ih =>
    have hl := h.mono fun b hb => List.mem_append_left [a] hb
    have hmem : ∀ b ∈ insertAll before l, b ∈ l ++ [a] := fun b hb =>
      List.mem_append_left [a] (mem_insertAll.mp hb)
    have ha : a ∈ l ++ [a] := by simp
    rw [insertAll_concat, pairwise_insertBy_iff h ha hmem (sorted_insertAll hl), ih hl,
      List.pairwise_append]
    simp only [mem_insertAll, List.pairwise_singleton, true_and, List.mem_singleton, forall_eq]

end StableInsertion
