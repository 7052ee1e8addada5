import Mathlib

/-!
# Lists of entries with different keys

A list in which an entry replaces the one with its key, or is appended, stands for a map from keys
to entries. Each operation on the list is the operation on the map, and the keys stay different.
-/

namespace KeyedLists

variable {α κ : Type} [DecidableEq κ] (key : α → κ)

def put (a : α) : List α → List α
  | [] => [a]
  | b :: l => if key b = key a then a :: l else b :: put a l

/-- The map that a list stands for. -/
def lookup (l : List α) (k : κ) : Option α := l.find? fun a => key a = k

variable {key} {a b : α} {l : List α}

/-- An entry is put into the map under its key. -/
theorem lookup_put (a : α) (l : List α) :
    lookup key (put key a l) = Function.update (lookup key l) (key a) (some a) := by
  funext k
  rw [Function.update_apply]
  induction l with
  | nil =>
    by_cases hk : k = key a
    · simp [put, lookup, hk]
    · simp [put, lookup, hk, Ne.symm hk]
  | cons b l ih =>
    rw [put]
    split_ifs with hb hk hk
    · simp [lookup, hk]
    · have hb' : ¬ key b = k := fun h => hk (h.symm.trans hb)
      simp [lookup, Ne.symm hk, hb']
    · have hb' : ¬ key b = k := fun h => hb (h.trans hk)
      rw [if_pos hk] at ih
      simpa [lookup, hb'] using ih
    · rw [if_neg hk] at ih
      simp only [lookup, List.find?_cons] at ih ⊢
      rw [ih]

lemma put_of_notMem (h : key a ∉ l.map key) : put key a l = l ++ [a] := by
  induction l with
  | nil => rfl
  | cons b l ih =>
    rw [List.map_cons, List.mem_cons, not_or] at h
    rw [put, if_neg (Ne.symm h.1), ih h.2, List.cons_append]

lemma mem_put (h : b ∈ put key a l) : b = a ∨ b ∈ l := by
  induction l with
  | nil => exact Or.inl (List.mem_singleton.mp h)
  | cons d l ih =>
    rw [put] at h
    split_ifs at h
    · rcases List.mem_cons.mp h with rfl | h
      · exact Or.inl rfl
      · exact Or.inr (List.mem_cons_of_mem d h)
    · rcases List.mem_cons.mp h with rfl | h
      · exact Or.inr List.mem_cons_self
      · exact (ih h).imp_right (List.mem_cons_of_mem d)

lemma length_put_le : (put key a l).length ≤ l.length + 1 := by
  induction l with
  | nil => rfl
  | cons b l ih =>
    rw [put]
    split_ifs
    · simp
    · simpa using ih

/-- The keys are those that were there, with the key of the entry. -/
lemma map_key_put : (put key a l).map key =
    if key a ∈ l.map key then l.map key else l.map key ++ [key a] := by
  induction l with
  | nil => rfl
  | cons b l ih =>
    rw [put]
    by_cases hb : key b = key a
    · simp [hb]
    · rw [if_neg hb, List.map_cons, ih]
      simp only [List.map_cons, List.mem_cons, Ne.symm hb, false_or]
      split_ifs
      · rfl
      · rfl

/-- No key is there twice. -/
theorem nodup_put (h : (l.map key).Nodup) : ((put key a l).map key).Nodup := by
  rw [map_key_put]
  split_ifs with hmem
  · exact h
  · exact List.nodup_append.mpr ⟨h, List.nodup_singleton _, fun x hx y hy hxy =>
      hmem (by rw [← List.mem_singleton.mp hy, ← hxy]; exact hx)⟩

/-- Other numbers of the entries stay different with a new one. -/
lemma nodup_map_put {β : Type} {num : α → β} (h : (l.map num).Nodup) (ha : ∀ b ∈ l, num b ≠ num a) :
    ((put key a l).map num).Nodup := by
  induction l with
  | nil => simp [put]
  | cons b l ih =>
    rw [List.map_cons, List.nodup_cons] at h
    have htail : ∀ d ∈ l, num d ≠ num a := fun d hd => ha d (List.mem_cons_of_mem b hd)
    rw [put]
    split_ifs
    · rw [List.map_cons, List.nodup_cons]
      refine ⟨fun hmem => ?_, h.2⟩
      obtain ⟨d, hd, hsame⟩ := List.mem_map.mp hmem
      exact htail d hd hsame
    · rw [List.map_cons, List.nodup_cons]
      refine ⟨fun hmem => ?_, ih h.2 htail⟩
      obtain ⟨d, hd, hsame⟩ := List.mem_map.mp hmem
      rcases mem_put hd with rfl | hd
      · exact ha b List.mem_cons_self hsame.symm
      · exact h.1 (List.mem_map.mpr ⟨d, hd, hsame⟩)

/-- Removing the one entry with a number removes it from the map. -/
theorem lookup_eraseP {β : Type} [DecidableEq β] {num : α → β} (hkeys : (l.map key).Nodup)
    (hnums : (l.map num).Nodup) (r : β) (k : κ) :
    lookup key (l.eraseP (num · = r)) k = (lookup key l k).filter (num · ≠ r) := by
  induction l with
  | nil => rfl
  | cons b l ih =>
    rw [List.map_cons, List.nodup_cons] at hkeys hnums
    by_cases hb : num b = r
    · rw [List.eraseP_cons_of_pos (by simpa using hb)]
      by_cases hk : key b = k
      · have hnone : lookup key l k = none := by
          rw [lookup, List.find?_eq_none]
          intro d hd hsame
          exact hkeys.1 (List.mem_map.mpr ⟨d, hd, (of_decide_eq_true hsame).trans hk.symm⟩)
        rw [hnone]
        simp [lookup, hk, hb, Option.filter_some]
      · have hothers : (lookup key l k).filter (num · ≠ r) = lookup key l k := by
          cases hfound : lookup key l k with
          | none => rfl
          | some d =>
            have hne : num d ≠ r := fun hsame => hnums.1 (List.mem_map.mpr
              ⟨d, List.mem_of_find?_eq_some hfound, hsame.trans hb.symm⟩)
            rw [Option.filter_some, if_pos (decide_eq_true hne)]
        simp only [lookup, List.find?_cons, hk, decide_false] at hothers ⊢
        exact hothers.symm
    · rw [List.eraseP_cons_of_neg (by simpa using hb)]
      have hrest := ih hkeys.2 hnums.2
      by_cases hk : key b = k
      · simp [lookup, hk, hb, Option.filter_some]
      · simp only [lookup, List.find?_cons, hk, decide_false] at hrest ⊢
        exact hrest

lemma mem_of_lookup {k : κ} (h : lookup key l k = some a) : a ∈ l ∧ key a = k :=
  ⟨List.mem_of_find?_eq_some h, by simpa using List.find?_some h⟩

end KeyedLists
