import Mathlib

/-!
# Texts of the Java library

The text of a collection, the parts of a text between commas and the range of a text. The text of a
collection is split into its items again only when there is one item: further items keep the blank
after the comma, and no item at all gives the empty text.
-/

namespace MTalk.JavaText

/-- `String.split` at a character: the parts between its places, without the empty parts at the
end. A text without the character is the only part. -/
def split (c : Char) (s : List Char) : List (List Char) :=
  if c ∈ s then (s.splitOn c).rdropWhile (·.isEmpty) else [s]

/-- `String.substring`, which fails outside of the text. -/
def substring (s : List Char) (beginIndex endIndex : ℤ) : Option (List Char) :=
  if 0 ≤ beginIndex ∧ beginIndex ≤ endIndex ∧ endIndex ≤ s.length then
    some ((s.take endIndex.toNat).drop beginIndex.toNat)
  else none

/-- Items with a comma and a blank between them. -/
def joined : List (List Char) → List Char
  | [] => []
  | [x] => x
  | x :: y :: items => x ++ ',' :: ' ' :: joined (y :: items)

/-- `AbstractCollection.toString`. -/
def collectionText (items : List (List Char)) : List Char := '[' :: joined items ++ [']']

/-- An order in which `HashSet` enumerates its elements. -/
structure HashOrder where
  enumerate : Finset String → List String
  nodup : ∀ s, (enumerate s).Nodup
  mem : ∀ s x, x ∈ enumerate s ↔ x ∈ s

/-- The order of the texts. -/
def HashOrder.sorted : HashOrder where
  enumerate s := s.sort (· ≤ ·)
  nodup s := s.sort_nodup (· ≤ ·)
  mem s x := by simp

namespace HashOrder

variable (order : HashOrder)

lemma enumerate_empty : order.enumerate ∅ = [] := by
  rw [List.eq_nil_iff_forall_not_mem]
  intro x hx
  rw [order.mem] at hx
  simp at hx

lemma enumerate_singleton (x : String) : order.enumerate {x} = [x] := by
  have hmem : ∀ y, y ∈ order.enumerate {x} ↔ y = x := by
    intro y
    rw [order.mem, Finset.mem_singleton]
  have hperm : (order.enumerate {x}).Perm [x] := by
    rw [List.perm_ext_iff_of_nodup (order.nodup _) (List.nodup_singleton x)]
    intro y
    rw [hmem, List.mem_singleton]
  exact List.perm_singleton.mp hperm

/-- The text of a `HashSet`. -/
def text (s : Finset String) : List Char := collectionText ((order.enumerate s).map String.toList)

end HashOrder

/-! The range between the brackets. -/

lemma collectionText_length (items : List (List Char)) :
    (collectionText items).length = (joined items).length + 2 := by
  simp [collectionText]

lemma substring_collectionText (items : List (List Char)) :
    substring (collectionText items) 1 ((collectionText items).length - 1) = some (joined items) := by
  have hstop : (((collectionText items).length : ℤ) - 1).toNat = (joined items).length + 1 := by
    rw [collectionText_length]
    omega
  unfold substring
  rw [if_pos, hstop]
  · simp [collectionText]
  · rw [collectionText_length]
    omega

/-! The parts between the commas. -/

lemma intercalate_cons_cons (x y : List Char) (items : List (List Char)) :
    [','].intercalate (x :: y :: items) = x ++ ',' :: [','].intercalate (y :: items) := by
  simp [List.intercalate, List.intersperse_cons_cons]

lemma intercalate_cons_blank (x : List Char) (items : List (List Char)) :
    [','].intercalate ((' ' :: x) :: items) = ' ' :: [','].intercalate (x :: items) := by
  cases items with
  | nil => simp [List.intercalate]
  | cons y items => rw [intercalate_cons_cons, intercalate_cons_cons, List.cons_append]

lemma joined_eq_intercalate (x : List Char) (items : List (List Char)) :
    joined (x :: items) = [','].intercalate (x :: items.map (' ' :: ·)) := by
  induction items generalizing x with
  | nil => simp [joined, List.intercalate]
  | cons y items ih =>
    rw [joined, ih, List.map_cons, intercalate_cons_cons, intercalate_cons_blank]

/-- One item is the whole text. -/
lemma split_joined_singleton {x : List Char} (hx : ',' ∉ x) : split ',' (joined [x]) = [x] :=
  if_neg hx

/-- Of more items, all but the first keep a blank. -/
lemma split_joined {x : List Char} {items : List (List Char)} (hitems : items ≠ [])
    (hcomma : ∀ y ∈ x :: items, ',' ∉ y) :
    split ',' (joined (x :: items)) = x :: items.map (' ' :: ·) := by
  obtain ⟨y, items, rfl⟩ := List.exists_cons_of_ne_nil hitems
  have hmem : ',' ∈ joined (x :: y :: items) := by simp [joined]
  have hparts : ∀ z ∈ x :: (y :: items).map (' ' :: ·), ',' ∉ z := by
    intro z hz
    rcases List.mem_cons.mp hz with rfl | hz
    · exact hcomma z List.mem_cons_self
    · obtain ⟨w, hw, rfl⟩ := List.mem_map.mp hz
      simpa using hcomma w (List.mem_cons_of_mem x hw)
  rw [split, if_pos hmem, joined_eq_intercalate, List.splitOn_intercalate _ hparts (by simp),
    List.rdropWhile_eq_self_iff]
  intro hne
  rw [List.getLast_cons (by simp), List.getLast_map]
  simp

/-- A blank before all items but the first makes a different set, if there is more than one. -/
lemma blank_changes_set {x : List Char} {items : List (List Char)} (hitems : items ≠ [])
    (hnodup : (x :: items).Nodup) :
    ¬ ∀ s, s ∈ x :: items.map (' ' :: ·) ↔ s ∈ x :: items := by
  intro h
  have hset : (x :: items.map (' ' :: ·)).toFinset = (x :: items).toFinset := by
    ext s
    rw [List.mem_toFinset, List.mem_toFinset, h]
  have hcard : (x :: items.map (' ' :: ·)).toFinset.card = (x :: items.map (' ' :: ·)).length := by
    rw [hset, List.toFinset_card_of_nodup hnodup]
    simp
  have hparts : (x :: items.map (' ' :: ·)).Nodup :=
    Multiset.toFinset_card_eq_card_iff_nodup.mp hcard
  have hperm := (List.perm_ext_iff_of_nodup hparts hnodup).mpr h
  have hsum := (hperm.map List.length).sum_eq
  have hlonger : ((items.map (' ' :: ·)).map List.length).sum
      = (items.map List.length).sum + items.length := by
    rw [List.map_map]
    clear hitems hnodup h hset hcard hparts hperm hsum
    induction items with
    | nil => rfl
    | cons y items ih =>
      simp only [List.map_cons, List.sum_cons, Function.comp_apply, List.length_cons] at ih ⊢
      omega
  rw [List.map_cons, List.map_cons, List.sum_cons, List.sum_cons, hlonger] at hsum
  have hlength := List.length_pos_iff.mpr hitems
  omega

/-! A set that was written and read back. -/

namespace HashOrder

variable (order : HashOrder)

/-- The parts that the reading of a set finds. -/
def parts (s : Finset String) : List String :=
  (split ',' (joined ((order.enumerate s).map String.toList))).map String.ofList

lemma parts_empty : order.parts ∅ = [""] := by
  rw [parts, enumerate_empty]
  rfl

lemma parts_singleton {x : String} (hx : ',' ∉ x.toList) : order.parts {x} = [x] := by
  rw [parts, enumerate_singleton, List.map_singleton, split_joined_singleton hx,
    List.map_singleton, String.ofList_toList]

/-- A set of texts without commas is read back exactly when it has one element. -/
theorem parts_toFinset_iff {s : Finset String} (hcomma : ∀ x ∈ s, ',' ∉ x.toList) :
    (order.parts s).toFinset = s ↔ ∃ x, s = {x} := by
  constructor
  · intro h
    rcases horder : order.enumerate s with _ | ⟨x, items⟩
    · have hempty : s = ∅ := by
        rw [Finset.eq_empty_iff_forall_notMem]
        intro x hx
        rw [← order.mem, horder] at hx
        cases hx
      rw [hempty, parts_empty] at h
      simp at h
    · refine ⟨x, ?_⟩
      have hmem := order.mem s
      have hnodup := order.nodup s
      rw [horder] at hmem hnodup
      by_cases hitems : items = []
      · ext y
        rw [← hmem, hitems, List.mem_singleton, Finset.mem_singleton]
      · have hchars : ∀ y ∈ x.toList :: items.map String.toList, ',' ∉ y := by
          intro y hy
          rw [← List.map_cons] at hy
          obtain ⟨z, hz, rfl⟩ := List.mem_map.mp hy
          exact hcomma z ((hmem z).mp hz)
        have hlist : (x.toList :: items.map String.toList).Nodup := by
          rw [← List.map_cons]
          exact hnodup.map fun _ _ h => String.toList_injective h
        refine absurd ?_ (blank_changes_set (by simpa using hitems) hlist)
        intro y
        have hparts : order.parts s
            = (x.toList :: (items.map String.toList).map (' ' :: ·)).map String.ofList := by
          rw [parts, horder, List.map_cons, split_joined (by simpa using hitems) hchars]
        have hread : String.ofList y ∈ order.parts s ↔ String.ofList y ∈ s := by
          rw [← List.mem_toFinset, h]
        rw [hparts, List.mem_map_of_injective fun _ _ h => String.ofList_injective h, ← hmem] at hread
        rw [hread, ← List.map_cons, List.mem_map]
        constructor
        · intro hy
          exact ⟨_, hy, String.toList_ofList⟩
        · rintro ⟨z, hz, rfl⟩
          rwa [String.ofList_toList]
  · rintro ⟨x, rfl⟩
    rw [parts_singleton _ (hcomma x (Finset.mem_singleton_self x))]
    rfl

end HashOrder

/-! Characters and parts. -/

lemma mem_intercalate {c : Char} {items : List (List Char)} (h : c ∈ [','].intercalate items)
    (hc : c ≠ ',') : ∃ x ∈ items, c ∈ x := by
  induction items with
  | nil => simp [List.intercalate] at h
  | cons x items ih =>
    cases items with
    | nil => exact ⟨x, List.mem_cons_self, by simpa [List.intercalate] using h⟩
    | cons y items =>
      rw [intercalate_cons_cons, List.mem_append, List.mem_cons] at h
      rcases h with hx | hcomma | hrest
      · exact ⟨x, List.mem_cons_self, hx⟩
      · exact absurd hcomma hc
      · obtain ⟨z, hz, hcz⟩ := ih hrest
        exact ⟨z, List.mem_cons_of_mem x hz, hcz⟩

/-- A character other than the comma is in one of the parts. -/
lemma mem_split {c : Char} {s : List Char} (h : c ∈ s) (hc : c ≠ ',') :
    ∃ x ∈ split ',' s, c ∈ x := by
  unfold split
  split_ifs
  · rw [← (List.intercalate_splitOn ',' : [','].intercalate (s.splitOn ',') = s)] at h
    obtain ⟨x, hx, hcx⟩ := mem_intercalate h hc
    refine ⟨x, ?_, hcx⟩
    have hparts := List.rdropWhile_append_rtakeWhile (p := fun l : List Char => l.isEmpty)
      (l := s.splitOn ',')
    rw [← hparts, List.mem_append] at hx
    rcases hx with hx | hx
    · exact hx
    · have hempty := List.mem_rtakeWhile_imp hx
      rw [List.isEmpty_iff] at hempty
      rw [hempty] at hcx
      cases hcx
  · exact ⟨s, List.mem_singleton_self s, h⟩

lemma split_of_notMem {s : List Char} (h : ',' ∉ s) : split ',' s = [s] := if_neg h

/-- A comma at the end makes no part. -/
lemma split_concat_comma {x : List Char} (hx : ',' ∉ x) (hne : x ≠ []) :
    split ',' (x ++ [',']) = [x] := by
  have htext : x ++ [','] = [','].intercalate [x, []] := by
    rw [intercalate_cons_cons]
    simp [List.intercalate]
  have hparts : ∀ y ∈ [x, []], ',' ∉ y := by
    intro y hy
    simp only [List.mem_cons, List.not_mem_nil, or_false] at hy
    rcases hy with rfl | rfl
    · exact hx
    · simp
  have hsplit : (x ++ [',']).splitOn ',' = [x] ++ [[]] := by
    rw [htext, List.splitOn_intercalate _ hparts (by simp)]
    rfl
  rw [split, if_pos (by simp), hsplit, List.rdropWhile_concat_pos _ _ _ rfl,
    List.rdropWhile_singleton, if_neg (by simpa using hne)]

lemma substring_eq_some {s t : List Char} {n : ℕ} (h : substring s 1 (n - 1) = some t) :
    2 ≤ n ∧ t = (s.drop 1).take (n - 2) := by
  unfold substring at h
  split_ifs at h with hrange
  have htwo : 2 ≤ n := by omega
  refine ⟨htwo, ?_⟩
  have hstop : ((n : ℤ) - 1).toNat = n - 1 := by omega
  rw [hstop, Option.some.injEq] at h
  rw [← h, Int.toNat_one, List.drop_take]
  rfl

/-! Two texts with a character between them. -/

/-- The parts of a text do not have the character it is split at. -/
lemma not_mem_of_mem_split {c : Char} {s part : List Char} (h : part ∈ split c s) : c ∉ part := by
  have hparts : ∀ (s part : List Char), part ∈ s.splitOn c → c ∉ part := by
    intro s
    induction s with
    | nil =>
      intro part hpart
      simp only [List.splitOn_nil, List.mem_singleton] at hpart
      simp [hpart]
    | cons x s ih =>
      intro part hpart
      rw [List.splitOn_cons_eq_if_modifyHead] at hpart
      split_ifs at hpart with hx
      · rcases List.mem_cons.mp hpart with rfl | hpart
        · exact List.not_mem_nil
        · exact ih part hpart
      · obtain ⟨first, rest, hsplit⟩ := List.exists_cons_of_ne_nil (List.splitOn_ne_nil c s)
        rw [hsplit] at hpart
        rcases List.mem_cons.mp hpart with rfl | hpart
        · have hfirst := ih first (by simp [hsplit])
          simp only [beq_iff_eq] at hx
          simp [hfirst, Ne.symm hx]
        · exact ih part (by simp [hsplit, hpart])
  unfold split at h
  split_ifs at h with hc
  · exact hparts s part ((List.rdropWhile_prefix _ _).subset h)
  · rw [List.mem_singleton] at h
    exact h ▸ hc

/-- Two texts with a character between them are split into the two if and only if neither has the
character. -/
theorem split_pair_iff {c : Char} {a b : List Char} (hb : b ≠ []) :
    ((split c (a ++ c :: b))[0]? = some a ∧ (split c (a ++ c :: b))[1]? = some b) ↔
      c ∉ a ∧ c ∉ b := by
  constructor
  · rintro ⟨hfirst, hsecond⟩
    exact ⟨not_mem_of_mem_split (List.mem_of_getElem? hfirst),
      not_mem_of_mem_split (List.mem_of_getElem? hsecond)⟩
  · rintro ⟨ha, hcb⟩
    have hsplit : split c (a ++ c :: b) = [a, b] := by
      rw [split, if_pos (by simp), List.splitOn_append_cons_self_of_not_mem ha,
        List.splitOn_eq_singleton hcb, List.rdropWhile_eq_self_iff]
      simp [hb]
    rw [hsplit]
    exact ⟨rfl, rfl⟩

/-- No other two texts with the character between them make the same text if and only if the
character is in the first only at its start and in the second only at its end. -/
theorem join_unique_iff {c : Char} {a b : List Char} (ha : a ≠ []) (hb : b ≠ []) :
    (∀ a' b', a' ≠ [] → b' ≠ [] → a' ++ c :: b' = a ++ c :: b → a' = a ∧ b' = b) ↔
      c ∉ a.tail ∧ c ∉ b.dropLast := by
  constructor
  · intro h
    constructor
    · intro hmem
      obtain ⟨x, rest, rfl⟩ := List.exists_cons_of_ne_nil ha
      obtain ⟨p, q, hpq⟩ := List.append_of_mem hmem
      rw [List.tail_cons] at hpq
      have heq := (h (x :: p) (q ++ c :: b) (by simp) (by simp) (by simp [hpq])).2
      have hlength := congrArg List.length heq
      simp only [List.length_append, List.length_cons] at hlength
      omega
    · intro hmem
      obtain ⟨p, q, hpq⟩ := List.append_of_mem hmem
      have hlast : p ++ c :: (q ++ [b.getLast hb]) = b := by
        calc p ++ c :: (q ++ [b.getLast hb]) = b.dropLast ++ [b.getLast hb] := by
              rw [hpq]
              simp
          _ = b := List.dropLast_append_getLast hb
      have heq := (h (a ++ c :: p) (q ++ [b.getLast hb]) (by simp) (by simp)
        (by conv_rhs => rw [← hlast]
            simp)).1
      have hlength := congrArg List.length heq
      simp only [List.length_append, List.length_cons] at hlength
      omega
  · rintro ⟨htail, hlast⟩ a' b' ha' hb' heq
    rcases List.append_eq_append_iff.mp heq with ⟨m, rfl, hm⟩ | ⟨m, rfl, hm⟩
    · cases m with
      | nil => exact ⟨by simp, by simpa using hm⟩
      | cons x m =>
        obtain ⟨rfl, -⟩ := List.cons.inj hm
        obtain ⟨y, rest, rfl⟩ := List.exists_cons_of_ne_nil ha'
        exact absurd (by simp) htail
    · cases m with
      | nil => exact ⟨by simp, by simpa using hm.symm⟩
      | cons x m =>
        rw [List.cons_append, List.cons.injEq] at hm
        obtain ⟨rfl, rfl⟩ := hm
        rw [List.dropLast_append_of_ne_nil (by simp)] at hlast
        exact absurd (by simp [List.dropLast_cons_of_ne_nil hb']) hlast

end MTalk.JavaText
