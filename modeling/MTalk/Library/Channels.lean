import Mathlib.Data.List.Basic

/-!
# Channels that keep the order

A channel may lose a message or deliver it several times, and it keeps the order.
-/

namespace MTalk.Channels

variable {α : Type*}

/-- What arrives of a list of messages. -/
inductive Delivers : List α → List α → Prop
  | nil : Delivers [] []
  | lost {a : α} {l r : List α} (h : Delivers l r) : Delivers (a :: l) r
  | again {a : α} {l r : List α} (h : Delivers (a :: l) r) : Delivers (a :: l) (a :: r)

lemma Delivers.mem {l r : List α} (h : Delivers l r) {a : α} (ha : a ∈ r) : a ∈ l := by
  induction h with
  | nil => exact ha
  | lost _ ih => exact List.mem_cons_of_mem _ (ih ha)
  | again _ ih =>
    rcases List.mem_cons.mp ha with rfl | ha
    · exact List.mem_cons_self
    · exact ih ha

/-- A relation between earlier and later messages that holds between copies is kept. -/
lemma Delivers.pairwise {R : α → α → Prop} (hrefl : ∀ a, R a a) {l r : List α}
    (h : Delivers l r) (hl : l.Pairwise R) : r.Pairwise R := by
  induction h with
  | nil => exact hl
  | lost _ ih => exact ih hl.of_cons
  | again h ih =>
    refine List.pairwise_cons.mpr ⟨fun b hb => ?_, ih hl⟩
    rcases List.mem_cons.mp (h.mem hb) with rfl | hb
    · exact hrefl b
    · exact List.rel_of_pairwise_cons hl hb

lemma Delivers.sublist {l m r : List α} (h : Delivers l m) (hr : List.Sublist r m) :
    Delivers l r := by
  induction h generalizing r with
  | nil =>
    rw [List.sublist_nil.mp hr]
    exact .nil
  | lost _ ih => exact .lost (ih hr)
  | @again a l m h ih =>
    cases hr with
    | cons _ hr => exact ih hr
    | cons_cons _ hr => exact .again (ih hr)

/-- What arrives of two lists is what arrives of the one and then of the other. -/
lemma Delivers.append_left {l l' r : List α} (h : Delivers (l ++ l') r) :
    ∃ s s', r = s ++ s' ∧ Delivers l s ∧ Delivers l' s' := by
  induction l generalizing r with
  | nil => exact ⟨[], r, rfl, .nil, h⟩
  | cons a l ih =>
    rw [List.cons_append] at h
    generalize hl : a :: (l ++ l') = m at h
    induction h with
    | nil => cases hl
    | lost h _ =>
      obtain ⟨rfl, rfl⟩ := List.cons.inj hl
      obtain ⟨s, s', rfl, hs, hs'⟩ := ih h
      exact ⟨s, s', rfl, .lost hs, hs'⟩
    | again h ih' =>
      obtain ⟨s, s', rfl, hs, hs'⟩ := ih' hl
      obtain ⟨rfl, rfl⟩ := List.cons.inj hl
      exact ⟨a :: s, s', rfl, .again hs, hs'⟩

end MTalk.Channels
