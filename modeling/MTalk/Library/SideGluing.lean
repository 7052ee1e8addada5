import Mathlib

/-!
# Gluing faces along their sides

A complex is given by faces of type `α`, sides `α × ι` and a partial map that sends a side to
the side glued to it. `Symmetric` says that gluing is mutual on a set of faces. Faces leave a
complex by `cut` and enter it by `Pasted`; the rules below carry symmetry through a sequence
of cuts and pastes, where a face that is still to be pasted may already point at sides that do
not point back.
-/

namespace SideGluing

variable {α ι : Type*}

abbrev Link (α ι : Type*) := α × ι → Option (α × ι)

/-- Every glued side of a face in `L` is glued back, to a face of `L`. -/
def Symmetric (l : Link α ι) (L : α → Prop) : Prop :=
  ∀ a b, L a.1 → l a = some b → L b.1 ∧ l b = some a

/-- No two sides of faces in `L` are glued to the same side. -/
def Unshared (l : Link α ι) (L : α → Prop) : Prop :=
  ∀ a a' b, L a.1 → L a'.1 → l a = some b → l a' = some b → a = a'

/-- Gluing is mutual on `L`, except that sides of the faces in `todo` may be glued to sides
that are free. -/
structure Pending (l : Link α ι) (L todo : α → Prop) : Prop where
  back : ∀ a b, L a.1 → l a = some b → L b.1 ∧ (l b = some a ∨ todo a.1 ∧ l b = none)
  unshared : Unshared l L

/-- `l'` is `l` after the sides glued to the face `t` have been freed. -/
def Cut (l : Link α ι) (t : α) (l' : Link α ι) : Prop :=
  ∀ a, ((∃ i, l (t, i) = some a) → l' a = none) ∧ ((∀ i, l (t, i) ≠ some a) → l' a = l a)

/-- `l'` is `l` after the sides glued to the face `t` have been glued back. -/
def Pasted (l : Link α ι) (t : α) (l' : Link α ι) : Prop :=
  ∀ a, ((∀ i, l (t, i) ≠ some a) ∧ l' a = l a) ∨ ∃ i, l (t, i) = some a ∧ l' a = some (t, i)

variable {l l' : Link α ι} {L todo : α → Prop} {t : α}

lemma Symmetric.unshared (h : Symmetric l L) : Unshared l L := by
  intro a a' b ha ha' hab ha'b
  have h1 := (h a b ha hab).2
  have h2 := (h a' b ha' ha'b).2
  rw [h1] at h2
  exact Option.some.inj h2

lemma Symmetric.pending (h : Symmetric l L) : Pending l L (fun _ => False) :=
  ⟨fun a b ha hab => ⟨(h a b ha hab).1, .inl (h a b ha hab).2⟩, h.unshared⟩

lemma Pending.symmetric (h : Pending l L todo) (hdone : ∀ a, ¬todo a) : Symmetric l L := by
  intro a b ha hab
  obtain ⟨hb, hback | ⟨htodo, -⟩⟩ := h.back a b ha hab
  · exact ⟨hb, hback⟩
  · exact absurd htodo (hdone a.1)

/-- New faces next to a symmetric complex: their sides are glued to each other or to free sides. -/
theorem Symmetric.pending_new {N : α → Prop} (h : Symmetric l L) (hdisj : ∀ x, L x → ¬N x)
    (hnew : ∀ a b, N a.1 → l a = some b → N b.1 ∧ l b = some a ∨ L b.1 ∧ l b = none)
    (hinj : ∀ a a' b, N a.1 → N a'.1 → L b.1 → l a = some b → l a' = some b → a = a') :
    Pending l (fun x => L x ∨ N x) N := by
  have hold : ∀ a a' b, L a.1 → N a'.1 → l a = some b → l a' ≠ some b := by
    intro a a' b ha ha' hab ha'b
    obtain ⟨hb, hback⟩ := h a b ha hab
    rcases hnew a' b ha' ha'b with ⟨hN, -⟩ | ⟨-, hfree⟩
    · exact hdisj b.1 hb hN
    · rw [hback] at hfree
      exact absurd hfree (by simp)
  refine ⟨fun a b ha hab => ?_, fun a a' b ha ha' hab ha'b => ?_⟩
  · rcases ha with ha | ha
    · exact ⟨.inl (h a b ha hab).1, .inl (h a b ha hab).2⟩
    · rcases hnew a b ha hab with ⟨hN, hback⟩ | ⟨hb, hfree⟩
      · exact ⟨.inr hN, .inl hback⟩
      · exact ⟨.inl hb, .inr ⟨ha, hfree⟩⟩
  · rcases ha with ha | ha <;> rcases ha' with ha' | ha'
    · exact h.unshared a a' b ha ha' hab ha'b
    · exact absurd ha'b (hold a a' b ha ha' hab)
    · exact absurd hab (hold a' a b ha' ha ha'b)
    · rcases hnew a b ha hab with ⟨hN, hback⟩ | ⟨hb, -⟩
      · rcases hnew a' b ha' ha'b with ⟨-, hback'⟩ | ⟨hb, -⟩
        · rw [hback] at hback'
          exact Option.some.inj hback'
        · exact absurd hN (hdisj b.1 hb)
      · exact hinj a a' b ha ha' hb hab ha'b

lemma Cut.none_or_same (h : Cut l t l') (a : α × ι) : l' a = none ∨ l' a = l a := by
  by_cases hex : ∃ i, l (t, i) = some a
  · exact .inl ((h a).1 hex)
  · exact .inr ((h a).2 fun i hi => hex ⟨i, hi⟩)

lemma Cut.eq_of_some (h : Cut l t l') {a b : α × ι} (hab : l' a = some b) :
    l a = some b ∧ ∀ i, l (t, i) ≠ some a := by
  by_cases hex : ∃ i, l (t, i) = some a
  · rw [(h a).1 hex] at hab
    exact absurd hab (by simp)
  · have hne : ∀ i, l (t, i) ≠ some a := fun i hi => hex ⟨i, hi⟩
    rw [(h a).2 hne] at hab
    exact ⟨hab, hne⟩

/-- A cut keeps gluing mutual on the faces that stay. -/
theorem Symmetric.cut (h : Symmetric l L) (ht : L t) (hc : Cut l t l') :
    Symmetric l' (fun a => L a ∧ a ≠ t) := by
  rintro a b ⟨ha, hat⟩ hab
  obtain ⟨hl, hne⟩ := hc.eq_of_some hab
  obtain ⟨hb, hba⟩ := h a b ha hl
  have hbt : b.1 ≠ t := by
    rintro rfl
    exact hne b.2 hba
  refine ⟨⟨hb, hbt⟩, ?_⟩
  rw [(hc b).2, hba]
  intro i hi
  have hb' := (h (t, i) b ht hi).2
  rw [hba] at hb'
  exact hat (congrArg Prod.fst (Option.some.inj hb'))

/-- A cut frees exactly the sides that were glued to the face. -/
lemma Symmetric.cut_eq_none (h : Symmetric l L) (ht : L t) (hc : Cut l t l') {a : α × ι}
    {i : ι} (hi : l (t, i) = some a) : l' a = none ∧ L a.1 :=
  ⟨(hc a).1 ⟨i, hi⟩, (h (t, i) a ht hi).1⟩

lemma Pasted.eq_of_some (h : Pasted l t l') {a b : α × ι} (hab : l' a = some b) :
    l a = some b ∧ (∀ i, l (t, i) ≠ some a) ∨ ∃ i, l (t, i) = some a ∧ b = (t, i) := by
  rcases h a with ⟨hne, he⟩ | ⟨i, hi, he⟩
  · exact .inl ⟨he ▸ hab, hne⟩
  · rw [he] at hab
    exact .inr ⟨i, hi, (Option.some.inj hab).symm⟩

lemma Pasted.same (h : Pasted l t l') {a : α × ι} (hne : ∀ i, l (t, i) ≠ some a) : l' a = l a := by
  rcases h a with ⟨-, he⟩ | ⟨i, hi, -⟩
  · exact he
  · exact absurd hi (hne i)

/-- Pasting a face takes it off the faces that are still to be pasted. -/
theorem Pending.paste (h : Pending l L todo) (ht : L t) (hself : ∀ i j, l (t, i) ≠ some (t, j))
    (hp : Pasted l t l') : Pending l' L (fun a => todo a ∧ a ≠ t) := by
  -- a side glued to the face `t` by its side `i` ends up glued to `(t, i)`
  have hglued : ∀ i b, l (t, i) = some b → l' b = some (t, i) := by
    intro i b hi
    rcases hp b with ⟨hne, -⟩ | ⟨k, hk, he⟩
    · exact absurd hi (hne i)
    · rw [he, h.unshared (t, k) (t, i) b ht ht hk hi]
  have hown : ∀ i, l' (t, i) = l (t, i) := fun i => hp.same fun k => hself k i
  refine ⟨fun a b ha hab => ?_, fun a a' b ha ha' hab ha'b => ?_⟩
  · rcases hp.eq_of_some hab with ⟨hl, -⟩ | ⟨i, hi, rfl⟩
    · obtain ⟨hb, hback⟩ := h.back a b ha hl
      refine ⟨hb, ?_⟩
      by_cases hat : a.1 = t
      · left
        obtain ⟨x, i⟩ := a
        subst hat
        exact hglued i b hl
      · have hsame : l' b = l b := by
          apply hp.same
          intro i hi
          exact hat (congrArg Prod.fst (h.unshared a (t, i) b ha ht hl hi))
        rw [hsame]
        exact hback.imp_right fun hb' => ⟨⟨hb'.1, hat⟩, hb'.2⟩
    · exact ⟨ht, .inl ((hown i).trans hi)⟩
  · rcases hp.eq_of_some hab with ⟨hl, hne⟩ | ⟨i, hi, rfl⟩
    · rcases hp.eq_of_some ha'b with ⟨hl', -⟩ | ⟨i, hi, rfl⟩
      · exact h.unshared a a' b ha ha' hl hl'
      · -- `a` points at a side of `t` without being pointed at by it
        obtain ⟨-, hback | ⟨-, hfree⟩⟩ := h.back a (t, i) ha hl
        · exact absurd hback (hne i)
        · rw [hi] at hfree
          exact absurd hfree (by simp)
    · rcases hp.eq_of_some ha'b with ⟨hl', hne'⟩ | ⟨k, hk, hik⟩
      · obtain ⟨-, hback | ⟨-, hfree⟩⟩ := h.back a' (t, i) ha' hl'
        · exact absurd hback (hne' i)
        · rw [hi] at hfree
          exact absurd hfree (by simp)
      · rw [← hik] at hk
        rw [hi] at hk
        exact Option.some.inj hk

section Replace

/-- `l'` is `l` after the faces in `ts` have been cut out one after the other. -/
def Cuts (l : Link α ι) : List α → Link α ι → Prop
  | [], l' => l' = l
  | t :: ts, l' => ∃ l₁, Cut l t l₁ ∧ Cuts l₁ ts l'

/-- `l'` is `l` after the faces in `ts` have been pasted in one after the other. -/
def Pastes (l : Link α ι) : List α → Link α ι → Prop
  | [], l' => l' = l
  | t :: ts, l' => ∃ l₁, Pasted l t l₁ ∧ Pastes l₁ ts l'

variable {olds news ts : List α}

/-- Cutting faces out of a symmetric complex frees the sides glued to them and nothing else. -/
lemma Symmetric.cuts (h : Symmetric l L) (hts : ∀ t ∈ ts, L t) (hnd : ts.Nodup)
    (hc : Cuts l ts l') :
    Symmetric l' (fun x => L x ∧ x ∉ ts) ∧ (∀ a, ¬L a.1 → l' a = l a) ∧
      ∀ a, L a.1 → a.1 ∉ ts →
        ((∀ b, l a = some b → b.1 ∉ ts) → l' a = l a) ∧
          ∀ b, l a = some b → b.1 ∈ ts → l' a = none := by
  induction ts generalizing l L with
  | nil =>
    have he : l' = l := hc
    subst he
    exact ⟨by simpa using h, fun _ _ => rfl, fun a _ _ => ⟨fun _ => rfl, by simp⟩⟩
  | cons t ts ih =>
    obtain ⟨l₁, hc1, hc2⟩ := hc
    have ht : L t := hts t (by simp)
    obtain ⟨htn, hnd'⟩ := List.nodup_cons.mp hnd
    have hts' : ∀ u ∈ ts, L u ∧ u ≠ t := by
      intro u hu
      refine ⟨hts u (by simp [hu]), ?_⟩
      rintro rfl
      exact htn hu
    obtain ⟨hsym, hout, hin⟩ := ih (h.cut ht hc1) hts' hnd' hc2
    refine ⟨?_, fun a ha => ?_, fun a ha hat => ?_⟩
    · intro a b hab
      have := hsym a b
      simp only [List.mem_cons, not_or] at hab ⊢
      tauto
    · have hne : ∀ i, l (t, i) ≠ some a := fun i hi => ha (h (t, i) a ht hi).1
      rw [hout a fun hL => ha hL.1, (hc1 a).2 hne]
    · simp only [List.mem_cons, not_or] at hat
      obtain ⟨hsame, hfree⟩ := hin a ⟨ha, hat.1⟩ hat.2
      constructor
      · intro hb
        have hne : ∀ i, l (t, i) ≠ some a := by
          intro i hi
          exact hb (t, i) (h (t, i) a ht hi).2 (by simp)
        have hl₁ : l₁ a = l a := (hc1 a).2 hne
        rw [hsame fun b hab hbt => hb b (hl₁ ▸ hab) (by simp [hbt]), hl₁]
      · intro b hab hbt
        by_cases hbeq : b.1 = t
        · obtain ⟨x, i⟩ := b
          subst hbeq
          have hl₁ : l₁ a = none := (hc1 a).1 ⟨i, (h a (x, i) ha hab).2⟩
          rw [hsame (by simp [hl₁]), hl₁]
        · have hne : ∀ i, l (t, i) ≠ some a := by
            intro i hi
            have hback := (h (t, i) a ht hi).2
            rw [hab] at hback
            exact hbeq (congrArg Prod.fst (Option.some.inj hback))
          have hl₁ : l₁ a = l a := (hc1 a).2 hne
          exact hfree b (hl₁ ▸ hab) ((List.mem_cons.mp hbt).resolve_left hbeq)

/-- Pasting faces in completes the gluing and touches only the free sides they point at. -/
lemma Pending.pastes (h : Pending l L todo) (hts : ∀ t ∈ ts, L t)
    (hself : ∀ t ∈ ts, ∀ i j, l (t, i) ≠ some (t, j))
    (hmutual : ∀ t ∈ ts, ∀ i a, l (t, i) = some a → a.1 ∈ ts → l a = some (t, i))
    (hp : Pastes l ts l') :
    Pending l' L (fun a => todo a ∧ a ∉ ts) ∧ (∀ a, a.1 ∈ ts → l' a = l a) ∧
      ∀ a, (∀ t ∈ ts, ∀ i, l (t, i) ≠ some a) → l' a = l a := by
  -- the faces in `ts` that are pasted later keep their links, so `done` remembers the others
  suffices hgen : ∀ (done ts : List α) (l : Link α ι) (todo : α → Prop), Pending l L todo →
      (∀ t ∈ ts, L t) → (∀ t ∈ ts, ∀ i j, l (t, i) ≠ some (t, j)) →
      (∀ t ∈ ts, ∀ i a, l (t, i) = some a → a.1 ∈ done ++ ts → l a = some (t, i)) →
      Pastes l ts l' →
      Pending l' L (fun a => todo a ∧ a ∉ ts) ∧ (∀ a, a.1 ∈ done ++ ts → l' a = l a) ∧
        ∀ a, (∀ t ∈ ts, ∀ i, l (t, i) ≠ some a) → l' a = l a by
    simpa using hgen [] ts l todo h hts hself (by simpa using hmutual) hp
  clear h hts hself hmutual hp
  intro done ts
  induction ts generalizing done with
  | nil =>
    intro l todo h _ _ _ hp
    have he : l' = l := hp
    subst he
    exact ⟨by simpa using h, fun _ _ => rfl, fun _ _ => rfl⟩
  | cons t ts ih =>
    rintro l todo h hts hself hmutual ⟨l₁, hp1, hp2⟩
    have hkeep : ∀ a, a.1 ∈ done ++ t :: ts → l₁ a = l a := by
      intro a ha
      rcases hp1 a with ⟨-, he⟩ | ⟨i, hi, he⟩
      · exact he
      · rw [he, hmutual t (by simp) i a hi ha]
    have hkeep' : ∀ u ∈ ts, ∀ i, l₁ (u, i) = l (u, i) := fun u hu i => hkeep (u, i) (by simp [hu])
    have hstep := h.paste (hts t (by simp)) (hself t (by simp)) hp1
    obtain ⟨hpend, hown, hother⟩ := ih (done ++ [t]) l₁ _ hstep (fun u hu => hts u (by simp [hu]))
      (fun u hu i j => by rw [hkeep' u hu]; exact hself u (by simp [hu]) i j)
      (fun u hu i a ha hin => by
        rw [hkeep' u hu] at ha
        have hin' : a.1 ∈ done ++ t :: ts := by simpa using hin
        rw [hkeep a hin', hmutual u (by simp [hu]) i a ha hin']) hp2
    refine ⟨?_, fun a ha => ?_, fun a ha => ?_⟩
    · simpa [and_assoc] using hpend
    · rw [hown a (by simpa using ha), hkeep a ha]
    · rw [hother a fun u hu i => by rw [hkeep' u hu]; exact ha u (by simp [hu]) i,
        hp1.same fun i => ha t (by simp) i]

/-- What replacing the faces `olds` by the faces `news` leaves behind. -/
structure Replaced (l : Link α ι) (L : α → Prop) (olds news : List α) (l' : Link α ι) : Prop where
  symmetric : Symmetric l' (fun x => L x ∧ x ∉ olds ∨ x ∈ news)
  new : ∀ a, a.1 ∈ news → l' a = l a
  kept : ∀ a b, L a.1 → a.1 ∉ olds → b.1 ∉ olds → b.1 ∉ news → (l' a = some b ↔ l a = some b)

/-- Replacing faces keeps a complex symmetric when the new faces point at each other or, one
side at a time, at sides that are free once the old faces are gone. -/
theorem Symmetric.replace {l₁ : Link α ι} (h : Symmetric l L) (holds : ∀ t ∈ olds, L t)
    (hnd : olds.Nodup) (hdisj : ∀ t ∈ news, ¬L t)
    (hself : ∀ t ∈ news, ∀ i j, l (t, i) ≠ some (t, j))
    (hnew : ∀ a b, a.1 ∈ news → l a = some b → b.1 ∈ news ∧ l b = some a ∨
      (L b.1 ∧ b.1 ∉ olds) ∧ ∀ c, l b = some c → c.1 ∈ olds)
    (hinj : ∀ a a' b, a.1 ∈ news → a'.1 ∈ news → L b.1 → l a = some b → l a' = some b → a = a')
    (hc : Cuts l olds l₁) (hp : Pastes l₁ news l') : Replaced l L olds news l' := by
  obtain ⟨hsym, hout, hin⟩ := h.cuts holds hnd hc
  have hnews : ∀ a, a.1 ∈ news → l₁ a = l a := fun a ha => hout a (hdisj a.1 ha)
  -- the sides that the new faces point at are free after the cuts
  have hfree : ∀ b, L b.1 → b.1 ∉ olds → (∀ c, l b = some c → c.1 ∈ olds) → l₁ b = none := by
    intro b hb hbo hall
    obtain ⟨hsame, hnone⟩ := hin b hb hbo
    cases hlb : l b with
    | none => rw [hsame (by simp [hlb]), hlb]
    | some c => exact hnone c hlb (hall c hlb)
  have hpend : Pending l₁ (fun x => (L x ∧ x ∉ olds) ∨ x ∈ news) (· ∈ news) := by
    refine hsym.pending_new (fun x hx hn => hdisj x hn hx.1) (fun a b ha hab => ?_)
      (fun a a' b ha ha' hb hab ha'b => ?_)
    · rw [hnews a ha] at hab
      rcases hnew a b ha hab with ⟨hb, hba⟩ | ⟨hb, hall⟩
      · exact .inl ⟨hb, by rw [hnews b hb, hba]⟩
      · exact .inr ⟨hb, hfree b hb.1 hb.2 hall⟩
    · rw [hnews a ha] at hab
      rw [hnews a' ha'] at ha'b
      exact hinj a a' b ha ha' hb.1 hab ha'b
  obtain ⟨hpend', hown, hother⟩ := hpend.pastes (fun t ht => .inr ht)
    (fun t ht i j => by rw [hnews (t, i) ht]; exact hself t ht i j)
    (fun t ht i a hta ha => by
      rw [hnews (t, i) ht] at hta
      rcases hnew (t, i) a ht hta with ⟨-, hback⟩ | ⟨hL, -⟩
      · rw [hnews a ha, hback]
      · exact absurd hL.1 (hdisj a.1 ha)) hp
  have hsym' : Symmetric l' (fun x => L x ∧ x ∉ olds ∨ x ∈ news) :=
    hpend'.symmetric fun a ha => ha.2 ha.1
  have hnews' : ∀ a, a.1 ∈ news → l' a = l a := fun a ha => (hown a ha).trans (hnews a ha)
  refine ⟨hsym', hnews', fun a b ha hao hbo hbn => ?_⟩
  by_cases htarget : ∃ t ∈ news, ∃ i, l (t, i) = some a
  · -- a side that a new face points at had no link to a face that stays
    obtain ⟨t, ht, i, hta⟩ := htarget
    have hback := (hsym' (t, i) a (.inr ht) ((hnews' (t, i) ht).trans hta)).2
    constructor
    · intro hab
      rw [hback] at hab
      cases hab
      exact absurd ht hbn
    · intro hab
      rcases hnew (t, i) a ht hta with ⟨hn, -⟩ | ⟨-, hall⟩
      · exact absurd ha (hdisj a.1 hn)
      · exact absurd (hall b hab) hbo
  · have hl' : l' a = l₁ a := by
      refine hother a fun t ht i hta => htarget ⟨t, ht, i, ?_⟩
      rw [← hnews (t, i) ht, hta]
    obtain ⟨hsame, hnone⟩ := hin a ha hao
    rw [hl']
    constructor
    · intro hab
      by_cases hall : ∀ c, l a = some c → c.1 ∉ olds
      · rw [← hsame hall, hab]
      · push Not at hall
        obtain ⟨c, hac, hco⟩ := hall
        rw [hnone c hac hco] at hab
        exact absurd hab (by simp)
    · intro hab
      rw [hsame fun c hac => ?_, hab]
      rw [hab] at hac
      cases hac
      exact hbo

/-- The same when each new side either meets a new side or takes over the place of the old
side that `ρ` sends to it. -/
theorem Symmetric.replace_outer {l₁ : Link α ι} (ρ : α × ι → α × ι) (h : Symmetric l L)
    (holds : ∀ t ∈ olds, L t) (hnd : olds.Nodup) (hdisj : ∀ t ∈ news, ¬L t)
    (hself : ∀ t ∈ news, ∀ i j, l (t, i) ≠ some (t, j))
    (hnew : ∀ a b, a.1 ∈ news → l a = some b → b.1 ∈ news ∧ l b = some a ∨
      ∃ c, c.1 ∈ olds ∧ l c = some b ∧ b.1 ∉ olds ∧ ρ c = a)
    (hc : Cuts l olds l₁) (hp : Pastes l₁ news l') : Replaced l L olds news l' := by
  refine h.replace holds hnd hdisj hself (fun a b ha hab => ?_) (fun a a' b ha ha' hb hab ha'b => ?_)
    hc hp
  · rcases hnew a b ha hab with hin | ⟨c, hc, hcb, hbo, -⟩
    · exact .inl hin
    · obtain ⟨hL, hback⟩ := h c b (holds c.1 hc) hcb
      refine .inr ⟨⟨hL, hbo⟩, fun c' hc' => ?_⟩
      rw [hback] at hc'
      cases hc'
      exact hc
  · rcases hnew a b ha hab with ⟨hbn, -⟩ | ⟨c, hc, hcb, -, rfl⟩
    · exact absurd hb (hdisj b.1 hbn)
    · rcases hnew a' b ha' ha'b with ⟨hbn, -⟩ | ⟨c', hc', hcb', -, rfl⟩
      · exact absurd hb (hdisj b.1 hbn)
      · rw [h.unshared c c' b (holds _ hc) (holds _ hc') hcb hcb']

end Replace

end SideGluing
