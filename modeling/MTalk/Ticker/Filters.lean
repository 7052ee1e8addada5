import MTalk.Library.GuardedSearch
import Mathlib.Data.Set.Finite.Range
import Mathlib.Data.Set.Finite.Lattice

/-!
# Filters and the queues between their pins

The filters of the media streamer, with the queues that `ms_filter_link` and `ms_filter_unlink` put
between an output pin of one and an input pin of another.
-/

namespace MTalk.Ticker

/-- The part of a filter's description that scheduling reads. -/
structure MSFilterDesc where
  ninputs : ℕ
  noutputs : ℕ
  flags : BitVec 32

def msFilterIsPump : BitVec 32 := 1

def MSFilterDesc.isPump (desc : MSFilterDesc) : Bool := desc.flags &&& msFilterIsPump != 0

variable {F : Type}

structure MSCPoint (F : Type) where
  filter : F
  pin : ℕ
deriving DecidableEq

/-- A queue, told by its two ends, which it keeps as long as it is there. -/
structure MSQueue (F : Type) where
  prev : MSCPoint F
  next : MSCPoint F
deriving DecidableEq

/-- The queues at the pins of the filters. A queue is at its output pin exactly if it is at its
input pin. -/
structure Wiring (desc : F → MSFilterDesc) where
  inputs : F → ℕ → Option (MSQueue F)
  outputs : F → ℕ → Option (MSQueue F)
  at_output : ∀ f i l, outputs f i = some l →
    i < (desc f).noutputs ∧ l.prev = ⟨f, i⟩ ∧ inputs l.next.filter l.next.pin = some l
  at_input : ∀ f i l, inputs f i = some l →
    i < (desc f).ninputs ∧ l.next = ⟨f, i⟩ ∧ outputs l.prev.filter l.prev.pin = some l
  finite : {l | ∃ f i, outputs f i = some l}.Finite

variable {desc : F → MSFilterDesc}

namespace Wiring

/-- New filters, whose pins are free. -/
def free (desc : F → MSFilterDesc) : Wiring desc where
  inputs _ _ := none
  outputs _ _ := none
  at_output _ _ _ h := by simp at h
  at_input _ _ _ h := by simp at h
  finite := by simp

/-- The queues at the input pins, in the order of the pins. -/
def inputQueues (g : Wiring desc) (f : F) : List (MSQueue F) :=
  (List.range (desc f).ninputs).filterMap (g.inputs f)

/-- The queues at the output pins, in the order of the pins. -/
def outputQueues (g : Wiring desc) (f : F) : List (MSQueue F) :=
  (List.range (desc f).noutputs).filterMap (g.outputs f)

/-- The filters that feed a filter. -/
def feeders (g : Wiring desc) (f : F) : List F := (g.inputQueues f).map (·.prev.filter)

/-- The filters that a filter feeds. -/
def followers (g : Wiring desc) (f : F) : List F := (g.outputQueues f).map (·.next.filter)

variable {g : Wiring desc} {f f' : F} {l : MSQueue F}

lemma mem_outputQueues :
    l ∈ g.outputQueues f ↔ l.prev.filter = f ∧ g.outputs f l.prev.pin = some l := by
  unfold outputQueues
  rw [List.mem_filterMap]
  constructor
  · rintro ⟨i, -, hl⟩
    obtain ⟨-, hprev, -⟩ := g.at_output f i l hl
    rw [hprev]
    exact ⟨rfl, hl⟩
  · rintro ⟨-, hl⟩
    exact ⟨l.prev.pin, List.mem_range.mpr (g.at_output f _ l hl).1, hl⟩

lemma mem_inputQueues :
    l ∈ g.inputQueues f ↔ l.next.filter = f ∧ g.inputs f l.next.pin = some l := by
  unfold inputQueues
  rw [List.mem_filterMap]
  constructor
  · rintro ⟨i, -, hl⟩
    obtain ⟨-, hnext, -⟩ := g.at_input f i l hl
    rw [hnext]
    exact ⟨rfl, hl⟩
  · rintro ⟨-, hl⟩
    exact ⟨l.next.pin, List.mem_range.mpr (g.at_input f _ l hl).1, hl⟩

/-- A queue out of a filter is a queue into the next one. -/
lemma mem_inputQueues_iff : l ∈ g.inputQueues f ↔
    l.next.filter = f ∧ l ∈ g.outputQueues l.prev.filter := by
  rw [mem_inputQueues, mem_outputQueues]
  constructor
  · rintro ⟨rfl, hl⟩
    exact ⟨rfl, rfl, (g.at_input _ _ l hl).2.2⟩
  · rintro ⟨rfl, -, hl⟩
    exact ⟨rfl, (g.at_output _ _ l hl).2.2⟩

lemma mem_outputQueues_iff : l ∈ g.outputQueues f ↔
    l.prev.filter = f ∧ l ∈ g.inputQueues l.next.filter := by
  rw [mem_inputQueues_iff]
  constructor
  · intro hl
    obtain rfl := (mem_outputQueues.mp hl).1
    exact ⟨rfl, rfl, hl⟩
  · rintro ⟨rfl, -, hl⟩
    exact hl

theorem mem_feeders_iff : f ∈ g.feeders f' ↔ f' ∈ g.followers f := by
  unfold feeders followers
  rw [List.mem_map, List.mem_map]
  constructor
  · rintro ⟨l, hl, rfl⟩
    obtain ⟨hnext, hl⟩ := mem_inputQueues_iff.mp hl
    exact ⟨l, hl, hnext⟩
  · rintro ⟨l, hl, rfl⟩
    obtain ⟨hprev, hl⟩ := mem_outputQueues_iff.mp hl
    exact ⟨l, hl, hprev⟩

lemma finite_queues (g : Wiring desc) : {l | ∃ f, l ∈ g.outputQueues f}.Finite := by
  refine g.finite.subset ?_
  rintro l ⟨f, hl⟩
  exact ⟨f, _, (mem_outputQueues.mp hl).2⟩

variable [DecidableEq F]

/-- A new queue between two free pins. -/
def link (g : Wiring desc) (f₁ : F) (pin₁ : ℕ) (f₂ : F) (pin₂ : ℕ) (h₁ : pin₁ < (desc f₁).noutputs)
    (h₂ : pin₂ < (desc f₂).ninputs) (hout : g.outputs f₁ pin₁ = none)
    (hin : g.inputs f₂ pin₂ = none) : Wiring desc where
  inputs f i := if f = f₂ ∧ i = pin₂ then some ⟨⟨f₁, pin₁⟩, ⟨f₂, pin₂⟩⟩ else g.inputs f i
  outputs f i := if f = f₁ ∧ i = pin₁ then some ⟨⟨f₁, pin₁⟩, ⟨f₂, pin₂⟩⟩ else g.outputs f i
  at_output f i l hl := by
    split_ifs at hl with hfi
    · obtain ⟨rfl, rfl⟩ := hfi
      obtain rfl := Option.some.inj hl
      exact ⟨h₁, rfl, if_pos ⟨rfl, rfl⟩⟩
    · obtain ⟨hi, hprev, hnext⟩ := g.at_output f i l hl
      refine ⟨hi, hprev, ?_⟩
      rw [if_neg]
      · exact hnext
      · rintro ⟨hf, hp⟩
        rw [hf, hp, hin] at hnext
        cases hnext
  at_input f i l hl := by
    split_ifs at hl with hfi
    · obtain ⟨rfl, rfl⟩ := hfi
      obtain rfl := Option.some.inj hl
      exact ⟨h₂, rfl, if_pos ⟨rfl, rfl⟩⟩
    · obtain ⟨hi, hnext, hprev⟩ := g.at_input f i l hl
      refine ⟨hi, hnext, ?_⟩
      rw [if_neg]
      · exact hprev
      · rintro ⟨hf, hp⟩
        rw [hf, hp, hout] at hprev
        cases hprev
  finite := by
    refine (g.finite.insert ⟨⟨f₁, pin₁⟩, ⟨f₂, pin₂⟩⟩).subset ?_
    rintro l ⟨f, i, hl⟩
    split_ifs at hl with hfi
    · exact Or.inl (Option.some.inj hl).symm
    · exact Or.inr ⟨f, i, hl⟩

/-- The pins of a queue are freed. -/
def unlink (g : Wiring desc) (f₁ : F) (pin₁ : ℕ) (f₂ : F) (pin₂ : ℕ)
    (hsame : g.outputs f₁ pin₁ = g.inputs f₂ pin₂) : Wiring desc where
  inputs f i := if f = f₂ ∧ i = pin₂ then none else g.inputs f i
  outputs f i := if f = f₁ ∧ i = pin₁ then none else g.outputs f i
  at_output f i l hl := by
    split_ifs at hl with hfi
    obtain ⟨hi, hprev, hnext⟩ := g.at_output f i l hl
    refine ⟨hi, hprev, ?_⟩
    rw [if_neg]
    · exact hnext
    · rintro ⟨hf, hp⟩
      rw [hf, hp, ← hsame] at hnext
      obtain ⟨-, hprev', -⟩ := g.at_output f₁ pin₁ l hnext
      rw [hprev] at hprev'
      injection hprev' with hf hi
      exact hfi ⟨hf, hi⟩
  at_input f i l hl := by
    split_ifs at hl with hfi
    obtain ⟨hi, hnext, hprev⟩ := g.at_input f i l hl
    refine ⟨hi, hnext, ?_⟩
    rw [if_neg]
    · exact hprev
    · rintro ⟨hf, hp⟩
      rw [hf, hp, hsame] at hprev
      obtain ⟨-, hnext', -⟩ := g.at_input f₂ pin₂ l hprev
      rw [hnext] at hnext'
      injection hnext' with hf hi
      exact hfi ⟨hf, hi⟩
  finite := by
    refine g.finite.subset ?_
    rintro l ⟨f, i, hl⟩
    split_ifs at hl with hfi
    exact ⟨f, i, hl⟩

end Wiring

/-- What the methods of the filters read and write: the messages in the queues, and their own
data. -/
structure World (F M D : Type) where
  messages : MSQueue F → List M
  data : D

/-- The filters with their queues. -/
structure Graph (desc : F → MSFilterDesc) (M D : Type) where
  wiring : Wiring desc
  world : World F M D

variable {M D : Type} [DecidableEq F]

/-- The queue holds no message: it is new or has been flushed. -/
def World.empty (w : World F M D) (q : MSQueue F) : World F M D :=
  { w with messages := Function.update w.messages q [] }

def msFilterLink (f₁ : F) (pin₁ : ℕ) (f₂ : F) (pin₂ : ℕ) (g : Graph desc M D) :
    ℤ × Graph desc M D :=
  if h : pin₁ < (desc f₁).noutputs ∧ pin₂ < (desc f₂).ninputs ∧
      g.wiring.outputs f₁ pin₁ = none ∧ g.wiring.inputs f₂ pin₂ = none then
    (0, ⟨g.wiring.link f₁ pin₁ f₂ pin₂ h.1 h.2.1 h.2.2.1 h.2.2.2,
      g.world.empty ⟨⟨f₁, pin₁⟩, ⟨f₂, pin₂⟩⟩⟩)
  else (-1, g)

def msFilterUnlink (f₁ : F) (pin₁ : ℕ) (f₂ : F) (pin₂ : ℕ) (g : Graph desc M D) :
    ℤ × Graph desc M D :=
  if h : pin₁ < (desc f₁).noutputs ∧ pin₂ < (desc f₂).ninputs ∧
      g.wiring.outputs f₁ pin₁ ≠ none ∧ g.wiring.inputs f₂ pin₂ ≠ none ∧
      g.wiring.outputs f₁ pin₁ = g.wiring.inputs f₂ pin₂ then
    (0, ⟨g.wiring.unlink f₁ pin₁ f₂ pin₂ h.2.2.2.2, g.world.empty ⟨⟨f₁, pin₁⟩, ⟨f₂, pin₂⟩⟩⟩)
  else (-1, g)

section

variable {f₁ f₂ : F} {pin₁ pin₂ : ℕ} {g : Graph desc M D}

/-- After linking, the queues are the earlier ones and the new one, if it has been made. -/
lemma mem_outputQueues_msFilterLink {l : MSQueue F} {f : F}
    (h : l ∈ (msFilterLink f₁ pin₁ f₂ pin₂ g).2.wiring.outputQueues f) :
    l ∈ g.wiring.outputQueues f ∨ l.prev.filter = f₁ ∧ l.next.filter = f₂ := by
  rw [Wiring.mem_outputQueues] at h ⊢
  unfold msFilterLink at h
  split_ifs at h with hpins
  · obtain ⟨rfl, h⟩ := h
    simp only [Wiring.link] at h
    split_ifs at h
    · obtain rfl := Option.some.inj h
      exact Or.inr ⟨rfl, rfl⟩
    · exact Or.inl ⟨rfl, h⟩
  · exact Or.inl h

/-- After unlinking, the queues are the earlier ones without the one between the two pins. -/
lemma mem_outputQueues_msFilterUnlink {l : MSQueue F} {f : F}
    (h : l ∈ (msFilterUnlink f₁ pin₁ f₂ pin₂ g).2.wiring.outputQueues f) :
    l ∈ g.wiring.outputQueues f ∧ l ≠ ⟨⟨f₁, pin₁⟩, ⟨f₂, pin₂⟩⟩ := by
  rw [Wiring.mem_outputQueues] at h ⊢
  unfold msFilterUnlink at h
  split_ifs at h with hpins
  · obtain ⟨rfl, h⟩ := h
    simp only [Wiring.unlink] at h
    split_ifs at h with hpin
    refine ⟨⟨rfl, h⟩, ?_⟩
    rintro rfl
    exact hpin ⟨rfl, rfl⟩
  · obtain ⟨rfl, h⟩ := h
    refine ⟨⟨rfl, h⟩, ?_⟩
    rintro rfl
    dsimp only at h
    obtain ⟨hout, -, hin⟩ := g.wiring.at_output f₁ pin₁ _ h
    obtain ⟨hpin, -, -⟩ := g.wiring.at_input f₂ pin₂ _ hin
    exact hpins ⟨hout, hpin, by simp [h], by simp [hin], h.trans hin.symm⟩

end

/-- The methods of the filters, called with the queues at their pins. A method that is not there
changes nothing. -/
structure Methods (desc : F → MSFilterDesc) (M D : Type) where
  process : Wiring desc → F → World F M D → World F M D
  preprocess : Wiring desc → F → World F M D → World F M D
  postprocess : Wiring desc → F → World F M D → World F M D

/-- A filter puts messages into its output queues only. -/
def Methods.Puts (m : Methods desc M D) : Prop :=
  ∀ g f w q, q ∉ Wiring.outputQueues g f → (m.process g f w).messages q <:+ w.messages q

end MTalk.Ticker
