import MTalk.Library.CStrings

/-!
# Elements of XML and their text

A document is an element with attributes and elements in it, in the way a DOM gives it: the first
child and the next sibling of a node. `XmlLibrary` is what a program relies on when it writes with
one library and reads with another one. `plainXml` is a small writer and reader that keeps it.
-/

namespace MTalk.Xml

open MTalk.CStrings

/-- Nodes on one level: a node with its attributes, the nodes in it and the nodes after it. -/
inductive Forest where
  | nil
  | node (name : String) (attributes : List (String × String)) (children siblings : Forest)
  deriving DecidableEq

structure Element where
  name : String
  attributes : List (String × String)
  children : Forest
  deriving DecidableEq

namespace Forest

/-- The nodes of one name in the order of the document. -/
def tagged (tag : String) : Forest → List Element
  | nil => []
  | node name attributes children siblings =>
      (if name = tag then [⟨name, attributes, children⟩] else [])
        ++ children.tagged tag ++ siblings.tagged tag

/-- A row of nodes. -/
def ofList : List Element → Forest
  | [] => nil
  | e :: es => node e.name e.attributes e.children (ofList es)

def size : Forest → ℕ
  | nil => 0
  | node _ _ children siblings => children.size + siblings.size + 1

end Forest

namespace Element

/-- `getAttribute`: the value of the attribute, the empty text if there is none. -/
def getAttribute (e : Element) (name : String) : String := (e.attributes.lookup name).getD ""

/-- `getElementsByTagName`. -/
def getElementsByTagName (e : Element) (tag : String) : List Element := e.children.tagged tag

end Element

/-! Names. -/

/-- The ranges of characters that a name may start with. -/
def nameStartRanges : List (ℕ × ℕ) :=
  [(0x3A, 0x3A), (0x41, 0x5A), (0x5F, 0x5F), (0x61, 0x7A), (0xC0, 0xD6), (0xD8, 0xF6),
    (0xF8, 0x2FF), (0x370, 0x37D), (0x37F, 0x1FFF), (0x200C, 0x200D), (0x2070, 0x218F),
    (0x2C00, 0x2FEF), (0x3001, 0xD7FF), (0xF900, 0xFDCF), (0xFDF0, 0xFFFD), (0x10000, 0xEFFFF)]

/-- The ranges of the other characters of a name. -/
def nameRanges : List (ℕ × ℕ) :=
  [(0x2D, 0x2E), (0x30, 0x39), (0xB7, 0xB7), (0x300, 0x36F), (0x203F, 0x2040)]

def inRanges (ranges : List (ℕ × ℕ)) (c : Char) : Bool :=
  ranges.any fun r => r.1 ≤ c.toNat && c.toNat ≤ r.2

def isNameStart (c : Char) : Bool := inRanges nameStartRanges c

def isNameChar (c : Char) : Bool := isNameStart c || inRanges nameRanges c

/-- A name of an element or an attribute. -/
def ValidName (s : String) : Prop :=
  (∃ c ∈ s.toList.head?, isNameStart c = true) ∧ ∀ c ∈ s.toList, isNameChar c = true

instance (s : String) : Decidable (ValidName s) :=
  inferInstanceAs (Decidable (_ ∧ _))

/-- Attributes of one element: valid names, none of them twice. -/
def ValidAttributes (l : List (String × String)) : Prop :=
  (∀ a ∈ l, ValidName a.1) ∧ (l.map Prod.fst).Nodup

instance (l : List (String × String)) : Decidable (ValidAttributes l) :=
  inferInstanceAs (Decidable (_ ∧ _))

def Forest.WellFormed : Forest → Prop
  | .nil => True
  | .node name attributes children siblings =>
      ValidName name ∧ ValidAttributes attributes ∧ children.WellFormed ∧ siblings.WellFormed

def Forest.decideWellFormed : (f : Forest) → Decidable f.WellFormed
  | .nil => isTrue trivial
  | .node _ _ children siblings =>
      have := children.decideWellFormed
      have := siblings.decideWellFormed
      inferInstanceAs (Decidable (_ ∧ _ ∧ _ ∧ _))

instance (f : Forest) : Decidable f.WellFormed := f.decideWellFormed

def Element.WellFormed (e : Element) : Prop :=
  ValidName e.name ∧ ValidAttributes e.attributes ∧ e.children.WellFormed

instance (e : Element) : Decidable e.WellFormed :=
  inferInstanceAs (Decidable (_ ∧ _ ∧ _))

/-- A writer of documents and a reader of documents that are exact inverses. -/
structure XmlLibrary where
  write : Element → String
  read : String → Option Element
  read_write : ∀ e : Element, e.WellFormed → read (write e) = some e
  wellFormed_of_read : ∀ {s : String} {e : Element}, read s = some e → e.WellFormed

/-! The small writer. -/

/-- A character of a value, written as a reference where it would end the value or be a blank that
a reader may change. -/
def escapeChar (c : Char) : List Char :=
  if c = '&' then ['&', 'a', 'm', 'p', ';']
  else if c = '<' then ['&', 'l', 't', ';']
  else if c = '"' then ['&', 'q', 'u', 'o', 't', ';']
  else if c = '\n' then ['&', '#', '1', '0', ';']
  else if c = '\r' then ['&', '#', '1', '3', ';']
  else if c = '\t' then ['&', '#', '9', ';']
  else [c]

/-- The characters of a value with the references replaced. -/
def unescape : List Char → List Char
  | '&' :: 'a' :: 'm' :: 'p' :: ';' :: s => '&' :: unescape s
  | '&' :: 'l' :: 't' :: ';' :: s => '<' :: unescape s
  | '&' :: 'q' :: 'u' :: 'o' :: 't' :: ';' :: s => '"' :: unescape s
  | '&' :: '#' :: '1' :: '0' :: ';' :: s => '\n' :: unescape s
  | '&' :: '#' :: '1' :: '3' :: ';' :: s => '\r' :: unescape s
  | '&' :: '#' :: '9' :: ';' :: s => '\t' :: unescape s
  | c :: s => c :: unescape s
  | [] => []

def printAttribute (a : String × String) : List Char :=
  ' ' :: a.1.toList ++ '=' :: '"' :: a.2.toList.flatMap escapeChar ++ ['"']

def Forest.print : Forest → List Char
  | nil => []
  | node name attributes children siblings =>
      '<' :: name.toList ++ attributes.flatMap printAttribute ++ '>' :: children.print
        ++ '<' :: '/' :: name.toList ++ '>' :: siblings.print

def Element.print (e : Element) : List Char :=
  (Forest.node e.name e.attributes e.children .nil).print

/-! The small reader. -/

/-- The rest of the text after a literal. -/
def expect : List Char → List Char → Option (List Char)
  | [], s => some s
  | c :: l, d :: s => if c = d then expect l s else none
  | _ :: _, [] => none

def readAttributes : ℕ → List Char → Option (List (String × String) × List Char)
  | n + 1, ' ' :: s => do
      let name := s.takeWhile isNameChar
      let s ← expect ['=', '"'] (s.dropWhile isNameChar)
      let value := s.takeWhile (· ≠ '"')
      let s ← expect ['"'] (s.dropWhile (· ≠ '"'))
      let (attributes, s) ← readAttributes n s
      some ((String.ofList name, String.ofList (unescape value)) :: attributes, s)
  | _, s => some ([], s)

def readForest : ℕ → List Char → Option (Forest × List Char)
  | _, '<' :: '/' :: s => some (.nil, '<' :: '/' :: s)
  | n + 1, '<' :: s => do
      let name := s.takeWhile isNameChar
      let (attributes, s) ← readAttributes s.length (s.dropWhile isNameChar)
      let s ← expect ['>'] s
      let (children, s) ← readForest n s
      let s ← expect ('<' :: '/' :: name ++ ['>']) s
      let (siblings, s) ← readForest n s
      some (.node (String.ofList name) attributes children siblings, s)
  | _, s => some (.nil, s)

/-- The only element of the text. -/
def readElement (s : List Char) : Option Element :=
  match readForest s.length s with
  | some (.node name attributes children .nil, []) =>
      let e : Element := ⟨name, attributes, children⟩
      if e.WellFormed then some e else none
  | _ => none

/-! What was written is read back. -/

lemma unescape_escapeChar (c : Char) (s : List Char) :
    unescape (escapeChar c ++ s) = c :: unescape s := by
  unfold escapeChar
  split_ifs with h₁ h₂ h₃ h₄ h₅ h₆
  · rw [h₁]
    rfl
  · rw [h₂]
    rfl
  · rw [h₃]
    rfl
  · rw [h₄]
    rfl
  · rw [h₅]
    rfl
  · rw [h₆]
    rfl
  · rw [List.singleton_append, unescape]
    all_goals
      intros
      simp_all

lemma unescape_escape (l : List Char) : unescape (l.flatMap escapeChar) = l := by
  induction l with
  | nil => rfl
  | cons c l ih => rw [List.flatMap_cons, unescape_escapeChar, ih]

lemma quote_notMem_escapeChar (c : Char) : '"' ∉ escapeChar c := by
  unfold escapeChar
  split_ifs with h₁ h₂ h₃
  · decide
  · decide
  · decide
  · decide
  · decide
  · decide
  · rw [List.mem_singleton]
    exact fun h => h₃ h.symm

lemma expect_append (l s : List Char) : expect l (l ++ s) = some s := by
  induction l with
  | nil => rfl
  | cons c l ih => rw [List.cons_append, expect, if_pos rfl, ih]

lemma ValidName.cons {s : String} (h : ValidName s) :
    ∃ c l, s.toList = c :: l ∧ isNameStart c = true := by
  obtain ⟨⟨c, hc, hstart⟩, -⟩ := h
  cases hs : s.toList with
  | nil => simp [hs] at hc
  | cons d l =>
    rw [hs, List.head?_cons, Option.mem_some_iff] at hc
    exact ⟨d, l, rfl, hc ▸ hstart⟩

/-- A name ends where something else follows it. -/
lemma takeWhile_name {s : String} (h : ValidName s) {t : List Char} (ht : NoHead isNameChar t) :
    (s.toList ++ t).takeWhile isNameChar = s.toList
      ∧ (s.toList ++ t).dropWhile isNameChar = t :=
  ⟨takeWhile_append h.2 ht, dropWhile_append h.2 ht⟩

lemma takeWhile_value (v : List Char) (t : List Char) :
    (v.flatMap escapeChar ++ '"' :: t).takeWhile (· ≠ '"') = v.flatMap escapeChar
      ∧ (v.flatMap escapeChar ++ '"' :: t).dropWhile (· ≠ '"') = '"' :: t := by
  have hall : ∀ c ∈ v.flatMap escapeChar, decide (c ≠ '"') = true := by
    intro c hc
    obtain ⟨d, -, hd⟩ := List.mem_flatMap.mp hc
    rw [decide_eq_true_eq]
    rintro rfl
    exact quote_notMem_escapeChar d hd
  have hstop : NoHead (fun c => decide (c ≠ '"')) ('"' :: t) := noHead_cons (by simp)
  exact ⟨takeWhile_append hall hstop, dropWhile_append hall hstop⟩

lemma readAttributes_print {l : List (String × String)} (hl : ∀ a ∈ l, ValidName a.1) {n : ℕ}
    (hn : l.length ≤ n) {t : List Char} (ht : t.head? ≠ some ' ') :
    readAttributes n (l.flatMap printAttribute ++ t) = some (l, t) := by
  induction l generalizing n with
  | nil =>
    rw [List.flatMap_nil, List.nil_append]
    unfold readAttributes
    split
    · simp at ht
    · rfl
  | cons a l ih =>
    obtain ⟨name, value⟩ := a
    cases n with
    | zero => simp at hn
    | succ n =>
      have hname := hl _ List.mem_cons_self
      have hrest := ih (fun b hb => hl b (List.mem_cons_of_mem _ hb))
        (by simpa using hn : l.length ≤ n)
      have hstop : NoHead isNameChar
          ('=' :: '"' :: (value.toList.flatMap escapeChar
            ++ '"' :: (l.flatMap printAttribute ++ t))) := noHead_cons (by decide)
      have htext : (⟨name, value⟩ :: l).flatMap printAttribute ++ t =
          ' ' :: (name.toList ++ '=' :: '"' :: (value.toList.flatMap escapeChar
            ++ '"' :: (l.flatMap printAttribute ++ t))) := by
        simp [printAttribute]
      rw [htext, readAttributes, (takeWhile_name hname hstop).1, (takeWhile_name hname hstop).2]
      simp only [expect, if_true, Option.bind_eq_bind, Option.bind_some, takeWhile_value,
        hrest, unescape_escape, String.ofList_toList]

/-- Where a row of nodes ends: at the end of the text or at the end tag of the node around it. -/
def EndsRow (t : List Char) : Prop := t = [] ∨ ∃ u, t = '<' :: '/' :: u

lemma length_le_flatMap_print (l : List (String × String)) (s t : List Char) :
    l.length ≤ (s ++ (l.flatMap printAttribute ++ t)).length := by
  induction l with
  | nil => simp
  | cons a l ih =>
    have hone : 1 ≤ (printAttribute a).length := by simp [printAttribute]
    simp only [List.flatMap_cons, List.length_append, List.length_cons] at ih ⊢
    omega

theorem readForest_print {f : Forest} (hf : f.WellFormed) {n : ℕ} (hn : f.size ≤ n)
    {t : List Char} (ht : EndsRow t) : readForest n (f.print ++ t) = some (f, t) := by
  induction f generalizing n t with
  | nil =>
    rcases ht with rfl | ⟨u, rfl⟩
    · cases n <;> rfl
    · cases n <;> rfl
  | node name attributes children siblings ihc ihs =>
    obtain ⟨hname, hattributes, hchildren, hsiblings⟩ := hf
    rw [Forest.size] at hn
    cases n with
    | zero => omega
    | succ n =>
      obtain ⟨c, l, hcl, hc⟩ := hname.cons
      let tail := siblings.print ++ t
      let body := children.print ++ ('<' :: '/' :: name.toList ++ ['>'] ++ tail)
      have htext : (Forest.node name attributes children siblings).print ++ t =
          '<' :: (name.toList ++ (attributes.flatMap printAttribute ++ '>' :: body)) := by
        simp [Forest.print, body, tail]
      have hstop : NoHead isNameChar (attributes.flatMap printAttribute ++ '>' :: body) := by
        cases attributes with
        | nil => exact noHead_cons (by decide)
        | cons a as => exact noHead_cons (by decide)
      have hread := readAttributes_print hattributes.1
        (length_le_flatMap_print attributes name.toList ('>' :: body)) (t := '>' :: body) (by simp)
      have hin : readForest n body = some (children, '<' :: '/' :: name.toList ++ ['>'] ++ tail) :=
        ihc hchildren (by omega) (Or.inr ⟨_, rfl⟩)
      have hafter : readForest n tail = some (siblings, t) := ihs hsiblings (by omega) ht
      have hslash : ∀ u, name.toList ++ (attributes.flatMap printAttribute ++ '>' :: body)
          ≠ '/' :: u := by
        intro u h
        rw [hcl, List.cons_append, List.cons.injEq] at h
        rw [h.1] at hc
        exact absurd hc (by decide)
      rw [htext, readForest, (takeWhile_name hname hstop).1, (takeWhile_name hname hstop).2,
        hread]
      · simp only [expect, if_true, Option.bind_eq_bind, Option.bind_some, hin, expect_append,
          hafter, String.ofList_toList]
      · exact hslash

lemma size_le_length_print (f : Forest) : f.size ≤ f.print.length := by
  induction f with
  | nil => simp [Forest.size]
  | node name attributes children siblings ihc ihs =>
    simp only [Forest.size, Forest.print, List.length_append, List.length_cons]
    omega

theorem readElement_print {e : Element} (he : e.WellFormed) : readElement e.print = some e := by
  have hforest : (Forest.node e.name e.attributes e.children .nil).WellFormed :=
    ⟨he.1, he.2.1, he.2.2, trivial⟩
  have hread := readForest_print hforest (size_le_length_print _) (Or.inl rfl)
  rw [List.append_nil] at hread
  unfold readElement Element.print
  rw [hread]
  exact if_pos he

lemma wellFormed_of_readElement {s : List Char} {e : Element} (h : readElement s = some e) :
    e.WellFormed := by
  unfold readElement at h
  split at h
  · dsimp only at h
    split_ifs at h with hw
    cases h
    exact hw
  · cases h

/-- The small writer and the small reader are a library. -/
def plainXml : XmlLibrary where
  write e := String.ofList e.print
  read s := readElement s.toList
  read_write e he := by rw [String.toList_ofList, readElement_print he]
  wellFormed_of_read h := wellFormed_of_readElement h

end MTalk.Xml
