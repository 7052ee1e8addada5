import Mathlib

/-!
# Strings of the C library

The conversions between numbers and text, the comparison without regard to case and the search for
a character, on Lean's strings. A number that was printed is read back by `atoi` and by `scanInt`.
-/

namespace MTalk.CStrings

/-- `isspace`. -/
def isSpace (c : Char) : Bool := c.toNat = 32 || 9 ≤ c.toNat && c.toNat ≤ 13

/-- The prefix `-` or `+` of a number, as the sign that it gives. -/
def sign : List Char → ℤ × List Char
  | '-' :: s => (-1, s)
  | '+' :: s => (1, s)
  | s => (1, s)

/-- `atoi`: the decimal number that the text starts with, zero if there is none. -/
def atoi (s : String) : ℤ :=
  let (sgn, rest) := sign (s.toList.dropWhile isSpace)
  sgn * Nat.ofDigitChars 10 (rest.takeWhile Char.isDigit) 0

/-- The base that the conversion `%i` finds from the first characters. -/
def radix : List Char → ℕ × List Char
  | '0' :: 'x' :: s => (16, s)
  | '0' :: 'X' :: s => (16, s)
  | '0' :: s => (8, '0' :: s)
  | s => (10, s)

def digitValue (c : Char) : ℕ :=
  if c.isDigit then c.toNat - 48
  else if 97 ≤ c.toNat && c.toNat ≤ 102 then c.toNat - 87
  else if 65 ≤ c.toNat && c.toNat ≤ 70 then c.toNat - 55
  else 16

/-- `sscanf(s,"%i %n",..)`: the number and the text after it and the blanks. -/
def scanInt (s : String) : Option (ℤ × String) :=
  let (sgn, rest) := sign (s.toList.dropWhile isSpace)
  let (base, rest) := radix rest
  let digits := rest.takeWhile fun c => digitValue c < base
  if digits = [] then none
  else
    let value := digits.foldl (fun n c => base * n + digitValue c) 0
    let after := rest.dropWhile fun c => digitValue c < base
    some (sgn * value, String.ofList (after.dropWhile isSpace))

/-- Whether `strcasecmp` finds the texts equal. -/
def caseEq (s t : String) : Bool := s.toList.map Char.toLower == t.toList.map Char.toLower

/-- Whether `strncmp` finds the key at the start of the text. -/
def startsWith (key s : String) : Bool := key.toList.isPrefixOf s.toList

/-- Whether `strstr` finds the key in the text. -/
def strstr (s key : String) : Bool := key.toList <:+: s.toList

/-- The text before the first occurrence of a character and the text after it. -/
def splitFirst (c : Char) (s : List Char) : Option (List Char × List Char) :=
  if c ∈ s then some (s.takeWhile (· ≠ c), (s.dropWhile (· ≠ c)).tail) else none

@[simp] lemma caseEq_refl (s : String) : caseEq s s = true := by
  simp [caseEq]

lemma caseEq_iff {s t : String} :
    caseEq s t = true ↔ s.toList.map Char.toLower = t.toList.map Char.toLower := by
  simp [caseEq]

lemma caseEq_symm {s t : String} (h : caseEq s t = true) : caseEq t s = true := by
  rw [caseEq_iff] at h ⊢
  exact h.symm

lemma caseEq_trans {s t u : String} (h : caseEq s t = true) (h' : caseEq t u = true) :
    caseEq s u = true := by
  rw [caseEq_iff] at h h' ⊢
  exact h.trans h'

/-! A key in a text that is put together. -/

section Infix

variable {α : Type} {k x y : List α} {d : α}

/-- A key does not reach over an element that it does not contain. -/
lemma infix_append_cons (hd : d ∉ k) : k <:+: x ++ d :: y ↔ k <:+: x ∨ k <:+: y := by
  constructor
  · rintro ⟨s, t, h⟩
    rcases List.append_eq_append_iff.mp h with ⟨a, hx, ht⟩ | ⟨a, hs, hy⟩
    · exact Or.inl ⟨s, a, hx.symm⟩
    · cases a with
      | nil => exact Or.inl ⟨s, [], by rw [List.append_nil, hs, List.append_nil]⟩
      | cons b a =>
        rw [List.cons_append, List.cons.injEq] at hy
        obtain ⟨rfl, rfl⟩ := hy
        rcases List.append_eq_append_iff.mp hs with ⟨b, hx, hk⟩ | ⟨b, hs', hk⟩
        · exact absurd (by rw [hk]; simp) hd
        · cases b with
          | nil =>
            rw [List.nil_append] at hk
            exact absurd (by rw [← hk]; simp) hd
          | cons c b =>
            rw [List.cons_append, List.cons.injEq] at hk
            obtain ⟨-, rfl⟩ := hk
            exact Or.inr ⟨b, t, rfl⟩
  · rintro (h | h)
    · exact h.trans (List.prefix_append x _).isInfix
    · exact h.trans ((List.suffix_cons d y).isInfix.trans (List.suffix_append x _).isInfix)

lemma infix_append_of_head (hk : k ≠ []) (hd : d ∉ k) (hy : y.head? = some d) :
    k <:+: x ++ y ↔ k <:+: x ∨ k <:+: y := by
  cases y with
  | nil => cases hy
  | cons e y =>
    rw [List.head?_cons, Option.some.injEq] at hy
    subst hy
    have htail : k <:+: e :: y ↔ k <:+: y := by
      have h := infix_append_cons (x := []) (y := y) hd
      rw [List.nil_append] at h
      rw [h, List.infix_nil]
      simp [hk]
    rw [infix_append_cons hd, htail]

lemma infix_append_of_last (hk : k ≠ []) (hd : d ∉ k) (hx : x.getLast? = some d) :
    k <:+: x ++ y ↔ k <:+: x ∨ k <:+: y := by
  obtain ⟨x, rfl⟩ := List.getLast?_eq_some_iff.mp hx
  have hfirst : k <:+: x ++ [d] ↔ k <:+: x := by
    rw [infix_append_cons hd, List.infix_nil]
    simp [hk]
  rw [hfirst, List.append_assoc, List.singleton_append, infix_append_cons hd]

/-- Elements that the key does not contain, before the text, make no difference. -/
lemma infix_append_of_forall (hk : k ≠ []) (hx : ∀ d ∈ x, d ∉ k) : k <:+: x ++ y ↔ k <:+: y := by
  induction x with
  | nil => rfl
  | cons d x ih =>
    have h := infix_append_cons (x := []) (y := x ++ y) (hx d List.mem_cons_self)
    rw [List.nil_append] at h
    rw [List.cons_append, h, List.infix_nil, ih fun e he => hx e (List.mem_cons_of_mem d he)]
    simp [hk]

end Infix

/-! A part of a list that a predicate delimits. -/

section Delimited

variable {α : Type} {p : α → Bool} {l t : List α}

/-- The list does not start with an element of the kind. -/
def NoHead (p : α → Bool) (t : List α) : Prop := ∀ a, t.head? = some a → p a = false

lemma noHead_nil : NoHead p ([] : List α) := by
  intro a h
  simp at h

lemma noHead_cons {a : α} (h : p a = false) : NoHead p (a :: t) := by
  intro b hb
  rw [List.head?_cons, Option.some.injEq] at hb
  exact hb ▸ h

lemma takeWhile_append (hl : ∀ a ∈ l, p a = true) (ht : NoHead p t) :
    (l ++ t).takeWhile p = l := by
  induction l with
  | nil =>
    cases t with
    | nil => rfl
    | cons a t => simp [ht a rfl]
  | cons a l ih =>
    have htail := ih fun b hb => hl b (List.mem_cons_of_mem a hb)
    rw [List.cons_append, List.takeWhile_cons_of_pos (hl a List.mem_cons_self), htail]

lemma dropWhile_append (hl : ∀ a ∈ l, p a = true) (ht : NoHead p t) :
    (l ++ t).dropWhile p = t := by
  induction l with
  | nil =>
    cases t with
    | nil => rfl
    | cons a t => simp [ht a rfl]
  | cons a l ih =>
    have htail := ih fun b hb => hl b (List.mem_cons_of_mem a hb)
    rw [List.cons_append, List.dropWhile_cons_of_pos (hl a List.mem_cons_self), htail]

lemma dropWhile_of_noHead (ht : NoHead p t) : t.dropWhile p = t :=
  dropWhile_append (l := []) (by simp) ht

end Delimited

lemma splitFirst_append {c : Char} {s t : List Char} (hs : c ∉ s) :
    splitFirst c (s ++ c :: t) = some (s, t) := by
  have hall : ∀ a ∈ s, decide (a ≠ c) = true := by
    intro a ha
    rw [decide_eq_true_eq]
    rintro rfl
    exact hs ha
  have hhead : NoHead (fun a => decide (a ≠ c)) (c :: t) := noHead_cons (by simp)
  unfold splitFirst
  rw [if_pos (by simp), takeWhile_append hall hhead, dropWhile_append hall hhead]
  rfl

lemma splitFirst_eq_none {c : Char} {s : List Char} (hs : c ∉ s) : splitFirst c s = none := by
  simp [splitFirst, hs]

/-! Printed numbers. -/

lemma isDigit_toNat {c : Char} (h : c.isDigit = true) : 48 ≤ c.toNat ∧ c.toNat ≤ 57 := by
  simp only [Char.isDigit, Bool.and_eq_true, decide_eq_true_eq] at h
  exact ⟨h.1, h.2⟩

lemma isSpace_of_isDigit {c : Char} (h : c.isDigit = true) : isSpace c = false := by
  obtain ⟨hlow, hhigh⟩ := isDigit_toNat h
  simp only [isSpace, Bool.or_eq_false_iff, Bool.and_eq_false_iff, decide_eq_false_iff_not]
  omega

lemma digitValue_of_isDigit {c : Char} (h : c.isDigit = true) : digitValue c < 10 := by
  obtain ⟨hlow, hhigh⟩ := isDigit_toNat h
  rw [digitValue, if_pos h]
  omega

lemma mem_toDigits_isDigit {n : ℕ} : ∀ c ∈ Nat.toDigits 10 n, c.isDigit = true :=
  fun _ hc => Nat.isDigit_of_mem_toDigits (by decide) (by decide) hc

lemma toDigits_cons (n : ℕ) : ∃ c t, Nat.toDigits 10 n = c :: t :=
  List.exists_cons_of_ne_nil Nat.toDigits_ne_nil

lemma printed (n : ℤ) : (toString n).toList =
    if 0 ≤ n then Nat.toDigits 10 n.toNat else '-' :: Nat.toDigits 10 (-n).toNat := by
  rw [Int.toString_eq_repr, Int.repr_eq_if]
  split_ifs
  · exact Nat.toList_repr
  · rw [String.toList_append, Nat.toList_repr]
    rfl

lemma sign_digits {m : ℕ} {t : List Char} :
    sign (Nat.toDigits 10 m ++ t) = (1, Nat.toDigits 10 m ++ t) := by
  obtain ⟨c, d, hcd⟩ := toDigits_cons m
  have hc : c.isDigit = true := mem_toDigits_isDigit c (by rw [hcd]; exact List.mem_cons_self)
  rw [hcd, List.cons_append]
  unfold sign
  split
  · simp_all
  · simp_all
  · rfl

/-- The sign and the digits of a printed number, whatever follows it. -/
lemma sign_printed (n : ℤ) (t : List Char) : ∃ sgn : ℤ, ∃ m : ℕ, sgn * m = n ∧
    sign (((toString n).toList ++ t).dropWhile isSpace) = (sgn, Nat.toDigits 10 m ++ t) := by
  rw [printed]
  split_ifs with hn
  · refine ⟨1, n.toNat, by omega, ?_⟩
    obtain ⟨c, d, hcd⟩ := toDigits_cons n.toNat
    have hc : c.isDigit = true :=
      mem_toDigits_isDigit c (by rw [hcd]; exact List.mem_cons_self)
    rw [dropWhile_of_noHead]
    · exact sign_digits
    · rw [hcd]
      exact noHead_cons (isSpace_of_isDigit hc)
  · refine ⟨-1, (-n).toNat, by omega, ?_⟩
    rw [dropWhile_of_noHead]
    · rfl
    · exact noHead_cons (by decide)

theorem atoi_printed (n : ℤ) {s : String} (hs : NoHead Char.isDigit s.toList) :
    atoi (toString n ++ s) = n := by
  obtain ⟨sgn, m, hn, hsign⟩ := sign_printed n s.toList
  unfold atoi
  rw [String.toList_append, hsign]
  dsimp only
  rw [takeWhile_append mem_toDigits_isDigit hs, Nat.ofDigitChars_ten_toDigits]
  exact hn

lemma atoi_toString (n : ℤ) : atoi (toString n) = n := by
  have h := atoi_printed n (s := "") (by simpa using noHead_nil)
  rwa [String.append_empty] at h

/-- A printed number starts with a zero only when it is zero. -/
lemma head_toDigits {m : ℕ} (hm : 0 < m) : ∃ c t, Nat.toDigits 10 m = c :: t ∧ c ≠ '0' := by
  induction m using Nat.strong_induction_on with
  | _ m ih =>
    by_cases hlt : m < 10
    · refine ⟨m.digitChar, [], Nat.toDigits_of_lt_base hlt, ?_⟩
      interval_cases m <;> decide
    · obtain ⟨c, t, hct, hc⟩ := ih (m / 10) (by omega) (by omega)
      refine ⟨c, t ++ [(m % 10).digitChar], ?_, hc⟩
      rw [Nat.toDigits_of_base_le (by decide) (by omega), hct, List.cons_append]

/-- A blank after a number keeps its base the decimal one, or makes no difference. -/
lemma radix_printed (m : ℕ) (t : List Char) : ∃ base, (base = 10 ∨ base = 8 ∧ m = 0) ∧
    radix (Nat.toDigits 10 m ++ ' ' :: t) = (base, Nat.toDigits 10 m ++ ' ' :: t) := by
  rcases Nat.eq_zero_or_pos m with rfl | hm
  · exact ⟨8, Or.inr ⟨rfl, rfl⟩, rfl⟩
  · obtain ⟨c, d, hcd, hc⟩ := head_toDigits hm
    refine ⟨10, Or.inl rfl, ?_⟩
    rw [hcd, List.cons_append]
    unfold radix
    split <;> simp_all

lemma foldl_digits (l : List Char) (hl : ∀ c ∈ l, c.isDigit = true) (n : ℕ) :
    l.foldl (fun n c => 10 * n + digitValue c) n = Nat.ofDigitChars 10 l n := by
  induction l generalizing n with
  | nil => rfl
  | cons c l ih =>
    have hc : digitValue c = c.toNat - 48 := by
      rw [digitValue, if_pos (hl c List.mem_cons_self)]
    rw [List.foldl_cons, Nat.ofDigitChars_cons, ih fun d hd => hl d (List.mem_cons_of_mem c hd), hc]
    rfl

/-- The number and the text of `"%i %s"` are found again. -/
theorem scanInt_printed (n : ℤ) {s : String} (hs : NoHead isSpace s.toList) :
    scanInt (toString n ++ " " ++ s) = some (n, s) := by
  have hblank : (" " ++ s).toList = ' ' :: s.toList := by
    rw [String.toList_append]
    rfl
  obtain ⟨sgn, m, hn, hsign⟩ := sign_printed n (' ' :: s.toList)
  obtain ⟨base, hbase, hradix⟩ := radix_printed m s.toList
  have hdigits : ∀ c ∈ Nat.toDigits 10 m, decide (digitValue c < base) = true := by
    intro c hc
    rw [decide_eq_true_eq]
    rcases hbase with rfl | ⟨rfl, rfl⟩
    · exact digitValue_of_isDigit (mem_toDigits_isDigit c hc)
    · have hzero : c = '0' := by simpa using hc
      subst hzero
      decide
  have hstop : NoHead (fun c => decide (digitValue c < base)) (' ' :: s.toList) := by
    apply noHead_cons
    rcases hbase with rfl | ⟨rfl, rfl⟩
    · decide
    · decide
  have hvalue : (Nat.toDigits 10 m).foldl (fun n c => base * n + digitValue c) 0 = m := by
    rcases hbase with rfl | ⟨rfl, rfl⟩
    · rw [foldl_digits _ mem_toDigits_isDigit, Nat.ofDigitChars_ten_toDigits]
    · decide
  unfold scanInt
  rw [String.append_assoc, String.toList_append, hblank, hsign]
  dsimp only
  rw [hradix]
  dsimp only
  rw [takeWhile_append hdigits hstop, dropWhile_append hdigits hstop, if_neg Nat.toDigits_ne_nil,
    hvalue, hn, List.dropWhile_cons_of_pos (by decide), dropWhile_of_noHead hs,
    String.ofList_toList]

end MTalk.CStrings
