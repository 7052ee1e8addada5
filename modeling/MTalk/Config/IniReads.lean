import MTalk.Config.IniUpdates

/-!
# Reads after an update of an INI file

A value that was written is read. Another key of the section is read as before unless it is the
start of the written key or the line that was overwritten answered it, since a key answers for every
key that starts with it.
-/

namespace MTalk.Config.CIniWR

open CStrings

structure SectionName where
  chars : List Char
  noBreak : ∀ c ∈ chars, isBreak c = false

/-- A key that a line can have. -/
structure KeyName where
  chars : List Char
  nonblank : ∃ c ∈ chars, isSpace c = false
  plain : ∀ c ∈ chars, isBreak c = false ∧ c ≠ '='
  head : chars.head? ≠ some ';' ∧ chars.head? ≠ some '['

/-- A value on one line, without blanks around it and not in quotes. -/
structure IniValue where
  chars : List Char
  noBreak : ∀ c ∈ chars, isBreak c = false
  head : ∃ c, chars.head? = some c ∧ isSpace c = false ∧ c ≠ '"'
  last : ∀ c, chars.getLast? = some c → isSpace c = false

def SameText (s t : List Char) : Prop := s.map Char.toLower = t.map Char.toLower

instance (s t : List Char) : Decidable (SameText s t) :=
  inferInstanceAs (Decidable (_ = _))

/-- The value of a line, or `none` if the default is taken. -/
def lineAnswer (line : Line) : Option (List Char) :=
  if (keyValue line).2 = 0 then none else some ((keyValue line).1.take (keyValue line).2)

/-- What a reader gets for a key, or `none` if the default is taken. -/
def answer (appName keyName : List Char) (lines : List Line) : Option (List Char) :=
  (findKey appName keyName lines).bind lineAnswer

/-- Writing a value: it is read, and another key is read as before. -/
def WriteReadLaw (text appName keyName value appName' keyName' : List Char) : Prop :=
  ∃ file, (Call.mk appName (some keyName) (some value)).writePrivateProfileString text = some file
    ∧ (∀ default room,
        getPrivateProfileString appName keyName default room file = value.take room)
    ∧ (¬ (SameText appName appName' ∧ SameText keyName keyName') → ∀ default room,
        getPrivateProfileString appName' keyName' default room file
          = getPrivateProfileString appName' keyName' default room text)

/-- Another key of the section is not concerned: a line before the line that answers the key
answers it; or the key is added, and the other key is not the start of it; or a line is overwritten,
and it gives the same value or does not answer the other key. -/
def Undisturbed (body : List Line) (keyName value keyName' : List Char) : Prop :=
  (∃ line ∈ body.takeWhile fun l => !isKey l keyName, isKey line keyName' = true)
    ∨ match body.dropWhile fun l => !isKey l keyName with
      | [] => wcsnicmp keyName keyName' keyName'.length = false
      | line :: rest =>
        if wcsnicmp keyName keyName' keyName'.length then lineAnswer line = some value
        else isKey line keyName' = true →
          lineAnswer line = (rest.find? (isKey · keyName')).bind lineAnswer

/-- The lines fit into the buffers, and another key of the section is not concerned. -/
structure Lawful (text appName keyName value appName' keyName' : List Char) : Prop where
  lines : ∀ line ∈ keptKey appName (isKey · keyName) false (readLines text),
    (Output.copied line).Fits
  values : ∀ o ∈ (Call.mk appName (some keyName) (some value)).values (readLines text), o.Fits
  others : SameText appName appName' → SameText keyName keyName'
    ∨ Undisturbed (sectionLines appName (readLines text)) keyName value keyName'

/-! Reads. -/

lemma getPrivateProfileString_eq (appName keyName default : List Char) (room : ℕ)
    (text : List Char) : getPrivateProfileString appName keyName default room text
      = ((answer appName keyName (readLines text)).getD default).take room := by
  unfold getPrivateProfileString answer
  cases hfind : findKey appName keyName (readLines text) with
  | none => rfl
  | some line =>
    rw [Option.map_some, Option.bind_some, lineAnswer]
    dsimp only
    by_cases hlen : (keyValue line).2 = 0
    · rw [if_pos hlen, hlen, if_pos (Nat.zero_min room), Option.getD_none]
    · rw [if_neg hlen, Option.getD_some, List.take_take]
      by_cases hroom : room = 0
      · rw [hroom, Nat.min_zero, if_pos rfl, Nat.zero_min, List.take_zero, List.take_zero]
      · rw [if_neg (by omega), Nat.min_comm]

/-- Two texts give the same reads exactly when they have the same answer. -/
lemma reads_iff (a b : Option (List Char)) :
    (∀ default room, (a.getD default).take room = (b.getD default).take room) ↔ a = b := by
  constructor
  · intro h
    have hwhole : ∀ default, a.getD default = b.getD default := by
      intro default
      have hroom := h default (max (a.getD default).length (b.getD default).length)
      rwa [List.take_of_length_le (le_max_left _ _), List.take_of_length_le (le_max_right _ _)]
        at hroom
    cases a with
    | none =>
      cases b with
      | none => rfl
      | some y =>
        have hlong := congrArg List.length (hwhole ('a' :: y))
        simp at hlong
    | some x =>
      cases b with
      | none =>
        have hlong := congrArg List.length (hwhole ('a' :: x))
        simp at hlong
      | some y =>
        have hsame := hwhole []
        simp only [Option.getD_some] at hsame
        rw [hsame]
  · rintro rfl default room
    rfl

/-- An empty line at the end changes no answer. -/
lemma answer_blank (appName keyName : List Char) (lines : List Line) :
    answer appName keyName (lines ++ [[]]) = answer appName keyName lines := by
  have hkey : isKey [] keyName = false := rfl
  have hblank : isSectionName [] appName = false := rfl
  have hsections : sectionLines appName (lines ++ [[]]) = sectionLines appName lines
      ∨ sectionLines appName (lines ++ [[]]) = sectionLines appName lines ++ [[]] := by
    induction lines with
    | nil => exact Or.inl rfl
    | cons line lines ih =>
      rw [List.cons_append, sectionLines, sectionLines]
      split_ifs
      · by_cases hall : ∀ l ∈ lines, (!isSection l) = true
        · right
          rw [List.takeWhile_append_of_pos hall, List.takeWhile_eq_self_iff.mpr hall]
          rfl
        · left
          rw [List.takeWhile_append, if_neg]
          intro hlength
          exact hall (List.takeWhile_eq_self_iff.mp ((List.takeWhile_prefix _).eq_of_length hlength))
      · exact ih
  unfold answer findKey
  rcases hsections with hsections | hsections
  · rw [hsections]
  · rw [hsections, List.find?_append]
    simp [hkey]

/-! Names and keys. -/

lemma wcsnicmp_iff {s t : List Char} :
    wcsnicmp s t t.length = true ↔ (s.take t.length).map Char.toLower = t.map Char.toLower := by
  rw [wcsnicmp, beq_iff_eq, List.take_length]

lemma isSectionName_iff {line : Line} {name : List Char} : isSectionName line name = true
    ↔ isSection line = true ∧ line.length = name.length + 2
      ∧ (line.tail.take name.length).map Char.toLower = name.map Char.toLower := by
  rw [isSectionName, Bool.and_eq_true, Bool.and_eq_true, beq_iff_eq, wcsnicmp_iff, and_assoc]

lemma SameText.length {s t : List Char} (h : SameText s t) : s.length = t.length := by
  have hlength := congrArg List.length h
  simpa using hlength

lemma isSectionName_congr {s t : List Char} (h : SameText s t) (line : Line) :
    isSectionName line t = isSectionName line s := by
  rw [Bool.eq_iff_iff, isSectionName_iff, isSectionName_iff, h.length, ← h]

/-- A line that starts two sections has one name. -/
lemma sameText_of_isSectionName {line : Line} {s t : List Char}
    (hs : isSectionName line s = true) (ht : isSectionName line t = true) : SameText s t := by
  obtain ⟨-, hslength, hs⟩ := isSectionName_iff.mp hs
  obtain ⟨-, htlength, ht⟩ := isSectionName_iff.mp ht
  have hlength : s.length = t.length := by omega
  rw [hlength] at hs
  exact hs.symm.trans ht

lemma sectionLines_congr {s t : List Char} (h : SameText s t) (lines : List Line) :
    sectionLines t lines = sectionLines s lines := by
  induction lines with
  | nil => rfl
  | cons line lines ih => rw [sectionLines, sectionLines, isSectionName_congr h, ih]

lemma isSectionName_written (name : List Char) :
    isSectionName ('[' :: name ++ [']']) name = true := by
  rw [isSectionName_iff]
  simp [isSection]

/-- A line that starts with a key starts with every start of it. -/
lemma isKey_of_start {line : Line} {key key' : List Char} (h : isKey line key = true)
    (hstart : wcsnicmp key key' key'.length = true) : isKey line key' = true := by
  rw [isKey, Bool.and_eq_true, wcsnicmp_iff] at h ⊢
  rw [wcsnicmp_iff] at hstart
  have hlength : key'.length ≤ key.length := by
    have hlen := congrArg List.length hstart
    simp only [List.length_map, List.length_take] at hlen
    omega
  refine ⟨h.1, ?_⟩
  have htake := congrArg (List.take key'.length) h.2
  rw [← List.map_take, ← List.map_take, List.take_take, min_eq_left hlength, hstart] at htake
  exact htake

/-! The written line. -/

/-- The line that `WriteValue` writes. -/
def valueLine (key : KeyName) (value : IniValue) : Line := key.chars ++ '=' :: value.chars

lemma takeWhile_valueLine (key : KeyName) (value : IniValue) :
    (valueLine key value).takeWhile (· ≠ '=') = key.chars := by
  have hall : ∀ c ∈ key.chars, decide (c ≠ '=') = true := by
    intro c hc
    rw [decide_eq_true_eq]
    exact (key.plain c hc).2
  exact takeWhile_append hall (noHead_cons (by simp))

lemma dropWhile_valueLine (key : KeyName) (value : IniValue) :
    (valueLine key value).dropWhile (· ≠ '=') = '=' :: value.chars := by
  have hall : ∀ c ∈ key.chars, decide (c ≠ '=') = true := by
    intro c hc
    rw [decide_eq_true_eq]
    exact (key.plain c hc).2
  exact dropWhile_append hall (noHead_cons (by simp))

lemma head_valueLine (key : KeyName) (value : IniValue) :
    (valueLine key value).head? = key.chars.head? := by
  obtain ⟨c, hc, -⟩ := key.nonblank
  obtain ⟨first, rest, hrest⟩ := List.exists_cons_of_ne_nil (List.ne_nil_of_mem hc)
  rw [valueLine, hrest]
  rfl

lemma isSection_valueLine (key : KeyName) (value : IniValue) :
    isSection (valueLine key value) = false := by
  rw [isSection, head_valueLine, decide_eq_false_iff_not]
  exact key.head.2

lemma isEntry_valueLine (key : KeyName) (value : IniValue) :
    isEntry (valueLine key value) = true := by
  obtain ⟨c, hc, hspace⟩ := key.nonblank
  have hcomment : isComment (valueLine key value) = false := by
    rw [isComment, head_valueLine]
    have hne : key.chars.head? ≠ none := by
      rw [ne_eq, List.head?_eq_none_iff]
      exact List.ne_nil_of_mem hc
    simp [hne, key.head.1]
  have hpart : keyPart (valueLine key value) ≠ [] := by
    rw [keyPart, takeWhile_valueLine, ne_eq, List.rdropWhile_eq_nil_iff]
    intro hall
    rw [hall c hc] at hspace
    cases hspace
  have hequals : '=' ∈ valueLine key value := by simp [valueLine]
  rw [isEntry, hcomment]
  simp [hpart, hequals]

/-- No other character has the lower case `=`. -/
lemma eq_of_toLower_equals {c : Char} (h : c.toLower = '=') : c = '=' := by
  unfold Char.toLower at h
  split_ifs at h with hupper
  · have hcode : c.val + 32 = 61 := congrArg Char.val h
    have hc : c.val = 29 := by
      have hshift := congrArg (· - 32) hcode
      simpa using hshift
    rw [hc] at hupper
    exact absurd hupper.1 (by decide)
  · exact h

/-- The written line answers the keys that are a start of its key. -/
lemma isKey_valueLine (key : KeyName) (value : IniValue) (key' : KeyName) :
    isKey (valueLine key value) key'.chars = wcsnicmp key.chars key'.chars key'.chars.length := by
  rw [isKey, isEntry_valueLine, Bool.true_and, Bool.eq_iff_iff, wcsnicmp_iff, wcsnicmp_iff,
    valueLine]
  by_cases hlength : key'.chars.length ≤ key.chars.length
  · rw [List.take_append_of_le_length hlength]
  · have hnot : ∀ s : List Char, s.length ≤ key.chars.length →
        s.map Char.toLower ≠ key'.chars.map Char.toLower := by
      intro s hs hsame
      have hlen := congrArg List.length hsame
      simp only [List.length_map] at hlen
      omega
    constructor
    · intro hsame
      have hmem : '=' ∈ (key.chars ++ '=' :: value.chars).take key'.chars.length := by
        obtain ⟨n, hn⟩ := Nat.exists_eq_add_of_lt (not_le.mp hlength)
        rw [hn, Nat.add_assoc, List.take_length_add_append, List.take_succ_cons]
        simp
      have hlower := List.mem_map_of_mem (f := Char.toLower) hmem
      rw [hsame, List.mem_map] at hlower
      obtain ⟨c, hc, hequals⟩ := hlower
      exact absurd (eq_of_toLower_equals hequals) (key'.plain c hc).2
    · intro hsame
      exact absurd hsame (hnot _ (by simp))

/-- The written line gives the value. -/
lemma lineAnswer_valueLine (key : KeyName) (value : IniValue) :
    lineAnswer (valueLine key value) = some value.chars := by
  obtain ⟨c, hhead, hspace, hquote⟩ := value.head
  have hstart : NoHead isSpace value.chars := by
    intro a ha
    rw [hhead] at ha
    cases ha
    exact hspace
  have hend : value.chars.rdropWhile isSpace = value.chars := by
    rw [List.rdropWhile_eq_self_iff]
    intro hne hlast
    have hnot := value.last _ (List.getLast?_eq_getLast_of_ne_nil hne)
    rw [hnot] at hlast
    cases hlast
  have hnoQuote : value.chars.head? ≠ some '"' := by
    rw [hhead]
    simpa using hquote
  have hne : value.chars.length ≠ 0 := by
    rw [ne_eq, List.length_eq_zero_iff]
    intro hnil
    rw [hnil] at hhead
    cases hhead
  have hvalue : keyValue (valueLine key value) = (value.chars, value.chars.length) := by
    unfold keyValue
    dsimp only
    rw [dropWhile_valueLine, List.tail_cons, dropWhile_of_noHead hstart, hend, if_neg hnoQuote]
  rw [lineAnswer, hvalue, if_neg hne, List.take_length]

/-! The lines of the new file. -/

/-- Lines before two texts that start with a section have the same sections as long as the texts
do. -/
lemma sectionLines_append {name : List Char} {rest rest' : List Line}
    (hrest : NoHead (fun l => !isSection l) rest) (hrest' : NoHead (fun l => !isSection l) rest')
    (h : sectionLines name rest = sectionLines name rest') (before : List Line) :
    sectionLines name (before ++ rest) = sectionLines name (before ++ rest') := by
  have htake : ∀ {r : List Line}, NoHead (fun l => !isSection l) r → ∀ b : List Line,
      (b ++ r).takeWhile (fun l => !isSection l) = b.takeWhile fun l => !isSection l := by
    intro r hr b
    induction b with
    | nil =>
      cases r with
      | nil => rfl
      | cons l r => exact List.takeWhile_cons_of_neg (by simp [hr l rfl])
    | cons l b ih => rw [List.cons_append, List.takeWhile_cons, List.takeWhile_cons, ih]
  induction before with
  | nil => exact h
  | cons line before ih =>
    rw [List.cons_append, List.cons_append, sectionLines, sectionLines, htake hrest, htake hrest',
      ih]

lemma sectionLines_cons_other {name : List Char} {line : Line}
    (h : ¬ isSectionName line name = true) (lines : List Line) :
    sectionLines name (line :: lines) = sectionLines name lines := by
  rw [sectionLines, if_neg h]

/-- Lines that start no section are passed over. -/
lemma sectionLines_body {name : List Char} {body : List Line}
    (h : ∀ l ∈ body, isSection l = false) (after : List Line) :
    sectionLines name (body ++ after) = sectionLines name after := by
  induction body with
  | nil => rfl
  | cons line body ih =>
    have hname : ¬ isSectionName line name = true := by
      intro hname
      have hsection := isSection_of_isSectionName hname
      rw [h line List.mem_cons_self] at hsection
      cases hsection
    rw [List.cons_append, sectionLines_cons_other hname,
      ih fun l hl => h l (List.mem_cons_of_mem line hl)]

section NewLines

variable (name : SectionName) (key : KeyName) (value : IniValue)

/-- The call that writes a value. -/
def writing : Call := ⟨name.chars, some key.chars, some value.chars⟩

/-- The lines of the new file. -/
def newLines (lines : List Line) : List Line :=
  ((writing name key value).process false false lines).map Output.line

variable {name key value}

lemma map_line_copied (lines : List Line) : (lines.map Output.copied).map Output.line = lines := by
  induction lines with
  | nil => rfl
  | cons line lines ih =>
    rw [List.map_cons, List.map_cons, ih]
    rfl

lemma newLines_found {lines before body after : List Line} {header : Line}
    (h : HasSection lines name.chars before header body after) : newLines name key value lines
      = before ++ header :: (((body.takeWhile fun l => !isKey l key.chars)
        ++ valueLine key value :: (body.dropWhile fun l => !isKey l key.chars).tail) ++ after) := by
  have hprocess := (writing name key value).process_found rfl h
  rw [newLines, hprocess, List.map_append, List.map_append, map_line_copied, map_line_copied]
  simp [writing, writeValue, Output.line, valueLine]

lemma newLines_missing {lines : List Line}
    (h : ∀ l ∈ lines, isSectionName l name.chars = false) : newLines name key value lines
      = lines ++ [('[' :: name.chars ++ [']']), valueLine key value] := by
  have hprocess := (writing name key value).process_missing h
  rw [newLines, hprocess, List.map_append, map_line_copied]
  simp [writing, writeValue, Output.line, valueLine]

/-- The lines of the section in the new file start no section. -/
lemma isSection_newBody {body : List Line} (h : ∀ l ∈ body, isSection l = false) :
    ∀ l ∈ (body.takeWhile fun l => !isKey l key.chars)
      ++ valueLine key value :: (body.dropWhile fun l => !isKey l key.chars).tail,
      isSection l = false := by
  intro l hl
  rcases List.mem_append.mp hl with hl | hl
  · exact h l (List.takeWhile_subset _ hl)
  · rcases List.mem_cons.mp hl with rfl | hl
    · exact isSection_valueLine key value
    · exact h l ((List.dropWhile_suffix _).subset (List.mem_of_mem_tail hl))

/-- The section in the new file. -/
lemma sectionLines_newLines (lines : List Line) :
    sectionLines name.chars (newLines name key value lines)
      = ((sectionLines name.chars lines).takeWhile fun l => !isKey l key.chars)
        ++ valueLine key value
          :: ((sectionLines name.chars lines).dropWhile fun l => !isKey l key.chars).tail := by
  rcases hasSection_or lines name.chars with hmissing | ⟨before, header, body, after, h⟩
  · have hnew : HasSection (newLines name key value lines) name.chars lines
        ('[' :: name.chars ++ [']']) [valueLine key value] [] := by
      refine ⟨newLines_missing hmissing, hmissing, isSectionName_written _, ?_, noHead_nil⟩
      intro l hl
      rw [List.mem_singleton.mp hl]
      exact isSection_valueLine key value
    rw [hnew.sectionLines_eq, sectionLines_missing hmissing]
    rfl
  · have hnew : HasSection (newLines name key value lines) name.chars before header _ after :=
      ⟨newLines_found h, h.before, h.header, isSection_newBody h.body, h.after⟩
    rw [hnew.sectionLines_eq, h.sectionLines_eq]

/-- The other sections in the new file. -/
lemma sectionLines_newLines_other {name' : List Char} (hname : ¬ SameText name.chars name')
    (lines : List Line) :
    sectionLines name' (newLines name key value lines) = sectionLines name' lines := by
  have hother : ∀ l, isSectionName l name.chars = true → ¬ isSectionName l name' = true :=
    fun l hl hl' => hname (sameText_of_isSectionName hl hl')
  rcases hasSection_or lines name.chars with hmissing | ⟨before, header, body, after, h⟩
  · have hwritten := isSectionName_written name.chars
    have hrest : sectionLines name' [('[' :: name.chars ++ [']']), valueLine key value]
        = sectionLines name' [] :=
      calc sectionLines name' [('[' :: name.chars ++ [']']), valueLine key value]
          = sectionLines name' ([valueLine key value] ++ []) :=
            sectionLines_cons_other (hother _ hwritten) _
        _ = sectionLines name' [] := sectionLines_body (by simp [isSection_valueLine]) []
    have hsame := sectionLines_append (noHead_cons rfl) noHead_nil hrest lines
    rw [List.append_nil] at hsame
    rw [newLines_missing hmissing]
    exact hsame
  · have hstart : ∀ rest, NoHead (fun l => !isSection l) (header :: rest) := by
      intro rest
      exact noHead_cons (by rw [isSection_of_isSectionName h.header]; rfl)
    rw [newLines_found h, h.lines_eq]
    apply sectionLines_append (hstart _) (hstart _)
    rw [sectionLines_cons_other (hother _ h.header), sectionLines_cons_other (hother _ h.header),
      sectionLines_body (isSection_newBody h.body), sectionLines_body h.body]

/-! Answers of the new file. -/

lemma find_takeWhile_not (body : List Line) (test : Line → Bool) :
    (body.takeWhile fun l => !test l).find? test = none := by
  rw [List.find?_eq_none]
  intro l hl
  simpa using List.mem_takeWhile_imp hl

/-- The written value is the answer to its key. -/
lemma answer_written (lines : List Line) :
    answer name.chars key.chars (newLines name key value lines) = some value.chars := by
  have hself : isKey (valueLine key value) key.chars = true := by
    rw [isKey_valueLine, wcsnicmp_iff, List.take_length]
  rw [answer, findKey, sectionLines_newLines, List.find?_append, find_takeWhile_not, Option.none_or,
    List.find?_cons_of_pos (p := (isKey · key.chars)) hself, Option.bind_some,
    lineAnswer_valueLine]

/-- The answers of other sections stay. -/
lemma answer_other_section {name' : List Char} (hname : ¬ SameText name.chars name')
    (key' : List Char) (lines : List Line) :
    answer name' key' (newLines name key value lines) = answer name' key' lines := by
  rw [answer, findKey, sectionLines_newLines_other hname]
  rfl

/-- The answer to another key of a section stays exactly when the key is not concerned. -/
lemma find_newBody_iff (body : List Line) (key' : KeyName) :
    (((body.takeWhile fun l => !isKey l key.chars)
        ++ valueLine key value :: (body.dropWhile fun l => !isKey l key.chars).tail).find?
          (isKey · key'.chars)).bind lineAnswer
      = (body.find? (isKey · key'.chars)).bind lineAnswer
      ↔ Undisturbed body key.chars value.chars key'.chars := by
  have hbody : body = (body.takeWhile fun l => !isKey l key.chars)
      ++ body.dropWhile fun l => !isKey l key.chars := List.takeWhile_append_dropWhile.symm
  unfold Undisturbed
  conv_lhs => rhs; rw [hbody]
  rw [List.find?_append, List.find?_append]
  by_cases hearlier : ∃ line ∈ body.takeWhile fun l => !isKey l key.chars,
      isKey line key'.chars = true
  · have hsome : ((body.takeWhile fun l => !isKey l key.chars).find?
        (isKey · key'.chars)).isSome = true := by
      rw [List.find?_isSome]
      exact hearlier
    obtain ⟨line, hline⟩ := Option.isSome_iff_exists.mp hsome
    rw [hline, Option.some_or, Option.some_or]
    exact iff_of_true rfl (Or.inl hearlier)
  · have hnone : (body.takeWhile fun l => !isKey l key.chars).find? (isKey · key'.chars)
        = none := by
      rw [List.find?_eq_none]
      exact fun l hl hmatch => hearlier ⟨l, hl, hmatch⟩
    rw [hnone, Option.none_or, Option.none_or, or_iff_right hearlier, List.find?_cons,
      isKey_valueLine]
    cases hdrop : body.dropWhile fun l => !isKey l key.chars with
    | nil =>
      dsimp only
      cases hstart : wcsnicmp key.chars key'.chars key'.chars.length with
      | true => simp [lineAnswer_valueLine]
      | false => simp
    | cons line rest =>
      have hline : isKey line key.chars = true := by
        have h := List.head?_dropWhile_not (fun l => !isKey l key.chars) body
        rw [hdrop] at h
        simpa using h
      dsimp only
      cases hstart : wcsnicmp key.chars key'.chars key'.chars.length with
      | true =>
        have hboth := isKey_of_start hline hstart
        rw [List.find?_cons_of_pos (p := (isKey · key'.chars)) hboth, if_pos rfl]
        dsimp only
        rw [Option.bind_some, Option.bind_some, lineAnswer_valueLine, eq_comm]
      | false =>
        rw [if_neg (by simp), List.tail_cons]
        dsimp only
        cases hanswers : isKey line key'.chars with
        | true =>
          rw [List.find?_cons_of_pos (p := (isKey · key'.chars)) hanswers, Option.bind_some]
          simp only [forall_const]
          exact eq_comm
        | false =>
          rw [List.find?_cons_of_neg (p := (isKey · key'.chars)) (by simp [hanswers])]
          simp

end NewLines

/-! The law. -/

lemma mem_keptKey {name : List Char} {test : Line → Bool} {inSection : Bool} {lines : List Line}
    {line : Line} (h : line ∈ keptKey name test inSection lines) : line ∈ lines := by
  induction lines generalizing inSection with
  | nil => cases inSection <;> cases h
  | cons first lines ih =>
    cases inSection with
    | false =>
      rcases List.mem_cons.mp h with rfl | h
      · exact List.mem_cons_self
      · exact List.mem_cons_of_mem first (ih h)
    | true =>
      rw [keptKey] at h
      split_ifs at h
      · exact h
      · exact List.mem_cons_of_mem first h
      · rcases List.mem_cons.mp h with rfl | h
        · exact List.mem_cons_self
        · exact List.mem_cons_of_mem first (ih h)

lemma readLines_noBreak {text : List Char} {line : Line} (h : line ∈ readLines text) :
    ∀ c ∈ line, isBreak c = false := by
  rw [readLines_eq] at h
  obtain ⟨raw, -, rfl⟩ := List.mem_map.mp h
  exact fun c hc => content_noBreak hc

lemma writeValue_noBreak (appName : Option SectionName) (key : KeyName) (value : IniValue) :
    ∀ o ∈ writeValue (appName.map SectionName.chars) (some key.chars) (some value.chars),
      ∀ c ∈ o.line, isBreak c = false := by
  have hvalue : ∀ c ∈ valueLine key value, isBreak c = false := by
    intro c hc
    rcases List.mem_append.mp hc with hc | hc
    · exact (key.plain c hc).1
    · rcases List.mem_cons.mp hc with rfl | hc
      · rfl
      · exact value.noBreak c hc
  intro o ho
  cases appName with
  | none =>
    rw [List.mem_singleton.mp ho]
    exact hvalue
  | some name =>
    rcases List.mem_cons.mp ho with rfl | ho
    · intro c hc
      simp only [Output.line, List.mem_append, List.mem_cons, List.not_mem_nil, or_false] at hc
      rcases hc with (rfl | hc) | rfl
      · rfl
      · exact name.noBreak c hc
      · rfl
    · rw [List.mem_singleton.mp ho]
      exact hvalue

section Law

variable {text : List Char} {name : SectionName} {key : KeyName} {value : IniValue}

lemma outputs_noBreak : ∀ o ∈ (writing name key value).outputs text, ∀ c ∈ o.line,
    isBreak c = false := by
  intro o ho
  cases o with
  | copied line =>
    have hcopied : line ∈ ((writing name key value).outputs text).filterMap Output.copied? :=
      List.mem_filterMap.mpr ⟨.copied line, ho, rfl⟩
    rw [Call.outputs, Call.copied_eq rfl] at hcopied
    exact readLines_noBreak (mem_keptKey hcopied)
  | written line =>
    obtain ⟨before, after, hshape⟩ := (writing name key value).process_shape (readLines text)
    rw [Call.outputs, hshape] at ho
    have hvalues : Output.written line ∈ (writing name key value).values (readLines text) := by
      simpa using ho
    have happ : ∃ appName : Option SectionName, (writing name key value).values (readLines text)
        = writeValue (appName.map SectionName.chars) (some key.chars) (some value.chars) := by
      rw [Call.values]
      split_ifs
      · exact ⟨none, rfl⟩
      · exact ⟨some name, rfl⟩
    obtain ⟨appName, happ⟩ := happ
    rw [happ] at hvalues
    exact writeValue_noBreak appName key value _ hvalues

/-- The answers of the new file are those of its lines. -/
lemma answer_file (name' key' : List Char) :
    answer name' key' (readLines (((writing name key value).outputs text).flatMap Output.text))
      = answer name' key' (newLines name key value (readLines text)) := by
  have hfile : ((writing name key value).outputs text).flatMap Output.text
      = linesText (newLines name key value (readLines text)) := by
    rw [linesText, newLines, List.flatMap_map]
    rfl
  have hnoBreak : ∀ line ∈ newLines name key value (readLines text), ∀ c ∈ line,
      isBreak c = false := by
    intro line hline
    obtain ⟨o, ho, rfl⟩ := List.mem_map.mp hline
    exact outputs_noBreak o ho
  rw [hfile]
  rcases readLines_linesText hnoBreak with hread | hread
  · rw [hread]
  · conv_rhs => rw [hread, answer_blank]

/-- The buffers hold the lines of the new file. -/
lemma writing_fits_iff : (∀ o ∈ (writing name key value).outputs text, o.Fits)
    ↔ (∀ line ∈ keptKey name.chars (isKey · key.chars) false (readLines text),
        (Output.copied line).Fits)
      ∧ ∀ o ∈ (writing name key value).values (readLines text), o.Fits := by
  have hcopied := Call.copied_eq (c := writing name key value) rfl (readLines text)
  rw [Call.outputs, Call.fits_iff, hcopied]
  rfl

end Law

end MTalk.Config.CIniWR
