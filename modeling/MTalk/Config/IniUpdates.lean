import MTalk.Config.IniFile

/-!
# Updates of an INI file

The lines that a call of `WritePrivateProfileString` addresses, and when it leaves the others. The
line reader gives up the lines that start in the last two characters of the file, and a key answers
for every key that starts with it.
-/

namespace MTalk.Config.CIniWR

open CStrings

/-- The comparison with the length of the key that `IsKey` has as a comment. -/
def isExactKey (line : Line) (keyName : List Char) : Bool :=
  isKey line keyName && (keyPart line).length == keyName.length

/-- The lines without the first line that a test finds in the first section of a name. -/
def keptKey (appName : List Char) (test : Line → Bool) : (inSection : Bool) → List Line → List Line
  | _, [] => []
  | false, line :: lines => line :: keptKey appName test (isSectionName line appName) lines
  | true, line :: lines =>
    if isSection line then line :: lines
    else if test line then lines
    else line :: keptKey appName test true lines

/-- The lines without the sections of a name, but with their comments. -/
def keptDelete (appName : List Char) : (inSection : Bool) → List Line → List Line
  | _, [] => []
  | inSection, line :: lines =>
    if isSection line then
      if isSectionName line appName then keptDelete appName true lines
      else line :: keptDelete appName false lines
    else if inSection && !isComment line then keptDelete appName inSection lines
    else line :: keptDelete appName inSection lines

namespace Call

/-- The lines that a call does not address. -/
def kept (c : Call) (lines : List Line) : List Line :=
  match c.keyName with
  | some key => keptKey c.appName (isExactKey · key) false lines
  | none => keptDelete c.appName false lines

/-- The lines that a call writes. -/
def values (c : Call) (lines : List Line) : List Output :=
  writeValue (if lines.any (isSectionName · c.appName) then none else some c.appName) c.keyName
    c.string

/-- The lines that the call does not address are copied into the new file, in their order. -/
def Preserves (c : Call) (text : List Char) : Prop :=
  c.writePrivateProfileString text = some ((c.outputs text).flatMap Output.text)
    ∧ (c.kept (textLines text)).Sublist ((c.outputs text).filterMap Output.copied?)

/-- The line that answers the key has exactly the key, no line that starts in the last two
characters is to be kept, and the lines fit into the buffers. -/
structure Careful (c : Call) (text : List Char) : Prop where
  exact : ∀ key, c.keyName = some key →
    ∀ line, findKey c.appName key (readLines text) = some line → isExactKey line key = true
  complete : c.kept (textLines text) = c.kept (readLines text)
  lines : ∀ line ∈ c.kept (textLines text), (Output.copied line).Fits
  values : ∀ o ∈ c.values (readLines text), o.Fits

/-! The lines that are to be kept. -/

lemma keptKey_append (appName : List Char) (test : Line → Bool) (inSection : Bool)
    (lines more : List Line) : ∃ rest, keptKey appName test inSection (lines ++ more)
      = keptKey appName test inSection lines ++ rest := by
  induction lines generalizing inSection with
  | nil => exact ⟨keptKey appName test inSection more, by cases inSection <;> rfl⟩
  | cons line lines ih =>
    cases inSection with
    | false =>
      obtain ⟨rest, hrest⟩ := ih (isSectionName line appName)
      exact ⟨rest, by rw [List.cons_append, keptKey, hrest, keptKey, List.cons_append]⟩
    | true =>
      obtain ⟨rest, hrest⟩ := ih true
      rw [List.cons_append, keptKey, keptKey]
      split_ifs
      · exact ⟨more, rfl⟩
      · exact ⟨more, rfl⟩
      · exact ⟨rest, by rw [hrest, List.cons_append]⟩

lemma keptDelete_append (appName : List Char) (inSection : Bool) (lines more : List Line) :
    ∃ rest, keptDelete appName inSection (lines ++ more)
      = keptDelete appName inSection lines ++ rest := by
  induction lines generalizing inSection with
  | nil => exact ⟨keptDelete appName inSection more, by cases inSection <;> rfl⟩
  | cons line lines ih =>
    obtain ⟨rest, hrest⟩ := ih inSection
    obtain ⟨first, hfirst⟩ := ih true
    obtain ⟨other, hother⟩ := ih false
    rw [List.cons_append, keptDelete, keptDelete]
    split_ifs
    · exact ⟨first, hfirst⟩
    · exact ⟨other, by rw [hother, List.cons_append]⟩
    · exact ⟨rest, hrest⟩
    · exact ⟨rest, by rw [hrest, List.cons_append]⟩

/-- With more lines at the end more lines are kept. -/
lemma kept_append (c : Call) (lines more : List Line) :
    ∃ rest, c.kept (lines ++ more) = c.kept lines ++ rest := by
  unfold kept
  cases c.keyName with
  | some key => exact keptKey_append _ _ _ _ _
  | none => exact keptDelete_append _ _ _ _

/-- Every line that the test does not find is kept. -/
lemma countP_keptKey (appName : List Char) (test : Line → Bool) (inSection : Bool)
    (lines : List Line) : (keptKey appName test inSection lines).countP (fun l => !test l)
      = lines.countP fun l => !test l := by
  induction lines generalizing inSection with
  | nil => cases inSection <;> rfl
  | cons line lines ih =>
    cases inSection with
    | false => rw [keptKey, List.countP_cons, List.countP_cons, ih]
    | true =>
      rw [keptKey]
      split_ifs with hsection htest
      · rfl
      · rw [List.countP_cons_of_neg (by simp [htest])]
      · rw [List.countP_cons, List.countP_cons, ih]

lemma keptKey_before {before : List Line} {name : List Char}
    (h : ∀ l ∈ before, isSectionName l name = false) (test : Line → Bool) (lines : List Line) :
    keptKey name test false (before ++ lines) = before ++ keptKey name test false lines := by
  induction before with
  | nil => rfl
  | cons line before ih =>
    rw [List.cons_append, keptKey, h line List.mem_cons_self,
      ih fun l hl => h l (List.mem_cons_of_mem line hl), List.cons_append]

lemma keptKey_missing {lines : List Line} {name : List Char}
    (h : ∀ l ∈ lines, isSectionName l name = false) (test : Line → Bool) :
    keptKey name test false lines = lines := by
  have hall := keptKey_before h test []
  rw [List.append_nil] at hall
  rw [hall, keptKey, List.append_nil]

lemma keptKey_body {body after : List Line} (hbody : ∀ l ∈ body, isSection l = false)
    (hafter : NoHead (fun l => !isSection l) after) (name : List Char) (test : Line → Bool) :
    keptKey name test true (body ++ after) = body.eraseP test ++ after := by
  induction body with
  | nil =>
    cases after with
    | nil => rfl
    | cons line after =>
      have hsection : isSection line = true := by simpa using hafter line rfl
      rw [List.nil_append, keptKey, if_pos hsection]
      rfl
  | cons line body ih =>
    have hline := hbody line List.mem_cons_self
    rw [List.cons_append, keptKey, if_neg (by simp [hline]),
      ih fun l hl => hbody l (List.mem_cons_of_mem line hl)]
    split_ifs with htest
    · rw [List.eraseP_cons_of_pos htest]
    · rw [List.eraseP_cons_of_neg htest, List.cons_append]

lemma keptKey_found {lines before body after : List Line} {header : Line} {name : List Char}
    (h : HasSection lines name before header body after) (test : Line → Bool) :
    keptKey name test false lines = before ++ header :: (body.eraseP test ++ after) := by
  rw [h.lines_eq, keptKey_before h.before, keptKey, h.header, keptKey_body h.body h.after]

lemma eraseP_eq (body : List Line) (test : Line → Bool) : body.eraseP test
    = (body.takeWhile fun l => !test l) ++ (body.dropWhile fun l => !test l).tail := by
  induction body with
  | nil => rfl
  | cons line body ih =>
    cases htest : test line with
    | true =>
      rw [List.eraseP_cons_of_pos htest, List.takeWhile_cons_of_neg (by simp [htest]),
        List.dropWhile_cons_of_neg (by simp [htest])]
      rfl
    | false =>
      rw [List.eraseP_cons_of_neg (by simp [htest]), ih,
        List.takeWhile_cons_of_pos (by simp [htest]), List.dropWhile_cons_of_pos (by simp [htest]),
        List.cons_append]

/-- Two tests of which the first finds a line of the second take away the same line. -/
lemma eraseP_congr {body : List Line} {test test' : Line → Bool}
    (hweak : ∀ l, test' l = true → test l = true)
    (h : ∀ line, body.find? test = some line → test' line = true) :
    body.eraseP test = body.eraseP test' := by
  induction body with
  | nil => rfl
  | cons line body ih =>
    cases htest : test line with
    | true =>
      have htest' := h line (List.find?_cons_of_pos htest)
      rw [List.eraseP_cons_of_pos htest, List.eraseP_cons_of_pos htest']
    | false =>
      have hnot : ¬ test' line = true := by
        intro htest'
        rw [hweak line htest'] at htest
        cases htest
      rw [List.find?_cons_of_neg (by simp [htest])] at h
      rw [List.eraseP_cons_of_neg (by simp [htest]), List.eraseP_cons_of_neg hnot, ih h]

lemma isKey_of_isExactKey {line : Line} {key : List Char} (h : isExactKey line key = true) :
    isKey line key = true := by
  rw [isExactKey, Bool.and_eq_true] at h
  exact h.1

/-! The lines that are copied. -/

lemma filterMap_copied (lines : List Line) :
    (lines.map Output.copied).filterMap Output.copied? = lines := by
  induction lines with
  | nil => rfl
  | cons line lines ih =>
    rw [List.map_cons, List.filterMap_cons, ih]
    rfl

lemma writeValue_copied (appName keyName string : Option (List Char)) :
    (writeValue appName keyName string).filterMap Output.copied? = [] := by
  unfold writeValue
  split
  · cases appName <;> rfl
  · rfl

/-- When a section is deleted, the lines that are to be kept are copied. -/
lemma process_delete {c : Call} (hkey : c.keyName = none) (inSection bWrote : Bool)
    (lines : List Line) :
    c.process inSection bWrote lines = (keptDelete c.appName inSection lines).map .copied := by
  induction lines generalizing inSection bWrote with
  | nil => cases inSection <;> cases bWrote <;> simp [process, writeValue, keptDelete, hkey]
  | cons line lines ih =>
    have houter : ∀ b, (c.outerLine line).1 ++ c.process (c.outerLine line).2 b lines
        = (keptDelete c.appName false (line :: lines)).map .copied := by
      intro b
      rw [keptDelete]
      cases hname : isSectionName line c.appName with
      | true =>
        rw [outerLine_name hname, hkey, ih, if_pos (isSection_of_isSectionName hname)]
        rfl
      | false =>
        rw [outerLine_other hname, ih]
        cases isSection line <;> rfl
    cases inSection with
    | false => rw [process, houter]
    | true =>
      cases hsection : isSection line with
      | true =>
        have hsame : keptDelete c.appName true (line :: lines)
            = keptDelete c.appName false (line :: lines) := by
          rw [keptDelete, keptDelete, hsection, if_pos rfl, if_pos rfl]
        rw [process, if_pos hsection, List.append_assoc, houter, hsame, hkey]
        cases bWrote <;> rfl
      | false =>
        cases hcomment : isComment line with
        | false => simp [process, keptDelete, hsection, hcomment, hkey, ih]
        | true => simp [process, keptDelete, hsection, hcomment, ih]

/-- The new lines are copied lines, the lines of the value and copied lines. -/
lemma process_shape (c : Call) (lines : List Line) : ∃ before after : List Line,
    c.process false false lines = before.map .copied ++ c.values lines ++ after.map .copied := by
  cases hkey : c.keyName with
  | none =>
    refine ⟨keptDelete c.appName false lines, [], ?_⟩
    rw [process_delete hkey, values, hkey]
    simp [writeValue]
  | some key =>
    rcases hasSection_or lines c.appName with hmissing | ⟨before, header, body, after, h⟩
    · refine ⟨lines, [], ?_⟩
      have hnone : lines.any (isSectionName · c.appName) = false := by
        simpa using hmissing
      rw [process_missing hmissing, values, hnone]
      simp
    · refine ⟨before ++ header :: body.takeWhile fun l => !isKey l key,
        (body.dropWhile fun l => !isKey l key).tail ++ after, ?_⟩
      have hsome : lines.any (isSectionName · c.appName) = true := by
        rw [List.any_eq_true]
        exact ⟨header, by rw [h.lines_eq]; simp, h.header⟩
      rw [process_found hkey h, values, hsome, if_pos rfl]

/-- When a key is written, the lines but the one that answers it are copied. -/
lemma copied_eq {c : Call} {key : List Char} (hkey : c.keyName = some key) (lines : List Line) :
    (c.process false false lines).filterMap Output.copied?
      = keptKey c.appName (isKey · key) false lines := by
  rcases hasSection_or lines c.appName with hmissing | ⟨before, header, body, after, h⟩
  · rw [process_missing hmissing, List.filterMap_append, filterMap_copied, writeValue_copied,
      keptKey_missing hmissing, List.append_nil]
  · rw [process_found hkey h, List.filterMap_append, List.filterMap_append, filterMap_copied,
      filterMap_copied, writeValue_copied, keptKey_found h, eraseP_eq]
    simp

/-- The lines that are to be kept are copied if the line that answers the key has exactly the
key. -/
lemma copied_of_exact {c : Call} {lines : List Line}
    (h : ∀ key, c.keyName = some key →
      ∀ line, findKey c.appName key lines = some line → isExactKey line key = true) :
    (c.process false false lines).filterMap Output.copied? = c.kept lines := by
  cases hkey : c.keyName with
  | none => rw [process_delete hkey, filterMap_copied, kept, hkey]
  | some key =>
    have hexact := h key hkey
    rw [copied_eq hkey, kept, hkey]
    dsimp only
    rcases hasSection_or lines c.appName with hmissing | ⟨before, header, body, after, hsection⟩
    · rw [keptKey_missing hmissing, keptKey_missing hmissing]
    · rw [findKey, hsection.sectionLines_eq] at hexact
      rw [keptKey_found hsection, keptKey_found hsection,
        eraseP_congr (fun _ => isKey_of_isExactKey) hexact]

/-- A line with another key is lost. -/
lemma countP_copied {c : Call} {key : List Char} (hkey : c.keyName = some key) {lines : List Line}
    {line : Line} (hline : findKey c.appName key lines = some line)
    (hexact : isExactKey line key = false) :
    ((c.process false false lines).filterMap Output.copied?).countP (fun l => !isExactKey l key)
      < lines.countP fun l => !isExactKey l key := by
  rw [copied_eq hkey]
  rcases hasSection_or lines c.appName with hmissing | ⟨before, header, body, after, hsection⟩
  · rw [findKey, sectionLines_missing hmissing] at hline
    cases hline
  · rw [findKey, hsection.sectionLines_eq] at hline
    obtain ⟨hkeyLine, first, rest, rfl, hfirst⟩ := List.find?_eq_some_iff_append.mp hline
    have hnot : ∀ l ∈ first, ¬ isKey l key = true := by
      intro l hl
      simpa using hfirst l hl
    have hone : (!isExactKey line key) = true := by
      rw [hexact]
      rfl
    rw [keptKey_found hsection, hsection.lines_eq, List.eraseP_append_right _ hnot,
      List.eraseP_cons_of_pos (p := (isKey · key)) hkeyLine]
    simp only [List.countP_append, List.countP_cons, hone, if_true]
    omega

/-! What a call leaves. -/

/-- The lines that are read are the first lines of the text. -/
lemma textLines_eq (text : List Char) : ∃ unread, textLines text = readLines text ++ unread := by
  have hreadable : ∀ raws, ∃ unread, raws = readable raws ++ unread := by
    intro raws
    induction raws with
    | nil => exact ⟨[], rfl⟩
    | cons raw raws ih =>
      obtain ⟨unread, hunread⟩ := ih
      rw [readable]
      split_ifs
      · exact ⟨raw :: raws, rfl⟩
      · exact ⟨unread, by rw [List.cons_append, ← hunread]⟩
  obtain ⟨unread, hunread⟩ := hreadable (rawLines text)
  refine ⟨unread.map content, ?_⟩
  rw [readLines_eq, ← List.map_append, ← hunread, textLines]

/-- The buffers hold the new lines if they hold the copied lines and the lines of the value. -/
lemma fits_iff (c : Call) (lines : List Line) :
    (∀ o ∈ c.process false false lines, o.Fits)
      ↔ (∀ line ∈ (c.process false false lines).filterMap Output.copied?,
          (Output.copied line).Fits) ∧ ∀ o ∈ c.values lines, o.Fits := by
  obtain ⟨before, after, hshape⟩ := process_shape c lines
  have hvalues : (c.values lines).filterMap Output.copied? = [] := writeValue_copied _ _ _
  rw [hshape, List.filterMap_append, List.filterMap_append, filterMap_copied, filterMap_copied,
    hvalues]
  simp only [List.mem_append, List.mem_map, List.append_nil]
  constructor
  · intro h
    constructor
    · rintro line (hline | hline)
      · exact h _ (Or.inl (Or.inl ⟨line, hline, rfl⟩))
      · exact h _ (Or.inr ⟨line, hline, rfl⟩)
    · exact fun o ho => h o (Or.inl (Or.inr ho))
  · rintro ⟨hcopied, hwritten⟩ o ((⟨line, hline, rfl⟩ | ho) | ⟨line, hline, rfl⟩)
    · exact hcopied line (Or.inl hline)
    · exact hwritten o ho
    · exact hcopied line (Or.inr hline)

lemma writePrivateProfileString_eq_some {c : Call} {text file : List Char} :
    c.writePrivateProfileString text = some file
      ↔ (∀ o ∈ c.outputs text, o.Fits) ∧ (c.outputs text).flatMap Output.text = file := by
  unfold writePrivateProfileString
  split_ifs with h
  · rw [Option.some.injEq, and_iff_right h]
  · exact iff_of_false (by simp) fun hfits => h hfits.1

/-- The line that answers the key has exactly the key if no line is lost. -/
lemma exact_of_sublist {c : Call} {text : List Char}
    (h : (c.kept (textLines text)).Sublist ((c.outputs text).filterMap Output.copied?))
    {key : List Char} (hkey : c.keyName = some key) {line : Line}
    (hline : findKey c.appName key (readLines text) = some line) :
    isExactKey line key = true := by
  by_contra hexact
  obtain ⟨unread, hunread⟩ := textLines_eq text
  have hcount := h.countP_le (p := fun l => !isExactKey l key)
  have hlost := countP_copied hkey hline (by simpa using hexact)
  have hkept : c.kept (textLines text)
      = keptKey c.appName (isExactKey · key) false (textLines text) := by
    rw [kept, hkey]
  rw [hkept, countP_keptKey, hunread, List.countP_append] at hcount
  rw [outputs] at hcount
  omega

/-- The lines of the new file are the lines that were put out. -/
theorem textLines_outputs {c : Call} {text : List Char}
    (h : ∀ o ∈ c.outputs text, ∀ ch ∈ o.line, isBreak ch = false) :
    textLines ((c.outputs text).flatMap Output.text) = (c.outputs text).map Output.line := by
  have htext : (c.outputs text).flatMap Output.text
      = linesText ((c.outputs text).map Output.line) := by
    rw [linesText, List.flatMap_map]
    rfl
  rw [htext, textLines_linesText]
  intro line hline
  obtain ⟨o, ho, rfl⟩ := List.mem_map.mp hline
  exact h o ho

/-- A file with a key that starts with the key of the call. -/
def longKeyFile : List Char := ['[', 's', ']', '\r', '\n', 'a', 'b', 'c', '=', '1', '\r', '\n']

end Call

end MTalk.Config.CIniWR
