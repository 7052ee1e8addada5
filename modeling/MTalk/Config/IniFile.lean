import MTalk.Library.CStrings

/-!
# INI files

The line reader of `CIniWR`, its tests for comments, sections and keys, and the functions that read
and write one value. A line is read if more than two characters are left at its start.
-/

namespace MTalk.Config.CIniWR

open CStrings

/-- `MAX_PATH`, the size of the line buffers. -/
def maxPath : ℕ := 260

/-- A line without its line break. -/
abbrev Line := List Char

def isBreak (c : Char) : Bool := c = '\r' || c = '\n'

/-- The first line of a text without its line break. -/
def content (text : List Char) : Line := text.takeWhile fun c => !isBreak c

/-- `GetLine` on the text from an offset, with the text from the next offset, or `none` for the
result 0. A line feed at the end of the file is not skipped. -/
def getLine (rest : List Char) : Option (Line × List Char) :=
  let line := content rest
  let len := line.length
  let cr := if rest[len]? = some '\r' then 1 else 0
  let len2 := if len + cr + 1 < rest.length ∧ rest[len + cr]? = some '\n' then cr + 1 else cr
  if len + len2 ≤ 2 ∧ rest.length ≤ 2 then none else some (line, rest.drop (len + len2))

/-- The elements that a reader takes from a text one after the other, at most `n`. -/
def takeAll {α : Type} (next : List Char → Option (α × List Char)) : ℕ → List Char → List α
  | 0, _ => []
  | n + 1, text =>
    match next text with
    | none => []
    | some (a, rest) => a :: takeAll next n rest

/-- The lines that a loop over `GetLine` gets. -/
def readLines (text : List Char) : List Line := takeAll getLine text.length text

/-- `IsComment`. An empty line is a comment. -/
def isComment (line : Line) : Bool := line.head? = none || line.head? = some ';'

/-- `IsSection`. -/
def isSection (line : Line) : Bool := line.head? = some '['

/-- Whether `_wcsnicmp` finds the first `len` characters equal. -/
def wcsnicmp (s t : List Char) (len : ℕ) : Bool :=
  (s.take len).map Char.toLower == (t.take len).map Char.toLower

/-- `IsSectionName`. The last character of the line is not looked at. -/
def isSectionName (line : Line) (section_ : List Char) : Bool :=
  isSection line && line.length == section_.length + 2
    && wcsnicmp line.tail section_ section_.length

/-- What is left of the `=` without the blanks before it. -/
def keyPart (line : Line) : List Char := (line.takeWhile (· ≠ '=')).rdropWhile isSpace

/-- A line with a key and a value. -/
def isEntry (line : Line) : Bool := !isComment line && '=' ∈ line && keyPart line ≠ []

/-- `IsKey`. The length of the key in the line is not compared. -/
def isKey (line : Line) (keyName : List Char) : Bool :=
  isEntry line && wcsnicmp line keyName keyName.length

/-- The pointer and the length that `IsKey` gives: what is right of the `=` without the blanks
around it and without quotes. A value of one quote only has it as its closing quote, too, and the
length wraps around. -/
def keyValue (line : Line) : List Char × ℕ :=
  let value := ((line.dropWhile (· ≠ '=')).tail).dropWhile isSpace
  let valLen := (value.rdropWhile isSpace).length
  if value.head? = some '"' then
    if valLen - 1 = 0 then (value.tail, 2 ^ 32 - 1)
    else if value.tail[valLen - 2]? = some '"' then (value.tail, valLen - 2)
    else (value.tail, valLen - 1)
  else (value, valLen)

/-! Reading. -/

/-- The lines of the first section with a name. -/
def sectionLines (appName : List Char) : List Line → List Line
  | [] => []
  | line :: lines =>
    if isSectionName line appName then lines.takeWhile fun l => !isSection l
    else sectionLines appName lines

/-- The line that `GetString` finds. -/
def findKey (appName keyName : List Char) (lines : List Line) : Option Line :=
  (sectionLines appName lines).find? (isKey · keyName)

/-- `GetPrivateProfileString` with a buffer for `room` characters and the terminator. -/
def getPrivateProfileString (appName keyName default : List Char) (room : ℕ) (text : List Char) :
    List Char :=
  match (findKey appName keyName (readLines text)).map keyValue with
  | none => default.take room
  | some (value, valLen) =>
    if min valLen room = 0 then default.take room else value.take (min valLen room)

/-! Writing. -/

/-- A line of the new file. -/
inductive Output where
  | copied (line : Line)
  | written (line : Line)
  deriving DecidableEq

namespace Output

def line : Output → Line
  | copied l => l
  | written l => l

/-- The lines that `WriteLine` copied. -/
def copied? : Output → Option Line
  | copied l => some l
  | written _ => none

/-- `WriteLine` ends the line after its terminator in a buffer of `MAX_PATH`, `WriteValue` puts it
together in a buffer of 256. -/
def Fits : Output → Prop
  | copied l => l.length + 1 < maxPath
  | written l => l.length < 256

instance (o : Output) : Decidable o.Fits := by
  cases o <;> exact inferInstanceAs (Decidable (_ < _))

def text (o : Output) : List Char := o.line ++ ['\r', '\n']

end Output

/-- The arguments of `WritePrivateProfileString`, `none` for `NULL`. -/
structure Call where
  appName : List Char
  keyName : Option (List Char)
  string : Option (List Char)

/-- `WriteValue`. -/
def writeValue (appName keyName string : Option (List Char)) : List Output :=
  match keyName, string with
  | some key, some value =>
    (appName.map fun name => Output.written ('[' :: name ++ [']'])).toList
      ++ [.written (key ++ '=' :: value)]
  | _, _ => []

namespace Call

/-- One line in the outer loop of `WritePrivateProfileString`, and whether it starts the section. -/
def outerLine (c : Call) (line : Line) : List Output × Bool :=
  if isComment line then ([.copied line], false)
  else if isSectionName line c.appName then
    (if c.keyName.isSome then [.copied line] else [], true)
  else ([.copied line], false)

/-- The loops of `WritePrivateProfileString`. After the section `bWrote` is set. -/
def process (c : Call) : (inSection bWrote : Bool) → List Line → List Output
  | false, bWrote, [] => if bWrote then [] else writeValue (some c.appName) c.keyName c.string
  | true, bWrote, [] => if bWrote then [] else writeValue none c.keyName c.string
  | false, bWrote, line :: lines =>
    (c.outerLine line).1 ++ c.process (c.outerLine line).2 bWrote lines
  | true, bWrote, line :: lines =>
    if isSection line then
      (if bWrote then [] else writeValue none c.keyName c.string)
        ++ (c.outerLine line).1 ++ c.process (c.outerLine line).2 true lines
    else if isComment line then .copied line :: c.process true bWrote lines
    else if !bWrote && c.keyName.any (isKey line) then
      writeValue none c.keyName c.string ++ c.process true true lines
    else (if c.keyName.isSome then [.copied line] else []) ++ c.process true bWrote lines

/-- The lines of the new file. -/
def outputs (c : Call) (text : List Char) : List Output := c.process false false (readLines text)

/-- `WritePrivateProfileString`, with the new file if no buffer overflows. -/
def writePrivateProfileString (c : Call) (text : List Char) : Option (List Char) :=
  if ∀ o ∈ c.outputs text, o.Fits then some ((c.outputs text).flatMap Output.text) else none

end Call

/-! The lines of a text. -/

/-- The line break at the start of a text. -/
def lineBreak : List Char → List Char
  | '\r' :: '\n' :: _ => ['\r', '\n']
  | c :: _ => if isBreak c then [c] else []
  | [] => []

/-- The first line of a text with its line break, and the text after it. -/
def rawLine (text : List Char) : Option (List Char × List Char) :=
  let raw := content text ++ lineBreak (text.dropWhile fun c => !isBreak c)
  if text = [] then none else some (raw, text.drop raw.length)

/-- The lines of a text with their line breaks. -/
def rawLines (text : List Char) : List (List Char) := takeAll rawLine text.length text

def textLines (text : List Char) : List Line := (rawLines text).map content

/-- A file with lines that fit into the buffer of the reader. -/
structure IniText where
  chars : List Char
  short : ∀ line ∈ textLines chars, line.length < maxPath

/-- The lines that start before the last two characters. -/
def readable : List (List Char) → List (List Char)
  | [] => []
  | raw :: raws => if (raw :: raws).flatten.length ≤ 2 then [] else raw :: readable raws

/-! The lines that are read. -/

lemma content_noBreak {text : List Char} {c : Char} (h : c ∈ content text) : isBreak c = false := by
  have hc := List.mem_takeWhile_imp h
  simpa using hc

lemma content_length_le (text : List Char) : (content text).length ≤ text.length :=
  (List.takeWhile_prefix _).length_le

/-- What follows the first line starts with a line break, if there is anything. -/
lemma noHead_dropWhile (text : List Char) :
    NoHead (fun c => !isBreak c) (text.dropWhile fun c => !isBreak c) := by
  intro a ha
  have h := List.head?_dropWhile_not (fun c => !isBreak c) text
  rw [ha] at h
  simpa using h

lemma getLine_short {text : List Char} (h : text.length ≤ 2) : getLine text = none := by
  have hlen := content_length_le text
  unfold getLine
  dsimp only
  rw [if_pos]
  refine ⟨?_, h⟩
  split_ifs with hreturn hfeed hfeed
  · omega
  · have := (List.getElem?_eq_some_iff.mp hreturn).1
    omega
  · omega
  · omega

/-- A line is read with more than two characters left, and what follows it is left but for a line
feed at the end. -/
lemma getLine_long {text raw rest : List Char} (h : rawLine text = some (raw, rest))
    (hlength : 2 < text.length) : ∃ rest', getLine text = some (content text, rest')
      ∧ (rest' = rest ∨ rest = [] ∧ rest' = ['\n']) := by
  have hne : text ≠ [] := by
    rintro rfl
    simp at hlength
  have hbreak := noHead_dropWhile text
  have htext : content text ++ text.dropWhile (fun c => !isBreak c) = text :=
    List.takeWhile_append_dropWhile
  unfold rawLine at h
  rw [if_neg hne, Option.some.injEq, Prod.mk.injEq] at h
  unfold getLine
  dsimp only
  rw [if_neg (by omega)]
  refine ⟨_, rfl, ?_⟩
  obtain ⟨rfl, rfl⟩ := h
  generalize content text = l at htext ⊢
  generalize text.dropWhile (fun c => !isBreak c) = after at htext hbreak ⊢
  subst htext
  cases after with
  | nil => simp [lineBreak]
  | cons c after =>
    have hc : isBreak c = true := by simpa using hbreak c rfl
    rcases (by simpa [isBreak] using hc : c = '\r' ∨ c = '\n') with rfl | rfl
    · cases after with
      | nil => simp [lineBreak, isBreak]
      | cons d after =>
        by_cases hd : d = '\n'
        · subst hd
          cases after with
          | nil => simp [lineBreak]
          | cons e after =>
            have hlong : l.length + 1 + 1 < l.length + (after.length + 1 + 1 + 1) := by omega
            simp [lineBreak, hlong]
        · simp [lineBreak, hd, isBreak]
    · cases after with
      | nil => simp [lineBreak, isBreak]
      | cons d after => simp [lineBreak, isBreak]

lemma lineBreak_start (text : List Char) : lineBreak text <+: text := by
  unfold lineBreak
  split
  · exact ⟨_, rfl⟩
  · split_ifs
    · exact ⟨_, rfl⟩
    · exact List.nil_prefix
  · exact List.nil_prefix

lemma noHead_lineBreak (text : List Char) : NoHead (fun c => !isBreak c) (lineBreak text) := by
  unfold lineBreak
  split
  · exact noHead_cons rfl
  · split_ifs with hc
    · exact noHead_cons (by simpa using hc)
    · exact noHead_nil
  · exact noHead_nil

lemma lineBreak_ne_nil {c : Char} (h : isBreak c = true) (text : List Char) :
    lineBreak (c :: text) ≠ [] := by
  unfold lineBreak
  split
  · exact List.cons_ne_nil _ _
  · rename_i hcons
    cases hcons
    rw [if_pos h]
    exact List.cons_ne_nil _ _
  · rename_i hcons
    cases hcons

/-- A first line and its line break are the start of the text. -/
lemma rawLine_eq_some {text raw rest : List Char} (h : rawLine text = some (raw, rest)) :
    raw ++ rest = text ∧ raw ≠ [] ∧ content raw = content text := by
  have hbreak := noHead_dropWhile text
  have htext : content text ++ text.dropWhile (fun c => !isBreak c) = text :=
    List.takeWhile_append_dropWhile
  have hplain : ∀ c ∈ content text, (!isBreak c) = true := by
    intro c hc
    rw [content_noBreak hc]
    rfl
  unfold rawLine at h
  split_ifs at h with hne
  rw [Option.some.injEq, Prod.mk.injEq] at h
  obtain ⟨rfl, rfl⟩ := h
  generalize text.dropWhile (fun c => !isBreak c) = after at htext hbreak ⊢
  refine ⟨?_, ?_, takeWhile_append hplain (noHead_lineBreak after)⟩
  · apply List.prefix_iff_eq_append.mp
    conv_rhs => rw [← htext]
    exact List.prefix_append_right_inj _ |>.mpr (lineBreak_start after)
  · intro hnil
    obtain ⟨hcontent, hempty⟩ := List.append_eq_nil_iff.mp hnil
    cases after with
    | nil => exact hne (by rw [← htext, hcontent, List.append_nil])
    | cons c after => exact lineBreak_ne_nil (by simpa using hbreak c rfl) after hempty

lemma rawLine_isSome {text : List Char} (h : text ≠ []) :
    ∃ raw rest, rawLine text = some (raw, rest) := by
  unfold rawLine
  rw [if_neg h]
  exact ⟨_, _, rfl⟩

/-- The lines with their line breaks are the text. -/
lemma flatten_takeAll {text : List Char} {n : ℕ} (hn : text.length ≤ n) :
    (takeAll rawLine n text).flatten = text := by
  induction n generalizing text with
  | zero =>
    rw [List.length_eq_zero_iff.mp (Nat.le_zero.mp hn)]
    rfl
  | succ n ih =>
    by_cases hne : text = []
    · subst hne
      rfl
    · obtain ⟨raw, rest, hraw⟩ := rawLine_isSome hne
      obtain ⟨htext, hcons, -⟩ := rawLine_eq_some hraw
      have hlength := List.length_pos_iff.mpr hcons
      rw [← htext, List.length_append] at hn
      rw [takeAll, hraw]
      dsimp only
      rw [List.flatten_cons, ih (by omega), htext]

/-- The lines that are read are those that start before the last two characters. -/
theorem readLines_eq (text : List Char) :
    readLines text = (readable (rawLines text)).map content := by
  suffices h : ∀ n (text : List Char), text.length ≤ n →
      takeAll getLine n text = (readable (takeAll rawLine n text)).map content from
    h text.length text le_rfl
  intro n
  induction n with
  | zero => simp [takeAll, readable]
  | succ n ih =>
    intro text hn
    by_cases hne : text = []
    · subst hne
      simp [takeAll, readable, rawLine, getLine_short]
    · obtain ⟨raw, rest, hraw⟩ := rawLine_isSome hne
      obtain ⟨htext, hcons, hcontent⟩ := rawLine_eq_some hraw
      have hpos := List.length_pos_iff.mpr hcons
      have hrest : rest.length ≤ n := by
        have hlength := congrArg List.length htext
        rw [List.length_append] at hlength
        omega
      have hflatten : (raw :: takeAll rawLine n rest).flatten = text := by
        rw [List.flatten_cons, flatten_takeAll hrest, htext]
      rw [takeAll, takeAll, hraw]
      dsimp only
      rw [readable, hflatten]
      by_cases hshort : text.length ≤ 2
      · rw [getLine_short hshort, if_pos hshort]
        rfl
      · obtain ⟨rest', hget, hafter⟩ := getLine_long hraw (by omega)
        rw [hget, if_neg hshort, List.map_cons, hcontent]
        dsimp only
        rcases hafter with rfl | ⟨rfl, rfl⟩
        · rw [ih rest' hrest]
        · have hnone : ∀ m, takeAll getLine m ['\n'] = [] := by
            intro m
            cases m with
            | zero => rfl
            | succ m => rw [takeAll, getLine_short (by simp)]
          have hend : ∀ m, takeAll rawLine m [] = [] := by
            intro m
            cases m with
            | zero => rfl
            | succ m => rfl
          rw [hnone, hend]
          rfl

/-! The lines of a written text. -/

/-- A text of complete lines. -/
def linesText (lines : List Line) : List Char := lines.flatMap fun line => line ++ ['\r', '\n']

lemma rawLine_cons {line : Line} (h : ∀ c ∈ line, isBreak c = false) (rest : List Char) :
    rawLine (line ++ '\r' :: '\n' :: rest) = some (line ++ ['\r', '\n'], rest) := by
  have hplain : ∀ c ∈ line, (!isBreak c) = true := by
    intro c hc
    rw [h c hc]
    rfl
  have hend : NoHead (fun c => !isBreak c) ('\r' :: '\n' :: rest) := noHead_cons rfl
  unfold rawLine content
  rw [takeWhile_append hplain hend, dropWhile_append hplain hend, if_neg (by simp)]
  simp [lineBreak]

lemma rawLines_linesText {lines : List Line} (h : ∀ line ∈ lines, ∀ c ∈ line, isBreak c = false) :
    rawLines (linesText lines) = lines.map fun line => line ++ ['\r', '\n'] := by
  suffices hall : ∀ n, (linesText lines).length ≤ n →
      takeAll rawLine n (linesText lines) = lines.map fun line => line ++ ['\r', '\n'] from
    hall _ le_rfl
  induction lines with
  | nil =>
    intro n hn
    cases n with
    | zero => rfl
    | succ n => rfl
  | cons line lines ih =>
    intro n hn
    have htext : linesText (line :: lines) = line ++ '\r' :: '\n' :: linesText lines := by
      simp [linesText]
    rw [htext] at hn ⊢
    rw [List.length_append, List.length_cons] at hn
    cases n with
    | zero => omega
    | succ n =>
      rw [takeAll, rawLine_cons (h line List.mem_cons_self)]
      dsimp only
      rw [ih (fun l hl => h l (List.mem_cons_of_mem line hl)) n (by simp at hn; omega),
        List.map_cons]

lemma content_line {line : Line} (h : ∀ c ∈ line, isBreak c = false) :
    content (line ++ ['\r', '\n']) = line := by
  have hplain : ∀ c ∈ line, (!isBreak c) = true := by
    intro c hc
    rw [h c hc]
    rfl
  exact takeWhile_append hplain (noHead_cons rfl)

lemma textLines_linesText {lines : List Line} (h : ∀ line ∈ lines, ∀ c ∈ line, isBreak c = false) :
    textLines (linesText lines) = lines := by
  unfold textLines
  rw [rawLines_linesText h, List.map_map, List.map_congr_left (g := id), List.map_id]
  intro line hline
  exact content_line (h line hline)

/-- All lines of a written text are read but for an empty one at the end. -/
theorem readLines_linesText {lines : List Line}
    (h : ∀ line ∈ lines, ∀ c ∈ line, isBreak c = false) :
    readLines (linesText lines) = lines ∨ lines = readLines (linesText lines) ++ [[]] := by
  rw [readLines_eq, rawLines_linesText h]
  induction lines with
  | nil => exact Or.inl rfl
  | cons line lines ih =>
    have hrest := ih fun l hl => h l (List.mem_cons_of_mem line hl)
    rw [List.map_cons, readable]
    split_ifs with hshort
    · rw [List.flatten_cons, List.length_append, List.length_append, List.length_cons,
        List.length_cons, List.length_nil] at hshort
      have hline : line = [] := List.length_eq_zero_iff.mp (by omega)
      have hlines : lines = [] := by
        cases lines with
        | nil => rfl
        | cons l ls =>
          simp at hshort
          omega
      subst hline hlines
      exact Or.inr rfl
    · rw [List.map_cons, content_line (h line List.mem_cons_self)]
      rcases hrest with hrest | hrest
      · left
        rw [hrest]
      · right
        rw [List.cons_append, ← hrest]

/-! The lines that are written. -/

lemma isSection_of_isSectionName {line : Line} {name : List Char}
    (h : isSectionName line name = true) : isSection line = true := by
  simp only [isSectionName, Bool.and_eq_true] at h
  exact h.1.1

lemma isComment_of_isSection {line : Line} (h : isSection line = true) :
    isComment line = false := by
  rw [isSection, decide_eq_true_eq] at h
  simp [isComment, h]

namespace Call

variable {c : Call} {key : List Char}

lemma outerLine_other {line : Line} (h : isSectionName line c.appName = false) :
    c.outerLine line = ([.copied line], false) := by
  unfold outerLine
  rw [h]
  cases isComment line with
  | false => rfl
  | true => rfl

lemma outerLine_name {line : Line} (h : isSectionName line c.appName = true) :
    c.outerLine line = (if c.keyName.isSome then [.copied line] else [], true) := by
  unfold outerLine
  rw [isComment_of_isSection (isSection_of_isSectionName h), if_neg (by simp), if_pos h]

/-- When a key is written no line of the outer loop is left out. -/
lemma outerLine_copied (hkey : c.keyName = some key) (line : Line) :
    (c.outerLine line).1 = [.copied line] := by
  cases hname : isSectionName line c.appName with
  | false => rw [outerLine_other hname]
  | true => simp [outerLine_name hname, hkey]

/-- After the value was written the lines are copied. -/
lemma process_wrote (hkey : c.keyName = some key) (inSection : Bool) (lines : List Line) :
    c.process inSection true lines = lines.map .copied := by
  induction lines generalizing inSection with
  | nil => cases inSection <;> rfl
  | cons line lines ih =>
    cases inSection with
    | false => rw [process, outerLine_copied hkey, ih, List.map_cons, List.singleton_append]
    | true =>
      rw [process, outerLine_copied hkey, ih, ih, hkey]
      simp

/-- The lines before the section are copied. -/
lemma process_before {before : List Line} (h : ∀ l ∈ before, isSectionName l c.appName = false)
    (bWrote : Bool) (lines : List Line) :
    c.process false bWrote (before ++ lines)
      = before.map .copied ++ c.process false bWrote lines := by
  induction before with
  | nil => rfl
  | cons line before ih =>
    rw [List.cons_append, process, outerLine_other (h line List.mem_cons_self),
      ih fun l hl => h l (List.mem_cons_of_mem line hl)]
    rfl

/-- In the section the first line that answers the key is replaced, or the value is added at the
end. -/
lemma process_section (hkey : c.keyName = some key) {body lines : List Line}
    (hbody : ∀ l ∈ body, isSection l = false)
    (hlines : NoHead (fun l => !isSection l) lines) :
    c.process true false (body ++ lines)
      = (body.takeWhile fun l => !isKey l key).map .copied
        ++ writeValue none c.keyName c.string
        ++ ((body.dropWhile fun l => !isKey l key).tail ++ lines).map .copied := by
  induction body with
  | nil =>
    cases lines with
    | nil => simp [process]
    | cons line lines =>
      have hsection : isSection line = true := by simpa using hlines line rfl
      rw [List.nil_append, process, if_pos hsection, outerLine_copied hkey, process_wrote hkey]
      simp
  | cons line body ih =>
    have hline := hbody line List.mem_cons_self
    have hrest := ih fun l hl => hbody l (List.mem_cons_of_mem line hl)
    rw [List.cons_append, process, if_neg (by simp [hline])]
    by_cases hcomment : isComment line = true
    · have hnot : isKey line key = false := by simp [isKey, isEntry, hcomment]
      rw [if_pos hcomment, hrest, List.takeWhile_cons_of_pos (by simp [hnot]),
        List.dropWhile_cons_of_pos (by simp [hnot])]
      rfl
    · rw [if_neg hcomment]
      cases hmatch : isKey line key with
      | true =>
        rw [if_pos (by simp [hkey, hmatch]), process_wrote hkey,
          List.takeWhile_cons_of_neg (by simp [hmatch]),
          List.dropWhile_cons_of_neg (by simp [hmatch])]
        rfl
      | false =>
        rw [if_neg (by simp [hkey, hmatch]), hrest, List.takeWhile_cons_of_pos (by simp [hmatch]),
          List.dropWhile_cons_of_pos (by simp [hmatch])]
        simp [hkey]

end Call

/-- Lines with the first section of a name. -/
structure HasSection (lines : List Line) (name : List Char) (before : List Line) (header : Line)
    (body after : List Line) : Prop where
  lines_eq : lines = before ++ header :: (body ++ after)
  before : ∀ l ∈ before, isSectionName l name = false
  header : isSectionName header name = true
  body : ∀ l ∈ body, isSection l = false
  after : NoHead (fun l => !isSection l) after

/-- A name has a first section, or no line starts one. -/
lemma hasSection_or (lines : List Line) (name : List Char) :
    (∀ l ∈ lines, isSectionName l name = false)
      ∨ ∃ before header body after, HasSection lines name before header body after := by
  by_cases hall : ∀ l ∈ lines, isSectionName l name = false
  · exact Or.inl hall
  · right
    have hne : lines.dropWhile (fun l => !isSectionName l name) ≠ [] := by
      rw [ne_eq, List.dropWhile_eq_nil_iff]
      simpa using hall
    obtain ⟨header, rest, hrest⟩ := List.exists_cons_of_ne_nil hne
    refine ⟨lines.takeWhile fun l => !isSectionName l name, header,
      rest.takeWhile fun l => !isSection l, rest.dropWhile fun l => !isSection l,
      ?_, ?_, ?_, ?_, ?_⟩
    · rw [List.takeWhile_append_dropWhile, ← hrest, List.takeWhile_append_dropWhile]
    · intro l hl
      simpa using List.mem_takeWhile_imp hl
    · have h := List.head?_dropWhile_not (fun l => !isSectionName l name) lines
      rw [hrest] at h
      simpa using h
    · intro l hl
      simpa using List.mem_takeWhile_imp hl
    · intro l hl
      have h := List.head?_dropWhile_not (fun l => !isSection l) rest
      rw [hl] at h
      simpa using h

lemma sectionLines_missing {lines : List Line} {name : List Char}
    (h : ∀ l ∈ lines, isSectionName l name = false) : sectionLines name lines = [] := by
  induction lines with
  | nil => rfl
  | cons line lines ih =>
    rw [sectionLines, if_neg (by simp [h line List.mem_cons_self]),
      ih fun l hl => h l (List.mem_cons_of_mem line hl)]

lemma takeWhile_body {body after : List Line} (hbody : ∀ l ∈ body, isSection l = false)
    (hafter : NoHead (fun l => !isSection l) after) :
    (body ++ after).takeWhile (fun l => !isSection l) = body := by
  have hall : ∀ l ∈ body, (!isSection l) = true := by
    intro l hl
    rw [hbody l hl]
    rfl
  exact takeWhile_append hall hafter

lemma HasSection.sectionLines_eq {lines before body after : List Line} {header : Line}
    {name : List Char} (h : HasSection lines name before header body after) :
    sectionLines name lines = body := by
  obtain ⟨rfl, hbefore, hheader, hbody, hafter⟩ := h
  induction before with
  | nil => rw [List.nil_append, sectionLines, if_pos hheader, takeWhile_body hbody hafter]
  | cons line before ih =>
    rw [List.cons_append, sectionLines, if_neg (by simp [hbefore line List.mem_cons_self]),
      ih fun l hl => hbefore l (List.mem_cons_of_mem line hl)]

namespace Call

variable {c : Call} {key : List Char}

/-- The new lines for a value of a section that is there. -/
theorem process_found (hkey : c.keyName = some key) {lines before body after : List Line}
    {header : Line} (h : HasSection lines c.appName before header body after) :
    c.process false false lines
      = (before ++ header :: body.takeWhile fun l => !isKey l key).map .copied
        ++ writeValue none c.keyName c.string
        ++ ((body.dropWhile fun l => !isKey l key).tail ++ after).map .copied := by
  rw [h.lines_eq, process_before h.before, process, outerLine_copied hkey,
    outerLine_name h.header, process_section hkey h.body h.after]
  simp

/-- The new lines for a value of a section that is missing. -/
theorem process_missing {lines : List Line} (h : ∀ l ∈ lines, isSectionName l c.appName = false) :
    c.process false false lines
      = lines.map .copied ++ writeValue (some c.appName) c.keyName c.string := by
  have hprocess := process_before h false []
  rw [List.append_nil] at hprocess
  exact hprocess

end Call

end MTalk.Config.CIniWR
