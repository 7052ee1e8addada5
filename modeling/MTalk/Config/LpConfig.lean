import MTalk.Library.CStrings

/-!
# Configuration files

The sections and items of `CConfigure`, the calls that read and set them, the text that
`lp_config_sync` writes and the parser that reads it line by line. A text that was written gives the
configuration back without the items whose value is empty.
-/

namespace MTalk.Config

open CStrings

structure LpItem where
  key : String
  value : String
  deriving DecidableEq

structure LpSection where
  name : String
  items : List LpItem
  deriving DecidableEq

/-- The list `sections`. -/
abbrev LpConfig := List LpSection

namespace LpConfig

/-- `lp_config_find_section`. -/
def findSection (c : LpConfig) (name : String) : Option LpSection := c.find? (·.name = name)

/-- `lp_namefind_item`. -/
def findItem (sec : LpSection) (key : String) : Option LpItem := sec.items.find? (·.key = key)

/-- `lp_config_get_string` with the default `NULL`. -/
def getString (c : LpConfig) (name key : String) : Option String :=
  (c.findSection name).bind fun sec => (findItem sec key).map LpItem.value

/-- `lp_config_get_int`, with a 32-bit result. -/
def getInt (c : LpConfig) (name key : String) (default : ℤ) : ℤ :=
  match c.getString name key with
  | some str => (atoi str).bmod (2 ^ 32)
  | none => default

/-- The first element with a property is replaced, or removed where there is nothing to replace it
with. -/
def replaceFirst {α : Type} (p : α → Bool) (f : α → Option α) : List α → List α
  | [] => []
  | a :: l => if p a then (f a).toList ++ l else a :: replaceFirst p f l

/-- The items of a section after `lp_config_set_string` has found it. -/
def setItem (items : List LpItem) (key : String) (value : Option String) : List LpItem :=
  if (items.find? (·.key = key)).isSome then
    replaceFirst (·.key = key) (fun item => value.map fun v => { item with value := v }) items
  else
    match value with
    | some v => items ++ [⟨key, v⟩]
    | none => items

/-- `lp_config_set_string`, with `NULL` to remove the item. -/
def setString (c : LpConfig) (name key : String) (value : Option String) : LpConfig :=
  if (c.findSection name).isSome then
    replaceFirst (·.name = name)
      (fun sec => some { sec with items := setItem sec.items key value }) c
  else
    match value with
    | some v => c ++ [⟨name, [⟨key, v⟩]⟩]
    | none => c

/-- `lp_config_set_int`. -/
def setInt (c : LpConfig) (name key : String) (value : ℤ) : LpConfig :=
  c.setString name key (some (toString value))

/-- `lp_config_has_section`. -/
def hasSection (c : LpConfig) (name : String) : Bool := (c.findSection name).isSome

/-- `lp_config_clean_section`. -/
def cleanSection (c : LpConfig) (name : String) : LpConfig := c.eraseP (·.name = name)

/-- A value that is only written if it is not `NULL`. -/
def setOptional (c : LpConfig) (name key : String) (value : Option String) : LpConfig :=
  match value with
  | some v => c.setString name key (some v)
  | none => c

/-! The text of a configuration. -/

/-- `lp_item_write`. -/
def itemText (item : LpItem) : List Char := item.key.toList ++ '=' :: item.value.toList ++ ['\n']

/-- `lp_namewrite`. -/
def sectionText (sec : LpSection) : List Char :=
  '[' :: sec.name.toList ++ [']', '\n'] ++ sec.items.flatMap itemText ++ ['\n']

/-- The file that `lp_config_sync` writes. -/
def sync (c : LpConfig) : List Char := c.flatMap sectionText

/-! The parser. -/

/-- `MAX_LEN`, the size of the line buffer. -/
def maxLen : ℕ := 1024

/-- `fgets`: the next line with its newline, or as much of it as the buffer takes. -/
def fgets (size : ℕ) (file : List Char) : List Char × List Char :=
  let line := (file.take (size - 1)).takeWhile (· ≠ '\n')
  if '\n' ∈ file.take (size - 1) then (line ++ ['\n'], file.drop (line.length + 1))
  else (line, file.drop line.length)

/-- The texts that `fgets` gives until the end of the file. -/
def fileLines : ℕ → List Char → List (List Char)
  | 0, _ => []
  | _, [] => []
  | n + 1, c :: file =>
    (fgets maxLen (c :: file)).1 :: fileLines n (fgets maxLen (c :: file)).2

/-- `sscanf(s,"%s",..)`: the first word. -/
def scanWord (s : List Char) : Option String :=
  match (s.dropWhile isSpace).takeWhile fun c => !isSpace c with
  | [] => none
  | word => some (String.ofList word)

/-- The value after the `=` of a line. A newline is cut off with the blanks before it, but for a
first one, and there must be something before the newline. -/
def lineValue (pos1 : List Char) : Option String :=
  if '\n' ∈ pos1 then
    match pos1.takeWhile (· ≠ '\n') with
    | [] => none
    | c :: value => some (String.ofList (c :: value.rdropWhile (· = ' ')))
  else some (String.ofList pos1)

/-- The sections that are complete and the section `cur`, the last one of the list. -/
structure Parser where
  before : LpConfig
  cur : Option LpSection

def Parser.sections (st : Parser) : LpConfig := st.before ++ st.cur.toList

/-- `lp_config_add_section` on a new section, which becomes `cur`. -/
def Parser.addSection (st : Parser) (secname : String) : Parser := ⟨st.sections, some ⟨secname, []⟩⟩

/-- `lp_nameadd_item` on `cur`. -/
def Parser.addItem (st : Parser) (item : LpItem) : Parser :=
  { st with cur := st.cur.map fun sec => { sec with items := sec.items ++ [item] } }

/-- The body of the loop in `lp_config_parse`. -/
def parseLine (st : Parser) (tmp : List Char) : Parser :=
  if '[' ∈ tmp ∧ (tmp.takeWhile (· ≠ '[')).all (· = ' ') then
    match splitFirst ']' (tmp.dropWhile (· ≠ '[')).tail with
    | none => st
    | some (secname, _) =>
      match scanWord secname with
      | none => st
      | some name => st.addSection name
  else
    match splitFirst '=' tmp with
    | none => st
    | some (keyText, pos1) =>
      match scanWord keyText with
      | none => st
      | some key =>
        match lineValue pos1 with
        | none => st
        | some value => st.addItem ⟨key, value⟩

/-- `lp_config_parse`. -/
def parse (file : List Char) : LpConfig :=
  ((fileLines file.length file).foldl parseLine ⟨[], none⟩).sections

/-! The calls of a program that makes a configuration. -/

inductive SetCall where
  | setString (name key : String) (value : Option String)
  | setInt (name key : String) (value : ℤ)

def SetCall.apply (c : LpConfig) : SetCall → LpConfig
  | .setString name key value => c.setString name key value
  | .setInt name key value => c.setInt name key value

/-- The configuration that the calls make from an empty one. -/
def ofCalls (calls : List SetCall) : LpConfig := calls.foldl SetCall.apply []

/-- A name or a key: a word without the characters of the syntax. -/
structure IsWord (s : String) : Prop where
  nonempty : s.toList ≠ []
  plain : ∀ c ∈ s.toList, isSpace c = false ∧ c ≠ '=' ∧ c ≠ '[' ∧ c ≠ ']'

/-- A value on one line without blanks around it. -/
structure IsClean (value : String) : Prop where
  newline : '\n' ∉ value.toList
  head : value.toList.head? ≠ some ' '
  last : value.toList.getLast? ≠ some ' '

def SetCall.Clean : SetCall → Prop
  | .setString name key value => IsWord name ∧ IsWord key ∧ ∀ v ∈ value, IsClean v
  | .setInt name key _ => IsWord name ∧ IsWord key

/-- Every line of the text and the end of it fit into the buffer. -/
def Short (c : LpConfig) : Prop :=
  ∀ sec ∈ c, sec.name.toList.length + 4 ≤ maxLen
    ∧ ∀ item ∈ sec.items, item.key.toList.length + item.value.toList.length + 3 ≤ maxLen

/-- Writing and parsing gives the same sections and the same value for every key. -/
def RoundTrips (c : LpConfig) : Prop :=
  ∀ name, ((parse c.sync).findSection name).isSome = (c.findSection name).isSome
    ∧ ∀ key, (parse c.sync).getString name key = c.getString name key

/-! The lines of a file. -/

lemma fgets_line {l rest : List Char} (hl : '\n' ∉ l) (hlength : l.length + 2 ≤ maxLen) :
    fgets maxLen (l ++ '\n' :: rest) = (l ++ ['\n'], rest) := by
  have hall : ∀ c ∈ l, decide (c ≠ '\n') = true := by
    intro c hc
    rw [decide_eq_true_eq]
    rintro rfl
    exact hl hc
  have htake : (l ++ '\n' :: rest).take (maxLen - 1)
      = l ++ '\n' :: rest.take (maxLen - 1 - l.length - 1) := by
    rw [List.take_append, List.take_of_length_le (by omega),
      show maxLen - 1 - l.length = (maxLen - 1 - l.length - 1) + 1 by omega, List.take_succ_cons]
    rfl
  have hline : ((l ++ '\n' :: rest).take (maxLen - 1)).takeWhile (· ≠ '\n') = l := by
    rw [htake, takeWhile_append hall (noHead_cons (by simp))]
  unfold fgets
  dsimp only
  rw [hline, if_pos (by rw [htake]; simp)]
  simp

/-- A line that fills the buffer is read without its newline. -/
lemma fgets_full {l rest : List Char} (hl : '\n' ∉ l) (hlength : l.length + 1 = maxLen) :
    fgets maxLen (l ++ '\n' :: rest) = (l, '\n' :: rest) := by
  have htake : (l ++ '\n' :: rest).take (maxLen - 1) = l := by
    rw [List.take_append_of_le_length (by omega), List.take_of_length_le (by omega)]
  have hline : l.takeWhile (· ≠ '\n') = l := by
    rw [List.takeWhile_eq_self_iff]
    intro c hc
    rw [decide_eq_true_eq]
    rintro rfl
    exact hl hc
  unfold fgets
  dsimp only
  rw [htake, hline, if_neg hl, List.drop_left]

/-- The text of lines. -/
def linesText (ls : List (List Char)) : List Char := ls.flatMap fun l => l ++ ['\n']

/-- The texts that `fgets` gives for a line that fits into the buffer. -/
def chunks (l : List Char) : List (List Char) :=
  if l.length + 2 ≤ maxLen then [l ++ ['\n']] else [l, ['\n']]

lemma chunks_of_short {l : List Char} (h : l.length + 2 ≤ maxLen) : chunks l = [l ++ ['\n']] :=
  if_pos h

lemma fileLines_cons {n : ℕ} {file : List Char} (hfile : file ≠ []) :
    fileLines (n + 1) file = (fgets maxLen file).1 :: fileLines n (fgets maxLen file).2 := by
  obtain ⟨c, t, rfl⟩ := List.exists_cons_of_ne_nil hfile
  rw [fileLines]

lemma fileLines_linesText {ls : List (List Char)}
    (hls : ∀ l ∈ ls, '\n' ∉ l ∧ l.length + 1 ≤ maxLen) {n : ℕ}
    (hn : (linesText ls).length ≤ n) : fileLines n (linesText ls) = ls.flatMap chunks := by
  induction ls generalizing n with
  | nil => cases n <;> rfl
  | cons l ls ih =>
    obtain ⟨hnewline, hlength⟩ := hls l List.mem_cons_self
    have htext : linesText (l :: ls) = l ++ '\n' :: linesText ls := by
      simp [linesText]
    have hrest := fun m => ih (n := m) fun k hk => hls k (List.mem_cons_of_mem l hk)
    rw [htext, List.length_append, List.length_cons] at hn
    rw [htext, List.flatMap_cons]
    by_cases hshort : l.length + 2 ≤ maxLen
    · obtain ⟨n, rfl⟩ : ∃ m, n = m + 1 := ⟨n - 1, by omega⟩
      rw [fileLines_cons (by simp), fgets_line hnewline hshort, hrest n (by omega),
        chunks_of_short hshort]
      rfl
    · -- the newline is read by itself
      have hmax : maxLen = 1024 := rfl
      have hfuel : 2 ≤ n := by
        rw [hmax] at hshort
        omega
      obtain ⟨n, rfl⟩ : ∃ m, n = m + 1 + 1 := ⟨n - 2, by omega⟩
      have hempty : fgets maxLen ('\n' :: linesText ls) = (['\n'], linesText ls) :=
        fgets_line (l := []) (by simp) (by simp [maxLen])
      rw [fileLines_cons (by simp), fgets_full hnewline (by omega), fileLines_cons (by simp),
        hempty, hrest n (by omega), chunks, if_neg hshort]
      rfl

/-! One line. -/

lemma IsWord.scan {s : String} (hs : IsWord s) {t : List Char}
    (ht : NoHead (fun c => !isSpace c) t) : scanWord (s.toList ++ t) = some s := by
  obtain ⟨c, l, hcl⟩ := List.exists_cons_of_ne_nil hs.nonempty
  have hall : ∀ c ∈ s.toList, (!isSpace c) = true := by
    intro c hc
    simp [(hs.plain c hc).1]
  have hstart : NoHead isSpace (s.toList ++ t) := by
    rw [hcl]
    exact noHead_cons (hs.plain c (by simp [hcl])).1
  unfold scanWord
  rw [dropWhile_of_noHead hstart, takeWhile_append hall ht, hcl]
  dsimp only
  rw [← hcl, String.ofList_toList]

lemma rdropWhile_blank {t : List Char} (ht : t.getLast? ≠ some ' ') :
    t.rdropWhile (· = ' ') = t := by
  rw [List.rdropWhile_eq_self_iff]
  intro hne hlast
  rw [decide_eq_true_eq] at hlast
  exact ht (by rw [List.getLast?_eq_getLast_of_ne_nil hne, hlast])

/-- A value is found again if it is not empty. -/
lemma lineValue_line {value : String} (hnewline : '\n' ∉ value.toList)
    (hblank : value.toList.length ≤ 1 ∨ value.toList.getLast? ≠ some ' ') :
    lineValue (value.toList ++ ['\n']) = if value = "" then none else some value := by
  have hall : ∀ c ∈ value.toList, decide (c ≠ '\n') = true := by
    intro c hc
    rw [decide_eq_true_eq]
    rintro rfl
    exact hnewline hc
  unfold lineValue
  rw [if_pos (by simp), takeWhile_append hall (noHead_cons (by simp))]
  cases hcl : value.toList with
  | nil =>
    have hempty : value = "" := by rw [← String.ofList_toList (s := value), hcl]
    rw [if_pos hempty]
  | cons c t =>
    have hne : value ≠ "" := by
      rintro rfl
      simp at hcl
    have hlast : t.getLast? ≠ some ' ' := by
      intro h
      rw [hcl] at hblank
      cases t with
      | nil => cases h
      | cons d t =>
        rw [List.getLast?_cons_cons] at hblank
        simp [h] at hblank
    dsimp only
    rw [if_neg hne, rdropWhile_blank hlast, ← hcl, String.ofList_toList]

/-- A section's line starts the section. -/
lemma parseLine_section (st : Parser) {name : String} (hname : IsWord name) :
    parseLine st ('[' :: name.toList ++ [']'] ++ ['\n']) = st.addSection name := by
  have hclosing : ']' ∉ name.toList := fun h => (hname.plain _ h).2.2.2 rfl
  have htext : '[' :: name.toList ++ [']'] ++ ['\n'] = '[' :: (name.toList ++ ']' :: ['\n']) := by
    simp
  have hscan := hname.scan (t := []) noHead_nil
  rw [List.append_nil] at hscan
  rw [htext]
  unfold parseLine
  rw [if_pos (by simp), List.dropWhile_cons_of_neg (by simp), List.tail_cons,
    splitFirst_append hclosing]
  dsimp only
  rw [hscan]

/-- The line of a key adds its value. -/
lemma parseLine_key (st : Parser) {key : String} (hkey : IsWord key) (pos1 : List Char) :
    parseLine st (key.toList ++ '=' :: pos1)
      = ((lineValue pos1).map fun value => st.addItem ⟨key, value⟩).getD st := by
  have hequals : '=' ∉ key.toList := fun h => (hkey.plain _ h).2.1 rfl
  obtain ⟨c, l, hcl⟩ := List.exists_cons_of_ne_nil hkey.nonempty
  have hc := hkey.plain c (by simp [hcl])
  have hnoSection : ¬ ('[' ∈ key.toList ++ '=' :: pos1
      ∧ ((key.toList ++ '=' :: pos1).takeWhile (· ≠ '[')).all (· = ' ')) := by
    rintro ⟨-, hall⟩
    rw [hcl, List.cons_append, List.takeWhile_cons_of_pos (by simpa using hc.2.2.1),
      List.all_cons, Bool.and_eq_true, decide_eq_true_eq] at hall
    rw [hall.1] at hc
    exact absurd hc.1 (by decide)
  have hscan := hkey.scan (t := []) noHead_nil
  rw [List.append_nil] at hscan
  unfold parseLine
  rw [if_neg hnoSection, splitFirst_append hequals]
  dsimp only
  rw [hscan]
  dsimp only
  cases lineValue pos1 <;> rfl

/-- The empty line after a section changes nothing. -/
lemma parseLine_empty (st : Parser) : parseLine st ['\n'] = st := by
  unfold parseLine
  rw [if_neg (by simp), splitFirst_eq_none (by simp)]

/-! All lines of a configuration. -/

def itemLine (item : LpItem) : List Char := item.key.toList ++ '=' :: item.value.toList

/-- An item whose line gives it back, or nothing if its value is empty. -/
structure Readable (item : LpItem) : Prop where
  newline : '\n' ∉ itemLine item
  length : (itemLine item).length + 1 ≤ maxLen
  reads : ∀ st, (chunks (itemLine item)).foldl parseLine st
    = if item.value = "" then st else st.addItem item

lemma IsWord.newline {s : String} (hs : IsWord s) : '\n' ∉ s.toList := fun h =>
  absurd (hs.plain _ h).1 (by decide)

/-- A line that leaves room for its newline in the buffer. -/
lemma readable_of_room {item : LpItem} (hkey : IsWord item.key)
    (hnewline : '\n' ∉ item.value.toList)
    (hblank : item.value.toList.length ≤ 1 ∨ item.value.toList.getLast? ≠ some ' ')
    (hlength : item.key.toList.length + item.value.toList.length + 3 ≤ maxLen) :
    Readable item := by
  have hroom : (itemLine item).length + 2 ≤ maxLen := by
    rw [itemLine, List.length_append, List.length_cons]
    omega
  refine ⟨by simpa [itemLine] using ⟨hkey.newline, hnewline⟩, by omega, ?_⟩
  intro st
  rw [chunks_of_short hroom, itemLine, List.append_assoc, List.cons_append, List.foldl_cons,
    List.foldl_nil, parseLine_key st hkey, lineValue_line hnewline hblank]
  split_ifs
  · rfl
  · rfl

/-- A value that is found again in the file: on one line of at most 1023 characters, and without a
blank at its end unless it is that blank or fills the line. -/
structure Storable (key value : String) : Prop where
  nonempty : value ≠ ""
  newline : '\n' ∉ value.toList
  length : key.toList.length + value.toList.length + 2 ≤ maxLen
  blank : key.toList.length + value.toList.length + 3 ≤ maxLen →
    value.toList.length ≤ 1 ∨ value.toList.getLast? ≠ some ' '

lemma Storable.readable {key value : String} (h : Storable key value) (hkey : IsWord key) :
    Readable ⟨key, value⟩ := by
  by_cases hroom : key.toList.length + value.toList.length + 3 ≤ maxLen
  · exact readable_of_room hkey h.newline (h.blank hroom) hroom
  · have hlength := h.length
    have hfull : ¬ (itemLine ⟨key, value⟩).length + 2 ≤ maxLen := by
      rw [itemLine, List.length_append, List.length_cons]
      dsimp only
      omega
    refine ⟨by simpa [itemLine] using ⟨hkey.newline, h.newline⟩, ?_, fun st => ?_⟩
    · rw [itemLine, List.length_append, List.length_cons]
      dsimp only
      omega
    · rw [chunks, if_neg hfull, itemLine, List.foldl_cons, List.foldl_cons, List.foldl_nil,
        parseLine_key st hkey, parseLine_empty, lineValue, if_neg h.newline,
        String.ofList_toList, if_neg h.nonempty]
      rfl

/-- The configuration can be written and read line by line. -/
structure Printable (sec : LpSection) : Prop where
  name : IsWord sec.name
  items : ∀ item ∈ sec.items, IsWord item.key ∧ IsClean item.value

/-- A section that is found again in the file, without the items whose value is empty. -/
structure ReadableSection (sec : LpSection) : Prop where
  name : IsWord sec.name
  length : sec.name.toList.length + 4 ≤ maxLen
  items : ∀ item ∈ sec.items, Readable item

lemma Printable.readable {sec : LpSection} (h : Printable sec)
    (hname : sec.name.toList.length + 4 ≤ maxLen) (hitems : ∀ item ∈ sec.items,
      item.key.toList.length + item.value.toList.length + 3 ≤ maxLen) : ReadableSection sec where
  name := h.name
  length := hname
  items item hitem := by
    obtain ⟨hkey, hvalue⟩ := h.items item hitem
    exact readable_of_room hkey hvalue.newline (Or.inr hvalue.last) (hitems item hitem)

/-- What is read of a section. -/
def kept (sec : LpSection) : LpSection :=
  { sec with items := sec.items.filter fun item => item.value ≠ "" }

lemma parse_items {items : List LpItem} (h : ∀ item ∈ items, Readable item) (before : LpConfig)
    (sec : LpSection) :
    ((items.map itemLine).flatMap chunks).foldl parseLine ⟨before, some sec⟩
      = ⟨before, some { sec with
          items := sec.items ++ items.filter fun item => item.value ≠ "" }⟩ := by
  induction items generalizing sec with
  | nil => simp
  | cons item items ih =>
    have hrest := fun sec => ih (fun i hi => h i (List.mem_cons_of_mem item hi)) sec
    rw [List.map_cons, List.flatMap_cons, List.foldl_append, (h item List.mem_cons_self).reads]
    by_cases hempty : item.value = ""
    · rw [if_pos hempty, hrest, List.filter_cons_of_neg (by simpa using hempty)]
    · rw [if_neg hempty, List.filter_cons_of_pos (by simpa using hempty)]
      have hstep : Parser.addItem ⟨before, some sec⟩ item
          = ⟨before, some { sec with items := sec.items ++ [item] }⟩ := rfl
      rw [hstep, hrest]
      simp

/-- The lines of a section without their newlines. -/
def sectionLines (sec : LpSection) : List (List Char) :=
  ('[' :: sec.name.toList ++ [']'])
    :: (sec.items.map fun item => item.key.toList ++ '=' :: item.value.toList) ++ [[]]

lemma parse_section {sec : LpSection} (h : ReadableSection sec) (st : Parser) :
    ((sectionLines sec).flatMap chunks).foldl parseLine st = ⟨st.sections, some (kept sec)⟩ := by
  have hitems := parse_items h.items st.sections ⟨sec.name, []⟩
  have hname : ('[' :: sec.name.toList ++ [']']).length + 2 ≤ maxLen := by
    have := h.length
    simp only [List.length_append, List.length_cons, List.length_nil]
    omega
  rw [sectionLines, List.flatMap_append, List.flatMap_cons, chunks_of_short hname,
    List.foldl_append, List.foldl_append, List.foldl_cons, List.foldl_nil,
    parseLine_section st h.name]
  exact (congrArg (fun st => parseLine st ['\n']) hitems).trans (parseLine_empty _)

lemma parse_sections {c : LpConfig} (h : ∀ sec ∈ c, ReadableSection sec) (st : Parser) :
    (((c.flatMap sectionLines).flatMap chunks).foldl parseLine st).sections
      = st.sections ++ c.map kept := by
  induction c generalizing st with
  | nil => simp
  | cons sec c ih =>
    rw [List.flatMap_cons, List.flatMap_append, List.foldl_append,
      parse_section (h sec List.mem_cons_self),
      ih fun s hs => h s (List.mem_cons_of_mem sec hs)]
    simp [Parser.sections]

lemma sync_eq (c : LpConfig) : c.sync = linesText (c.flatMap sectionLines) := by
  induction c with
  | nil => rfl
  | cons sec c ih =>
    have hitems : sec.items.flatMap itemText = linesText
        (sec.items.map fun item => item.key.toList ++ '=' :: item.value.toList) := by
      induction sec.items with
      | nil => rfl
      | cons item items ih =>
        rw [List.flatMap_cons, ih]
        simp [linesText, itemText]
    rw [sync, List.flatMap_cons, sectionText, hitems]
    rw [sync] at ih
    rw [ih]
    simp [linesText, sectionLines]

/-- The configuration that is read after writing. -/
theorem parse_sync {c : LpConfig} (h : ∀ sec ∈ c, ReadableSection sec) :
    parse c.sync = c.map kept := by
  have hlines : ∀ l ∈ c.flatMap sectionLines, '\n' ∉ l ∧ l.length + 1 ≤ maxLen := by
    intro l hl
    obtain ⟨sec, hsec, hl⟩ := List.mem_flatMap.mp hl
    rw [sectionLines, List.mem_append, List.mem_cons, List.mem_map, List.mem_singleton] at hl
    rcases hl with (rfl | ⟨item, hitem, rfl⟩) | rfl
    · have hnewline := (h sec hsec).name.newline
      have hlength := (h sec hsec).length
      refine ⟨by simpa using hnewline, ?_⟩
      simp
      omega
    · have hitem := (h sec hsec).items item hitem
      exact ⟨hitem.newline, hitem.length⟩
    · simp [maxLen]
  unfold parse
  rw [sync_eq, fileLines_linesText hlines le_rfl, parse_sections h]
  rfl

/-! What the calls keep. -/

section ReplaceFirst

variable {α β : Type} {p : α → Bool} {f : α → Option α} {g : α → β} {l : List α}

lemma mem_replaceFirst {a : α} (h : a ∈ replaceFirst p f l) :
    a ∈ l ∨ ∃ b ∈ l, p b = true ∧ f b = some a := by
  induction l with
  | nil => cases h
  | cons b l ih =>
    rw [replaceFirst] at h
    split_ifs at h with hp
    · rcases List.mem_append.mp h with hnew | hold
      · exact Or.inr ⟨b, List.mem_cons_self, hp, by simpa using hnew⟩
      · exact Or.inl (List.mem_cons_of_mem b hold)
    · rcases List.mem_cons.mp h with rfl | hrest
      · exact Or.inl List.mem_cons_self
      · rcases ih hrest with hold | ⟨c, hc, hpc, hfc⟩
        · exact Or.inl (List.mem_cons_of_mem b hold)
        · exact Or.inr ⟨c, List.mem_cons_of_mem b hc, hpc, hfc⟩

lemma map_replaceFirst_sublist (h : ∀ a b, f a = some b → g b = g a) :
    ((replaceFirst p f l).map g).Sublist (l.map g) := by
  induction l with
  | nil => exact List.Sublist.slnil
  | cons a l ih =>
    rw [replaceFirst]
    split_ifs
    · cases hfa : f a with
      | none => exact List.sublist_cons_self _ _
      | some b => simp [h a b hfa]
    · exact ih.cons_cons _

end ReplaceFirst

/-- No name and no key of a section is there twice, and all names and items have a property. -/
structure Distinct (P : String → Prop) (Q : LpItem → Prop) (c : LpConfig) : Prop where
  good : ∀ sec ∈ c, P sec.name ∧ ∀ item ∈ sec.items, Q item
  names : (c.map LpSection.name).Nodup
  keys : ∀ sec ∈ c, (sec.items.map LpItem.key).Nodup

/-- Every section can be printed, and no name and no key of a section is there twice. -/
structure Valid (c : LpConfig) : Prop where
  printable : ∀ sec ∈ c, Printable sec
  names : (c.map LpSection.name).Nodup
  keys : ∀ sec ∈ c, (sec.items.map LpItem.key).Nodup

lemma valid_iff (c : LpConfig) :
    Valid c ↔ Distinct IsWord (fun item => IsWord item.key ∧ IsClean item.value) c := by
  constructor
  · rintro ⟨hprintable, hnames, hkeys⟩
    exact ⟨fun sec hsec => ⟨(hprintable sec hsec).name, (hprintable sec hsec).items⟩, hnames, hkeys⟩
  · rintro ⟨hgood, hnames, hkeys⟩
    exact ⟨fun sec hsec => ⟨(hgood sec hsec).1, (hgood sec hsec).2⟩, hnames, hkeys⟩

lemma find_eq_none_of_not_isSome {α : Type} {p : α → Bool} {l : List α}
    (h : ¬ (l.find? p).isSome = true) : ∀ a ∈ l, ¬ p a = true := by
  rw [Bool.not_eq_true, Option.isSome_eq_false_iff, Option.isNone_iff_eq_none,
    List.find?_eq_none] at h
  exact h

section Distinct

variable {P : String → Prop} {Q : LpItem → Prop}

lemma setItem_distinct {items : List LpItem} {key : String} {value : Option String}
    (hvalue : ∀ v ∈ value, Q ⟨key, v⟩) (hitems : ∀ item ∈ items, Q item)
    (hkeys : (items.map LpItem.key).Nodup) :
    (∀ item ∈ setItem items key value, Q item)
      ∧ ((setItem items key value).map LpItem.key).Nodup := by
  unfold setItem
  split_ifs with hfound
  · constructor
    · intro item hitem
      rcases mem_replaceFirst hitem with hold | ⟨old, hold, hkey, hnew⟩
      · exact hitems item hold
      · obtain ⟨v, hv, rfl⟩ := Option.map_eq_some_iff.mp hnew
        rw [decide_eq_true_eq] at hkey
        rw [hkey]
        exact hvalue v hv
    · refine hkeys.sublist (map_replaceFirst_sublist ?_)
      intro a b hab
      obtain ⟨v, -, rfl⟩ := Option.map_eq_some_iff.mp hab
      rfl
  · cases value with
    | none => exact ⟨hitems, hkeys⟩
    | some v =>
      constructor
      · intro item hitem
        rcases List.mem_append.mp hitem with hold | hnew
        · exact hitems item hold
        · rw [List.mem_singleton.mp hnew]
          exact hvalue v rfl
      · have hother := find_eq_none_of_not_isSome hfound
        rw [List.map_append, List.map_singleton, List.nodup_append]
        refine ⟨hkeys, List.nodup_singleton _, ?_⟩
        rintro a ha b hb rfl
        rw [List.mem_singleton] at hb
        obtain ⟨item, hitem, rfl⟩ := List.mem_map.mp ha
        exact hother item hitem (decide_eq_true hb)

lemma setString_distinct {c : LpConfig} (hc : Distinct P Q c) {name key : String}
    {value : Option String} (hname : P name) (hvalue : ∀ v ∈ value, Q ⟨key, v⟩) :
    Distinct P Q (c.setString name key value) := by
  unfold setString
  split_ifs with hfound
  · have hset : ∀ sec ∈ c, _ := fun sec hsec =>
      setItem_distinct hvalue (hc.good sec hsec).2 (hc.keys sec hsec)
    refine ⟨?_, ?_, ?_⟩
    · intro sec hsec
      rcases mem_replaceFirst hsec with hold | ⟨old, hold, -, hnew⟩
      · exact hc.good sec hold
      · cases hnew
        exact ⟨(hc.good old hold).1, (hset old hold).1⟩
    · refine hc.names.sublist (map_replaceFirst_sublist ?_)
      intro a b hab
      cases hab
      rfl
    · intro sec hsec
      rcases mem_replaceFirst hsec with hold | ⟨old, hold, -, hnew⟩
      · exact hc.keys sec hold
      · cases hnew
        exact (hset old hold).2
  · cases value with
    | none => exact hc
    | some v =>
      have hother := find_eq_none_of_not_isSome hfound
      refine ⟨?_, ?_, ?_⟩
      · intro sec hsec
        rcases List.mem_append.mp hsec with hold | hnew
        · exact hc.good sec hold
        · rw [List.mem_singleton.mp hnew]
          refine ⟨hname, ?_⟩
          intro item hitem
          rw [List.mem_singleton.mp hitem]
          exact hvalue v rfl
      · rw [List.map_append, List.map_singleton, List.nodup_append]
        refine ⟨hc.names, List.nodup_singleton _, ?_⟩
        rintro a ha b hb rfl
        rw [List.mem_singleton] at hb
        obtain ⟨sec, hsec, rfl⟩ := List.mem_map.mp ha
        exact hother sec hsec (decide_eq_true hb)
      · intro sec hsec
        rcases List.mem_append.mp hsec with hold | hnew
        · exact hc.keys sec hold
        · rw [List.mem_singleton.mp hnew]
          exact List.nodup_singleton _

lemma cleanSection_distinct {c : LpConfig} (hc : Distinct P Q c) (name : String) :
    Distinct P Q (c.cleanSection name) where
  good sec hsec := hc.good sec (List.mem_of_mem_eraseP hsec)
  names := hc.names.sublist ((List.eraseP_sublist).map _)
  keys sec hsec := hc.keys sec (List.mem_of_mem_eraseP hsec)

lemma kept_distinct {c : LpConfig} (hc : Distinct P Q c) : Distinct P Q (c.map kept) := by
  have hsections : ∀ sec ∈ c.map kept, ∃ old ∈ c, kept old = sec := fun sec hsec =>
    List.mem_map.mp hsec
  refine ⟨?_, ?_, ?_⟩
  · intro sec hsec
    obtain ⟨old, hold, rfl⟩ := hsections sec hsec
    exact ⟨(hc.good old hold).1, fun item hitem =>
      (hc.good old hold).2 item (List.mem_of_mem_filter hitem)⟩
  · rw [List.map_map]
    exact hc.names
  · intro sec hsec
    obtain ⟨old, hold, rfl⟩ := hsections sec hsec
    exact (hc.keys old hold).sublist ((List.filter_sublist).map _)

end Distinct

/-- A printed number is a clean value. -/
lemma isClean_toString (n : ℤ) : IsClean (toString n) := by
  have hchars : ∀ c ∈ (toString n).toList, c = '-' ∨ c.isDigit = true := by
    intro c hc
    rw [printed] at hc
    split_ifs at hc
    · exact Or.inr (mem_toDigits_isDigit c hc)
    · rcases List.mem_cons.mp hc with rfl | hdigit
      · exact Or.inl rfl
      · exact Or.inr (mem_toDigits_isDigit c hdigit)
  have hblank : ' ' ∉ (toString n).toList := by
    intro h
    rcases hchars _ h with hminus | hdigit
    · exact absurd hminus (by decide)
    · exact absurd hdigit (by decide)
  refine ⟨?_, ?_, ?_⟩
  · intro h
    rcases hchars _ h with hminus | hdigit
    · exact absurd hminus (by decide)
    · exact absurd hdigit (by decide)
  · exact fun h => hblank (List.mem_of_mem_head? h)
  · exact fun h => hblank (List.mem_of_mem_getLast? h)

lemma apply_valid {c : LpConfig} (hc : Valid c) {call : SetCall} (hcall : call.Clean) :
    Valid (call.apply c) := by
  rw [valid_iff] at hc ⊢
  cases call with
  | setString name key value =>
    exact setString_distinct hc hcall.1 fun v hv => ⟨hcall.2.1, hcall.2.2 v hv⟩
  | setInt name key value =>
    have hvalue : ∀ v ∈ some (toString value), IsWord key ∧ IsClean v := by
      intro v hv
      cases hv
      exact ⟨hcall.2, isClean_toString value⟩
    exact setString_distinct hc hcall.1 hvalue

/-- What the calls make is valid. -/
lemma foldl_valid {calls : List SetCall} (h : ∀ call ∈ calls, call.Clean) {c : LpConfig}
    (hc : Valid c) : Valid (calls.foldl SetCall.apply c) := by
  induction calls generalizing c with
  | nil => exact hc
  | cons call calls ih =>
    exact ih (fun d hd => h d (List.mem_cons_of_mem call hd))
      (apply_valid hc (h call List.mem_cons_self))

lemma ofCalls_valid {calls : List SetCall} (h : ∀ call ∈ calls, call.Clean) :
    Valid (ofCalls calls) :=
  foldl_valid h ⟨by simp, by simp, by simp⟩

/-! Reads after a write. -/

section Reads

variable {α κ : Type} [DecidableEq κ] (key : α → κ) {g : α → α}

/-- A search after the first hit of a key has changed. -/
lemma find_replaceFirst (hg : ∀ a, key (g a) = key a) (k k' : κ) (l : List α) :
    (replaceFirst (fun a => key a = k) (fun a => some (g a)) l).find? (fun a => key a = k')
      = if k' = k then (l.find? fun a => key a = k).map g else l.find? fun a => key a = k' := by
  induction l with
  | nil => simp [replaceFirst]
  | cons a l ih =>
    by_cases ha : key a = k
    · rw [replaceFirst, if_pos (decide_eq_true ha), Option.toList_some, List.singleton_append]
      by_cases hk : k' = k
      · subst hk
        rw [if_pos rfl, List.find?_cons_of_pos (by simp [hg, ha]),
          List.find?_cons_of_pos (by simp [ha])]
        rfl
      · have hother : key a ≠ k' := fun h => hk (h.symm.trans ha)
        rw [if_neg hk, List.find?_cons_of_neg (by simp [hg, hother]),
          List.find?_cons_of_neg (by simp [hother])]
    · rw [replaceFirst, if_neg (by simp [ha])]
      by_cases hk : k' = k
      · subst hk
        rw [List.find?_cons_of_neg (by simp [ha]), ih, if_pos rfl, if_pos rfl,
          List.find?_cons_of_neg (by simp [ha])]
      · rw [if_neg hk] at ih ⊢
        by_cases hother : key a = k'
        · rw [List.find?_cons_of_pos (by simp [hother]), List.find?_cons_of_pos (by simp [hother])]
        · rw [List.find?_cons_of_neg (by simp [hother]), List.find?_cons_of_neg (by simp [hother]),
            ih]

end Reads

/-- The value of a key among the items after one of them was set. -/
lemma find_setItem (items : List LpItem) (key v key' : String) :
    ((setItem items key (some v)).find? (·.key = key')).map LpItem.value
      = if key' = key then some v else (items.find? (·.key = key')).map LpItem.value := by
  unfold setItem
  by_cases hfound : (items.find? (·.key = key)).isSome
  · have h := find_replaceFirst LpItem.key (g := fun item => { item with value := v })
      (fun _ => rfl) key key' items
    rw [if_pos hfound]
    simp only [Option.map_some]
    rw [h]
    by_cases hkey : key' = key
    · obtain ⟨item, hitem⟩ := Option.isSome_iff_exists.mp hfound
      rw [if_pos hkey, if_pos hkey, hitem]
      rfl
    · rw [if_neg hkey, if_neg hkey]
  · rw [if_neg hfound]
    dsimp only
    rw [List.find?_append]
    by_cases hkey : key' = key
    · subst hkey
      rw [Bool.not_eq_true, Option.isSome_eq_false_iff, Option.isNone_iff_eq_none] at hfound
      rw [hfound, if_pos rfl]
      simp
    · rw [if_neg hkey, List.find?_cons_of_neg (by simpa using Ne.symm hkey), List.find?_nil,
        Option.or_none]

/-- The values after one value was set. -/
theorem getString_setString (c : LpConfig) (name key v name' key' : String) :
    (c.setString name key (some v)).getString name' key'
      = if name' = name ∧ key' = key then some v else c.getString name' key' := by
  unfold setString
  by_cases hfound : (c.findSection name).isSome
  · have h := find_replaceFirst LpSection.name
      (g := fun sec => { sec with items := setItem sec.items key (some v) }) (fun _ => rfl) name
      name' c
    rw [if_pos hfound]
    unfold getString
    unfold findSection at h ⊢
    rw [h]
    by_cases hname : name' = name
    · subst hname
      unfold findSection at hfound
      obtain ⟨sec, hsec⟩ := Option.isSome_iff_exists.mp hfound
      rw [if_pos rfl, hsec, Option.map_some, Option.bind_some, Option.bind_some]
      simpa [findItem] using find_setItem sec.items key v key'
    · rw [if_neg hname, if_neg (fun h => hname h.1)]
  · rw [if_neg hfound]
    dsimp only
    unfold getString
    unfold findSection at hfound ⊢
    rw [List.find?_append]
    by_cases hname : name' = name
    · subst hname
      rw [Bool.not_eq_true, Option.isSome_eq_false_iff, Option.isNone_iff_eq_none] at hfound
      rw [hfound]
      by_cases hkey : key' = key
      · simp [findItem, hkey]
      · simp [findItem, hkey, Ne.symm hkey]
    · have hother : ¬ (name' = name ∧ key' = key) := fun h => hname h.1
      rw [if_neg hother, List.find?_cons_of_neg (by simpa using Ne.symm hname), List.find?_nil,
        Option.or_none]

lemma getInt_congr {c c' : LpConfig} {name key : String}
    (h : c'.getString name key = c.getString name key) (default : ℤ) :
    c'.getInt name key default = c.getInt name key default := by
  unfold getInt
  rw [h]

/-! A key may stand more than once in a section. -/

/-- The values of a key in the order of its section. -/
def values (c : LpConfig) (name key : String) : List String :=
  ((c.findSection name).map fun sec =>
    (sec.items.filter (·.key = key)).map LpItem.value).getD []

lemma getString_eq_values (c : LpConfig) (name key : String) :
    c.getString name key = (c.values name key).head? := by
  unfold getString values
  cases c.findSection name with
  | none => rfl
  | some sec =>
    rw [Option.bind_some, Option.map_some, Option.getD_some, List.head?_map, List.head?_filter]
    rfl

/-- The items of a key after the first of them was replaced or removed. -/
lemma filter_replaceFirst (items : List LpItem) (key key' : String) (value : Option String) :
    ((replaceFirst (·.key = key) (fun item => value.map fun v => { item with value := v })
        items).filter (·.key = key')).map LpItem.value
      = if key' = key ∧ (items.find? (·.key = key)).isSome then
          value.toList ++ ((items.filter (·.key = key)).map LpItem.value).tail
        else (items.filter (·.key = key')).map LpItem.value := by
  induction items with
  | nil => simp [replaceFirst]
  | cons item items ih =>
    by_cases hitem : item.key = key
    · subst hitem
      cases value with
      | none =>
        by_cases hkey : key' = item.key
        · simp [replaceFirst, hkey]
        · simp [replaceFirst, hkey, Ne.symm hkey]
      | some v =>
        by_cases hkey : key' = item.key
        · simp [replaceFirst, hkey]
        · simp [replaceFirst, hkey, Ne.symm hkey]
    · rw [replaceFirst, if_neg (by simpa using hitem), List.filter_cons]
      by_cases hkey : key' = key
      · subst hkey
        simpa [hitem] using ih
      · simp only [hkey, false_and, if_false] at ih ⊢
        by_cases hother : item.key = key'
        · simp [hother, ih]
        · simp [hother, ih]

lemma values_setItem (items : List LpItem) (key key' : String) (value : Option String) :
    ((setItem items key value).filter (·.key = key')).map LpItem.value
      = if key' = key then value.toList ++ ((items.filter (·.key = key)).map LpItem.value).tail
        else (items.filter (·.key = key')).map LpItem.value := by
  unfold setItem
  by_cases hfound : (items.find? (·.key = key)).isSome
  · rw [if_pos hfound, filter_replaceFirst]
    simp [hfound]
  · have hnone : items.filter (·.key = key) = [] := by
      rw [List.filter_eq_nil_iff]
      simpa using hfound
    rw [if_neg hfound]
    cases value with
    | none =>
      by_cases hkey : key' = key
      · simp [hkey, hnone]
      · simp [hkey]
    | some v =>
      by_cases hkey : key' = key
      · simp [hkey, hnone]
      · simp [hkey, Ne.symm hkey]

/-- The values after the first one of a key was set or removed. -/
lemma values_setString (c : LpConfig) (name key name' key' : String) (value : Option String) :
    (c.setString name key value).values name' key'
      = if name' = name ∧ key' = key then value.toList ++ (c.values name key).tail
        else c.values name' key' := by
  unfold setString
  by_cases hfound : (c.findSection name).isSome
  · have h := find_replaceFirst LpSection.name
      (g := fun sec => { sec with items := setItem sec.items key value }) (fun _ => rfl) name
      name' c
    rw [if_pos hfound]
    unfold values
    unfold findSection at h hfound ⊢
    rw [h]
    by_cases hname : name' = name
    · subst hname
      obtain ⟨sec, hsec⟩ := Option.isSome_iff_exists.mp hfound
      rw [if_pos rfl, hsec]
      simp only [Option.map_some, Option.getD_some, true_and]
      rw [values_setItem]
    · simp [hname]
  · rw [if_neg hfound]
    rw [Bool.not_eq_true, Option.isSome_eq_false_iff, Option.isNone_iff_eq_none] at hfound
    have hvalues : c.values name key = [] := by
      rw [values, hfound]
      rfl
    cases value with
    | none =>
      by_cases hsame : name' = name ∧ key' = key
      · rw [if_pos hsame, hsame.1, hsame.2, hvalues]
        rfl
      · rw [if_neg hsame]
    | some v =>
      dsimp only
      unfold values
      unfold findSection at hfound ⊢
      rw [List.find?_append]
      by_cases hname : name' = name
      · subst hname
        rw [hfound]
        by_cases hkey : key' = key
        · simp [hkey]
        · simp [hkey, Ne.symm hkey]
      · rw [List.find?_cons_of_neg (by simpa using Ne.symm hname), List.find?_nil, Option.or_none,
          if_neg (fun h => hname h.1)]

/-! Several writes. -/

/-- One value that is written, `none` for `NULL`. -/
structure Write where
  key : String × String
  value : Option String

/-- The writes one after the other. -/
def writeAll (ws : List Write) (c : LpConfig) : LpConfig :=
  ws.foldl (fun c w => setOptional c w.key.1 w.key.2 w.value) c

lemma writeAll_cons (w : Write) (ws : List Write) (c : LpConfig) :
    writeAll (w :: ws) c = writeAll ws (setOptional c w.key.1 w.key.2 w.value) := rfl

lemma getString_setOptional (c : LpConfig) (w : Write) (k : String × String) :
    (setOptional c w.key.1 w.key.2 w.value).getString k.1 k.2
      = if k = w.key then w.value.or (c.getString k.1 k.2) else c.getString k.1 k.2 := by
  unfold setOptional
  cases w.value with
  | none => simp
  | some v =>
    dsimp only
    rw [getString_setString, Option.some_or]
    simp only [Prod.ext_iff]

/-- A key that no write has keeps its value. -/
lemma getString_writes_of_notMem {ws : List Write} {k : String × String}
    (h : ∀ w ∈ ws, w.key ≠ k) (c : LpConfig) :
    (writeAll ws c).getString k.1 k.2
      = c.getString k.1 k.2 := by
  induction ws generalizing c with
  | nil => rfl
  | cons w ws ih =>
    rw [writeAll_cons, ih (fun v hv => h v (List.mem_cons_of_mem w hv)), getString_setOptional,
      if_neg (Ne.symm (h w List.mem_cons_self))]

/-- A key that one write has gets its value, if there is one. -/
lemma getString_writes {ws : List Write} (hkeys : (ws.map Write.key).Nodup) {w : Write}
    (hw : w ∈ ws) (c : LpConfig) :
    (writeAll ws c).getString w.key.1 w.key.2
      = w.value.or (c.getString w.key.1 w.key.2) := by
  induction ws generalizing c with
  | nil => cases hw
  | cons v ws ih =>
    rw [List.map_cons, List.nodup_cons] at hkeys
    rw [writeAll_cons]
    rcases List.mem_cons.mp hw with rfl | hmem
    · have hother : ∀ u ∈ ws, u.key ≠ w.key := by
        intro u hu hsame
        exact hkeys.1 (List.mem_map.mpr ⟨u, hu, hsame⟩)
      rw [getString_writes_of_notMem hother, getString_setOptional, if_pos rfl]
    · have hne : w.key ≠ v.key := by
        intro hsame
        exact hkeys.1 (List.mem_map.mpr ⟨w, hmem, hsame⟩)
      rw [ih hkeys.2 hmem, getString_setOptional, if_neg hne]

/-- The values of a section. -/
def view (c : LpConfig) (name : String) : Option (String → Option String) :=
  (c.findSection name).map fun sec key => (findItem sec key).map LpItem.value

lemma getString_eq_view (c : LpConfig) (name key : String) :
    c.getString name key = (c.view name).bind (· key) := by
  unfold getString view
  cases c.findSection name <;> rfl

lemma hasSection_eq_view (c : LpConfig) (name : String) :
    c.hasSection name = (c.view name).isSome := by
  unfold hasSection view
  rw [Option.isSome_map]

/-- A value is set in its section, which is there afterwards. -/
lemma view_setString (c : LpConfig) (name key v name' : String) :
    (c.setString name key (some v)).view name'
      = if name' = name then
          some (Function.update ((c.view name).getD fun _ => none) key (some v))
        else c.view name' := by
  have hsection : ((c.setString name key (some v)).view name').isSome
      = (decide (name' = name) || (c.view name').isSome) := by
    unfold view setString
    rw [Option.isSome_map, Option.isSome_map]
    by_cases hfound : (c.findSection name).isSome
    · have h := find_replaceFirst LpSection.name
        (g := fun sec => { sec with items := setItem sec.items key (some v) }) (fun _ => rfl) name
        name' c
      rw [if_pos hfound]
      unfold findSection at h hfound ⊢
      rw [h]
      by_cases hname : name' = name
      · rw [if_pos hname, Option.isSome_map, hfound, decide_eq_true hname, Bool.true_or]
      · rw [if_neg hname, decide_eq_false hname, Bool.false_or]
    · rw [if_neg hfound]
      unfold findSection
      rw [List.find?_append, Option.isSome_or, Bool.or_comm]
      by_cases hname : name' = name
      · simp [hname]
      · simp [hname, Ne.symm hname]
  have hvalue := getString_setString c name key v name'
  simp only [getString_eq_view] at hvalue
  by_cases hname : name' = name
  · subst hname
    rw [decide_eq_true rfl, Bool.true_or] at hsection
    obtain ⟨sec, hsec⟩ := Option.isSome_iff_exists.mp hsection
    rw [if_pos rfl, hsec, Option.some.injEq]
    funext key'
    have hkey := hvalue key'
    rw [hsec, Option.bind_some] at hkey
    rw [hkey, Function.update_apply]
    by_cases hsame : key' = key
    · rw [if_pos ⟨rfl, hsame⟩, if_pos hsame]
    · rw [if_neg (fun h => hsame h.2), if_neg hsame]
      cases c.view name' <;> rfl
  · unfold view setString findSection
    rw [if_neg hname]
    split_ifs
    · have h := find_replaceFirst LpSection.name
        (g := fun sec => { sec with items := setItem sec.items key (some v) }) (fun _ => rfl) name
        name' c
      rw [h, if_neg hname]
    · rw [List.find?_append, List.find?_cons_of_neg (by simpa using Ne.symm hname), List.find?_nil,
        Option.or_none]

/-- A section that is cleaned is gone, if no name is there twice. -/
lemma view_cleanSection {c : LpConfig} (hc : (c.map LpSection.name).Nodup) (name name' : String) :
    (c.cleanSection name).view name' = if name' = name then none else c.view name' := by
  unfold view cleanSection findSection
  induction c with
  | nil => simp
  | cons sec c ih =>
    rw [List.map_cons, List.nodup_cons] at hc
    have hrest := ih hc.2
    by_cases hsec : sec.name = name
    · rw [List.eraseP_cons_of_pos (by simpa using hsec)]
      by_cases hname : name' = name
      · have hnone : c.find? (·.name = name') = none := by
          rw [List.find?_eq_none]
          intro other hother hsame
          rw [decide_eq_true_eq] at hsame
          exact hc.1 (List.mem_map.mpr ⟨other, hother, by rw [hsame, hname, hsec]⟩)
        rw [hnone, if_pos hname, Option.map_none]
      · have hother : ¬ sec.name = name' := fun h => hname (h.symm.trans hsec)
        rw [if_neg hname, List.find?_cons_of_neg (by simpa using hother)]
    · rw [List.eraseP_cons_of_neg (by simpa using hsec)]
      by_cases hname : sec.name = name'
      · have hother : ¬ name' = name := fun h => hsec (hname.trans h)
        rw [if_neg hother, List.find?_cons_of_pos (by simpa using hname),
          List.find?_cons_of_pos (by simpa using hname)]
      · rw [List.find?_cons_of_neg (by simpa using hname), hrest,
          List.find?_cons_of_neg (by simpa using hname)]

lemma names_setString {c : LpConfig} (hc : (c.map LpSection.name).Nodup) (name key v : String) :
    ((c.setString name key (some v)).map LpSection.name).Nodup := by
  unfold setString
  split_ifs with hfound
  · refine hc.sublist (map_replaceFirst_sublist ?_)
    intro a b hab
    cases hab
    rfl
  · have hother := find_eq_none_of_not_isSome hfound
    rw [List.map_append, List.map_singleton, List.nodup_append]
    refine ⟨hc, List.nodup_singleton _, ?_⟩
    rintro a ha b hb rfl
    rw [List.mem_singleton] at hb
    obtain ⟨sec, hsec, rfl⟩ := List.mem_map.mp ha
    exact hother sec hsec (decide_eq_true hb)

lemma names_cleanSection {c : LpConfig} (hc : (c.map LpSection.name).Nodup) (name : String) :
    ((c.cleanSection name).map LpSection.name).Nodup :=
  hc.sublist ((List.eraseP_sublist).map _)

/-- Writes to one section change no other section. -/
lemma view_writeAll {ws : List Write} {name : String} (h : ∀ w ∈ ws, w.key.1 ≠ name)
    (c : LpConfig) : (writeAll ws c).view name = c.view name := by
  induction ws generalizing c with
  | nil => rfl
  | cons w ws ih =>
    rw [writeAll_cons, ih fun v hv => h v (List.mem_cons_of_mem w hv)]
    unfold setOptional
    cases w.value with
    | none => rfl
    | some v => rw [view_setString, if_neg (Ne.symm (h w List.mem_cons_self))]

lemma names_writeAll {c : LpConfig} (hc : (c.map LpSection.name).Nodup) (ws : List Write) :
    ((writeAll ws c).map LpSection.name).Nodup := by
  induction ws generalizing c with
  | nil => exact hc
  | cons w ws ih =>
    rw [writeAll_cons]
    apply ih
    unfold setOptional
    cases w.value with
    | none => exact hc
    | some v => exact names_setString hc _ _ v

lemma writeAll_distinct {P : String → Prop} {Q : LpItem → Prop} {ws : List Write} {c : LpConfig}
    (hc : Distinct P Q c) (h : ∀ w ∈ ws, P w.key.1 ∧ ∀ v ∈ w.value, Q ⟨w.key.2, v⟩) :
    Distinct P Q (writeAll ws c) := by
  induction ws generalizing c with
  | nil => exact hc
  | cons w ws ih =>
    rw [writeAll_cons]
    refine ih ?_ fun v hv => h v (List.mem_cons_of_mem w hv)
    have hw := h w List.mem_cons_self
    unfold setOptional
    cases hvalue : w.value with
    | none => exact hc
    | some v => exact setString_distinct hc hw.1 (hvalue ▸ hw.2)

/-! The round trip. -/

lemma findSection_kept (c : LpConfig) (name : String) :
    findSection (c.map kept) name = (c.findSection name).map kept := by
  unfold findSection
  rw [List.find?_map]
  rfl

/-- A key that is there once is found among the kept items exactly when its item is kept. -/
lemma find_filter_of_nodup {items : List LpItem} (hkeys : (items.map LpItem.key).Nodup)
    (key : String) :
    ((items.filter fun item => item.value ≠ "").find? (·.key = key))
      = (items.find? (·.key = key)).filter fun item => item.value ≠ "" := by
  induction items with
  | nil => rfl
  | cons item items ih =>
    rw [List.map_cons, List.nodup_cons] at hkeys
    have hrest := ih hkeys.2
    by_cases hkey : item.key = key
    · have hnone : items.find? (·.key = key) = none := by
        rw [List.find?_eq_none]
        intro other hother hsame
        rw [decide_eq_true_eq] at hsame
        exact hkeys.1 (List.mem_map.mpr ⟨other, hother, hsame.trans hkey.symm⟩)
      rw [List.find?_cons_of_pos (by simpa using hkey)]
      by_cases hempty : item.value = ""
      · rw [List.filter_cons_of_neg (by simpa using hempty), hrest, hnone]
        simp [Option.filter, hempty]
      · rw [List.filter_cons_of_pos (by simpa using hempty),
          List.find?_cons_of_pos (by simpa using hkey)]
        simp [Option.filter, hempty]
    · rw [List.find?_cons_of_neg (by simpa using hkey)]
      by_cases hempty : item.value = ""
      · rw [List.filter_cons_of_neg (by simpa using hempty), hrest]
      · rw [List.filter_cons_of_pos (by simpa using hempty),
          List.find?_cons_of_neg (by simpa using hkey), hrest]

/-- After writing and parsing, a value is what it was, but an empty value is gone. -/
lemma getString_kept {c : LpConfig} (hkeys : ∀ sec ∈ c, (sec.items.map LpItem.key).Nodup)
    (name key : String) :
    getString (c.map kept) name key = (c.getString name key).filter (· ≠ "") := by
  unfold getString
  rw [findSection_kept]
  cases hsec : c.findSection name with
  | none => rfl
  | some sec =>
    have hmem : sec ∈ c := List.mem_of_find?_eq_some hsec
    rw [Option.map_some, Option.bind_some, Option.bind_some, findItem, kept,
      find_filter_of_nodup (hkeys sec hmem)]
    unfold findItem
    cases sec.items.find? (·.key = key) with
    | none => rfl
    | some item =>
      rw [Option.map_some, Option.filter_some, Option.filter_some]
      split_ifs
      · rfl
      · rfl

/-- A configuration that the calls make comes back from its file exactly when no key has an empty
value. -/
theorem file_roundTrips_iff {calls : List SetCall} (h : ∀ call ∈ calls, call.Clean)
    (hshort : Short (ofCalls calls)) :
    RoundTrips (ofCalls calls) ↔ ∀ name key, (ofCalls calls).getString name key ≠ some "" := by
  have hvalid := ofCalls_valid h
  unfold RoundTrips
  rw [parse_sync fun sec hsec => (hvalid.printable sec hsec).readable (hshort sec hsec).1
    (hshort sec hsec).2]
  constructor
  · intro hround name key hempty
    have hsame := (hround name).2 key
    rw [getString_kept hvalid.keys, hempty] at hsame
    cases hsame
  · intro hvalues name
    refine ⟨by rw [findSection_kept, Option.isSome_map], ?_⟩
    intro key
    rw [getString_kept hvalid.keys]
    cases hvalue : (ofCalls calls).getString name key with
    | none => rfl
    | some v =>
      have hne : v ≠ "" := by
        rintro rfl
        exact hvalues name key hvalue
      rw [Option.filter_some, if_pos (by simpa using hne)]

/-- Two settings in one section. -/
def plainCalls : List SetCall :=
  [.setString "net" "stun" (some "[host]=x"), .setInt "net" "mtu" 1300]

lemma mem_of_getString {c : LpConfig} {name key v : String} (h : c.getString name key = some v) :
    ∃ sec ∈ c, ∃ item ∈ sec.items, item.value = v := by
  obtain ⟨sec, hsec, hitem⟩ := Option.bind_eq_some_iff.mp h
  obtain ⟨item, hfound, hvalue⟩ := Option.map_eq_some_iff.mp hitem
  exact ⟨sec, List.mem_of_find?_eq_some hsec, item, List.mem_of_find?_eq_some hfound, hvalue⟩

theorem roundTrips_plainCalls : RoundTrips (ofCalls plainCalls) := by
  have hconfig : ofCalls plainCalls = [⟨"net", [⟨"stun", "[host]=x"⟩, ⟨"mtu", "1300"⟩]⟩] := by
    decide +kernel
  refine (file_roundTrips_iff ?_ ?_).mpr ?_
  · have hnet : IsWord "net" := ⟨by simp, by simp [isSpace]⟩
    intro call hcall
    simp only [plainCalls, List.mem_cons, List.not_mem_nil, or_false] at hcall
    rcases hcall with rfl | rfl
    · refine ⟨hnet, ⟨by simp, by simp [isSpace]⟩, ?_⟩
      intro v hv
      cases hv
      exact ⟨by simp, by simp, by simp⟩
    · exact ⟨hnet, ⟨by simp, by simp [isSpace]⟩⟩
  · rw [hconfig]
    intro sec hsec
    rw [List.mem_singleton.mp hsec]
    simp [maxLen]
  · intro name key hempty
    rw [hconfig] at hempty
    obtain ⟨sec, hsec, item, hitem, hvalue⟩ := mem_of_getString hempty
    rw [List.mem_singleton.mp hsec] at hitem
    simp only [List.mem_cons, List.not_mem_nil, or_false] at hitem
    rcases hitem with rfl | rfl
    · simp at hvalue
    · simp at hvalue

/-- An empty value is lost. -/
theorem empty_value_is_lost : ¬ RoundTrips (ofCalls [.setString "s" "k" (some "")]) := by
  intro h
  have hread := (h "s").2 "k"
  revert hread
  decide +kernel

end LpConfig

end MTalk.Config
