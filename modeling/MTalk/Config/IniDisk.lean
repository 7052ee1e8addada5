import MTalk.Config.IniFile

/-!
# INI files on the disk

`CIniWR::ReadIniFile` finds out whether a file is Unicode and then reads it as a text of single
bytes all the same. It returns 0 both for an empty file and where it gives up, and the writer goes
on with what it has.
-/

namespace MTalk.Config.CIniWR

/-- The code page `CP_ACP`. -/
structure CodePage where
  decode : List UInt8 → List Char
  encode : List Char → List UInt8
  decode_ascii : ∀ bytes : List UInt8, (∀ b ∈ bytes, b.toNat < 128) →
    decode bytes = bytes.map fun b => Char.ofNat b.toNat

/-- A code page of ASCII characters only. -/
def asciiPage : CodePage where
  decode bytes := bytes.map fun b => Char.ofNat b.toNat
  encode chars := chars.map fun c => UInt8.ofNat c.toNat
  decode_ascii _ _ := rfl

/-- Which calls succeed: `CreateFile`, `GetFileInformationByHandle`, the `ReadFile` of the byte
order mark, the first `malloc`, the `ReadFile` of the data, the second `malloc`, and of the writer
the `CreateFile` of the temporary file and `CopyFile`. -/
structure Os where
  opens : Bool := true
  info : Bool := true
  mark : Bool := true
  buffer : Bool := true
  read : Bool := true
  wide : Bool := true
  temp : Bool := true
  copy : Bool := true

namespace Os

variable (os : Os) (bytes : List UInt8)

/-- The size of the file, made even. -/
def evenSize : ℕ := (bytes.length + 1) / 2 * 2

/-- `bUnicode`: the byte order mark was read. -/
def isUnicode : Bool :=
  2 ≤ evenSize bytes && os.mark && bytes.take 2 == [0xff, 0xfe]

/-- `dwSize` before the data are read. -/
def dataSize : ℕ := if os.isUnicode bytes then evenSize bytes - 2 else evenSize bytes

/-- The bytes behind the file pointer when the data are read. -/
def data : List UInt8 := if os.isUnicode bytes then bytes.drop 2 else bytes

end Os

/-- `ReadIniFile`: the text in `g_pData`. The length of it is returned. -/
def readIniFile (page : CodePage) (os : Os) (bytes : List UInt8) : List Char :=
  if !os.opens then []
  else if !os.info then []
  else if 0 < os.dataSize bytes then
    if !os.buffer then []
    else if !os.read then []
    else
      let pData := (os.data bytes).take (os.dataSize bytes)
      if !os.wide then []
      else page.decode (pData.takeWhile (· ≠ 0))
  else []

lemma readIniFile_works (page : CodePage) (bytes : List UInt8) :
    readIniFile page {} bytes = if 0 < ({} : Os).dataSize bytes then
      page.decode (((({} : Os).data bytes).take (({} : Os).dataSize bytes)).takeWhile (· ≠ 0))
    else [] := rfl

/-! Single bytes and UTF-16. -/

/-- A text of ASCII characters. -/
structure AsciiText where
  chars : List Char
  ascii : ∀ c ∈ chars, c.toNat < 128

namespace AsciiText

variable (text : AsciiText)

/-- The text in single bytes. -/
def singleBytes : List UInt8 := text.chars.map fun c => UInt8.ofNat c.toNat

/-- The text in UTF-16, little endian, with a byte order mark. -/
def utf16 : List UInt8 :=
  0xff :: 0xfe :: text.chars.flatMap fun c => [UInt8.ofNat c.toNat, 0]

/-- The two files give the same characters and the same answers. -/
structure SameReading (page : CodePage) : Prop where
  chars : readIniFile page {} text.singleBytes = readIniFile page {} text.utf16
  answers : ∀ appName keyName default room,
    getPrivateProfileString appName keyName default room
        (readIniFile page {} text.singleBytes) =
      getPrivateProfileString appName keyName default room (readIniFile page {} text.utf16)

variable {text} {page : CodePage}

lemma toNat_ofNat {c : Char} (h : c.toNat < 128) : (UInt8.ofNat c.toNat).toNat = c.toNat := by
  rw [UInt8.toNat_ofNat']
  omega

/-- A text of ASCII characters in single bytes is decoded to itself. -/
lemma decode_singleBytes {chars : List Char} (h : ∀ c ∈ chars, c.toNat < 128) :
    page.decode (chars.map fun c => UInt8.ofNat c.toNat) = chars := by
  rw [page.decode_ascii]
  · rw [List.map_map]
    refine (List.map_congr_left fun c hc => ?_).trans (List.map_id chars)
    rw [Function.comp_apply, toNat_ofNat (h c hc), Char.ofNat_toNat, id]
  · intro b hb
    obtain ⟨c, hc, rfl⟩ := List.mem_map.mp hb
    rw [toNat_ofNat (h c hc)]
    exact h c hc

lemma ofNat_ne_zero_iff {c : Char} (h : c.toNat < 128) :
    UInt8.ofNat c.toNat ≠ 0 ↔ c ≠ Char.ofNat 0 := by
  rw [not_iff_not, ← UInt8.toNat_inj, toNat_ofNat h, ← Char.toNat_inj]
  rfl

/-- The single bytes up to the first zero. -/
lemma takeWhile_singleBytes {chars : List Char} (h : ∀ c ∈ chars, c.toNat < 128) :
    (chars.map fun c => UInt8.ofNat c.toNat).takeWhile (· ≠ 0) =
      (chars.takeWhile (· ≠ Char.ofNat 0)).map fun c => UInt8.ofNat c.toNat := by
  induction chars with
  | nil => rfl
  | cons c chars ih =>
    obtain ⟨hc, hchars⟩ := List.forall_mem_cons.mp h
    have hiff := ofNat_ne_zero_iff hc
    by_cases hzero : c = Char.ofNat 0
    · simp [hzero]
    · rw [List.map_cons, List.takeWhile_cons_of_pos (by simpa using hiff.mpr hzero), ih hchars,
        List.takeWhile_cons_of_pos (by simpa using hzero), List.map_cons]

/-- A file of single bytes is read up to its first zero. -/
lemma read_singleBytes :
    readIniFile page {} text.singleBytes = text.chars.takeWhile (· ≠ Char.ofNat 0) := by
  have hmark : ({} : Os).isUnicode text.singleBytes = false := by
    have hne : text.singleBytes.take 2 ≠ [0xff, 0xfe] := by
      intro h
      have hmem : (0xff : UInt8) ∈ text.singleBytes := List.mem_of_mem_take (by rw [h]; simp)
      obtain ⟨c, hc, hff⟩ := List.mem_map.mp hmem
      have hbound := text.ascii c hc
      have hnat := congrArg UInt8.toNat hff
      rw [toNat_ofNat hbound] at hnat
      have h255 : (0xff : UInt8).toNat = 255 := rfl
      omega
    simp [Os.isUnicode, hne]
  have hsize : ({} : Os).dataSize text.singleBytes = Os.evenSize text.singleBytes := by
    simp [Os.dataSize, hmark]
  have hdata : ({} : Os).data text.singleBytes = text.singleBytes := by
    simp [Os.data, hmark]
  have hfits : text.singleBytes.length ≤ Os.evenSize text.singleBytes := by
    unfold Os.evenSize
    omega
  rw [readIniFile_works, hsize, hdata, List.take_of_length_le hfits]
  split_ifs with hpos
  · rw [singleBytes, takeWhile_singleBytes text.ascii, decode_singleBytes]
    exact fun c hc => text.ascii c ((List.takeWhile_prefix _).subset hc)
  · have hempty : text.chars = [] := by
      have hlength : text.singleBytes.length = text.chars.length := List.length_map _
      unfold Os.evenSize at hpos
      exact List.length_eq_zero_iff.mp (by omega)
    rw [hempty]
    rfl

/-- A Unicode file is read up to the zero in its first character. -/
lemma read_utf16 :
    readIniFile page {} text.utf16 = (text.chars.takeWhile (· ≠ Char.ofNat 0)).take 1 := by
  have hmark : ({} : Os).isUnicode text.utf16 = true := by
    have hsize : 2 ≤ Os.evenSize text.utf16 := by
      simp only [Os.evenSize, utf16, List.length_cons]
      omega
    rw [Os.isUnicode, decide_eq_true hsize]
    rfl
  rw [readIniFile_works]
  simp only [Os.dataSize, Os.data, hmark, if_true]
  cases hchars : text.chars with
  | nil => simp [utf16, hchars, Os.evenSize]
  | cons c chars =>
    have hc := text.ascii c (by simp [hchars])
    have hsize : 2 ≤ Os.evenSize text.utf16 - 2 := by
      simp only [Os.evenSize, utf16, hchars, List.flatMap_cons, List.length_cons,
        List.length_append, List.length_nil]
      omega
    obtain ⟨n, hn⟩ := Nat.exists_eq_add_of_le' hsize
    rw [if_pos (by omega), hn]
    simp only [utf16, hchars, List.flatMap_cons, List.drop_succ_cons, List.drop_zero,
      List.cons_append, List.nil_append, List.take_succ_cons]
    have hiff := ofNat_ne_zero_iff hc
    by_cases hzero : c = Char.ofNat 0
    · have hbyte : UInt8.ofNat c.toNat = 0 := by
        by_contra hne
        exact hiff.mp hne hzero
      rw [List.takeWhile_cons_of_neg (by simpa using hbyte),
        List.takeWhile_cons_of_neg (by simpa using hzero)]
      have hnil : ∀ x ∈ ([] : List Char), x.toNat < 128 := by simp
      exact decode_singleBytes hnil
    · rw [List.takeWhile_cons_of_pos (by simpa using hiff.mpr hzero),
        List.takeWhile_cons_of_neg (by simp), List.takeWhile_cons_of_pos (by simpa using hzero)]
      have hone : ∀ x ∈ [c], x.toNat < 128 := by simpa using hc
      exact decode_singleBytes hone

/-- The two files are read the same if and only if the text has at most one character before its
first zero. -/
theorem sameReading_iff (page : CodePage) (text : AsciiText) :
    text.SameReading page ↔ (text.chars.takeWhile (· ≠ Char.ofNat 0)).length ≤ 1 := by
  constructor
  · intro h
    have hchars := h.chars
    rw [read_singleBytes, read_utf16] at hchars
    rw [hchars]
    exact List.length_take_le 1 _
  · intro h
    have hchars : readIniFile page {} text.singleBytes = readIniFile page {} text.utf16 := by
      rw [read_singleBytes, read_utf16, List.take_of_length_le h]
    exact ⟨hchars, fun appName keyName default room => by rw [hchars]⟩

/-- A section with one value. -/
def oneValue : AsciiText := ⟨['[', 's', ']', '\r', '\n', 'k', '=', 'v', '\r', '\n'], by simp⟩

/-- Of the Unicode file nothing but the bracket is read, and the value is not found. -/
theorem unicode_is_cut : ¬ oneValue.SameReading asciiPage ∧
    readIniFile asciiPage {} oneValue.utf16 = ['['] ∧
    getPrivateProfileString ['s'] ['k'] [] 10 (readIniFile asciiPage {} oneValue.singleBytes) =
      ['v'] ∧
    getPrivateProfileString ['s'] ['k'] [] 10 (readIniFile asciiPage {} oneValue.utf16) = [] := by
  refine ⟨fun h => ?_, by decide +kernel, by decide +kernel, by decide +kernel⟩
  have hne : readIniFile asciiPage {} oneValue.singleBytes ≠
      readIniFile asciiPage {} oneValue.utf16 := by
    decide +kernel
  exact hne h.chars

end AsciiText

/-! A writer whose reader has failed. -/

/-- A call of the reader fails: it cannot open the file or get its size, or the read of the byte
order mark, one of the buffers or the read of the data fails. -/
def ReadFails (os : Os) (bytes : List UInt8) : Prop :=
  os.opens = false ∨ os.info = false ∨ (2 ≤ Os.evenSize bytes ∧ os.mark = false) ∨
    (0 < os.dataSize bytes ∧ (os.buffer = false ∨ os.read = false ∨ os.wide = false))

/-- `WritePrivateProfileString`: the result and the file after it, if no buffer overflows. A file
name without a backslash is looked for in another directory than it is copied to. -/
def writeOnDisk (page : CodePage) (os : Os) (c : Call) (fileName : Option (List Char))
    (bytes : List UInt8) : Option (Bool × List UInt8) :=
  match fileName with
  | none => some (false, bytes)
  | some name =>
    let text := readIniFile page os bytes
    if !os.temp then some (false, bytes)
    else if ∀ o ∈ c.outputs text, o.Fits then
      let written := (c.outputs text).flatMap fun o => page.encode o.line ++ [13, 10]
      some (true, if os.copy && '\\' ∈ name then written else bytes)
    else none

/-- A failure is reported and the file is as it was. -/
def KeepsOnFailure (page : CodePage) (os : Os) (c : Call) (fileName : Option (List Char))
    (bytes : List UInt8) : Prop :=
  ReadFails os bytes → writeOnDisk page os c fileName bytes = some (false, bytes)

/-- The writer reports a failure only without a file name or without the temporary file. -/
lemma writeOnDisk_reports_iff {page : CodePage} {os : Os} {c : Call}
    {fileName : Option (List Char)} {bytes : List UInt8} :
    writeOnDisk page os c fileName bytes = some (false, bytes) ↔
      fileName = none ∨ os.temp = false := by
  cases fileName with
  | none => simp [writeOnDisk]
  | some name =>
    unfold writeOnDisk
    dsimp only
    cases htemp : os.temp with
    | false => simp
    | true =>
      rw [if_neg (by simp)]
      split_ifs <;> simp

/-- The file survives the failures of the reader if and only if there are none, or the writer gives
up for another reason: it has no file name or cannot create its temporary file. -/
theorem keepsOnFailure_iff (page : CodePage) (os : Os) (c : Call) (fileName : Option (List Char))
    (bytes : List UInt8) : KeepsOnFailure page os c fileName bytes ↔
      ¬ ReadFails os bytes ∨ fileName = none ∨ os.temp = false := by
  rw [KeepsOnFailure, writeOnDisk_reports_iff, imp_iff_not_or]

/-- After a failure other than that of the byte order mark nothing is read. -/
lemma readIniFile_of_fails {page : CodePage} {os : Os} {bytes : List UInt8}
    (h : ReadFails os bytes) (hmark : os.mark = true) : readIniFile page os bytes = [] := by
  unfold readIniFile
  rcases h with h | h | ⟨-, h⟩ | ⟨-, h | h | h⟩
  · rw [if_pos (by rw [h]; rfl)]
  · rw [if_pos (c := (!os.info) = true) (by rw [h]; rfl), ite_self]
  · rw [hmark] at h
    cases h
  · simp [h]
  · simp [h]
  · simp [h]

/-- Where the writer goes on, the file is replaced by the new value, or by nothing at all. -/
theorem writeOnDisk_of_fails {page : CodePage} {os : Os} {c : Call} {name : List Char}
    {bytes : List UInt8} (h : ReadFails os bytes) (hmark : os.mark = true)
    (htemp : os.temp = true) (hcopy : os.copy = true) (hname : '\\' ∈ name)
    (hfits : ∀ o ∈ writeValue (some c.appName) c.keyName c.string, o.Fits) :
    writeOnDisk page os c (some name) bytes =
      some (true, (writeValue (some c.appName) c.keyName c.string).flatMap
        fun o => page.encode o.line ++ [13, 10]) := by
  have houtputs : c.outputs (readIniFile page os bytes) =
      writeValue (some c.appName) c.keyName c.string := by
    rw [readIniFile_of_fails h hmark]
    rfl
  unfold writeOnDisk
  dsimp only
  rw [if_neg (by simp [htemp]), houtputs, if_pos hfits, if_pos (by simp [hcopy, hname])]

/-- A value for a section. -/
def newValue : Call := ⟨['t'], some ['a'], some ['1']⟩

/-- The read of the data fails, success is reported, and the new section is all that is left. -/
theorem failed_read_destroys :
    ¬ KeepsOnFailure asciiPage { read := false } newValue (some ['\\', 'x'])
      AsciiText.oneValue.singleBytes ∧
    writeOnDisk asciiPage { read := false } newValue (some ['\\', 'x'])
      AsciiText.oneValue.singleBytes = some (true, [91, 116, 93, 13, 10, 97, 61, 49, 13, 10]) := by
  constructor
  · intro h
    have hfails : ReadFails { read := false } AsciiText.oneValue.singleBytes :=
      .inr (.inr (.inr ⟨by decide +kernel, .inr (.inl rfl)⟩))
    have hreports := writeOnDisk_reports_iff.mp (h hfails)
    rcases hreports with hname | htemp
    · cases hname
    · cases htemp
  · decide +kernel

end MTalk.Config.CIniWR
