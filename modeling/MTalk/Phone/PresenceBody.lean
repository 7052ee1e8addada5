import MTalk.Library.CStrings
import MTalk.Phone.LinphoneCore

/-!
# The body of a presence notification

The PIDF text that `add_presence_body` prints for a status and a contact, and the status that
`linphone_notify_recv` finds by searching the text for words. Every body for a person who is present
has the element `<basic>open</basic>`, and the word "open" is one of the words for "online".
-/

namespace MTalk.Phone

open CStrings

/-- The lines of a text in the source: each line but the first starts with the source's tabs. -/
def sourceLines (indent : String) : List String → String
  | [] => ""
  | [l] => l
  | l :: l' :: ls => l ++ "\n" ++ indent ++ sourceLines indent (l' :: ls)

/-- `sprintf` with the same text for every `%s`; the format is given by the parts around them. -/
def sprintf (contact : String) : List String → String
  | [] => ""
  | [p] => p
  | p :: q :: parts => p ++ (contact ++ sprintf contact (q :: parts))

def onlineIndent : String := "\t\t\t\t\t   "

def statusIndent : String := "\t\t\t\t\t "

/-- The format for `LINPHONE_STATUS_ONLINE`. -/
def onlineFormat : List String :=
  [sourceLines onlineIndent ["<?xml version=\"1.0\" encoding=\"UTF-8\"?>",
      "<presence xmlns=\"urn:ietf:params:xml:ns:pidf\"", "entity=\""],
    sourceLines onlineIndent ["\">", "<tuple id=\"sg89ae\">", "<status>", "<basic>open</basic>",
      "</status>", "<contact priority=\"0.8\">"],
    sourceLines onlineIndent ["</contact>", "<note>online</note>", "</tuple>", "</presence>"]]

/-- The lines that the other formats start with. -/
def headLines : List String :=
  ["<?xml version=\"1.0\" encoding=\"UTF-8\"?>", "<presence xmlns=\"urn:ietf:params:xml:ns:pidf\"",
    "xmlns:es=\"urn:ietf:params:xml:ns:pidf:status:rpid-status\"", "entity=\""]

def activityLines (activity : String) : List String :=
  ["\">", "<tuple id=\"sg89ae\">", "<status>", "<basic>open</basic>", "<es:activities>",
    "<es:activity>" ++ activity ++ "</es:activity>", "</es:activities>", "</status>",
    "<contact priority=\"0.8\">"]

def noteLines (note : String) : List String :=
  ["</contact>", "<note>" ++ note ++ "</note>", "</tuple>", "</presence>"]

/-- The lines of the second string in the last branch, with the end tag `</e:activity>`. -/
def closedLines : List String :=
  ["<tuple id=\"sg89ae\">", "<status>", "<basic>closed</basic>", "<es:activities>",
    "<es:activity>permanent-absence</e:activity>", "</es:activities>", "</status>", "</tuple>",
    "\n</presence>\n"]

/-- The format for a status with an activity and a note. -/
def activityFormat (activity note : String) : List String :=
  [sourceLines statusIndent headLines, sourceLines statusIndent (activityLines activity),
    sourceLines statusIndent (noteLines note)]

/-- The format of the last branch. Its second string starts a line without tabs. -/
def closedFormat : List String :=
  [sourceLines statusIndent headLines,
    sourceLines "" ["\">", sourceLines statusIndent closedLines]]

/-- The format that `add_presence_body` chooses. -/
def presenceFormat : OnlineStatus → List String
  | .online => onlineFormat
  | .busy => activityFormat "busy" "busy"
  | .beRightBack => activityFormat "in-transit" "be right back"
  | .away => activityFormat "away" "away"
  | .onThePhone => activityFormat "on-the-phone" "on the phone"
  | .outToLunch => activityFormat "meal" "out to lunch"
  | _ => closedFormat

/-- `add_presence_body` on the contact of the message: no body when the text with its final zero
does not fit into the buffer of 1000 bytes. -/
def addPresenceBody (onlineStatus : OnlineStatus) (contactInfo : String) : Option String :=
  let buf := sprintf contactInfo (presenceFormat onlineStatus)
  if buf.utf8ByteSize < 1000 then some buf else none

/-- The status that `linphone_notify_recv` finds in a body. -/
def notifyRecvStatus (body : String) : OnlineStatus :=
  if strstr body "pending" then .pending
  else if strstr body "online" || strstr body "open" then .online
  else if strstr body "busy" then .busy
  else if strstr body "berightback" || strstr body "in-transit" then .beRightBack
  else if strstr body "away" then .away
  else if strstr body "onthephone" || strstr body "on-the-phone" then .onThePhone
  else if strstr body "outtolunch" || strstr body "meal" then .outToLunch
  else if strstr body "closed" then .closed
  else .offline

/-! Sizes. -/

/-- The bytes of the format's own text. -/
def formatSize (parts : List String) : ℕ := (parts.map String.utf8ByteSize).sum

lemma size_sprintf (contact : String) (p : String) (parts : List String) :
    (sprintf contact (p :: parts)).utf8ByteSize
      = formatSize (p :: parts) + parts.length * contact.utf8ByteSize := by
  induction parts generalizing p with
  | nil => simp [sprintf, formatSize]
  | cons q parts ih =>
    rw [sprintf, String.utf8ByteSize_append, String.utf8ByteSize_append, ih]
    simp only [formatSize, List.map_cons, List.sum_cons, List.length_cons]
    ring

/-- The statuses that `add_presence_body` has a branch for. -/
def HasBranch (status : OnlineStatus) : Prop :=
  status ∈ [.online, .busy, .beRightBack, .away, .onThePhone, .outToLunch]

instance (status : OnlineStatus) : Decidable (HasBranch status) :=
  inferInstanceAs (Decidable (_ ∈ _))

/-- The status that a body stands for. -/
def encodedStatus (status : OnlineStatus) : OnlineStatus :=
  if HasBranch status then status else .closed

/-- The body fits into the buffer: the format is printed around a contact once or twice. -/
def Fits (status : OnlineStatus) (contact : String) : Prop :=
  formatSize (presenceFormat status)
    + ((presenceFormat status).length - 1) * contact.utf8ByteSize < 1000

/-- The words that `linphone_notify_recv` looks for before "closed". -/
def statusWords : List String :=
  ["pending", "online", "open", "busy", "berightback", "in-transit", "away", "onthephone",
    "on-the-phone", "outtolunch", "meal"]

lemma addPresenceBody_eq_some {status : OnlineStatus} {contact body : String} :
    addPresenceBody status contact = some body
      ↔ Fits status contact ∧ sprintf contact (presenceFormat status) = body := by
  have hsize : (sprintf contact (presenceFormat status)).utf8ByteSize
      = formatSize (presenceFormat status)
        + ((presenceFormat status).length - 1) * contact.utf8ByteSize := by
    cases status
    all_goals exact size_sprintf contact _ _
  unfold addPresenceBody Fits
  dsimp only
  rw [hsize]
  split_ifs with h
  · simp [h]
  · simp [h]



/-! Words in a printed text. -/

/-- A text without the characters that stand around words. -/
def IsWord (key : String) : Prop :=
  key.toList ≠ [] ∧ ∀ d ∈ ['\n', '\t', ' ', '"', '<', '>'], d ∉ key.toList

instance (key : String) : Decidable (IsWord key) := inferInstanceAs (Decidable (_ ∧ _))

/-- The part starts and ends with characters that the key does not have. -/
def Delimits (key part : String) : Prop :=
  (∃ d ∈ part.toList.head?, d ∉ key.toList) ∧ ∃ d ∈ part.toList.getLast?, d ∉ key.toList

lemma Delimits.ne_nil {key p : String} (h : Delimits key p) : p.toList ≠ [] := by
  obtain ⟨⟨d, hd, -⟩, -⟩ := h
  intro hnil
  rw [hnil] at hd
  cases hd

lemma head_sourceLines (indent : String) {l : String} (hl : l.toList ≠ []) (ls : List String) :
    (sourceLines indent (l :: ls)).toList.head? = l.toList.head? := by
  cases ls with
  | nil => rfl
  | cons l' ls =>
    simp only [sourceLines, String.toList_append, List.append_assoc]
    rw [List.head?_append_of_ne_nil _ hl]

lemma getLast_sourceLines (indent : String) {ls : List String} {m : String} {d : Char}
    (hl : ls.getLast? = some m) (hm : m.toList.getLast? = some d) :
    (sourceLines indent ls).toList.getLast? = some d := by
  induction ls with
  | nil => cases hl
  | cons l ls ih =>
    cases ls with
    | nil =>
      rw [List.getLast?_singleton, Option.some.injEq] at hl
      subst hl
      exact hm
    | cons l' ls =>
      rw [List.getLast?_cons_cons] at hl
      rw [sourceLines, String.toList_append, List.getLast?_append, ih hl]
      rfl

/-- Lines whose first and last character stand around words. -/
lemma delimits_sourceLines {key indent l m : String} {ls : List String} {d e : Char}
    (hfirst : l.toList.head? = some d) (hd : d ∉ key.toList)
    (hlast : (l :: ls).getLast? = some m) (hm : m.toList.getLast? = some e)
    (he : e ∉ key.toList) : Delimits key (sourceLines indent (l :: ls)) := by
  have hl : l.toList ≠ [] := by
    rintro hnil
    rw [hnil] at hfirst
    cases hfirst
  exact ⟨⟨d, by rw [head_sourceLines indent hl, hfirst]; rfl, hd⟩,
    ⟨e, by rw [getLast_sourceLines indent hlast hm]; rfl, he⟩⟩

/-- A word is found in lines when it is found in one of them. -/
lemma strstr_sourceLines {key indent : String} (hkey : IsWord key)
    (hindent : ∀ d ∈ indent.toList, d ∉ key.toList) (ls : List String) :
    strstr (sourceLines indent ls) key = true ↔ ∃ l ∈ ls, strstr l key = true := by
  induction ls with
  | nil => simp [sourceLines, strstr, hkey.1]
  | cons l ls ih =>
    cases ls with
    | nil => simp [sourceLines]
    | cons l' ls =>
      have hnewline : '\n' ∉ key.toList := hkey.2 _ (by simp)
      have htext : (sourceLines indent (l :: l' :: ls)).toList
          = l.toList ++ '\n' :: (indent.toList ++ (sourceLines indent (l' :: ls)).toList) := by
        simp [sourceLines, String.toList_append]
      have hrest := ih
      simp only [strstr, decide_eq_true_eq] at hrest ⊢
      rw [htext, infix_append_cons hnewline, infix_append_of_forall hkey.1 hindent, hrest]
      simp

lemma head_sprintf (contact : String) {p : String} (hp : p.toList ≠ []) (parts : List String) :
    (sprintf contact (p :: parts)).toList.head? = p.toList.head? := by
  cases parts with
  | nil => rfl
  | cons q parts =>
    rw [sprintf, String.toList_append, List.head?_append_of_ne_nil _ hp]

/-- A key does not reach over the end of a part or of the contact. -/
lemma strstr_part {key contact : String} (hkey : key.toList ≠ []) {p q : String}
    {parts : List String} (hp : Delimits key p) (hq : Delimits key q) :
    strstr (sprintf contact (p :: q :: parts)) key = true ↔ strstr p key = true
      ∨ strstr contact key = true ∨ strstr (sprintf contact (q :: parts)) key = true := by
  obtain ⟨-, d, hlast, hd⟩ := hp
  obtain ⟨⟨e, hhead, he⟩, -⟩ := id hq
  have hfirst : (sprintf contact (q :: parts)).toList.head? = some e := by
    rw [head_sprintf contact hq.ne_nil]
    exact hhead
  simp only [strstr, decide_eq_true_eq]
  rw [sprintf, String.toList_append, infix_append_of_last hkey hd hlast, String.toList_append,
    infix_append_of_head hkey he hfirst]

/-- A key is found in a printed text when it is found in a part of the format or in the contact. -/
lemma strstr_sprintf {key contact : String} (hkey : key.toList ≠ []) {p q : String}
    {parts : List String} (hparts : ∀ r ∈ p :: q :: parts, Delimits key r) :
    strstr (sprintf contact (p :: q :: parts)) key = true
      ↔ (∃ r ∈ p :: q :: parts, strstr r key = true) ∨ strstr contact key = true := by
  induction parts generalizing p q with
  | nil =>
    rw [strstr_part hkey (hparts p (by simp)) (hparts q (by simp))]
    simp only [sprintf, List.mem_cons, List.not_mem_nil, or_false, exists_eq_or_imp,
      exists_eq_left]
    tauto
  | cons r parts ih =>
    rw [strstr_part hkey (hparts p (by simp)) (hparts q (by simp)),
      ih fun x hx => hparts x (List.mem_cons_of_mem p hx)]
    simp only [List.mem_cons, exists_eq_or_imp]
    grind

/-! The words of the formats. -/

lemma IsWord.statusIndent {key : String} (hkey : IsWord key) :
    ∀ d ∈ statusIndent.toList, d ∉ key.toList := by
  intro d hd
  apply hkey.2
  simp [Phone.statusIndent] at hd
  grind

lemma IsWord.onlineIndent {key : String} (hkey : IsWord key) :
    ∀ d ∈ onlineIndent.toList, d ∉ key.toList := by
  intro d hd
  apply hkey.2
  simp [Phone.onlineIndent] at hd
  grind

lemma delimits_headLines {key : String} (hkey : IsWord key) (indent : String) :
    Delimits key (sourceLines indent headLines) :=
  delimits_sourceLines (d := '<') (e := '"') (by simp) (hkey.2 _ (by simp)) rfl (by simp)
    (hkey.2 _ (by simp))

lemma delimits_closedFormat {key : String} (hkey : IsWord key) :
    ∀ p ∈ closedFormat, Delimits key p := by
  intro p hp
  simp only [closedFormat, List.mem_cons, List.not_mem_nil, or_false] at hp
  rcases hp with rfl | rfl
  · exact delimits_headLines hkey _
  · exact delimits_sourceLines (d := '"') (e := '\n') (by simp) (hkey.2 _ (by simp)) rfl
      (getLast_sourceLines _ rfl (by simp)) (hkey.2 _ (by simp))

lemma delimits_activityFormat {key : String} (hkey : IsWord key) (activity note : String) :
    ∀ p ∈ activityFormat activity note, Delimits key p := by
  intro p hp
  simp only [activityFormat, List.mem_cons, List.not_mem_nil, or_false] at hp
  rcases hp with rfl | rfl | rfl
  · exact delimits_headLines hkey _
  · exact delimits_sourceLines (d := '"') (e := '>') (by simp) (hkey.2 _ (by simp)) rfl
      (by simp) (hkey.2 _ (by simp))
  · exact delimits_sourceLines (d := '<') (e := '>') (by simp) (hkey.2 _ (by simp)) rfl
      (by simp) (hkey.2 _ (by simp))

lemma delimits_onlineFormat {key : String} (hkey : IsWord key) :
    ∀ p ∈ onlineFormat, Delimits key p := by
  intro p hp
  simp only [onlineFormat, List.mem_cons, List.not_mem_nil, or_false] at hp
  rcases hp with rfl | rfl | rfl
  · exact delimits_sourceLines (d := '<') (e := '"') (by simp) (hkey.2 _ (by simp)) rfl
      (by simp) (hkey.2 _ (by simp))
  · exact delimits_sourceLines (d := '"') (e := '>') (by simp) (hkey.2 _ (by simp)) rfl
      (by simp) (hkey.2 _ (by simp))
  · exact delimits_sourceLines (d := '<') (e := '>') (by simp) (hkey.2 _ (by simp)) rfl
      (by simp) (hkey.2 _ (by simp))

lemma isWord_statusWords : ∀ word ∈ "closed" :: statusWords, IsWord word := by
  simp only [statusWords, List.forall_mem_cons, IsWord]
  simp

/-- The lines of the last branch have none of the words that are looked for before "closed". -/
lemma closed_words : ((headLines ++ "\">" :: closedLines).all fun l =>
    statusWords.all fun word => !strstr l word) = true := by
  decide +kernel

/-- The activities and notes of the branches. -/
def activities : List (String × String) :=
  [("busy", "busy"), ("in-transit", "be right back"), ("away", "away"),
    ("on-the-phone", "on the phone"), ("meal", "out to lunch")]

lemma activity_words : (activities.all fun a =>
    (headLines ++ (activityLines a.1 ++ noteLines a.2)).all fun l => !strstr l "pending") = true := by
  decide +kernel

def onlineLines : List String :=
  ["<?xml version=\"1.0\" encoding=\"UTF-8\"?>", "<presence xmlns=\"urn:ietf:params:xml:ns:pidf\"",
    "entity=\"", "\">", "<tuple id=\"sg89ae\">", "<status>", "<basic>open</basic>",
    "</status>", "<contact priority=\"0.8\">", "</contact>", "<note>online</note>", "</tuple>",
    "</presence>"]

lemma online_words : (onlineLines.all fun l => !strstr l "pending") = true := by
  decide +kernel

/-- A word is found in the last branch's body when it is in one of its lines or in the contact. -/
lemma strstr_closed {key : String} (hkey : IsWord key) (contact : String) :
    strstr (sprintf contact closedFormat) key = true
      ↔ (∃ l ∈ headLines ++ "\">" :: closedLines, strstr l key = true)
        ∨ strstr contact key = true := by
  have hempty : ∀ d ∈ "".toList, d ∉ key.toList := by simp
  rw [closedFormat, strstr_sprintf hkey.1 (delimits_closedFormat hkey)]
  simp only [List.mem_cons, List.not_mem_nil, or_false, exists_eq_or_imp, exists_eq_left,
    strstr_sourceLines hkey hkey.statusIndent, strstr_sourceLines hkey hempty, List.mem_append]
  grind

lemma strstr_activity {key : String} (hkey : IsWord key) (activity note contact : String) :
    strstr (sprintf contact (activityFormat activity note)) key = true
      ↔ (∃ l ∈ headLines ++ (activityLines activity ++ noteLines note), strstr l key = true)
        ∨ strstr contact key = true := by
  rw [activityFormat, strstr_sprintf hkey.1 (delimits_activityFormat hkey activity note)]
  simp only [List.mem_cons, List.not_mem_nil, or_false, exists_eq_or_imp, exists_eq_left,
    strstr_sourceLines hkey hkey.statusIndent, List.mem_append]
  grind

lemma strstr_online {key : String} (hkey : IsWord key) (contact : String) :
    strstr (sprintf contact onlineFormat) key = true
      ↔ (∃ l ∈ onlineLines, strstr l key = true) ∨ strstr contact key = true := by
  rw [onlineFormat, strstr_sprintf hkey.1 (delimits_onlineFormat hkey)]
  simp only [List.mem_cons, List.not_mem_nil, or_false, exists_eq_or_imp, exists_eq_left,
    strstr_sourceLines hkey hkey.onlineIndent, onlineLines]
  grind

/-- A body with the word "open" is found to be "pending" or "online". -/
lemma notifyRecvStatus_open {body : String} (h : strstr body "open" = true) :
    notifyRecvStatus body = if strstr body "pending" then .pending else .online := by
  simp [notifyRecvStatus, h]

lemma notifyRecvStatus_closed_iff {body : String} (h : strstr body "closed" = true) :
    notifyRecvStatus body = .closed ↔ ∀ word ∈ statusWords, strstr body word = false := by
  unfold notifyRecvStatus statusWords
  simp only [List.forall_mem_cons, List.not_mem_nil, false_imp_iff, implies_true, and_true]
  split_ifs <;> grind

lemma isWord_open : IsWord "open" := isWord_statusWords _ (by simp [statusWords])

lemma isWord_pending : IsWord "pending" := isWord_statusWords _ (by simp [statusWords])

lemma open_line : strstr "<basic>open</basic>" "open" = true := by
  decide +kernel

lemma closed_line : strstr "<basic>closed</basic>" "closed" = true := by
  decide +kernel

/-- A word that no line has is found in a body exactly when it is in the contact. -/
lemma found_iff_contact {body contact word : String} {lines : List String}
    (hbody : strstr body word = true ↔ (∃ l ∈ lines, strstr l word = true)
      ∨ strstr contact word = true)
    (hlines : ∀ l ∈ lines, strstr l word = false) : strstr body word = strstr contact word := by
  have hnone : ¬ ∃ l ∈ lines, strstr l word = true := by
    rintro ⟨l, hl, hfound⟩
    rw [hlines l hl] at hfound
    cases hfound
  rw [Bool.eq_iff_iff, hbody, or_iff_right hnone]

lemma activity_body {a : String × String} (ha : a ∈ activities) (contact : String) :
    strstr (sprintf contact (activityFormat a.1 a.2)) "open" = true
      ∧ strstr (sprintf contact (activityFormat a.1 a.2)) "pending"
        = strstr contact "pending" := by
  constructor
  · rw [strstr_activity isWord_open]
    exact Or.inl ⟨_, by simp [activityLines], open_line⟩
  · refine found_iff_contact (strstr_activity isWord_pending a.1 a.2 contact) ?_
    intro l hl
    have hwords := List.all_eq_true.mp (List.all_eq_true.mp activity_words a ha) l hl
    simpa using hwords

lemma online_body (contact : String) :
    strstr (sprintf contact onlineFormat) "open" = true
      ∧ strstr (sprintf contact onlineFormat) "pending" = strstr contact "pending" := by
  constructor
  · rw [strstr_online isWord_open]
    exact Or.inl ⟨_, by simp [onlineLines], open_line⟩
  · refine found_iff_contact (strstr_online isWord_pending contact) ?_
    intro l hl
    simpa using List.all_eq_true.mp online_words l hl

/-- The body of a status with a branch has the word "open", and "pending" only in the contact. -/
lemma branch_body {status : OnlineStatus} (h : HasBranch status) (contact : String) :
    strstr (sprintf contact (presenceFormat status)) "open" = true
      ∧ strstr (sprintf contact (presenceFormat status)) "pending" = strstr contact "pending" := by
  simp only [HasBranch, List.mem_cons, List.not_mem_nil, or_false] at h
  rcases h with rfl | rfl | rfl | rfl | rfl | rfl
  · exact online_body contact
  · exact activity_body (a := ("busy", "busy")) (by simp [activities]) contact
  · exact activity_body (a := ("in-transit", "be right back")) (by simp [activities]) contact
  · exact activity_body (a := ("away", "away")) (by simp [activities]) contact
  · exact activity_body (a := ("on-the-phone", "on the phone")) (by simp [activities]) contact
  · exact activity_body (a := ("meal", "out to lunch")) (by simp [activities]) contact

/-- The last body has the word "closed", and the other words only in the contact. -/
lemma closed_body (contact : String) :
    strstr (sprintf contact closedFormat) "closed" = true
      ∧ ∀ word ∈ statusWords, strstr (sprintf contact closedFormat) word = strstr contact word := by
  constructor
  · rw [strstr_closed (isWord_statusWords _ List.mem_cons_self)]
    exact Or.inl ⟨_, by simp [closedLines], closed_line⟩
  · intro word hword
    have hkey := isWord_statusWords word (List.mem_cons_of_mem _ hword)
    refine found_iff_contact (strstr_closed hkey contact) ?_
    intro l hl
    have hwords := List.all_eq_true.mp closed_words l hl
    simpa using List.all_eq_true.mp hwords word hword

/-- A body that fits into the buffer is decoded to the status it stands for exactly when the
status is "online" and the contact does not have the word "pending", or when the status is one of
the last branch and the contact has none of the words for other statuses. -/
theorem presence_decodes_iff (status : OnlineStatus) (contact : String) :
    (∃ body, addPresenceBody status contact = some body
        ∧ notifyRecvStatus body = encodedStatus status)
      ↔ Fits status contact ∧ (status = .online ∧ strstr contact "pending" = false
        ∨ ¬ HasBranch status ∧ ∀ word ∈ statusWords, strstr contact word = false) := by
  have hdecoded : (∃ body, addPresenceBody status contact = some body
      ∧ notifyRecvStatus body = encodedStatus status) ↔ Fits status contact
      ∧ notifyRecvStatus (sprintf contact (presenceFormat status)) = encodedStatus status := by
    simp only [addPresenceBody_eq_some]
    constructor
    · rintro ⟨body, ⟨hfits, rfl⟩, hstatus⟩
      exact ⟨hfits, hstatus⟩
    · rintro ⟨hfits, hstatus⟩
      exact ⟨_, ⟨hfits, rfl⟩, hstatus⟩
  rw [hdecoded, and_congr_right_iff]
  intro _
  by_cases hbranch : HasBranch status
  · obtain ⟨hopen, hpending⟩ := branch_body hbranch contact
    rw [notifyRecvStatus_open hopen, hpending, encodedStatus, if_pos hbranch]
    have hnot : status ≠ .pending := by
      rintro rfl
      exact absurd hbranch (by decide)
    simp only [hbranch, not_true_eq_false, false_and, or_false]
    split_ifs with hfound
    · simp [hfound, Ne.symm hnot]
    · rw [Bool.not_eq_true] at hfound
      simp [hfound, eq_comm]
  · have hformat : presenceFormat status = closedFormat := by
      cases status
      all_goals first | rfl | exact absurd (by decide) hbranch
    obtain ⟨hclosed, hwords⟩ := closed_body contact
    rw [hformat, encodedStatus, if_neg hbranch, notifyRecvStatus_closed_iff hclosed]
    have honline : status ≠ .online := by
      rintro rfl
      exact absurd (by decide) hbranch
    simp only [honline, false_and, false_or, hbranch, not_false_eq_true, true_and]
    constructor
    · intro h word hword
      rw [← hwords word hword]
      exact h word hword
    · intro h word hword
      rw [hwords word hword]
      exact h word hword

/-- A busy person is found to be online. -/
theorem busy_decodes_to_online : ¬ ∃ body,
    addPresenceBody .busy "<sip:alice@192.0.2.1>" = some body
      ∧ notifyRecvStatus body = encodedStatus .busy := by
  rintro ⟨body, hbody, hstatus⟩
  obtain ⟨-, rfl⟩ := addPresenceBody_eq_some.mp hbody
  obtain ⟨hopen, -⟩ := branch_body (by decide : HasBranch .busy) "<sip:alice@192.0.2.1>"
  rw [notifyRecvStatus_open hopen] at hstatus
  split_ifs at hstatus
  · cases hstatus
  · cases hstatus

end MTalk.Phone
