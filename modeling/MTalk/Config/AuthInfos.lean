import MTalk.Config.Restarts
import MTalk.Library.KeyedLists

/-!
# Authentication infos

The list of authentication infos of the core, its changes, the sections in which it is saved, and
the next start that reads them. The list stands for a map from a realm without quotes and a user
name to the info that was added last.
-/

namespace MTalk.Config

open CStrings LpConfig KeyedLists

/-- A `LinphoneAuthInfo` with its pointer. -/
structure AuthInfo where
  ref : ℕ
  username : Option String
  userid : Option String
  passwd : Option String
  ha1 : Option String
  realm : Option String
  deriving DecidableEq

/-- The strings that are set, by their names in the configuration. -/
def AuthInfo.fields (obj : AuthInfo) : List (String × Option String) :=
  [("username", obj.username), ("userid", obj.userid), ("passwd", obj.passwd), ("ha1", obj.ha1),
    ("realm", obj.realm)]

/-- `linphone_auth_info_new`: an empty string is as good as none. -/
def AuthInfo.new (ref : ℕ) (username userid passwd ha1 realm : Option String) : AuthInfo where
  ref := ref
  username := username.filter (· ≠ "")
  userid := userid.filter (· ≠ "")
  passwd := passwd.filter (· ≠ "")
  ha1 := ha1.filter (· ≠ "")
  realm := realm.filter (· ≠ "")

/-- `sprintf(key,"auth_info_%i",pos)`. -/
def authKey (pos : ℕ) : String := "auth_info_" ++ toString (pos : ℤ)

/-- `linphone_auth_info_write_config`. -/
def writeAuthInfo (c : LpConfig) (obj : Option AuthInfo) (pos : ℕ) : LpConfig :=
  let key := authKey pos
  let c := c.cleanSection key
  match obj with
  | none => c
  | some obj =>
    let c := setOptional c key "username" obj.username
    let c := setOptional c key "userid" obj.userid
    let c := setOptional c key "passwd" obj.passwd
    let c := setOptional c key "ha1" obj.ha1
    setOptional c key "realm" obj.realm

/-- `linphone_auth_info_new_from_config_file`. -/
def readAuthInfo (c : LpConfig) (ref pos : ℕ) : Option AuthInfo :=
  let key := authKey pos
  if c.hasSection key then
    some (.new ref (c.getString key "username") (c.getString key "userid")
      (c.getString key "passwd") (c.getString key "ha1") (c.getString key "realm"))
  else none

/-! The comparison of realms; `junk` is what is on the stack behind a copy that `strncpy` did not
terminate. -/

/-- `remove_quotes`. -/
def removeQuotes (input : List Char) : List Char :=
  (if input.head? = some '"' then input.tail else input).takeWhile (· ≠ '"')

section Compare

variable (junk : List Char)

/-- A copy of a realm in `realm_match`, of at most 127 characters. -/
def realmCopy (realm : String) : List Char :=
  if realm.toList.length < 127 then realm.toList else realm.toList.take 127 ++ junk

def realmMatch (realm1 realm2 : Option String) : Bool :=
  match realm1, realm2 with
  | none, none => true
  | some realm1, some realm2 =>
    realm1 = realm2 ∨ removeQuotes (realmCopy junk realm1) = removeQuotes (realmCopy junk realm2)
  | _, _ => false

def keyMatch (tmp1 tmp2 : Option String) : Bool := tmp1 = tmp2

def authInfoCompare (info : AuthInfo) (realm username : Option String) : Bool :=
  realmMatch junk info.realm realm && keyMatch info.username username

def authInfoCompareOnlyRealm (info : AuthInfo) (realm : Option String) : Bool :=
  realmMatch junk info.realm realm

end Compare

/-- The members of `CLinphoneCore` for authentication, with the next unused pointer. -/
structure AuthCore where
  config : LpConfig
  authInfo : List AuthInfo
  nextRef : ℕ

namespace AuthCore

section Calls

variable (junk : List Char)

def findAuthInfo (s : AuthCore) (realm username : Option String) : Option AuthInfo :=
  match s.authInfo.find? fun info => authInfoCompare junk info realm username with
  | some info => some info
  | none => s.authInfo.find? fun info => authInfoCompareOnlyRealm junk info realm

/-- `linphone_core_add_auth_info`: an info with the key of the new one is replaced. -/
def addAuthInfo (s : AuthCore) (info : AuthInfo) : AuthCore :=
  let found := fun elem => authInfoCompare junk elem info.realm info.username
  { s with
    authInfo :=
      if (s.authInfo.find? found).isSome then replaceFirst found (fun _ => some info) s.authInfo
      else s.authInfo ++ [info] }

/-- The sections of the first `len` places are cleaned. -/
def cleanAuthInfos (c : LpConfig) (len : ℕ) : LpConfig :=
  (List.range len).foldl (fun c i => writeAuthInfo c none i) c

/-- The infos are written one after the other. -/
def writeAuthInfos (c : LpConfig) (l : List AuthInfo) : LpConfig :=
  writeFrom (fun c info i => writeAuthInfo c (some info) i) c 0 l

/-- `linphone_core_remove_auth_info`. -/
def removeAuthInfo (s : AuthCore) (info : ℕ) : AuthCore :=
  let authInfo := s.authInfo.eraseP (·.ref = info)
  { s with
    authInfo := authInfo
    config := writeAuthInfos (cleanAuthInfos s.config s.authInfo.length) authInfo }

/-- `linphone_core_clear_all_auth_info`. -/
def clearAllAuthInfo (s : AuthCore) : AuthCore :=
  { s with authInfo := [], config := cleanAuthInfos s.config s.authInfo.length }

/-- A new info from what the user enters. -/
def addNew (s : AuthCore) (username userid passwd ha1 realm : Option String) : AuthCore :=
  addAuthInfo junk { s with nextRef := s.nextRef + 1 }
    (.new s.nextRef username userid passwd ha1 realm)

/-- The loop over the infos in `sip_config_read`. -/
def readAuthInfos : ℕ → ℕ → AuthCore → AuthCore
  | 0, _, s => s
  | n + 1, i, s =>
    match readAuthInfo s.config s.nextRef i with
    | some ai => readAuthInfos n (i + 1) (addAuthInfo junk { s with nextRef := s.nextRef + 1 } ai)
    | none => s

/-- A start with a configuration. -/
def load (c : LpConfig) : AuthCore := readAuthInfos junk (c.length + 1) 0 ⟨c, [], 0⟩

/-- The configuration after `sip_config_uninit`. -/
def save (s : AuthCore) : LpConfig :=
  writeAuthInfo (writeAuthInfos s.config s.authInfo) none s.authInfo.length

/-- A shutdown, where `lp_config_sync` writes the file, and the next start, which parses it. -/
def restart (s : AuthCore) : AuthCore := load junk (parse s.save.sync)

inductive Op where
  | add (username userid passwd ha1 realm : Option String)
  | remove (info : ℕ)
  | clear

def step (s : AuthCore) : Op → AuthCore
  | .add username userid passwd ha1 realm => s.addNew junk username userid passwd ha1 realm
  | .remove info => s.removeAuthInfo info
  | .clear => s.clearAllAuthInfo

def run (s : AuthCore) (ops : List Op) : AuthCore := ops.foldl (step junk) s

end Calls

end AuthCore

/-! The map. -/

/-- A realm without quotes and a user name. -/
abbrev Credential := Option (List Char) × Option String

def credential (realm username : Option String) : Credential :=
  (realm.map fun realm => removeQuotes realm.toList, username)

def AuthInfo.key (info : AuthInfo) : Credential := credential info.realm info.username

/-- For each key the info that was last added with it and not removed since. -/
structure AuthMap where
  entries : Credential → Option AuthInfo
  nextRef : ℕ

namespace AuthMap

def step (m : AuthMap) : AuthCore.Op → AuthMap
  | .add username userid passwd ha1 realm =>
    let info := AuthInfo.new m.nextRef username userid passwd ha1 realm
    ⟨Function.update m.entries info.key (some info), m.nextRef + 1⟩
  | .remove info => ⟨fun k => (m.entries k).filter (·.ref ≠ info), m.nextRef⟩
  | .clear => ⟨fun _ => none, m.nextRef⟩

def run (m : AuthMap) (ops : List AuthCore.Op) : AuthMap := ops.foldl step m

/-- The map of the infos that are listed. -/
def ofCore (s : AuthCore) : AuthMap := ⟨lookup AuthInfo.key s.authInfo, s.nextRef⟩

end AuthMap

/-- The list has no key twice, what was added last is found, and after a restart the list has the
same entries in the same order. -/
structure AuthCore.PersistentMap (junk : List Char) (s : AuthCore) (m : AuthMap) : Prop where
  unique : (s.authInfo.map AuthInfo.key).Nodup
  finds : ∀ realm username info, (∀ r ∈ realm, r.toList.length < 127) →
    m.entries (credential realm username) = some info →
    s.findAuthInfo junk realm username = some info
  persists : (s.restart junk).authInfo.map AuthInfo.fields = s.authInfo.map AuthInfo.fields

/-! What is read, written and compared. -/

lemma authKey_injective {i j : ℕ} (h : authKey i = authKey j) : i = j := by
  have hint := toString_injective (append_cancel h)
  exact_mod_cast hint

/-- A realm that a copy in `realm_match` holds. -/
def ShortRealm (realm : Option String) : Prop := ∀ r ∈ realm, r.toList.length < 127

variable {junk : List Char}

/-- Short realms match if they are the same without quotes. -/
lemma realmMatch_eq {realm1 realm2 : Option String} (h1 : ShortRealm realm1)
    (h2 : ShortRealm realm2) : realmMatch junk realm1 realm2 =
      decide ((realm1.map fun r => removeQuotes r.toList) =
        realm2.map fun r => removeQuotes r.toList) := by
  cases realm1 with
  | none => cases realm2 <;> rfl
  | some r1 =>
    cases realm2 with
    | none => rfl
    | some r2 =>
      have hcopy : ∀ {r : String}, r.toList.length < 127 → realmCopy junk r = r.toList := fun h =>
        if_pos h
      simp only [realmMatch, hcopy (h1 r1 rfl), hcopy (h2 r2 rfl), Option.map_some,
        Option.some.injEq, decide_eq_decide, or_iff_right_iff_imp]
      rintro rfl
      rfl

lemma authInfoCompare_eq {info : AuthInfo} {realm username : Option String}
    (h1 : ShortRealm info.realm) (h2 : ShortRealm realm) :
    authInfoCompare junk info realm username = decide (info.key = credential realm username) := by
  rw [authInfoCompare, realmMatch_eq h1 h2, keyMatch, AuthInfo.key, credential, credential,
    ← Bool.decide_and]
  simp only [Prod.mk.injEq]

lemma key_of_fields {a b : AuthInfo} (h : a.fields = b.fields) : a.key = b.key := by
  simp only [AuthInfo.fields, List.cons.injEq, Prod.mk.injEq, true_and] at h
  rw [AuthInfo.key, AuthInfo.key, h.1, h.2.2.2.2.1]

/-- The writes of `linphone_auth_info_write_config`. -/
def authWrites (obj : AuthInfo) (pos : ℕ) : List Write :=
  obj.fields.map fun w => ⟨(authKey pos, w.1), w.2⟩

lemma writeAuthInfo_eq (c : LpConfig) (obj : AuthInfo) (pos : ℕ) :
    writeAuthInfo c (some obj) pos =
      writeAll (authWrites obj pos) (c.cleanSection (authKey pos)) := rfl

lemma authWrites_keys (obj : AuthInfo) (pos : ℕ) : ((authWrites obj pos).map Write.key).Nodup := by
  simp [authWrites, AuthInfo.fields]

/-- An info that is found again in its section: some string is set, and each one that is set is
found again in the file. -/
structure AuthInfo.Good (obj : AuthInfo) : Prop where
  named : ∃ w ∈ obj.fields, w.2 ≠ none
  readable : ∀ w ∈ obj.fields, ∀ v ∈ w.2, v ≠ "" ∧ Readable ⟨w.1, v⟩
  realm : ShortRealm obj.realm

/-- A section has the strings of an info. -/
structure AuthStored (c : LpConfig) (obj : AuthInfo) (pos : ℕ) : Prop where
  there : c.hasSection (authKey pos) = true
  fields : ∀ w ∈ obj.fields, c.getString (authKey pos) w.1 = w.2

lemma AuthStored.congr {c c' : LpConfig} {obj : AuthInfo} {pos : ℕ} (h : AuthStored c obj pos)
    (hview : c'.view (authKey pos) = c.view (authKey pos)) : AuthStored c' obj pos := by
  obtain ⟨hthere, hfields⟩ := h
  simp only [getString_eq_view, ← hview] at hfields
  rw [hasSection_eq_view, ← hview, ← hasSection_eq_view] at hthere
  exact ⟨hthere, fun w hw => (getString_eq_view ..).trans (hfields w hw)⟩

lemma writeAuthInfo_stored {c : LpConfig} (hc : NamesNodup c) {obj : AuthInfo} (hobj : obj.Good)
    (pos : ℕ) : AuthStored (writeAuthInfo c (some obj) pos) obj pos := by
  have hfields : ∀ w ∈ obj.fields,
      (writeAuthInfo c (some obj) pos).getString (authKey pos) w.1 = w.2 := by
    intro w hw
    have hclean : (c.cleanSection (authKey pos)).getString (authKey pos) w.1 = none := by
      rw [getString_eq_view, view_cleanSection hc, if_pos rfl, Option.bind_none]
    have hwrite : (⟨(authKey pos, w.1), w.2⟩ : Write) ∈ authWrites obj pos :=
      List.mem_map.mpr ⟨w, hw, rfl⟩
    have hvalue := getString_writes (authWrites_keys obj pos) hwrite (c.cleanSection (authKey pos))
    rw [hclean, Option.or_none] at hvalue
    rw [writeAuthInfo_eq]
    exact hvalue
  refine ⟨?_, hfields⟩
  obtain ⟨w, hw, hvalue⟩ := hobj.named
  obtain ⟨v, hv⟩ := Option.ne_none_iff_exists'.mp hvalue
  exact hasSection_of_getString ((hfields w hw).trans hv)

lemma writesPlace_authInfo :
    WritesPlace (fun c obj pos => writeAuthInfo c (some obj) pos) authKey AuthStored
      AuthInfo.Good where
  key_injective _ _ := authKey_injective
  congr _ _ _ _ h hview := h.congr hview
  names _ obj pos hc _ := by
    rw [writeAuthInfo_eq]
    exact names_writeAll (names_cleanSection hc _) _
  stored _ _ pos hc hobj := writeAuthInfo_stored hc hobj pos
  view c obj pos name hc _ hname := by
    have hother : ∀ w ∈ authWrites obj pos, w.key.1 ≠ name := by
      intro w hw
      obtain ⟨u, -, rfl⟩ := List.mem_map.mp hw
      exact Ne.symm hname
    rw [writeAuthInfo_eq, view_writeAll hother, view_cleanSection hc, if_neg hname]

/-- What is read of a section with the strings of an info is that info. -/
lemma readAuthInfo_stored {c : LpConfig} {obj : AuthInfo} {pos : ℕ} (h : AuthStored c obj pos)
    (hobj : obj.Good) (ref : ℕ) : readAuthInfo c ref pos = some { obj with ref := ref } := by
  have hkeep : ∀ w ∈ obj.fields, (c.getString (authKey pos) w.1).filter (· ≠ "") = w.2 := by
    intro w hw
    rw [h.fields w hw]
    cases hv : w.2 with
    | none => rfl
    | some v => rw [Option.filter_some, if_pos (decide_eq_true (hobj.readable w hw v hv).1)]
  simp only [AuthInfo.fields, List.forall_mem_cons] at hkeep
  obtain ⟨husername, huserid, hpasswd, hha1, hrealm, -⟩ := hkeep
  rw [readAuthInfo, if_pos h.there, AuthInfo.new, husername, huserid, hpasswd, hha1, hrealm]

/-! The configuration. -/

/-- A section name whose line fits into the buffer. -/
def IsName (name : String) : Prop := IsWord name ∧ name.toList.length + 4 ≤ maxLen

/-- Everything is found again in the file, and every section of an info holds one. -/
structure AuthConfig (c : LpConfig) : Prop where
  distinct : Distinct IsName Readable c
  stored : ∀ i, c.hasSection (authKey i) = true →
    i < 2 ^ 31 ∧ ∃ obj : AuthInfo, obj.Good ∧ AuthStored c obj i

lemma authKey_isName {i : ℕ} (hi : i < 2 ^ 31) : IsName (authKey i) := by
  have hprinted : (toString (i : ℤ)).toList = Nat.toDigits 10 i := by
    rw [printed, if_pos (Int.natCast_nonneg i), Int.toNat_natCast]
  have hlist : (authKey i).toList = "auth_info_".toList ++ Nat.toDigits 10 i := by
    rw [authKey, String.toList_append, hprinted]
  have hdigits : (Nat.toDigits 10 i).length ≤ 10 := by
    rw [Nat.length_toDigits_le_iff (by decide) (by decide)]
    exact hi.trans (by decide)
  refine ⟨⟨by simp [hlist], ?_⟩, ?_⟩
  · intro c hc
    rw [hlist, List.mem_append] at hc
    rcases hc with hc | hc
    · revert c
      simp [isSpace]
    · have hdigit := mem_toDigits_isDigit c hc
      have hchar : ∀ d : Char, d.isDigit = false → c ≠ d := by
        rintro d hd rfl
        rw [hd] at hdigit
        cases hdigit
      exact ⟨isSpace_of_isDigit hdigit, hchar _ (by decide), hchar _ (by decide),
        hchar _ (by decide)⟩
  · have hmax : maxLen = 1024 := rfl
    rw [hlist, List.length_append, hmax]
    simp
    omega

lemma AuthConfig.names {c : LpConfig} (h : AuthConfig c) : NamesNodup c := h.distinct.names

lemma AuthConfig.clean {c : LpConfig} (h : AuthConfig c) (pos : ℕ) :
    AuthConfig (writeAuthInfo c none pos) where
  distinct := cleanSection_distinct h.distinct _
  stored i hi := by
    have hview := view_cleanSection h.names (authKey pos) (authKey i)
    by_cases hsame : authKey i = authKey pos
    · rw [if_pos hsame] at hview
      change (c.cleanSection (authKey pos)).hasSection (authKey i) = true at hi
      rw [hasSection_eq_view, hview] at hi
      cases hi
    · rw [if_neg hsame] at hview
      change (c.cleanSection (authKey pos)).hasSection (authKey i) = true at hi
      rw [hasSection_eq_view, hview, ← hasSection_eq_view] at hi
      obtain ⟨hlt, obj, hobj, hstored⟩ := h.stored i hi
      exact ⟨hlt, obj, hobj, hstored.congr hview⟩

lemma AuthConfig.write {c : LpConfig} (h : AuthConfig c) {obj : AuthInfo} (hobj : obj.Good)
    {pos : ℕ} (hpos : pos < 2 ^ 31) : AuthConfig (writeAuthInfo c (some obj) pos) where
  distinct := by
    rw [writeAuthInfo_eq]
    refine writeAll_distinct (cleanSection_distinct h.distinct _) fun w hw => ?_
    obtain ⟨u, hu, rfl⟩ := List.mem_map.mp hw
    exact ⟨authKey_isName hpos, fun v hv => (hobj.readable u hu v hv).2⟩
  stored i hi := by
    by_cases hsame : i = pos
    · subst hsame
      exact ⟨hpos, obj, hobj, writeAuthInfo_stored h.names hobj i⟩
    · have hview := writesPlace_authInfo.view c obj pos (authKey i) h.names hobj
        fun hkey => hsame (authKey_injective hkey)
      rw [hasSection_eq_view, hview, ← hasSection_eq_view] at hi
      obtain ⟨hlt, obj', hobj', hstored⟩ := h.stored i hi
      exact ⟨hlt, obj', hobj', hstored.congr hview⟩

lemma AuthConfig.writeFrom {l : List AuthInfo} (hl : ∀ obj ∈ l, obj.Good) {c : LpConfig}
    (h : AuthConfig c) {i : ℕ} (hi : i + l.length ≤ 2 ^ 31) :
    AuthConfig (writeFrom (fun c obj pos => writeAuthInfo c (some obj) pos) c i l) := by
  induction l generalizing c i with
  | nil => exact h
  | cons obj l ih =>
    rw [List.length_cons] at hi
    exact ih (fun o ho => hl o (List.mem_cons_of_mem obj ho))
      (h.write (hl obj List.mem_cons_self) (by omega)) (by omega)

lemma AuthConfig.cleanAuthInfos {c : LpConfig} (h : AuthConfig c) (len : ℕ) :
    AuthConfig (AuthCore.cleanAuthInfos c len) := by
  induction len with
  | zero => exact h
  | succ len ih =>
    rw [AuthCore.cleanAuthInfos, List.range_succ, List.foldl_append]
    exact ih.clean len

/-- What is in the file is as good. -/
lemma AuthConfig.parse_sync {c : LpConfig} (h : AuthConfig c) : parse c.sync = c.map kept :=
  LpConfig.parse_sync fun sec hsec => ⟨(h.distinct.good sec hsec).1.1, (h.distinct.good sec hsec).1.2,
    (h.distinct.good sec hsec).2⟩

lemma hasSection_kept (c : LpConfig) (name : String) :
    hasSection (c.map kept) name = c.hasSection name := by
  rw [hasSection, findSection_kept, Option.isSome_map, hasSection]

lemma AuthStored.kept {c : LpConfig} (hc : AuthConfig c) {obj : AuthInfo} (hobj : obj.Good) {pos : ℕ}
    (h : AuthStored c obj pos) : AuthStored (c.map kept) obj pos where
  there := by rw [hasSection_kept, h.there]
  fields w hw := by
    rw [getString_kept hc.distinct.keys, h.fields w hw]
    cases hv : w.2 with
    | none => rfl
    | some v => rw [Option.filter_some, if_pos (decide_eq_true (hobj.readable w hw v hv).1)]

lemma AuthConfig.kept {c : LpConfig} (h : AuthConfig c) : AuthConfig (c.map kept) where
  distinct := kept_distinct h.distinct
  stored i hi := by
    rw [hasSection_kept] at hi
    obtain ⟨hlt, obj, hobj, hstored⟩ := h.stored i hi
    exact ⟨hlt, obj, hobj, hstored.kept h hobj⟩

/-! The list. -/

/-- An element that is replaced, or appended, is put under its key. -/
lemma replaceFirst_eq_put {α κ : Type} [DecidableEq κ] {key : α → κ} {found : α → Bool} {a : α}
    {l : List α} (h : ∀ b ∈ l, found b = decide (key b = key a)) :
    (if (l.find? found).isSome then replaceFirst found (fun _ => some a) l else l ++ [a]) =
      put key a l := by
  induction l with
  | nil => rfl
  | cons b l ih =>
    have hrest := ih fun d hd => h d (List.mem_cons_of_mem b hd)
    have hb := h b List.mem_cons_self
    rw [put, List.find?_cons, replaceFirst, hb]
    by_cases hkey : key b = key a
    · simp [hkey]
    · simp only [hkey, decide_false, if_false, List.cons_append, ← hrest, Bool.false_eq_true]
      split_ifs
      · rfl
      · rfl

namespace AuthCore

/-- The lists that the calls make. -/
structure Inv (s : AuthCore) : Prop where
  config : AuthConfig s.config
  good : ∀ info ∈ s.authInfo, info.Good
  keys : (s.authInfo.map AuthInfo.key).Nodup
  refs : (s.authInfo.map AuthInfo.ref).Nodup
  fresh : ∀ info ∈ s.authInfo, info.ref < s.nextRef
  count : s.authInfo.length ≤ 2 ^ 31

variable {s : AuthCore}

lemma addAuthInfo_eq {info : AuthInfo} (hs : ∀ elem ∈ s.authInfo, elem.Good)
    (hinfo : ShortRealm info.realm) :
    s.addAuthInfo junk info = { s with authInfo := put AuthInfo.key info s.authInfo } := by
  have hfound : ∀ elem ∈ s.authInfo, authInfoCompare junk elem info.realm info.username =
      decide (elem.key = info.key) := fun elem helem => authInfoCompare_eq (hs elem helem).realm hinfo
  rw [addAuthInfo, replaceFirst_eq_put hfound]

/-- A new info is put into the list. -/
lemma Inv.add (h : s.Inv) {info : AuthInfo} (hinfo : info.Good) (href : info.ref = s.nextRef)
    (hcount : s.authInfo.length < 2 ^ 31) :
    Inv { s with authInfo := put AuthInfo.key info s.authInfo, nextRef := s.nextRef + 1 } where
  config := h.config
  good elem helem := by
    rcases mem_put helem with rfl | helem
    · exact hinfo
    · exact h.good elem helem
  keys := nodup_put h.keys
  refs := by
    apply nodup_map_put h.refs
    intro elem helem hsame
    have := h.fresh elem helem
    omega
  fresh elem helem := by
    rcases mem_put helem with rfl | helem
    · exact href ▸ Nat.lt_succ_self s.nextRef
    · exact Nat.lt_succ_of_lt (h.fresh elem helem)
  count := length_put_le.trans hcount

lemma Inv.remove (h : s.Inv) (ref : ℕ) : (s.removeAuthInfo ref).Inv := by
  have hsub : (s.authInfo.eraseP (·.ref = ref)).Sublist s.authInfo := List.eraseP_sublist
  have hgood : ∀ info ∈ s.authInfo.eraseP (·.ref = ref), info.Good := fun info hinfo =>
    h.good info (hsub.subset hinfo)
  have hcount := hsub.length_le.trans h.count
  exact ⟨(h.config.cleanAuthInfos _).writeFrom hgood (by rwa [Nat.zero_add]), hgood,
    h.keys.sublist (hsub.map _), h.refs.sublist (hsub.map _),
    fun info hinfo => h.fresh info (hsub.subset hinfo), hcount⟩

lemma Inv.clear (h : s.Inv) : s.clearAllAuthInfo.Inv :=
  ⟨h.config.cleanAuthInfos _, by simp [clearAllAuthInfo], by simp [clearAllAuthInfo],
    by simp [clearAllAuthInfo], by simp [clearAllAuthInfo], by simp [clearAllAuthInfo]⟩

/-! The calls. -/

/-- What is entered for an info, by the names in the configuration. -/
def entered (username userid passwd ha1 realm : Option String) : List (String × Option String) :=
  [("username", username), ("userid", userid), ("passwd", passwd), ("ha1", ha1), ("realm", realm)]

/-- An info that is added has some string, all its strings are found again in a file, its realm fits
into the copies, and the list is not longer than the numbers of its sections. -/
def CarefulStep (s : AuthCore) : Op → Prop
  | .add username userid passwd ha1 realm =>
    (∃ w ∈ entered username userid passwd ha1 realm, ∃ v ∈ w.2, v ≠ "") ∧
      (∀ w ∈ entered username userid passwd ha1 realm, ∀ v ∈ w.2, v ≠ "" → Storable w.1 v) ∧
      ShortRealm realm ∧ s.authInfo.length < 2 ^ 31
  | _ => True

def Careful (junk : List Char) (s : AuthCore) : List Op → Prop
  | [] => True
  | op :: ops => s.CarefulStep op ∧ Careful junk (s.step junk op) ops

lemma fields_new (ref : ℕ) (username userid passwd ha1 realm : Option String) :
    (AuthInfo.new ref username userid passwd ha1 realm).fields =
      (entered username userid passwd ha1 realm).map fun w => (w.1, w.2.filter (· ≠ "")) := rfl

lemma entered_isWord {username userid passwd ha1 realm : Option String} :
    ∀ w ∈ entered username userid passwd ha1 realm, IsWord w.1 := by
  have hword : ∀ key ∈ ["username", "userid", "passwd", "ha1", "realm"], IsWord key := by
    simp only [List.forall_mem_cons, List.not_mem_nil, false_imp_iff, implies_true, and_true]
    refine ⟨?_, ?_, ?_, ?_, ?_⟩ <;> exact ⟨by simp, by simp [isSpace]⟩
  intro w hw
  apply hword
  have := List.mem_map_of_mem (f := Prod.fst) hw
  simpa [entered] using this

lemma new_good {ref : ℕ} {username userid passwd ha1 realm : Option String}
    (hsome : ∃ w ∈ entered username userid passwd ha1 realm, ∃ v ∈ w.2, v ≠ "")
    (hstorable : ∀ w ∈ entered username userid passwd ha1 realm, ∀ v ∈ w.2, v ≠ "" →
      Storable w.1 v) (hrealm : ShortRealm realm) :
    (AuthInfo.new ref username userid passwd ha1 realm).Good := by
  refine ⟨?_, ?_, ?_⟩
  · obtain ⟨w, hw, v, hv, hne⟩ := hsome
    refine ⟨(w.1, w.2.filter (· ≠ "")), ?_, ?_⟩
    · rw [fields_new]
      exact List.mem_map.mpr ⟨w, hw, rfl⟩
    · rw [Option.mem_def.mp hv, Option.filter_some, if_pos (decide_eq_true hne)]
      exact Option.some_ne_none v
  · intro w hw v hv
    rw [fields_new] at hw
    obtain ⟨u, hu, rfl⟩ := List.mem_map.mp hw
    obtain ⟨hvalue, hne⟩ := Option.filter_eq_some_iff.mp hv
    rw [decide_eq_true_eq] at hne
    exact ⟨hne, (hstorable u hu v hvalue hne).readable (entered_isWord u hu)⟩
  · intro r hr
    exact hrealm r (Option.filter_eq_some_iff.mp hr).1

/-- A careful step keeps the invariant and is the step of the map. -/
lemma Inv.step (h : s.Inv) {op : Op} (hop : s.CarefulStep op) :
    (s.step junk op).Inv ∧ AuthMap.ofCore (s.step junk op) = (AuthMap.ofCore s).step op := by
  cases op with
  | add username userid passwd ha1 realm =>
    obtain ⟨hsome, hstorable, hrealm, hcount⟩ := hop
    have hgood : (AuthInfo.new s.nextRef username userid passwd ha1 realm).Good :=
      new_good hsome hstorable hrealm
    have hadd : s.step junk (.add username userid passwd ha1 realm) =
        { s with
          authInfo := put AuthInfo.key
            (AuthInfo.new s.nextRef username userid passwd ha1 realm) s.authInfo
          nextRef := s.nextRef + 1 } := by
      rw [AuthCore.step, addNew]
      exact addAuthInfo_eq h.good hgood.realm
    rw [hadd]
    refine ⟨h.add hgood rfl hcount, ?_⟩
    rw [AuthMap.ofCore, lookup_put]
    rfl
  | remove info =>
    refine ⟨h.remove info, ?_⟩
    rw [AuthMap.ofCore, AuthMap.ofCore, AuthMap.step, AuthCore.step, removeAuthInfo]
    refine congrArg (AuthMap.mk · s.nextRef) ?_
    funext k
    exact lookup_eraseP h.keys h.refs info k
  | clear => exact ⟨h.clear, rfl⟩

/-- A careful run keeps the invariant and is the run of the map. -/
lemma Inv.run (h : s.Inv) {ops : List Op} (hops : Careful junk s ops) :
    (run junk s ops).Inv ∧ AuthMap.ofCore (run junk s ops) = (AuthMap.ofCore s).run ops := by
  induction ops generalizing s with
  | nil => exact ⟨h, rfl⟩
  | cons op ops ih =>
    obtain ⟨hstep, hrest⟩ := hops
    obtain ⟨hinv, hmap⟩ := h.step hstep
    obtain ⟨hrun, hmaps⟩ := ih hinv hrest
    refine ⟨hrun, hmaps.trans ?_⟩
    rw [hmap]
    rfl

/-! The next start. -/

lemma Good.withRef {obj : AuthInfo} (h : obj.Good) (ref : ℕ) :
    AuthInfo.Good { obj with ref := ref } :=
  ⟨h.named, h.readable, h.realm⟩

lemma readAuthInfo_none {c : LpConfig} {ref i : ℕ} (h : c.hasSection (authKey i) ≠ true) :
    readAuthInfo c ref i = none := if_neg h

/-- A section that is read adds its info. -/
lemma readAuthInfos_succ {obj : AuthInfo} (hs : ∀ elem ∈ s.authInfo, elem.Good) (hobj : obj.Good)
    {i : ℕ} (h : AuthStored s.config obj i) (n : ℕ) : readAuthInfos junk (n + 1) i s =
      readAuthInfos junk n (i + 1)
        { s with
          authInfo := put AuthInfo.key { obj with ref := s.nextRef } s.authInfo
          nextRef := s.nextRef + 1 } := by
  have hadd : addAuthInfo junk { s with nextRef := s.nextRef + 1 } { obj with ref := s.nextRef } =
      _ := addAuthInfo_eq hs hobj.realm
  rw [readAuthInfos, readAuthInfo_stored h hobj]
  exact congrArg (readAuthInfos junk n (i + 1)) hadd

lemma readAuthInfos_inv {n i : ℕ} (h : s.Inv) (hi : s.authInfo.length ≤ i) :
    (readAuthInfos junk n i s).Inv := by
  induction n generalizing i s with
  | zero => exact h
  | succ n ih =>
    by_cases hthere : s.config.hasSection (authKey i) = true
    · obtain ⟨hlt, obj, hobj, hstored⟩ := h.config.stored i hthere
      rw [readAuthInfos_succ h.good hobj hstored]
      apply ih (h.add (Good.withRef hobj s.nextRef) rfl (hi.trans_lt hlt))
      exact length_put_le.trans (Nat.succ_le_succ hi)
    · rw [readAuthInfos, readAuthInfo_none hthere]
      exact h

lemma load_inv {c : LpConfig} (hc : AuthConfig c) : (load junk c).Inv :=
  readAuthInfos_inv ⟨hc, by simp, by simp, by simp, by simp, by simp⟩ le_rfl

/-- Stored infos with different keys are read in their order. -/
lemma readAuthInfos_stored {l : List AuthInfo} {n i : ℕ} (hn : l.length < n)
    (hs : ∀ elem ∈ s.authInfo, elem.Good) (hl : ∀ obj ∈ l, obj.Good)
    (hkeys : (s.authInfo.map AuthInfo.key ++ l.map AuthInfo.key).Nodup)
    (hstored : ∀ j obj, l[j]? = some obj → AuthStored s.config obj (i + j))
    (hend : s.config.hasSection (authKey (i + l.length)) ≠ true) :
    (readAuthInfos junk n i s).authInfo.map AuthInfo.fields =
      s.authInfo.map AuthInfo.fields ++ l.map AuthInfo.fields := by
  obtain ⟨n, rfl⟩ : ∃ m, n = m + 1 := ⟨n - 1, by omega⟩
  induction l generalizing n i s with
  | nil =>
    rw [List.length_nil, Nat.add_zero] at hend
    rw [readAuthInfos, readAuthInfo_none hend]
    simp
  | cons obj l ih =>
    have hobj := hl obj List.mem_cons_self
    have hnew : obj.key ∉ s.authInfo.map AuthInfo.key := by
      intro hmem
      rw [List.nodup_append] at hkeys
      exact hkeys.2.2 _ hmem _ (List.mem_map.mpr ⟨obj, List.mem_cons_self, rfl⟩) rfl
    have hput : put AuthInfo.key { obj with ref := s.nextRef } s.authInfo =
        s.authInfo ++ [{ obj with ref := s.nextRef }] := put_of_notMem hnew
    rw [List.length_cons] at hn hend
    obtain ⟨n, rfl⟩ : ∃ m, n = m + 1 := ⟨n - 1, by omega⟩
    have hfirst : AuthStored s.config obj i := hstored 0 obj rfl
    rw [readAuthInfos_succ hs hobj hfirst, hput, ih]
    · rw [List.map_append, List.append_assoc]
      rfl
    · intro elem helem
      rcases List.mem_append.mp helem with helem | helem
      · exact hs elem helem
      · rw [List.mem_singleton.mp helem]
        exact Good.withRef hobj s.nextRef
    · exact fun o ho => hl o (List.mem_cons_of_mem obj ho)
    · rw [List.map_append, List.append_assoc]
      exact hkeys
    · intro j o ho
      rw [Nat.add_assoc, Nat.add_comm 1 j]
      exact hstored (j + 1) o ho
    · rwa [Nat.add_assoc, Nat.add_comm 1 l.length]
    · omega

/-- The configuration that is saved. -/
lemma save_stored (h : s.Inv) : AuthConfig s.save ∧
    (∀ (j : ℕ) (obj : AuthInfo), s.authInfo[j]? = some obj → AuthStored s.save obj j) ∧
    s.save.hasSection (authKey s.authInfo.length) ≠ true := by
  have hwritten : AuthConfig (writeAuthInfos s.config s.authInfo) :=
    h.config.writeFrom h.good (by rw [Nat.zero_add]; exact h.count)
  refine ⟨hwritten.clean _, ?_, ?_⟩
  · intro j obj hj
    have hlt := (List.getElem?_eq_some_iff.mp hj).1
    have hstored := writesPlace_authInfo.stored_writeFrom h.good h.config.names 0 hj
    rw [Nat.zero_add] at hstored
    apply hstored.congr
    have hview := view_cleanSection hwritten.names (authKey s.authInfo.length) (authKey j)
    rwa [if_neg fun hkey => hlt.ne (authKey_injective hkey)] at hview
  · have hview := view_cleanSection hwritten.names (authKey s.authInfo.length)
      (authKey s.authInfo.length)
    rw [if_pos rfl] at hview
    rw [hasSection_eq_view]
    change ((cleanSection _ _).view _).isSome ≠ true
    rw [hview]
    simp

/-- The next start reads the list that was saved. -/
lemma Inv.persists (h : s.Inv) :
    (s.restart junk).authInfo.map AuthInfo.fields = s.authInfo.map AuthInfo.fields := by
  obtain ⟨hconfig, hstored, hend⟩ := save_stored h
  have hkept : ∀ (j : ℕ) (obj : AuthInfo), s.authInfo[j]? = some obj →
      AuthStored (s.save.map kept) obj (0 + j) := by
    intro j obj hj
    rw [Nat.zero_add]
    exact (hstored j obj hj).kept hconfig (h.good obj (List.mem_of_getElem? hj))
  have hlength : s.authInfo.length ≤ (s.save.map kept).length := by
    have hinjective : ∀ i j, authKey i = authKey j → i = j := fun i j => authKey_injective
    apply length_of_hasSection hinjective
    intro j hj
    have hthere := (hkept j _ (List.getElem?_eq_getElem hj)).there
    rwa [Nat.zero_add] at hthere
  rw [restart, load, hconfig.parse_sync]
  rw [readAuthInfos_stored (by omega) (by simp) h.good (by simpa using h.keys) hkept
    (by rw [Nat.zero_add, hasSection_kept]; exact hend)]
  rfl

/-- The info of a key is found. -/
lemma Inv.finds (h : s.Inv) {realm username : Option String} {info : AuthInfo}
    (hrealm : ShortRealm realm)
    (hentry : lookup AuthInfo.key s.authInfo (credential realm username) = some info) :
    s.findAuthInfo junk realm username = some info := by
  have hsame : s.authInfo.find? (fun info => authInfoCompare junk info realm username) =
      lookup AuthInfo.key s.authInfo (credential realm username) := by
    apply List.find?_congr
    intro elem helem
    exact authInfoCompare_eq (h.good elem helem).realm hrealm
  rw [findAuthInfo, hsame, hentry]

/-- In every careful run from a start the list is a persistent map. -/
theorem run_persistentMap {c : LpConfig} (hc : AuthConfig c) {ops : List Op}
    (hops : Careful junk (load junk c) ops) : PersistentMap junk (run junk (load junk c) ops)
      ((AuthMap.ofCore (load junk c)).run ops) := by
  obtain ⟨hinv, hmap⟩ := (load_inv hc).run hops
  rw [← hmap]
  exact ⟨hinv.keys, fun realm username info hrealm => hinv.finds hrealm, hinv.persists⟩

/-- The file that is left is one that the next start can begin with. -/
theorem run_config {c : LpConfig} (hc : AuthConfig c) {ops : List Op}
    (hops : Careful junk (load junk c) ops) :
    AuthConfig (parse (run junk (load junk c) ops).save.sync) := by
  have hconfig := (save_stored ((load_inv hc).run hops).1).1
  rw [hconfig.parse_sync]
  exact hconfig.kept

/-! Two runs from an empty configuration. -/

lemma authConfig_nil : AuthConfig [] where
  distinct := ⟨by simp, by simp, by simp⟩
  stored i hi := by cases hi

/-- Two infos of one realm, of which the first is changed. -/
def changing : List Op :=
  [.add (some "alice") none (some "one") none (some "sip.org"),
    .add (some "bob") none (some "two") none (some "\"sip.org\""),
    .add (some "alice") none (some "three") none (some "\"sip.org\"")]

lemma storable_of_word {key value : String} (hne : value ≠ "")
    (hchars : ∀ c ∈ value.toList, isSpace c = false)
    (hlength : key.toList.length + value.toList.length + 3 ≤ maxLen) : Storable key value where
  nonempty := hne
  newline h := absurd (hchars _ h) (by decide)
  length := by omega
  blank _ := Or.inr fun h => absurd (hchars _ (List.mem_of_mem_getLast? h)) (by decide)

/-- The user name, the password and the realm of an info without blanks. -/
lemma carefulStep_add {s : AuthCore} {username passwd realm : String} (hu : username ≠ "")
    (hchars : ∀ v ∈ [username, passwd, realm], ∀ c ∈ v.toList, isSpace c = false)
    (hlength : ∀ v ∈ [username, passwd, realm], v.toList.length < 127)
    (hcount : s.authInfo.length < 2 ^ 31) :
    s.CarefulStep (.add (some username) none (some passwd) none (some realm)) := by
  have hmax : maxLen = 1024 := rfl
  simp only [List.forall_mem_cons, List.not_mem_nil, false_imp_iff, implies_true, and_true]
    at hchars hlength
  refine ⟨⟨_, List.mem_cons_self, username, rfl, hu⟩, ?_, ?_, hcount⟩
  · simp only [entered, List.forall_mem_cons, Option.mem_def, reduceCtorEq, false_imp_iff,
      implies_true, true_and, Option.some.injEq, forall_eq', List.not_mem_nil, and_true]
    refine ⟨fun hne => ?_, fun hne => ?_, fun hne => ?_⟩
    · exact storable_of_word hne hchars.1 (by simp [hmax]; omega)
    · exact storable_of_word hne hchars.2.1 (by simp [hmax]; omega)
    · exact storable_of_word hne hchars.2.2 (by simp [hmax]; omega)
  · intro r hr
    cases hr
    exact hlength.2.2

lemma changing_careful : Careful [] (load [] []) changing := by
  refine ⟨carefulStep_add (by decide) ?_ ?_ ?_,
    carefulStep_add (by decide) ?_ ?_ ?_,
    carefulStep_add (by decide) ?_ ?_ ?_, trivial⟩
  all_goals first | decide +kernel | simp [isSpace]

theorem run_persistentMap_changing : PersistentMap [] (run [] (load [] []) changing)
    ((AuthMap.ofCore (load [] [])).run changing) :=
  run_persistentMap authConfig_nil changing_careful

/-- An info without strings has no section, and the next start reads no further. -/
theorem empty_info_is_lost : ¬ PersistentMap []
    (run [] (load [] [])
      [.add none none none none none, .add (some "alice") none (some "one") none (some "sip.org")])
    ((AuthMap.ofCore (load [] [])).run
      [.add none none none none none,
        .add (some "alice") none (some "one") none (some "sip.org")]) := by
  intro h
  have hfields := h.persists
  revert hfields
  decide +kernel

end AuthCore

end MTalk.Config
