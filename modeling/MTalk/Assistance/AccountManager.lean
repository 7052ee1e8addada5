import MTalk.Assistance.Relations

/-!
# The account on the phone

`AccountManager`: the relation and the devices of the phone, what it writes of them into the
preferences and what the next start reads. The edits are never committed, so the next start finds
what was there before; and a commit would keep the first list of the relation twice.
-/

namespace MTalk.Assistance

open MTalk.Xml MTalk.JavaText

/-- `SharedPreferences`: the values that are committed. -/
abbrev SharedPreferences := String → Option String

/-- `SharedPreferences.Editor`: the edits so far, the last one first. -/
abbrev Editor := List (String × String)

namespace Editor

def putString (e : Editor) (key value : String) : Editor := (key, value) :: e

/-- The edits take effect. -/
def commit (e : Editor) (pref : SharedPreferences) : SharedPreferences :=
  fun key => (e.lookup key).or (pref key)

end Editor

/-- The relation and the devices that `AccountManager` holds. -/
structure Account where
  detailedRelation : DetailedRelation
  devices : AList fun _ : Option String => GeneralDevice

namespace Account

/-- `devices.values()`. -/
def values (acc : Account) : List GeneralDevice := acc.devices.entries.map Sigma.snd

/-- One relationship that `xmlRelation` writes. The writer fails on a null name. -/
def relationship (o : Relationship) : Option Element := do
  let name ← o.name
  let reverseName ← o.reverseName
  some (relationshipElement o.fromId o.toId name reverseName)

/-- `AccountManager.xmlRelation`. Both loops go over the list `in`. -/
def xmlRelation (xml : XmlLibrary) (acc : Account) : Option String := do
  let ins ← acc.detailedRelation.in.mapM relationship
  let outs ← acc.detailedRelation.in.mapM relationship
  some (xml.write (relationDocument ins outs))

/-- `AccountManager.xmlDevice`. -/
def xmlDevice (xml : XmlLibrary) (order : HashOrder) (acc : Account) : Option String :=
  (acc.values.mapM (deviceElement order)).map fun es =>
    xml.write ⟨"devices", [], .ofList es⟩

/-- `AccountManager.saveAccounts`: the preferences and the edits that are left, which are not
committed. A text that cannot be written is an exception. -/
def saveAccounts (xml : XmlLibrary) (order : HashOrder) (acc : Account) (pref : SharedPreferences) :
    Option (SharedPreferences × Editor) := do
  let e : Editor := []
  let accounts ← acc.xmlRelation xml
  let e := e.putString "accounts" accounts
  let dvs ← acc.xmlDevice xml order
  let e := e.putString "devices" dvs
  some (pref, e)

/-- `AccountManager.loadAccount`: null without an account, and an exception if it cannot be read. -/
def loadAccount (xml : XmlLibrary) (pref : SharedPreferences) : Option DetailedRelation :=
  (pref "accounts").bind (parseDeviceRelation xml)

/-- The loop over the devices in `AccountManager.loadDevice`. -/
def putDevices (rst : AList fun _ : Option String => GeneralDevice) (ds : List GeneralDevice) :
    AList fun _ : Option String => GeneralDevice :=
  ds.foldl (fun rst ca => rst.insert ca.id ca) rst

/-- `AccountManager.loadDevice`. A text that is no document leaves the map empty, a device that
cannot be read is an exception. -/
def loadDevice (xml : XmlLibrary) (pref : SharedPreferences) :
    Option (AList fun _ : Option String => GeneralDevice) :=
  match (pref "devices").bind xml.read with
  | none => some ∅
  | some root => ((root.getElementsByTagName "generalDevice").mapM readDevice).map (putDevices ∅)

/-- Two devices have the same fields and the same components under the same keys. -/
structure SameDevice (d d' : GeneralDevice) : Prop where
  id : d'.id = d.id
  name : d'.name = d.name
  type : d'.type = d.type
  ownerId : d'.ownerId = d.ownerId
  supportedChannel : d'.supportedChannel = d.supportedChannel
  components : ∀ key, d'.components.lookup key = d.components.lookup key

/-- The account that is loaded after it was saved is the account that was saved. -/
def Survives (xml : XmlLibrary) (order : HashOrder) (pref : SharedPreferences) (acc : Account) :
    Prop :=
  ∃ saved, acc.saveAccounts xml order pref = some saved
    ∧ loadAccount xml saved.1 = some acc.detailedRelation
    ∧ ∃ devices, loadDevice xml saved.1 = some devices
      ∧ ∀ id, Option.Rel SameDevice (acc.devices.lookup id) (devices.lookup id)

/-! What can be written. -/

/-- No name in the first list is null, and the devices and their components have what the writer
needs. -/
structure Writable (acc : Account) : Prop where
  names : ∀ r ∈ acc.detailedRelation.in, r.name ≠ none ∧ r.reverseName ≠ none
  devices : ∀ d ∈ acc.values, d.id ≠ none ∧ d.name ≠ none ∧ d.ownerId ≠ none
    ∧ d.supportedChannel ≠ none ∧ ∀ c ∈ d.values, c.Complete

lemma mapM_isSome_iff {α β : Type} {f : α → Option β} {l : List α} :
    (∃ bs, l.mapM f = some bs) ↔ ∀ a ∈ l, f a ≠ none := by
  induction l with
  | nil => simp
  | cons a l ih =>
    rw [List.forall_mem_cons, ← ih, List.mapM_cons]
    constructor
    · rintro ⟨bs, hbs⟩
      obtain ⟨b, hb, hrest⟩ := Option.bind_eq_some_iff.mp hbs
      obtain ⟨bs', hbs', -⟩ := Option.bind_eq_some_iff.mp hrest
      exact ⟨by simp [hb], bs', hbs'⟩
    · rintro ⟨hb, bs, hbs⟩
      obtain ⟨b, hb⟩ := Option.ne_none_iff_exists'.mp hb
      exact ⟨b :: bs, by rw [hb, hbs]; rfl⟩

lemma relationship_ne_none_iff {r : Relationship} :
    relationship r ≠ none ↔ r.name ≠ none ∧ r.reverseName ≠ none := by
  obtain ⟨fromId, toId, name, reverseName⟩ := r
  cases name with
  | none => simp [relationship]
  | some name =>
    cases reverseName with
    | none => simp [relationship]
    | some reverseName => simp [relationship]

lemma deviceElement_ne_none_iff {order : HashOrder} {d : GeneralDevice} :
    deviceElement order d ≠ none ↔ d.id ≠ none ∧ d.name ≠ none ∧ d.ownerId ≠ none
      ∧ d.supportedChannel ≠ none ∧ ∀ c ∈ d.values, c.Complete := by
  constructor
  · intro h
    obtain ⟨e, he⟩ := Option.ne_none_iff_exists'.mp h
    obtain ⟨id, name, ownerId, channels, es, hid, hname, howner, hchannels, hes, -⟩ :=
      deviceElement_eq he
    exact ⟨by simp [hid], by simp [hname], by simp [howner], by simp [hchannels],
      (mapM_componentElement hes).1⟩
  · rintro ⟨hid, hname, howner, hchannels, hcomplete⟩
    obtain ⟨id, hid⟩ := Option.ne_none_iff_exists'.mp hid
    obtain ⟨name, hname⟩ := Option.ne_none_iff_exists'.mp hname
    obtain ⟨ownerId, howner⟩ := Option.ne_none_iff_exists'.mp howner
    obtain ⟨channels, hchannels⟩ := Option.ne_none_iff_exists'.mp hchannels
    obtain ⟨es, hes⟩ := mapM_of_complete hcomplete
    rw [deviceElement_of hid hname howner hchannels hes]
    simp

/-- Saving leaves the preferences as they are. -/
lemma saveAccounts_iff {xml : XmlLibrary} {order : HashOrder} {acc : Account}
    {pref : SharedPreferences} :
    (∃ saved, acc.saveAccounts xml order pref = some saved) ↔ acc.Writable := by
  have hnames : (∃ ins, acc.detailedRelation.in.mapM relationship = some ins)
      ↔ ∀ r ∈ acc.detailedRelation.in, r.name ≠ none ∧ r.reverseName ≠ none := by
    simp only [mapM_isSome_iff, relationship_ne_none_iff]
  have hdevices : (∃ es, acc.values.mapM (deviceElement order) = some es)
      ↔ ∀ d ∈ acc.values, d.id ≠ none ∧ d.name ≠ none ∧ d.ownerId ≠ none
        ∧ d.supportedChannel ≠ none ∧ ∀ c ∈ d.values, c.Complete := by
    simp only [mapM_isSome_iff, deviceElement_ne_none_iff]
  constructor
  · rintro ⟨saved, h⟩
    obtain ⟨accounts, haccounts, h⟩ := Option.bind_eq_some_iff.mp h
    obtain ⟨dvs, hdvs, -⟩ := Option.bind_eq_some_iff.mp h
    obtain ⟨ins, hins, -⟩ := Option.bind_eq_some_iff.mp haccounts
    obtain ⟨es, hes, -⟩ := Option.map_eq_some_iff.mp hdvs
    exact ⟨hnames.mp ⟨ins, hins⟩, hdevices.mp ⟨es, hes⟩⟩
  · rintro ⟨hwritable, hcomplete⟩
    obtain ⟨ins, hins⟩ := hnames.mpr hwritable
    obtain ⟨es, hes⟩ := hdevices.mpr hcomplete
    simp [saveAccounts, xmlRelation, xmlDevice, hins, hes]

lemma saveAccounts_pref {xml : XmlLibrary} {order : HashOrder} {acc : Account}
    {pref : SharedPreferences} {saved : SharedPreferences × Editor}
    (h : acc.saveAccounts xml order pref = some saved) : saved.1 = pref := by
  obtain ⟨accounts, -, h⟩ := Option.bind_eq_some_iff.mp h
  obtain ⟨dvs, -, h⟩ := Option.bind_eq_some_iff.mp h
  cases h
  rfl

/-! What is there already. -/

/-- The preferences have a document with the relationships of both lists. -/
def HoldsRelation (xml : XmlLibrary) (pref : SharedPreferences) (relation : DetailedRelation) :
    Prop :=
  ∃ text root ins outs, pref "accounts" = some text ∧ xml.read text = some root
    ∧ (root.getElementsByTagName "in").head? = some ins
    ∧ (root.getElementsByTagName "out").head? = some outs
    ∧ relations ins = relation.in ∧ relations outs = relation.out

/-- The preferences have a document with elements that are read as some devices. -/
def HoldsDevices (xml : XmlLibrary) (pref : SharedPreferences) (ds : List GeneralDevice) : Prop :=
  ((pref "devices").bind xml.read = none ∧ ds = [])
    ∨ ∃ text root, pref "devices" = some text ∧ xml.read text = some root
      ∧ (root.getElementsByTagName "generalDevice").mapM readDevice = some ds

lemma loadAccount_iff {xml : XmlLibrary} {pref : SharedPreferences} {relation : DetailedRelation} :
    loadAccount xml pref = some relation ↔ HoldsRelation xml pref relation := by
  constructor
  · intro h
    obtain ⟨text, htext, h⟩ := Option.bind_eq_some_iff.mp h
    obtain ⟨root, hroot, h⟩ := Option.bind_eq_some_iff.mp h
    obtain ⟨ins, hins, h⟩ := Option.bind_eq_some_iff.mp h
    obtain ⟨outs, houts, h⟩ := Option.bind_eq_some_iff.mp h
    cases h
    exact ⟨text, root, ins, outs, htext, hroot, hins, houts, rfl, rfl⟩
  · rintro ⟨text, root, ins, outs, htext, hroot, hins, houts, hin, hout⟩
    simp [loadAccount, parseDeviceRelation, readDetailedRelation, htext, hroot, hins, houts, hin,
      hout]

lemma loadDevice_iff {xml : XmlLibrary} {pref : SharedPreferences}
    {devices : AList fun _ : Option String => GeneralDevice} :
    loadDevice xml pref = some devices ↔
      ∃ ds, HoldsDevices xml pref ds ∧ putDevices ∅ ds = devices := by
  unfold loadDevice HoldsDevices
  cases hread : (pref "devices").bind xml.read with
  | none =>
    have hnot : ∀ text root, pref "devices" = some text → xml.read text ≠ some root := by
      intro text root htext hroot
      rw [htext, Option.bind_some, hroot] at hread
      cases hread
    constructor
    · intro h
      cases h
      exact ⟨[], .inl ⟨rfl, rfl⟩, rfl⟩
    · rintro ⟨ds, ⟨-, rfl⟩ | ⟨text, root, htext, hroot, -⟩, rfl⟩
      · rfl
      · exact absurd hroot (hnot text root htext)
  | some root =>
    obtain ⟨text, htext, hroot⟩ := Option.bind_eq_some_iff.mp hread
    dsimp only
    rw [Option.map_eq_some_iff]
    constructor
    · rintro ⟨ds, hds, rfl⟩
      exact ⟨ds, .inr ⟨text, root, htext, hroot, hds⟩, rfl⟩
    · rintro ⟨ds, ⟨hnone, -⟩ | ⟨text', root', htext', hroot', hds⟩, rfl⟩
      · cases hnone
      · rw [htext, Option.some.injEq] at htext'
        rw [← htext', hroot, Option.some.injEq] at hroot'
        exact ⟨ds, hroot' ▸ hds, rfl⟩

lemma lookup_putDevices (ds : List GeneralDevice)
    (rst : AList fun _ : Option String => GeneralDevice) (id : Option String) :
    (putDevices rst ds).lookup id = (ds.reverse.find? (·.id = id)).or (rst.lookup id) := by
  induction ds generalizing rst with
  | nil => rfl
  | cons d ds ih =>
    rw [putDevices, List.foldl_cons]
    change (putDevices (rst.insert d.id d) ds).lookup id = _
    rw [ih, List.reverse_cons, List.find?_append, Option.or_assoc]
    congr 1
    by_cases hid : d.id = id
    · subst hid
      simp
    · rw [AList.lookup_insert_ne (Ne.symm hid)]
      simp [hid]

/-- The account survives exactly when it can be written and the preferences have it already. -/
theorem survives_iff (xml : XmlLibrary) (order : HashOrder) (pref : SharedPreferences)
    (acc : Account) : acc.Survives xml order pref ↔ acc.Writable
      ∧ HoldsRelation xml pref acc.detailedRelation
      ∧ ∃ ds, HoldsDevices xml pref ds
        ∧ ∀ id, Option.Rel SameDevice (acc.devices.lookup id) (ds.reverse.find? (·.id = id)) := by
  have hlookup : ∀ (ds : List GeneralDevice) id,
      (putDevices ∅ ds).lookup id = ds.reverse.find? (·.id = id) := by
    intro ds id
    rw [lookup_putDevices, AList.lookup_empty, Option.or_none]
  constructor
  · rintro ⟨saved, hsaved, hrelation, devices, hdevices, hsame⟩
    rw [saveAccounts_pref hsaved] at hrelation hdevices
    obtain ⟨ds, hds, rfl⟩ := loadDevice_iff.mp hdevices
    refine ⟨saveAccounts_iff.mp ⟨saved, hsaved⟩, loadAccount_iff.mp hrelation, ds, hds, ?_⟩
    intro id
    rw [← hlookup]
    exact hsame id
  · rintro ⟨hwritable, hrelation, ds, hds, hsame⟩
    obtain ⟨saved, hsaved⟩ := saveAccounts_iff.mpr hwritable
    refine ⟨saved, hsaved, ?_, putDevices ∅ ds, ?_, ?_⟩
    · rw [saveAccounts_pref hsaved]
      exact loadAccount_iff.mpr hrelation
    · rw [saveAccounts_pref hsaved]
      exact loadDevice_iff.mpr ⟨ds, hds, rfl⟩
    · intro id
      rw [hlookup]
      exact hsame id

/-- An account with one relationship and no devices. -/
def caredAccount : Account where
  detailedRelation := ⟨[⟨"me", "you", some "son", some "mother"⟩], []⟩
  devices := ∅

/-- Nothing of it is found in preferences that were empty. -/
theorem account_is_lost : ¬ caredAccount.Survives plainXml .sorted fun _ => none := by
  rintro ⟨saved, hsaved, hrelation, -⟩
  rw [saveAccounts_pref hsaved] at hrelation
  cases hrelation

/-- A commit would keep the first list, in the place of the second one too. -/
theorem committed_account {xml : XmlLibrary} {order : HashOrder} {acc : Account}
    {pref : SharedPreferences} {saved : SharedPreferences × Editor}
    (h : acc.saveAccounts xml order pref = some saved) :
    loadAccount xml (saved.2.commit saved.1)
      = some ⟨acc.detailedRelation.in, acc.detailedRelation.in⟩ := by
  obtain ⟨accounts, haccounts, h⟩ := Option.bind_eq_some_iff.mp h
  obtain ⟨dvs, -, h⟩ := Option.bind_eq_some_iff.mp h
  cases h
  obtain ⟨ins, hins, haccounts⟩ := Option.bind_eq_some_iff.mp haccounts
  rw [hins] at haccounts
  cases haccounts
  have hread : ∀ {l : List Relationship} {es : List Element}, l.mapM relationship = some es →
      (∀ e ∈ es, IsRelationship e) ∧ es.map readRelationship = l := by
    intro l
    induction l with
    | nil =>
      intro es hes
      cases hes
      exact ⟨by simp, rfl⟩
    | cons r l ih =>
      intro es hes
      rw [List.mapM_cons] at hes
      obtain ⟨e, he, hes⟩ := Option.bind_eq_some_iff.mp hes
      obtain ⟨rest, hrest, hes⟩ := Option.bind_eq_some_iff.mp hes
      cases hes
      obtain ⟨name, hname, he⟩ := Option.bind_eq_some_iff.mp he
      obtain ⟨reverseName, hreverse, he⟩ := Option.bind_eq_some_iff.mp he
      cases he
      obtain ⟨hall, hmap⟩ := ih hrest
      refine ⟨List.forall_mem_cons.mpr ⟨⟨_, _, _, _, rfl⟩, hall⟩, ?_⟩
      rw [List.map_cons, hmap, readRelationship_element, ← hname, ← hreverse]
  obtain ⟨hall, hmap⟩ := hread hins
  have htext : Editor.commit (Editor.putString (Editor.putString [] "accounts"
      (xml.write (relationDocument ins ins))) "devices" dvs) pref "accounts"
      = some (xml.write (relationDocument ins ins)) := by
    simp [Editor.commit, Editor.putString, List.lookup]
  rw [loadAccount, htext, Option.bind_some, parse_relationDocument xml hall hall, hmap]

end Account

end MTalk.Assistance
