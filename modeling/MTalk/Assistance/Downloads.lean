import MTalk.Assistance.AccountManager
import MTalk.Library.GuardedRuns

/-!
# Downloads of the account

`AccountManager.downloadRelation` replaces the relation as soon as it is read, clears the devices
and puts in one definition after the other, null where a read or a parse failed. What went wrong is
not undone, and what went right is never committed to the preferences.
-/

namespace MTalk.Assistance

open MTalk.Xml MTalk.JavaText MTalk.GuardedRuns

/-- A relationship in the account. -/
structure HeldRelationship where
  relationship : Relationship
  cared : Bool := false
  device : Option GeneralDevice := none

/-- The relation in the account. -/
structure HeldRelation where
  «in» : List HeldRelationship
  out : List HeldRelationship

namespace HeldRelation

/-- The relation that `ProtocolParser.parseDeviceRelation` creates. -/
def ofRelation (relation : DetailedRelation) : HeldRelation :=
  ⟨relation.in.map fun r => { relationship := r }, relation.out.map fun r => { relationship := r }⟩

/-- `DetailedRelation.computeCared`. -/
def computeCared (relation : HeldRelation) : HeldRelation :=
  ⟨relation.in.map fun c => { c with cared := false },
    relation.out.map fun c => { c with cared := true }⟩

/-- The relation without what the account adds to it. -/
def plain (relation : HeldRelation) : DetailedRelation :=
  ⟨relation.in.map (·.relationship), relation.out.map (·.relationship)⟩

end HeldRelation

/-- The devices of the account. A device may be null. -/
abbrev DeviceMap := AList fun _ : Option String => Option GeneralDevice

/-- What `downloadRelation` may change: the fields of `AccountManager` and the preferences. -/
structure AccountState where
  detailedRelation : Option HeldRelation
  devices : DeviceMap
  pref : SharedPreferences

/-- What comes of an HTTP request: an exception that `HttpServer.read` catches, a response without
an entity, or a text. -/
inductive Reply where
  | failed
  | noEntity
  | content (text : String)

/-- What `downloadRelation` throws. -/
inductive DownloadError where
  | nullPointer
  | writing
  deriving DecidableEq

/-- `HttpServer.read`: the stream, or null. -/
def Reply.read : Reply → Except DownloadError (Option String)
  | .failed => .ok none
  | .noEntity => .error .nullPointer
  | .content text => .ok (some text)

variable (xml : XmlLibrary) (order : HashOrder)

/-- `HttpServer.readRelation`. Without a document, or without one of the lists in it, the parser
goes on with null. -/
def readRelation (reply : Reply) : Except DownloadError DetailedRelation := do
  let stream ← reply.read
  match stream.bind (parseDeviceRelation xml) with
  | none => .error .nullPointer
  | some relation => .ok relation

/-- `HttpServer.readDefination`: null if the parser fails. -/
def readDefination (reply : Reply) : Except DownloadError (Option GeneralDevice) := do
  let stream ← reply.read
  return stream.bind (parseDeviceDefination xml)

/-- The loop of `downloadRelation`, with the number of the next request: the outgoing relationships
with their devices, the devices, and the exception that ended the loop. -/
def readDefinations (replies : ℕ → Reply) (k : ℕ) (devices : DeviceMap) :
    List HeldRelationship → List HeldRelationship × DeviceMap × Option DownloadError
  | [] => ([], devices, none)
  | r :: rest =>
    match readDefination xml (replies k) with
    | .error e => (r :: rest, devices, some e)
    | .ok device =>
      let loop := readDefinations replies (k + 1)
        (devices.insert (some r.relationship.toId) device) rest
      ({ r with device := device } :: loop.1, loop.2)

/-- The text that `xmlDevice` writes. A null device is an exception. -/
def devicesText (devices : DeviceMap) : Option String := do
  let ds ← (devices.entries.map Sigma.snd).mapM id
  let es ← ds.mapM (deviceElement order)
  some (xml.write ⟨"devices", [], .ofList es⟩)

/-- The text that `xmlRelation` writes. -/
def relationText (relation : DetailedRelation) : Option String :=
  Account.xmlRelation xml ⟨relation, ∅⟩

/-- `saveAccounts`: the preferences and the edits that are left. -/
def saveHeld (relation : HeldRelation) (devices : DeviceMap) (pref : SharedPreferences) :
    Option (SharedPreferences × Editor) := do
  let e : Editor := []
  let accounts ← relationText xml relation.plain
  let e := e.putString "accounts" accounts
  let dvs ← devicesText xml order devices
  let e := e.putString "devices" dvs
  some (pref, e)

/-- `AccountManager.downloadRelation`: the state that is left and the exception. The replies are
those to the requests in their order. -/
def downloadRelation (replies : ℕ → Reply) (st : AccountState) :
    AccountState × Option DownloadError :=
  match readRelation xml (replies 0) with
  | .error e => (st, some e)
  | .ok relation =>
    let held := (HeldRelation.ofRelation relation).computeCared
    let loop := readDefinations xml replies 1 ∅ held.out
    let held : HeldRelation := { held with out := loop.1 }
    let st : AccountState := { st with detailedRelation := some held, devices := loop.2.1 }
    match loop.2.2 with
    | some e => (st, some e)
    | none =>
      match saveHeld xml order held st.devices st.pref with
      | none => (st, some .writing)
      | some saved => ({ st with pref := saved.1 }, none)

/-! All or nothing. -/

/-- The definitions that the requests from number `k` on give, up to one that throws. -/
def definations (replies : ℕ → Reply) (k : ℕ) : ℕ → List (Option GeneralDevice)
  | 0 => []
  | n + 1 =>
    match readDefination xml (replies k) with
    | .error _ => []
    | .ok device => device :: definations replies (k + 1) n

/-- All reads and parses succeed. -/
def AllSucceed (replies : ℕ → Reply) : Prop :=
  ∃ relation, readRelation xml (replies 0) = .ok relation ∧
    ∀ k < relation.out.length, ∃ d, readDefination xml (replies (k + 1)) = .ok (some d)

/-- The outgoing relationships with the devices, as far as there are any. -/
def withDevices : List Relationship → List (Option GeneralDevice) → List HeldRelationship
  | [], _ => []
  | r :: rs, [] => ⟨r, true, none⟩ :: withDevices rs []
  | r :: rs, d :: ds => ⟨r, true, d⟩ :: withDevices rs ds

/-- The devices under the ids that the outgoing relationships lead to. -/
def devicesOf (relation : DetailedRelation) (ds : List (Option GeneralDevice)) : DeviceMap :=
  (relation.out.zip ds).foldl (fun m p => m.insert (some p.1.toId) p.2) ∅

/-- The account has the relation and the devices. -/
structure Mirrors (st : AccountState) (relation : DetailedRelation)
    (ds : List (Option GeneralDevice)) : Prop where
  detailedRelation : st.detailedRelation =
    some ⟨relation.in.map fun r => ⟨r, false, none⟩, withDevices relation.out ds⟩
  devices : ∀ key, st.devices.lookup key = (devicesOf relation ds).lookup key

/-- The preferences have the texts of the relation and of the devices. -/
def Stored (pref : SharedPreferences) (relation : DetailedRelation)
    (ds : List (Option GeneralDevice)) : Prop :=
  ∃ accounts dvs, relationText xml relation = some accounts ∧
    devicesText xml order (devicesOf relation ds) = some dvs ∧
    pref "accounts" = some accounts ∧ pref "devices" = some dvs

/-- The same relation, the same devices and the same preferences. -/
structure Unchanged (st st' : AccountState) : Prop where
  detailedRelation : st'.detailedRelation = st.detailedRelation
  devices : ∀ key, st'.devices.lookup key = st.devices.lookup key
  pref : st'.pref = st.pref

/-- A download of which anything fails changes nothing, and after one that succeeds everything is
from the replies. -/
structure AllOrNothing (replies : ℕ → Reply) (st st' : AccountState) : Prop where
  nothing : ¬ AllSucceed xml replies → Unchanged st st'
  all : ∀ relation, readRelation xml (replies 0) = .ok relation → AllSucceed xml replies →
    Mirrors st' relation (definations xml replies 1 relation.out.length) ∧
      Stored xml order st'.pref relation (definations xml replies 1 relation.out.length)

variable {xml order} {replies : ℕ → Reply} {st : AccountState}

/-- What the loop does to the relationships and the devices. -/
lemma readDefinations_eq (xml : XmlLibrary) (replies : ℕ → Reply) (rs : List Relationship) (k : ℕ)
    (devices : DeviceMap) :
    ∃ thrown, readDefinations xml replies k devices
        (rs.map fun r => { relationship := r, cared := true }) =
      (withDevices rs (definations xml replies k rs.length),
        (rs.zip (definations xml replies k rs.length)).foldl
          (fun m p => m.insert (some p.1.toId) p.2) devices, thrown) ∧
      (thrown = none ↔ (definations xml replies k rs.length).length = rs.length) := by
  induction rs generalizing k devices with
  | nil => exact ⟨none, rfl, by simp [definations]⟩
  | cons r rs ih =>
    rw [List.map_cons, readDefinations, List.length_cons, definations]
    have hkept : ∀ l : List Relationship,
        l.map (fun r => ({ relationship := r, cared := true } : HeldRelationship)) =
          withDevices l [] := by
      intro l
      induction l with
      | nil => rfl
      | cons r l ih => rw [List.map_cons, ih, withDevices]
    cases hread : readDefination xml (replies k) with
    | error e =>
      refine ⟨some e, ?_, by simp⟩
      simp [hkept, withDevices]
    | ok device =>
      obtain ⟨thrown, hloop, hthrown⟩ := ih (k + 1) (devices.insert (some r.toId) device)
      refine ⟨thrown, ?_, by simpa using hthrown⟩
      dsimp only
      rw [hloop]
      simp [withDevices]

/-- The state that is left once the relation is read, and the preferences in it. -/
lemma downloadRelation_of_read (order : HashOrder) (st : AccountState)
    {relation : DetailedRelation} (h : readRelation xml (replies 0) = .ok relation) :
    Mirrors (downloadRelation xml order replies st).1 relation
        (definations xml replies 1 relation.out.length) ∧
      (downloadRelation xml order replies st).1.pref = st.pref := by
  obtain ⟨thrown, hloop, -⟩ := readDefinations_eq xml replies relation.out 1 ∅
  have hout : (HeldRelation.ofRelation relation).computeCared.out =
      relation.out.map fun r => { relationship := r, cared := true } := by
    simp [HeldRelation.ofRelation, HeldRelation.computeCared]
  have hin : (HeldRelation.ofRelation relation).computeCared.in =
      relation.in.map fun r => ⟨r, false, none⟩ := by
    simp [HeldRelation.ofRelation, HeldRelation.computeCared]
  have hstate : ∀ e, Mirrors ((⟨some ⟨relation.in.map fun r => ⟨r, false, none⟩,
      withDevices relation.out (definations xml replies 1 relation.out.length)⟩,
      devicesOf relation (definations xml replies 1 relation.out.length), st.pref⟩, e) :
      AccountState × Option DownloadError).1 relation
        (definations xml replies 1 relation.out.length) :=
    fun e => ⟨rfl, fun key => rfl⟩
  unfold downloadRelation
  rw [h]
  dsimp only
  rw [hout, hloop, hin]
  dsimp only
  cases thrown with
  | some e => exact ⟨hstate e, rfl⟩
  | none =>
    dsimp only
    split
    next => exact ⟨hstate none, rfl⟩
    next saved hsaved =>
      obtain ⟨accounts, -, hsaved⟩ := Option.bind_eq_some_iff.mp hsaved
      obtain ⟨dvs, -, hsaved⟩ := Option.bind_eq_some_iff.mp hsaved
      cases hsaved
      exact ⟨hstate none, rfl⟩

lemma Mirrors.congr {st' : AccountState} {relation : DetailedRelation}
    {ds : List (Option GeneralDevice)} (h : Mirrors st' relation ds) :
    (st'.detailedRelation = st.detailedRelation ∧
      ∀ key, st'.devices.lookup key = st.devices.lookup key) ↔ Mirrors st relation ds := by
  constructor
  · rintro ⟨hrelation, hdevices⟩
    exact ⟨hrelation ▸ h.detailedRelation, fun key => (hdevices key).symm.trans (h.devices key)⟩
  · intro hst
    exact ⟨h.detailedRelation.trans hst.detailedRelation.symm,
      fun key => (h.devices key).trans (hst.devices key).symm⟩

/-- A relation with one outgoing relationship. -/
def motherRelation : DetailedRelation := ⟨[], [⟨"1111", "mother", some "mother", some "son"⟩]⟩

/-- The relation is read, and then the network fails. -/
def lostReplies : ℕ → Reply
  | 0 => .content (plainXml.write
      (relationDocument [] [relationshipElement "1111" "mother" "mother" "son"]))
  | _ + 1 => .failed

end MTalk.Assistance
