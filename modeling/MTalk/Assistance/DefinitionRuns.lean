import MTalk.Assistance.AccountManager
import MTalk.Assistance.DeviceService

/-!
# The definitions of devices over runs of requests

What a `defination_read` gives against what was last written, and the map against the database. The
map is never told of a write: a first write is only in the database, and a device that is there is
not written again. So an accepted write is harmless only when it brings what is already served.
-/

namespace MTalk.Assistance

open MTalk.Xml MTalk.JavaText MTalk.GuardedRuns Account

namespace DeviceServer

variable (xml : XmlLibrary) (order : HashOrder) (facade : PersistenceFacade)

/-- The device is read with the fields of the definition. -/
def Serves (s : DeviceServer) (id : String) (definition : GeneralDevice) : Prop :=
  ∃ d text, s.getDevice (some id) = some d ∧ SameDevice definition d.definition
    ∧ s.response xml order facade (.read "defination_read" id) = some text
    ∧ streamDevice xml order d.definition = some text

/-- The map has the devices of the database with their definitions. -/
def Agree (s : DeviceServer) : Prop :=
  ∀ id, Option.Rel (fun stored d => SameDevice stored.definition d.definition)
    (s.database.lookup id) (s.devices.lookup id)

/-- The request is a `defination_write` of the device. -/
def DefinationWrite (request : HttpRequest) (d : ServedDevice) : Prop :=
  request.getParameter "command" = some "defination_write"
    ∧ parsedDevice xml request.body = some d

/-- The database fails on the device. -/
def Rejected (s : DeviceServer) (d : ServedDevice) : Prop :=
  facade.exist s.database (d.definition.id.getD "null") = none
    ∨ facade.exist s.database (d.definition.id.getD "null") = some false
      ∧ facade.persist s.database d = none

/-- The device is in the map already, with a text that can be written. -/
def Redundant (s : DeviceServer) (d : ServedDevice) : Prop :=
  d.definition.supportedChannel ≠ none ∧ ∃ id d', d.definition.id = some id
    ∧ s.devices.lookup id = some d' ∧ SameDevice d.definition d'.definition

end DeviceServer

/-! The text of a definition. -/

lemma streamDevice_ne_none {xml : XmlLibrary} {order : HashOrder} {d d' : GeneralDevice}
    {text : String} (hd : parseDeviceDefination xml text = some d) (hsame : SameDevice d d') :
    streamDevice xml order d' ≠ none ↔ d.supportedChannel ≠ none := by
  obtain ⟨hid, hname, howner, hcomponents⟩ := parse_eq_some hd
  have hcomplete : ∀ c ∈ d'.values, c.Complete := by
    intro c hc
    obtain ⟨key, hkey⟩ := mem_values_iff.mp hc
    rw [hsame.components] at hkey
    obtain ⟨-, com, rfl⟩ := hcomponents key c hkey
    simp [DeviceComponent.Complete, readComponent]
  have hstream : streamDevice xml order d' ≠ none ↔ deviceElement order d' ≠ none := by
    simp [streamDevice]
  rw [hstream, deviceElement_ne_none_iff, hsame.id, hsame.name, hsame.ownerId,
    hsame.supportedChannel]
  constructor
  · exact fun h => h.2.2.2.1
  · exact fun h => ⟨hid, hname, howner, h, hcomplete⟩

lemma parsedDevice_eq_some {xml : XmlLibrary} {text : String} {d : ServedDevice}
    (h : parsedDevice xml text = some d) :
    parseDeviceDefination xml text = some d.definition := by
  obtain ⟨definition, -, hdefinition, rfl⟩ := Option.pmap_eq_some_iff.mp h
  exact hdefinition

namespace Account

lemma SameDevice.refl (d : GeneralDevice) : SameDevice d d :=
  ⟨rfl, rfl, rfl, rfl, rfl, fun _ => rfl⟩

end Account

namespace DeviceServer

variable (xml : XmlLibrary) (order : HashOrder) (facade : PersistenceFacade)

lemma response_defination (s : DeviceServer) (id : String) :
    s.response xml order facade (.read "defination_read" id)
      = (s.devices.lookup id).bind fun d => streamDevice xml order d.definition := by
  simp [response, doGet, HttpRequest.read, readDefination, getDevice]

lemma serves_iff {s : DeviceServer} {id : String} {definition : GeneralDevice} :
    s.Serves xml order facade id definition ↔ ∃ d, s.devices.lookup id = some d
      ∧ SameDevice definition d.definition ∧ streamDevice xml order d.definition ≠ none := by
  unfold Serves
  rw [response_defination]
  constructor
  · rintro ⟨d, text, hd, hsame, -, htext⟩
    exact ⟨d, hd, hsame, by simp [htext]⟩
  · rintro ⟨d, hd, hsame, htext⟩
    obtain ⟨text, htext⟩ := Option.ne_none_iff_exists'.mp htext
    exact ⟨d, text, hd, hsame, by rw [hd]; exact htext, htext⟩

/-! What a request does to the definitions. -/

/-- The definitions in the map. -/
def definitions (s : DeviceServer) (id : String) : Option GeneralDevice :=
  (s.devices.lookup id).map (·.definition)

lemma serves_congr {s s' : DeviceServer} {id : String} (h : s'.definitions id = s.definitions id)
    (definition : GeneralDevice) :
    s'.Serves xml order facade id definition ↔ s.Serves xml order facade id definition := by
  have hmap : ∀ s : DeviceServer, s.Serves xml order facade id definition ↔
      ∃ d, s.definitions id = some d ∧ SameDevice definition d
        ∧ streamDevice xml order d ≠ none := by
    intro s
    rw [serves_iff]
    simp [definitions]
  rw [hmap, hmap, h]

lemma agree_iff {s : DeviceServer} :
    s.Agree ↔ ∀ id, Option.Rel (fun stored d => SameDevice stored.definition d)
      (s.database.lookup id) (s.definitions id) := by
  have hrel : ∀ id, Option.Rel (fun stored d => SameDevice stored.definition d.definition)
      (s.database.lookup id) (s.devices.lookup id)
      ↔ Option.Rel (fun stored d => SameDevice stored.definition d)
        (s.database.lookup id) (s.definitions id) := by
    intro id
    rw [definitions]
    cases s.database.lookup id <;> cases s.devices.lookup id <;> simp
  exact forall_congr' hrel

/-- An accepted write leaves the map, and the database holds the device afterwards or held one
before. -/
lemma doGet_defination {s : DeviceServer} {request : HttpRequest} {d : ServedDevice}
    (h : DefinationWrite xml request d) :
    (s.Rejected facade d ∧ s.doGet xml order facade request = none)
      ∨ (facade.exist s.database (d.definition.id.getD "null") = some true
        ∧ s.doGet xml order facade request = some (s, none))
      ∨ ∃ database, facade.exist s.database (d.definition.id.getD "null") = some false
        ∧ facade.persist s.database d = some database
        ∧ s.doGet xml order facade request = some ({ s with database := database }, none) := by
  obtain ⟨hcommand, hd⟩ := h
  have hget : s.doGet xml order facade request
      = (s.writeDefination xml facade request).bind fun s' => some (s', none) := by
    simp [doGet, hcommand]
  rw [hget, writeDefination, hd]
  cases hexist : facade.exist s.database (d.definition.id.getD "null") with
  | none => exact .inl ⟨.inl hexist, by simp [hexist]⟩
  | some exist =>
    cases exist with
    | true => exact .inr (.inl ⟨rfl, by simp [hexist]⟩)
    | false =>
      cases hpersist : facade.persist s.database d with
      | none => exact .inl ⟨.inr ⟨hexist, hpersist⟩, by simp [hexist, hpersist]⟩
      | some database => exact .inr (.inr ⟨database, rfl, rfl, by simp [hexist, hpersist]⟩)

lemma definition_writeComponents (request : HttpRequest) (d : ServedDevice) :
    (writeComponents request d).definition = d.definition := by
  have hkeep : ∀ (ids : List String) (d : ServedDevice), (ids.foldl
      (fun d localId => d.setCurrentStatus localId (request.getParameter localId)) d).definition
      = d.definition := by
    intro ids
    induction ids with
    | nil => exact fun d => rfl
    | cons first ids ih => exact fun d => ih _
  exact hkeep d.localIds d

lemma definitions_insert {s : DeviceServer} {id : String} {d d' : ServedDevice}
    (hd : s.devices.lookup id = some d) (h : d'.definition = d.definition) (other : String) :
    definitions { s with devices := s.devices.insert id d' } other = s.definitions other := by
  by_cases hid : other = id
  · subst hid
    simp [definitions, hd, h]
  · simp [definitions, hid]

/-- No other request changes the database or a definition. -/
lemma serve_of_other {s : DeviceServer} {request : HttpRequest}
    (h : ∀ d, ¬ DefinationWrite xml request d) :
    (s.serve xml order facade request).database = s.database
      ∧ ∀ id, (s.serve xml order facade request).definitions id = s.definitions id := by
  cases hget : s.doGet xml order facade request with
  | none => simp [serve, hget]
  | some r =>
    have hserve : s.serve xml order facade request = r.1 := by simp [serve, hget]
    rw [hserve]
    obtain ⟨command, hcommand, hget⟩ := Option.bind_eq_some_iff.mp hget
    split_ifs at hget with h₁ h₂ h₃ h₄
    · obtain ⟨text, -, hget⟩ := Option.bind_eq_some_iff.mp hget
      cases hget
      exact ⟨rfl, fun _ => rfl⟩
    · obtain ⟨s', hwrite, hget⟩ := Option.bind_eq_some_iff.mp hget
      obtain ⟨id, -, hwrite⟩ := Option.bind_eq_some_iff.mp hwrite
      obtain ⟨d, hd, hwrite⟩ := Option.bind_eq_some_iff.mp hwrite
      cases hget
      cases hwrite
      exact ⟨rfl, definitions_insert hd (definition_writeComponents request d)⟩
    · cases hget
      exact ⟨rfl, fun _ => rfl⟩
    · obtain ⟨s', hwrite, -⟩ := Option.bind_eq_some_iff.mp hget
      obtain ⟨d, hd, -⟩ := Option.bind_eq_some_iff.mp hwrite
      rw [h₄] at hcommand
      exact absurd ⟨hcommand, hd⟩ (h d)
    · cases hget
      exact ⟨rfl, fun _ => rfl⟩

end DeviceServer

/-! The law over runs. -/

/-- The server and the definitions that were written last. -/
structure Recorded where
  server : DeviceServer
  written : String → Option GeneralDevice

namespace Recorded

open DeviceServer

variable (xml : XmlLibrary) (order : HashOrder) (facade : PersistenceFacade)

def start (s : DeviceServer) : Recorded := ⟨s, fun _ => none⟩

/-- A `defination_write` that does not fail writes its definition. -/
def record (r : Recorded) (request : HttpRequest) (id : String) : Option GeneralDevice :=
  if request.getParameter "command" = some "defination_write"
      ∧ (r.server.doGet xml order facade request).isSome then
    match parsedDevice xml request.body with
    | none => r.written id
    | some d => if d.definition.id = some id then some d.definition else r.written id
  else
    r.written id

def step (r : Recorded) (request : HttpRequest) : Except Unit Recorded :=
  .ok ⟨r.server.serve xml order facade request, r.record xml order facade request⟩

/-- The map agrees with the database, and every device that was written is read as it was written
last. -/
structure AsLastWritten (r : Recorded) : Prop where
  agree : r.server.Agree
  reads : ∀ id definition, r.written id = some definition →
    r.server.Serves xml order facade id definition

/-- A definition that is written and not rejected is served already. -/
def WritesServed (r : Recorded) (request : HttpRequest) : Prop :=
  ∀ d, DefinationWrite xml request d → r.server.Rejected facade d ∨ r.server.Redundant d

lemma asLastWritten_start (all : DeviceStore) :
    (start (DeviceServer.init all)).AsLastWritten xml order facade := by
  refine ⟨fun id => ?_, fun id definition h => by cases h⟩
  change Option.Rel _ (all.lookup id) (all.lookup id)
  cases all.lookup id with
  | none => exact .none
  | some d => exact .some (SameDevice.refl d.definition)

lemma record_of_fails {r : Recorded} {request : HttpRequest}
    (h : r.server.doGet xml order facade request = none) :
    r.record xml order facade request = r.written := by
  funext id
  simp [record, h]

lemma record_of_other {r : Recorded} {request : HttpRequest}
    (h : ∀ d, ¬ DefinationWrite xml request d) :
    r.record xml order facade request = r.written := by
  funext id
  unfold record
  split_ifs with hwrite
  · cases hd : parsedDevice xml request.body with
    | none => rfl
    | some d => exact absurd ⟨hwrite.1, hd⟩ (h d)
  · rfl

lemma record_of_write {r : Recorded} {request : HttpRequest} {d : ServedDevice}
    (h : DefinationWrite xml request d) (hget : r.server.doGet xml order facade request ≠ none)
    (id : String) :
    r.record xml order facade request id
      = if d.definition.id = some id then some d.definition else r.written id := by
  rw [record, if_pos ⟨h.1, Option.isSome_iff_ne_none.mpr hget⟩, h.2]

/-- What other requests leave alone stays as it was written. -/
lemma asLastWritten_of_other {r : Recorded} (hr : r.AsLastWritten xml order facade)
    {request : HttpRequest} (h : ∀ d, ¬ DefinationWrite xml request d) :
    AsLastWritten xml order facade
      ⟨r.server.serve xml order facade request, r.record xml order facade request⟩ := by
  obtain ⟨hdatabase, hdefinitions⟩ := serve_of_other xml order facade h (s := r.server)
  rw [record_of_other xml order facade h]
  refine ⟨?_, ?_⟩
  · rw [agree_iff]
    intro id
    dsimp only
    rw [hdatabase, hdefinitions]
    exact agree_iff.mp hr.agree id
  · intro id definition hwritten
    exact (serves_congr xml order facade (hdefinitions id) definition).mpr
      (hr.reads id definition hwritten)

/-- A write of a device that is in the database changes only what is expected of the reads. -/
lemma asLastWritten_of_existing {r : Recorded} (hr : r.AsLastWritten xml order facade)
    {request : HttpRequest} {d : ServedDevice} (h : DefinationWrite xml request d)
    (hget : r.server.doGet xml order facade request = some (r.server, none)) :
    AsLastWritten xml order facade ⟨r.server, r.record xml order facade request⟩
      ↔ r.server.Redundant d := by
  have hparse := parsedDevice_eq_some h.2
  have hrecord := record_of_write xml order facade h (by simp [hget] :
    r.server.doGet xml order facade request ≠ none)
  obtain ⟨id, hid⟩ := Option.ne_none_iff_exists'.mp (parse_eq_some hparse).1
  constructor
  · intro hgood
    obtain ⟨d', hd', hsame, htext⟩ := (serves_iff xml order facade).mp
      (hgood.reads id d.definition (by simp [hrecord, hid]))
    exact ⟨(streamDevice_ne_none hparse hsame).mp htext, id, d', hid, hd', hsame⟩
  · rintro ⟨hchannel, id', d', hid', hd', hsame⟩
    refine ⟨hr.agree, fun other definition hwritten => ?_⟩
    dsimp only at hwritten ⊢
    rw [hrecord] at hwritten
    split_ifs at hwritten with hother
    · obtain rfl : id' = other := Option.some.inj (hid'.symm.trans hother)
      cases hwritten
      exact (serves_iff xml order facade).mpr
        ⟨d', hd', hsame, (streamDevice_ne_none hparse hsame).mpr hchannel⟩
    · exact hr.reads other definition hwritten

/-- A device that is stored under a free id is not in the map. -/
lemma not_agree_of_stored {s : DeviceServer} {id : String} {d : ServedDevice}
    (h : s.Agree) (hfree : s.database.lookup id = none) :
    s.devices.lookup id = none
      ∧ ¬ Agree { s with database := s.database.insert id d } := by
  have hnone : s.devices.lookup id = none := by
    have hid := h id
    rw [hfree] at hid
    cases hdevice : s.devices.lookup id with
    | none => rfl
    | some d =>
      rw [hdevice] at hid
      cases hid
  refine ⟨hnone, fun hagree => ?_⟩
  have hid := hagree id
  dsimp only at hid
  rw [AList.lookup_insert, hnone] at hid
  cases hid

/-- One request keeps the law exactly when it writes no definition but one that is served. -/
lemma step_asLastWritten_iff {r : Recorded} (hr : r.AsLastWritten xml order facade)
    (request : HttpRequest) :
    Returns (r.step xml order facade request) (AsLastWritten xml order facade)
      ↔ r.WritesServed xml facade request := by
  rw [step, returns_ok]
  by_cases hwrite : ∃ d, DefinationWrite xml request d
  · obtain ⟨d, hwrite⟩ := hwrite
    have hguard : r.WritesServed xml facade request
        ↔ r.server.Rejected facade d ∨ r.server.Redundant d := by
      constructor
      · exact fun h => h d hwrite
      · intro h d' hwrite'
        obtain rfl : d = d' := Option.some.inj (hwrite.2.symm.trans hwrite'.2)
        exact h
    rw [hguard]
    obtain ⟨hrejected, hget⟩ | ⟨hexist, hget⟩ | ⟨database, hexist, hpersist, hget⟩ :=
      doGet_defination xml order facade (s := r.server) hwrite
    · -- the exception leaves everything
      have hserve : r.server.serve xml order facade request = r.server := by simp [serve, hget]
      rw [hserve, record_of_fails xml order facade hget]
      exact ⟨fun _ => .inl hrejected, fun _ => hr⟩
    · have hserve : r.server.serve xml order facade request = r.server := by simp [serve, hget]
      have hrejected : ¬ r.server.Rejected facade d := by simp [Rejected, hexist]
      rw [hserve, asLastWritten_of_existing xml order facade hr hwrite hget]
      exact ⟨.inr, fun h => h.resolve_left hrejected⟩
    · -- the database has a device that the map has not
      have hserve : r.server.serve xml order facade request
          = { r.server with database := database } := by simp [serve, hget]
      have hrejected : ¬ r.server.Rejected facade d := by simp [Rejected, hexist, hpersist]
      obtain ⟨id, hid, hfree, rfl⟩ := facade.persist_eq hpersist
      obtain ⟨hnone, hagree⟩ := not_agree_of_stored (d := d) hr.agree hfree
      rw [hserve]
      constructor
      · exact fun h => absurd h.agree hagree
      · rintro (h | ⟨-, id', d', hid', hd', -⟩)
        · exact absurd h hrejected
        · obtain rfl : id = id' := Option.some.inj (hid.symm.trans hid')
          rw [hnone] at hd'
          cases hd'
  · have hnone : ∀ d, ¬ DefinationWrite xml request d := fun d h => hwrite ⟨d, h⟩
    exact ⟨fun _ d h => absurd h (hnone d),
      fun _ => asLastWritten_of_other xml order facade hr hnone⟩

/-- Over a run from the start of the server every device is read as it was written last, and the map
agrees with the database, exactly when no `defination_write` of the run that is not rejected brings
anything but a definition that is served already. -/
theorem definition_asLastWritten_iff (all : DeviceStore) (requests : List HttpRequest) :
    Holds (step xml order facade) (AsLastWritten xml order facade) (start (.init all)) requests
      ↔ Guarded (step xml order facade) (WritesServed xml facade) (start (.init all)) requests :=
  holds_iff_guarded (fun _ request hr => step_asLastWritten_iff xml order facade hr request)
    (asLastWritten_start xml order facade all) requests

def phoneElement : Element :=
  ⟨"generalDevice", [("id", "p1"), ("name", "phone"), ("ownerId", "u1"),
    ("supportedChannel", "[sms]")], .nil⟩

/-- The first write of a phone. -/
def firstWrite : HttpRequest where
  getParameter := fun name => if name = "command" then some "defination_write" else none
  body := plainXml.write phoneElement

lemma wellFormed_phoneElement : phoneElement.WellFormed := by
  refine ⟨validName_device _ (by simp [phoneElement]), ⟨?_, by simp [phoneElement]⟩, trivial⟩
  intro a ha
  simp only [phoneElement, List.mem_cons, List.not_mem_nil, or_false] at ha
  rcases ha with rfl | rfl | rfl | rfl
  · exact validName_device _ (by simp)
  · exact validName_device _ (by simp)
  · exact validName_device _ (by simp)
  · exact validName_device _ (by simp)

/-- The device that was written is in the database and not in the map. -/
theorem first_write_is_not_served :
    ¬ ∀ (xml : XmlLibrary) (order : HashOrder) (facade : PersistenceFacade) (all : DeviceStore)
      (requests : List HttpRequest), Holds (step xml order facade) (AsLastWritten xml order facade)
        (start (.init all)) requests := by
  intro hall
  have hread := (hall plainXml .sorted .plain ∅ [firstWrite]).2
  have hparse : ∃ d, DefinationWrite plainXml firstWrite d ∧ d.definition.id = some "p1" := by
    have hbody : parseDeviceDefination plainXml firstWrite.body = some {
        id := some "p1"
        name := some "phone"
        ownerId := some "u1"
        type := some ""
        supportedChannel := some {"sms"} } := by
      rw [parseDeviceDefination, firstWrite, plainXml.read_write _ wellFormed_phoneElement,
        Option.bind_some, phoneElement]
      simp [readDevice, Element.getAttribute, List.lookup, unbracket, substring, split,
        Element.getElementsByTagName, Forest.tagged]
    refine ⟨⟨_, keyed_parse hbody, fun _ => none⟩, ⟨rfl, ?_⟩, rfl⟩
    simp [parsedDevice, hbody]
  obtain ⟨d, hwrite, hid⟩ := hparse
  obtain ⟨r, hr, hgood⟩ := hread
  have hreturns : Returns (step plainXml .sorted .plain (start (.init ∅)) firstWrite)
      (AsLastWritten plainXml .sorted .plain) := ⟨r, hr, hgood⟩
  rw [step_asLastWritten_iff _ _ _ (asLastWritten_start _ _ _ ∅)] at hreturns
  rcases hreturns d hwrite with hrejected | ⟨-, id, d', -, hd', -⟩
  · simp [Rejected, PersistenceFacade.plain, start, DeviceServer.init, hid] at hrejected
  · simp [start, DeviceServer.init] at hd'

end Recorded

end MTalk.Assistance
