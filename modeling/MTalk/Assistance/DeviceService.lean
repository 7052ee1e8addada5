import MTalk.Assistance.Devices
import MTalk.Library.GuardedRuns

/-!
# The device service

`DeviceService` answers requests for the status and the definition of devices. `DeviceManager` keeps
a map of the devices of the database, filled once at the start; the reads and `status_write` go to
that map, `defination_write` goes to the database. A `status_write` sets every component of the
device, so a component whose value the request does not give loses its status.
-/

namespace MTalk.Assistance

open MTalk.Xml MTalk.JavaText MTalk.GuardedRuns

/-- Every component of the device is under its local id. -/
def GeneralDevice.Keyed (d : GeneralDevice) : Prop :=
  ∀ key c, d.components.lookup key = some c → key ≠ none ∧ c.localId = key

/-- A device with the current status of its components by their local ids. -/
structure ServedDevice where
  definition : GeneralDevice
  keyed : definition.Keyed
  currentStatus : String → Option String

namespace ServedDevice

/-- The local ids of the components in the order of the map. -/
def localIds (d : ServedDevice) : List String := d.definition.values.filterMap (·.localId)

/-- `setCurrentStatus` of the component with the local id. -/
def setCurrentStatus (d : ServedDevice) (localId : String) (value : Option String) : ServedDevice :=
  { d with currentStatus := Function.update d.currentStatus localId value }

/-- One item that `ProtocolStreamer.streamDeviceStatus` writes. -/
def statusItem (d : ServedDevice) (localId : String) : Element :=
  ⟨"statusItem", [("localId", localId), ("status", (d.currentStatus localId).getD "")], .nil⟩

/-- `ProtocolStreamer.streamDeviceStatus`. -/
def streamDeviceStatus (xml : XmlLibrary) (d : ServedDevice) : String :=
  xml.write ⟨"deviceStatus", [], .ofList (d.localIds.map d.statusItem)⟩

end ServedDevice

/-- `ProtocolParser.parseDeviceParams`: nothing if the text cannot be read. -/
def parseDeviceParams (xml : XmlLibrary) (text : String) : AList fun _ : String => String :=
  match xml.read text with
  | none => ∅
  | some root => (root.getElementsByTagName "statusItem").foldl
      (fun rst v => rst.insert (v.getAttribute "localId") (v.getAttribute "status")) ∅

/-- The devices of the database by their ids. -/
abbrev DeviceStore := AList fun _ : String => ServedDevice

/-- What the service relies on of `PersistenceFacade`: both calls may fail, and `persist` adds the
device under an id that is free. -/
structure PersistenceFacade where
  exist : DeviceStore → String → Option Bool
  persist : DeviceStore → ServedDevice → Option DeviceStore
  persist_eq : ∀ {store store' d}, persist store d = some store' →
    ∃ id, d.definition.id = some id ∧ store.lookup id = none ∧ store' = store.insert id d

/-- A database that only fails where the id is not free. -/
def PersistenceFacade.plain : PersistenceFacade where
  exist store id := some (store.lookup id).isSome
  persist store d :=
    match d.definition.id with
    | none => none
    | some id => if store.lookup id = none then some (store.insert id d) else none
  persist_eq := by
    intro store store' d h
    split at h
    · cases h
    · rename_i id hid
      split_ifs at h with hfree
      exact ⟨id, hid, hfree, (Option.some.inj h).symm⟩

/-- The map of `DeviceManager` and the database. -/
structure DeviceServer where
  devices : DeviceStore
  database : DeviceStore

/-- A request: its parameters and the text it carries. -/
structure HttpRequest where
  getParameter : String → Option String
  body : String

namespace DeviceServer

/-- `DeviceManager.init`. -/
def init (all : DeviceStore) : DeviceServer := ⟨all, all⟩

/-- `DeviceManager.getDevice`. -/
def getDevice (s : DeviceServer) (deviceId : Option String) : Option ServedDevice :=
  deviceId.bind s.devices.lookup

/-- `DeviceService.readStatus`, an exception for a device that is not in the map. -/
def readStatus (xml : XmlLibrary) (s : DeviceServer) (request : HttpRequest) : Option String :=
  (s.getDevice (request.getParameter "deviceId")).map (·.streamDeviceStatus xml)

/-- The loop over the components in `DeviceService.writeStatus`. -/
def writeComponents (request : HttpRequest) (d : ServedDevice) : ServedDevice :=
  d.localIds.foldl (fun d localId => d.setCurrentStatus localId (request.getParameter localId)) d

/-- `DeviceService.writeStatus`, an exception for a device that is not in the map. -/
def writeStatus (s : DeviceServer) (request : HttpRequest) : Option DeviceServer := do
  let id ← request.getParameter "deviceId"
  let d ← s.devices.lookup id
  some { s with devices := s.devices.insert id (writeComponents request d) }

/-- `DeviceService.readDefination`: the text of the device, or none. -/
def readDefination (xml : XmlLibrary) (order : HashOrder) (s : DeviceServer)
    (request : HttpRequest) : Option String :=
  (s.getDevice (request.getParameter "deviceId")).bind fun d => streamDevice xml order d.definition

end DeviceServer

/-! The definition that a parser gives. -/

lemma lookup_components {node : Element} {key : Option String} {c : DeviceComponent}
    (h : (components node).lookup key = some c) :
    c.localId = key ∧ ∃ com, readComponent com = c := by
  have hmap : components node
      = ((node.getElementsByTagName "deviceComponent").map readComponent).foldl
        (fun coms c => coms.insert c.localId c) ∅ := by
    rw [components, List.foldl_map]
  rw [hmap, lookup_foldl_insert, AList.lookup_empty, Option.or_none] at h
  obtain ⟨com, -, hcom⟩ := List.mem_map.mp (List.mem_reverse.mp (List.mem_of_find?_eq_some h))
  exact ⟨by simpa using List.find?_some h, com, hcom⟩

/-- A device that is read has its texts, and its components under their local ids. -/
lemma parse_eq_some {xml : XmlLibrary} {text : String} {d : GeneralDevice}
    (h : parseDeviceDefination xml text = some d) :
    d.id ≠ none ∧ d.name ≠ none ∧ d.ownerId ≠ none
      ∧ ∀ key c, d.components.lookup key = some c →
        c.localId = key ∧ ∃ com, readComponent com = c := by
  obtain ⟨nd, -, h⟩ := Option.bind_eq_some_iff.mp h
  obtain ⟨ss, -, h⟩ := Option.bind_eq_some_iff.mp h
  cases h
  refine ⟨by simp, by simp, by simp, ?_⟩
  intro key c hc
  dsimp only at hc
  split at hc
  · simp at hc
  · exact lookup_components hc

lemma keyed_parse {xml : XmlLibrary} {text : String} {d : GeneralDevice}
    (h : parseDeviceDefination xml text = some d) : d.Keyed := by
  intro key c hc
  obtain ⟨hkey, com, rfl⟩ := (parse_eq_some h).2.2.2 key c hc
  exact ⟨by rw [← hkey]; simp [readComponent], hkey⟩

/-- The device in the text of a request, new, so without any status. -/
def parsedDevice (xml : XmlLibrary) (text : String) : Option ServedDevice :=
  (parseDeviceDefination xml text).pmap (fun d h => ⟨d, h, fun _ => none⟩) fun _ h => keyed_parse h

namespace DeviceServer

/-- `DeviceService.writeDefination`, an exception for a text that is no device, and where the
database fails. -/
def writeDefination (xml : XmlLibrary) (facade : PersistenceFacade) (s : DeviceServer)
    (request : HttpRequest) : Option DeviceServer := do
  let d ← parsedDevice xml request.body
  let exist ← facade.exist s.database (d.definition.id.getD "null")
  if exist then
    some s
  else
    let database ← facade.persist s.database d
    some { s with database := database }

/-- `DeviceService.doGet`: the server and the text of the response, or an exception. The requests
for relations do not touch the devices, and their responses are left out. -/
def doGet (xml : XmlLibrary) (order : HashOrder) (facade : PersistenceFacade) (s : DeviceServer)
    (request : HttpRequest) : Option (DeviceServer × Option String) := do
  let command ← request.getParameter "command"
  if command = "status_read" then
    let text ← s.readStatus xml request
    some (s, some text)
  else if command = "status_write" then
    let s' ← s.writeStatus request
    some (s', none)
  else if command = "defination_read" then
    some (s, s.readDefination xml order request)
  else if command = "defination_write" then
    let s' ← s.writeDefination xml facade request
    some (s', none)
  else
    some (s, none)

/-- The server after a request. A request that fails changes nothing. -/
def serve (xml : XmlLibrary) (order : HashOrder) (facade : PersistenceFacade) (s : DeviceServer)
    (request : HttpRequest) : DeviceServer :=
  ((s.doGet xml order facade request).map Prod.fst).getD s

/-- The text of the response. -/
def response (xml : XmlLibrary) (order : HashOrder) (facade : PersistenceFacade) (s : DeviceServer)
    (request : HttpRequest) : Option String :=
  (s.doGet xml order facade request).bind Prod.snd

end DeviceServer

/-- The request to read something of a device. -/
def HttpRequest.read (command id : String) : HttpRequest where
  getParameter := fun name =>
    if name = "command" then some command else if name = "deviceId" then some id else none
  body := ""

end MTalk.Assistance
