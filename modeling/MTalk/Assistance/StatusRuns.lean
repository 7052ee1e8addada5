import MTalk.Assistance.DeviceService

/-!
# The status of components over runs of requests

What a `status_read` gives against what was last supplied. A `status_write` keeps the two together
exactly when every component whose value it does not supply has no status to lose.
-/

namespace MTalk.Assistance

open MTalk.Xml MTalk.JavaText MTalk.GuardedRuns

/-! The status that is read. -/

namespace ServedDevice

variable (d : ServedDevice)

lemma validName_status : ∀ s ∈ ["deviceStatus", "statusItem", "localId", "status"],
    ValidName s := by
  simp only [List.forall_mem_cons, ValidName]
  simp
  and_intros
  all_goals decide

lemma wellFormed_statusItems (ids : List String) :
    (Forest.ofList (ids.map d.statusItem)).WellFormed := by
  induction ids with
  | nil => trivial
  | cons localId ids ih =>
    refine ⟨validName_status _ (by simp [statusItem]), ⟨?_, by simp [statusItem]⟩, trivial, ih⟩
    intro a ha
    simp only [statusItem, List.mem_cons, List.not_mem_nil, or_false] at ha
    rcases ha with rfl | rfl
    · exact validName_status _ (by simp)
    · exact validName_status _ (by simp)

/-- The map that the items are put into has the status of each component in them. -/
lemma lookup_statusItems (ids : List String) (rst : AList fun _ : String => String)
    (localId : String) :
    ((ids.map d.statusItem).foldl
      (fun rst v => rst.insert (v.getAttribute "localId") (v.getAttribute "status")) rst).lookup
        localId
      = if localId ∈ ids then some ((d.currentStatus localId).getD "") else rst.lookup localId := by
  induction ids generalizing rst with
  | nil => simp
  | cons first ids ih =>
    have hid : (d.statusItem first).getAttribute "localId" = first := by
      simp [statusItem, Element.getAttribute]
    have hstatus : (d.statusItem first).getAttribute "status"
        = (d.currentStatus first).getD "" := by
      simp [statusItem, Element.getAttribute, List.lookup]
    rw [List.map_cons, List.foldl_cons, ih, hid, hstatus]
    by_cases hmem : localId ∈ ids
    · simp [hmem]
    · by_cases hfirst : localId = first
      · subst hfirst
        simp [hmem]
      · simp [hmem, hfirst]

/-- The client reads the status of every component, the empty text for a null. -/
lemma parse_streamDeviceStatus (xml : XmlLibrary) (localId : String) :
    (parseDeviceParams xml (d.streamDeviceStatus xml)).lookup localId
      = if localId ∈ d.localIds then some ((d.currentStatus localId).getD "") else none := by
  have hvalid :
      (⟨"deviceStatus", [], .ofList (d.localIds.map d.statusItem)⟩ : Element).WellFormed :=
    ⟨validName_status _ (by simp), ⟨by simp, by simp⟩, d.wellFormed_statusItems _⟩
  have hleaves : ∀ e ∈ d.localIds.map d.statusItem, e.name = "statusItem" ∧ e.children = .nil := by
    intro e he
    obtain ⟨l, -, rfl⟩ := List.mem_map.mp he
    exact ⟨rfl, rfl⟩
  rw [parseDeviceParams, streamDeviceStatus, xml.read_write _ hvalid]
  dsimp only
  rw [Element.getElementsByTagName, tagged_ofList hleaves, if_pos rfl, d.lookup_statusItems,
    AList.lookup_empty]

end ServedDevice

namespace DeviceServer

variable (xml : XmlLibrary) (order : HashOrder) (facade : PersistenceFacade)

/-- The status of a component that a client reads. -/
def readBack (s : DeviceServer) (id localId : String) : Option String :=
  (s.response xml order facade (.read "status_read" id)).bind fun text =>
    (parseDeviceParams xml text).lookup localId

lemma readBack_eq {s : DeviceServer} {id : String} {d : ServedDevice}
    (hd : s.devices.lookup id = some d) {localId : String} (hl : localId ∈ d.localIds) :
    s.readBack xml order facade id localId = some ((d.currentStatus localId).getD "") := by
  have hresponse : s.response xml order facade (.read "status_read" id)
      = some (d.streamDeviceStatus xml) := by
    simp [response, doGet, HttpRequest.read, readStatus, getDevice, hd]
  rw [readBack, hresponse, Option.bind_some, d.parse_streamDeviceStatus, if_pos hl]

/-! What a request does to the map of the devices. -/

/-- The request is an accepted `status_write` of the device. -/
def StatusWrite (s : DeviceServer) (request : HttpRequest) (id : String)
    (d : ServedDevice) : Prop :=
  request.getParameter "command" = some "status_write"
    ∧ request.getParameter "deviceId" = some id ∧ s.devices.lookup id = some d

lemma foldl_setCurrentStatus (request : HttpRequest) (ids : List String) (d : ServedDevice) :
    ids.foldl (fun d localId => d.setCurrentStatus localId (request.getParameter localId)) d
      = { d with currentStatus := fun l =>
            if l ∈ ids then request.getParameter l else d.currentStatus l } := by
  induction ids generalizing d with
  | nil => simp
  | cons first ids ih =>
    rw [List.foldl_cons, ih]
    simp only [ServedDevice.setCurrentStatus, ServedDevice.mk.injEq, true_and]
    funext l
    by_cases hmem : l ∈ ids
    · simp [hmem]
    · by_cases hfirst : l = first
      · subst hfirst
        simp [hmem]
      · simp [hmem, hfirst]

/-- After the loop every component has the value of its parameter. -/
lemma writeComponents_eq (request : HttpRequest) (d : ServedDevice) :
    writeComponents request d = { d with currentStatus := fun l =>
      if l ∈ d.localIds then request.getParameter l else d.currentStatus l } :=
  foldl_setCurrentStatus request d.localIds d

@[simp] lemma localIds_writeComponents (request : HttpRequest) (d : ServedDevice) :
    (writeComponents request d).localIds = d.localIds := by
  rw [writeComponents_eq]
  rfl

lemma devices_of_statusWrite {s : DeviceServer} {request : HttpRequest} {id : String}
    {d : ServedDevice} (h : s.StatusWrite request id d) :
    (s.serve xml order facade request).devices
      = s.devices.insert id (writeComponents request d) := by
  obtain ⟨hcommand, hid, hd⟩ := h
  simp [serve, doGet, hcommand, writeStatus, hid, hd]

lemma devices_writeDefination {s s' : DeviceServer} {request : HttpRequest}
    (h : s.writeDefination xml facade request = some s') : s'.devices = s.devices := by
  obtain ⟨d, -, h⟩ := Option.bind_eq_some_iff.mp h
  obtain ⟨exist, -, h⟩ := Option.bind_eq_some_iff.mp h
  cases exist with
  | true =>
    cases h
    rfl
  | false =>
    obtain ⟨database, -, h⟩ := Option.bind_eq_some_iff.mp h
    cases h
    rfl

/-- No other request changes the map. -/
lemma devices_of_other {s : DeviceServer} {request : HttpRequest}
    (h : ∀ id d, ¬ s.StatusWrite request id d) :
    (s.serve xml order facade request).devices = s.devices := by
  cases hget : s.doGet xml order facade request with
  | none => simp [serve, hget]
  | some r =>
    have hserve : s.serve xml order facade request = r.1 := by simp [serve, hget]
    rw [hserve]
    obtain ⟨command, hcommand, hget⟩ := Option.bind_eq_some_iff.mp hget
    split_ifs at hget with h₁ h₂ h₃ h₄
    · obtain ⟨text, -, hget⟩ := Option.bind_eq_some_iff.mp hget
      cases hget
      rfl
    · obtain ⟨s', hwrite, hget⟩ := Option.bind_eq_some_iff.mp hget
      obtain ⟨id, hid, hwrite⟩ := Option.bind_eq_some_iff.mp hwrite
      obtain ⟨d, hd, -⟩ := Option.bind_eq_some_iff.mp hwrite
      rw [h₂] at hcommand
      exact absurd ⟨hcommand, hid, hd⟩ (h id d)
    · cases hget
      rfl
    · obtain ⟨s', hwrite, hget⟩ := Option.bind_eq_some_iff.mp hget
      cases hget
      exact devices_writeDefination xml facade hwrite
    · cases hget
      rfl

end DeviceServer

/-! The law over runs. -/

/-- The server and the status that each component should have by the values supplied so far. -/
structure Watched where
  server : DeviceServer
  expected : String → String → String

namespace Watched

open DeviceServer

variable (xml : XmlLibrary) (order : HashOrder) (facade : PersistenceFacade)

/-- At the start the status that is read. -/
def start (s : DeviceServer) : Watched :=
  ⟨s, fun id localId => (s.readBack xml order facade id localId).getD ""⟩

/-- The values that an accepted `status_write` supplies are the expected ones from then on. -/
def supply (w : Watched) (request : HttpRequest) (id localId : String) : String :=
  if request.getParameter "command" = some "status_write"
      ∧ request.getParameter "deviceId" = some id ∧ (w.server.devices.lookup id).isSome then
    (request.getParameter localId).getD (w.expected id localId)
  else
    w.expected id localId

def step (w : Watched) (request : HttpRequest) : Except Unit Watched :=
  .ok ⟨w.server.serve xml order facade request, w.supply request⟩

/-- Every component of every device is read with the status it should have. -/
def LastWriterWins (w : Watched) : Prop :=
  ∀ id d, w.server.devices.lookup id = some d → ∀ localId ∈ d.localIds,
    w.server.readBack xml order facade id localId = some (w.expected id localId)

/-- A component that the `status_write` does not supply has no status to lose. -/
def Supplies (w : Watched) (request : HttpRequest) : Prop :=
  ∀ id d, w.server.StatusWrite request id d → ∀ localId ∈ d.localIds,
    request.getParameter localId = none → (d.currentStatus localId).getD "" = ""

lemma lastWriterWins_start (s : DeviceServer) :
    (start xml order facade s).LastWriterWins xml order facade := by
  intro id d hd localId hl
  simp only [start] at hd ⊢
  rw [readBack_eq xml order facade hd hl]
  rfl

lemma supply_of_other {w : Watched} {request : HttpRequest} {id : String}
    (h : ∀ d, ¬ w.server.StatusWrite request id d) (localId : String) :
    w.supply request id localId = w.expected id localId := by
  apply if_neg
  rintro ⟨hcommand, hid, hsome⟩
  obtain ⟨d, hd⟩ := Option.isSome_iff_exists.mp hsome
  exact h d ⟨hcommand, hid, hd⟩

lemma supply_of_statusWrite {w : Watched} {request : HttpRequest} {id : String} {d : ServedDevice}
    (h : w.server.StatusWrite request id d) (localId : String) :
    w.supply request id localId
      = (request.getParameter localId).getD (w.expected id localId) := by
  obtain ⟨hcommand, hid, hd⟩ := h
  exact if_pos ⟨hcommand, hid, by simp [hd]⟩

/-- The map agrees with what is expected. -/
lemma lastWriterWins_iff {w : Watched} : w.LastWriterWins xml order facade ↔
    ∀ id d, w.server.devices.lookup id = some d → ∀ l ∈ d.localIds,
      (d.currentStatus l).getD "" = w.expected id l := by
  unfold LastWriterWins
  constructor
  · intro h id d hd l hl
    have hread := h id d hd l hl
    rw [readBack_eq xml order facade hd hl] at hread
    exact Option.some.inj hread
  · intro h id d hd l hl
    rw [readBack_eq xml order facade hd hl, h id d hd l hl]

/-- A write keeps the law for its own device when it takes no status away, and in any case for the
other devices. -/
lemma lastWriterWins_of_write {w : Watched} (hw : w.LastWriterWins xml order facade)
    {request : HttpRequest} {id : String} {d : ServedDevice}
    (h : w.server.StatusWrite request id d) :
    LastWriterWins xml order facade
        ⟨w.server.serve xml order facade request, w.supply request⟩
      ↔ ∀ l ∈ d.localIds, request.getParameter l = none → (d.currentStatus l).getD "" = "" := by
  rw [lastWriterWins_iff] at hw ⊢
  dsimp only
  rw [devices_of_statusWrite xml order facade h]
  have hstatus : ∀ l ∈ d.localIds,
      (writeComponents request d).currentStatus l = request.getParameter l := by
    intro l hl
    rw [writeComponents_eq]
    exact if_pos hl
  constructor
  · intro hgood l hl hnone
    have hread := hgood id (writeComponents request d) (AList.lookup_insert _) l (by simpa using hl)
    rw [hstatus l hl, supply_of_statusWrite h, hnone, ← hw id d h.2.2 l hl] at hread
    exact hread.symm
  · intro hsupplies id' d' hd' l hl
    by_cases hid : id' = id
    · subst hid
      rw [AList.lookup_insert, Option.some.injEq] at hd'
      subst hd'
      rw [localIds_writeComponents] at hl
      rw [hstatus l hl, supply_of_statusWrite h, ← hw id' d h.2.2 l hl]
      cases hvalue : request.getParameter l with
      | some value => rfl
      | none => exact (hsupplies l hl hvalue).symm
    · rw [AList.lookup_insert_ne hid] at hd'
      have hother : ∀ d, ¬ w.server.StatusWrite request id' d := by
        intro d' hwrite
        apply hid
        exact Option.some.inj (hwrite.2.1.symm.trans h.2.1)
      rw [supply_of_other hother, hw id' d' hd' l hl]

lemma lastWriterWins_of_other {w : Watched} (hw : w.LastWriterWins xml order facade)
    {request : HttpRequest} (h : ∀ id d, ¬ w.server.StatusWrite request id d) :
    LastWriterWins xml order facade
      ⟨w.server.serve xml order facade request, w.supply request⟩ := by
  rw [lastWriterWins_iff] at hw ⊢
  dsimp only
  rw [devices_of_other xml order facade h]
  intro id d hd l hl
  rw [supply_of_other (h id), hw id d hd l hl]

/-- One request keeps the law exactly when it takes no status away. -/
lemma step_lastWriterWins_iff {w : Watched} (hw : w.LastWriterWins xml order facade)
    (request : HttpRequest) :
    Returns (w.step xml order facade request) (LastWriterWins xml order facade)
      ↔ w.Supplies request := by
  rw [step, returns_ok]
  by_cases hwrite : ∃ id d, w.server.StatusWrite request id d
  · obtain ⟨id, d, hwrite⟩ := hwrite
    rw [lastWriterWins_of_write xml order facade hw hwrite]
    constructor
    · intro h id' d' hwrite'
      obtain rfl : id = id' := Option.some.inj (hwrite.2.1.symm.trans hwrite'.2.1)
      obtain rfl : d = d' := Option.some.inj (hwrite.2.2.symm.trans hwrite'.2.2)
      exact h
    · exact fun h => h id d hwrite
  · have hnone : ∀ id d, ¬ w.server.StatusWrite request id d :=
      fun id d h => hwrite ⟨id, d, h⟩
    constructor
    · exact fun _ id d h => absurd h (hnone id d)
    · exact fun _ => lastWriterWins_of_other xml order facade hw hnone

/-- Over a run the status that is read is the one supplied last exactly when no `status_write` of
the run leaves out a component that has a status. -/
theorem status_lastWriterWins_iff (s : DeviceServer) (requests : List HttpRequest) :
    Holds (step xml order facade) (LastWriterWins xml order facade) (start xml order facade s)
        requests
      ↔ Guarded (step xml order facade) Supplies (start xml order facade s) requests :=
  holds_iff_guarded (fun _ request hw => step_lastWriterWins_iff xml order facade hw request)
    (lastWriterWins_start xml order facade s) requests

/-- A phone with one sensor. -/
def servedPhone : ServedDevice where
  definition := phoneDevice
  keyed := by
    intro key c hc
    by_cases hkey : key = some "gps"
    · subst hkey
      cases hc
      exact ⟨by simp, rfl⟩
    · rw [phoneDevice, AList.lookup_insert_ne hkey] at hc
      simp at hc
  currentStatus := fun _ => none

/-- A `status_write` of the phone with the value of its sensor, or without. -/
def phoneWrite (gps : Option String) : HttpRequest where
  getParameter := fun name =>
    if name = "command" then some "status_write"
    else if name = "deviceId" then some "p1"
    else if name = "gps" then gps
    else none
  body := ""

/-- The second write does not supply the sensor, and its status is gone. -/
theorem status_is_lost :
    ¬ ∀ (xml : XmlLibrary) (order : HashOrder) (facade : PersistenceFacade) (s : DeviceServer)
      (requests : List HttpRequest), Holds (step xml order facade)
        (LastWriterWins xml order facade) (start xml order facade s) requests := by
  intro hall
  have hphone : (DeviceServer.init ((∅ : DeviceStore).insert "p1" servedPhone)).StatusWrite
      (phoneWrite (some "on")) "p1" servedPhone := ⟨rfl, rfl, rfl⟩
  obtain ⟨-, w, hw, -, w', hw', hgood⟩ := hall plainXml .sorted .plain
    (.init ((∅ : DeviceStore).insert "p1" servedPhone)) [phoneWrite (some "on"), phoneWrite none]
  cases hw
  cases hw'
  have hread := (lastWriterWins_iff _ _ _).mp hgood "p1" _ rfl "gps" (by decide)
  revert hread
  decide

end Watched

end MTalk.Assistance
