import MTalk.Assistance.Relations
import MTalk.Library.GuardedRuns

/-!
# Composite ids

A component has the id of its device, an underscore and its local id; a relationship has the ids of
its two ends with a hyphen between them. `DeviceControlAction.control` splits the id of a component
at the underscores. Nothing keeps the separators out of the parts.
-/

namespace MTalk.Assistance

open MTalk.JavaText MTalk.GuardedRuns

/-- A text in a concatenation. -/
def concatenated (s : Option String) : String := s.getD "null"

/-- The id that `GeneralDevice.componentId` gives to a component. -/
def componentKey (id localId : Option String) : String :=
  concatenated id ++ "_" ++ concatenated localId

/-- `GeneralDevice.componentId`: the components with their ids. -/
def GeneralDevice.componentId (d : GeneralDevice) : List (String × DeviceComponent) :=
  d.values.map fun c => (componentKey d.id c.localId, c)

/-- The id that `DeviceRelationAction.save` gives to a relationship. -/
def relationshipKey (r : Relationship) : String := r.fromId ++ "-" ++ r.toId

/-- What `control` asks of `PersistenceFacade`. -/
structure ControlQueries where
  unique : String → Option String
  find : String → Option DeviceComponent

/-- What the actions throw. -/
inductive ActionError where
  | nullPointer
  | arrayIndexOutOfBounds
  deriving DecidableEq

structure DeviceControlAction where
  requestId : Option String := none
  id : Option String := none
  localId : Option String := none
  deviceType : Option String := none
  component : Option DeviceComponent := none

/-- `ids[i]`. -/
def element (ids : List String) (i : ℕ) : Except ActionError String :=
  match ids[i]? with
  | some s => .ok s
  | none => .error .arrayIndexOutOfBounds

/-- `DeviceControlAction.control`. -/
def DeviceControlAction.control (env : ControlQueries) (a : DeviceControlAction) :
    Except ActionError (DeviceControlAction × String) :=
  match a.requestId with
  | none => .error .nullPointer
  | some requestId =>
    if '_' ∉ requestId.toList then
      .ok ({ a with
        id := some requestId
        deviceType := env.unique
          ("select type from GeneralDevice where id = '" ++ requestId ++ "'") }, "device")
    else do
      let ids := (split '_' requestId.toList).map String.ofList
      let id ← element ids 0
      let localId ← element ids 1
      return ({ a with
        id := some id
        localId := some localId
        component := env.find requestId }, "component")

/-- The request with the id of a component leads to its device and to the component. -/
def Decodes (env : ControlQueries) (id localId : String) : Prop :=
  Returns (DeviceControlAction.control env { requestId := some (componentKey id localId) })
    fun r => r.2 = "component" ∧ r.1.id = some id ∧ r.1.localId = some localId ∧
      r.1.component = env.find (componentKey id localId)

lemma componentKey_toList (id localId : String) :
    (componentKey id localId).toList = id.toList ++ '_' :: localId.toList := by
  simp [componentKey, concatenated]

lemma element_eq_ok {ids : List String} {i : ℕ} {s : String} :
    element ids i = .ok s ↔ ids[i]? = some s := by
  unfold element
  cases ids[i]? <;> simp

/-- `control` finds the two parts if and only if the underscore is in neither. -/
theorem decodes_iff (env : ControlQueries) {id localId : String} (hlocal : localId ≠ "") :
    Decodes env id localId ↔ '_' ∉ id.toList ∧ '_' ∉ localId.toList := by
  have hne : localId.toList ≠ [] := by simpa using hlocal
  rw [← split_pair_iff hne, ← componentKey_toList]
  have hmem : '_' ∈ (componentKey id localId).toList := by simp [componentKey_toList]
  have hpart : ∀ (i : ℕ) (s : String),
      ((split '_' (componentKey id localId).toList).map String.ofList)[i]? = some s ↔
        (split '_' (componentKey id localId).toList)[i]? = some s.toList := by
    intro i s
    rw [List.getElem?_map, Option.map_eq_some_iff]
    constructor
    · rintro ⟨part, hpart, rfl⟩
      rw [hpart, String.toList_ofList]
    · intro h
      exact ⟨s.toList, h, String.ofList_toList⟩
  unfold Decodes DeviceControlAction.control
  dsimp only
  rw [if_neg (not_not.mpr hmem)]
  constructor
  · rintro ⟨r, hr, -, hid, hlocalId, -⟩
    obtain ⟨first, hfirst, hr⟩ := bind_eq_ok.mp hr
    obtain ⟨second, hsecond, hr⟩ := bind_eq_ok.mp hr
    obtain rfl := Except.ok.inj hr
    obtain rfl := Option.some.inj hid
    obtain rfl := Option.some.inj hlocalId
    exact ⟨(hpart 0 _).mp (element_eq_ok.mp hfirst), (hpart 1 _).mp (element_eq_ok.mp hsecond)⟩
  · rintro ⟨hfirst, hsecond⟩
    rw [element_eq_ok.mpr ((hpart 0 id).mpr hfirst), ok_bind,
      element_eq_ok.mpr ((hpart 1 localId).mpr hsecond), ok_bind]
    exact returns_pure.mpr ⟨rfl, rfl, rfl, rfl⟩

/-- No other pair of texts that are not empty makes the same id. -/
def UniqueId (make : String → String → String) (a b : String) : Prop :=
  ∀ a' b', a' ≠ "" → b' ≠ "" → make a' b' = make a b → a' = a ∧ b' = b

/-- Two texts with a character between them make an id that no other pair makes if and only if the
character is in the first only at its start and in the second only at its end. -/
lemma uniqueId_iff {make : String → String → String} {c : Char}
    (hmake : ∀ a b, (make a b).toList = a.toList ++ c :: b.toList) {a b : String} (ha : a ≠ "")
    (hb : b ≠ "") : UniqueId make a b ↔ c ∉ a.toList.tail ∧ c ∉ b.toList.dropLast := by
  have hempty : ∀ s : String, s ≠ "" ↔ s.toList ≠ [] := by simp
  rw [← join_unique_iff ((hempty a).mp ha) ((hempty b).mp hb)]
  constructor
  · intro h a' b' ha' hb' heq
    have hboth := h (String.ofList a') (String.ofList b') (by simpa [hempty] using ha')
      (by simpa [hempty] using hb') (by rw [← String.toList_inj, hmake, hmake]; simpa using heq)
    rw [← hboth.1, ← hboth.2]
    simp
  · intro h a' b' ha' hb' heq
    rw [← String.toList_inj, hmake, hmake] at heq
    have hboth := h a'.toList b'.toList ((hempty a').mp ha') ((hempty b').mp hb') heq
    exact ⟨String.toList_inj.mp hboth.1, String.toList_inj.mp hboth.2⟩

lemma uniqueId_component_iff {id localId : String} (hid : id ≠ "") (hlocal : localId ≠ "") :
    UniqueId (fun id localId => componentKey id localId) id localId ↔
      '_' ∉ id.toList.tail ∧ '_' ∉ localId.toList.dropLast :=
  uniqueId_iff (fun id localId => componentKey_toList id localId) hid hlocal

lemma uniqueId_relationship_iff {fromId toId : String} (hfrom : fromId ≠ "") (hto : toId ≠ "") :
    UniqueId (fun fromId toId => relationshipKey ⟨fromId, toId, none, none⟩) fromId toId ↔
      '-' ∉ fromId.toList.tail ∧ '-' ∉ toId.toList.dropLast :=
  uniqueId_iff (fun fromId toId => by simp [relationshipKey]) hfrom hto

/-! The components of several devices in one table. -/

/-- A part of an id that is not empty and has no underscore. -/
def Plain (s : Option String) : Prop := ∃ t : String, s = some t ∧ t ≠ "" ∧ '_' ∉ t.toList

/-- The table of the components of the devices. -/
def componentTable (ds : List GeneralDevice) : List (String × DeviceComponent) :=
  ds.flatMap GeneralDevice.componentId

/-- Devices with different plain ids, and with different plain local ids for their components. -/
structure Registered (ds : List GeneralDevice) : Prop where
  id_plain : ∀ d ∈ ds, Plain d.id
  localId_plain : ∀ d ∈ ds, ∀ c ∈ d.values, Plain c.localId
  id_inj : ∀ d ∈ ds, ∀ d' ∈ ds, d.id = d'.id → d = d'
  localId_inj : ∀ d ∈ ds, ∀ c ∈ d.values, ∀ c' ∈ d.values, c.localId = c'.localId → c = c'

lemma componentKey_inj {id localId id' localId' : Option String} (hid : Plain id)
    (hlocal : Plain localId) (hid' : Plain id') (hlocal' : Plain localId')
    (h : componentKey id' localId' = componentKey id localId) : id' = id ∧ localId' = localId := by
  obtain ⟨a, rfl, ha, hplain⟩ := hid
  obtain ⟨b, rfl, hb, hplain'⟩ := hlocal
  obtain ⟨a', rfl, ha', -⟩ := hid'
  obtain ⟨b', rfl, hb', -⟩ := hlocal'
  have hunique := (uniqueId_component_iff ha hb).mpr
    ⟨fun hmem => hplain (List.mem_of_mem_tail hmem),
      fun hmem => hplain' (List.mem_of_mem_dropLast hmem)⟩
  obtain ⟨rfl, rfl⟩ := hunique a' b' ha' hb' h
  exact ⟨rfl, rfl⟩

lemma lookup_of_unique {table : List (String × DeviceComponent)} {key : String}
    {c : DeviceComponent} (hin : (key, c) ∈ table) (honly : ∀ r ∈ table, r.1 = key → r.2 = c) :
    table.lookup key = some c := by
  induction table with
  | nil => simp at hin
  | cons r table ih =>
    rw [List.lookup_cons]
    split
    next hkey => rw [honly r List.mem_cons_self (eq_of_beq hkey).symm]
    next hkey =>
      refine ih ?_ fun r' hr' => honly r' (List.mem_cons_of_mem r hr')
      rcases List.mem_cons.mp hin with rfl | hin
      · simp at hkey
      · exact hin

/-- The table has one component under each id. -/
lemma Registered.lookup {ds : List GeneralDevice} (h : Registered ds) {d : GeneralDevice}
    (hd : d ∈ ds) {c : DeviceComponent} (hc : c ∈ d.values) :
    (componentTable ds).lookup (componentKey d.id c.localId) = some c := by
  have hin : (componentKey d.id c.localId, c) ∈ componentTable ds :=
    List.mem_flatMap.mpr ⟨d, hd, List.mem_map.mpr ⟨c, hc, rfl⟩⟩
  have honly : ∀ r ∈ componentTable ds, r.1 = componentKey d.id c.localId → r.2 = c := by
    intro r hr hkey
    obtain ⟨d', hd', hr⟩ := List.mem_flatMap.mp hr
    obtain ⟨c', hc', rfl⟩ := List.mem_map.mp hr
    obtain ⟨hid, hlocal⟩ := componentKey_inj (h.id_plain d hd) (h.localId_plain d hd c hc)
      (h.id_plain d' hd') (h.localId_plain d' hd' c' hc') hkey
    obtain rfl := h.id_inj d' hd' d hd hid
    exact h.localId_inj d' hd' c' hc' c hc hlocal
  exact lookup_of_unique hin honly

/-- With plain ids, the request for a component leads to its device and to the component. -/
theorem control_finds_component {ds : List GeneralDevice} (h : Registered ds)
    {env : ControlQueries} (henv : ∀ key, env.find key = (componentTable ds).lookup key)
    {d : GeneralDevice} (hd : d ∈ ds) {c : DeviceComponent} (hc : c ∈ d.values) :
    Returns (DeviceControlAction.control env { requestId := some (componentKey d.id c.localId) })
      fun r => r.2 = "component" ∧ r.1.id = d.id ∧ r.1.localId = c.localId ∧
        r.1.component = some c := by
  rw [← h.lookup hd hc, ← henv]
  obtain ⟨id, hid, -, hplain⟩ := h.id_plain d hd
  obtain ⟨localId, hlocal, hne, hplain'⟩ := h.localId_plain d hd c hc
  rw [hid, hlocal]
  exact (decodes_iff env hne).mpr ⟨hplain, hplain'⟩

/-- The request for a component leads to it if and only if its parts have no underscore, and ids
are those of one pair only if and only if the separator is in the first part only at its start and
in the second only at its end. -/
theorem composite_ids_iff (env : ControlQueries) {id localId fromId toId : String}
    (hid : id ≠ "") (hlocal : localId ≠ "") (hfrom : fromId ≠ "") (hto : toId ≠ "") :
    (Decodes env id localId ↔ '_' ∉ id.toList ∧ '_' ∉ localId.toList) ∧
      (UniqueId (fun id localId => componentKey id localId) id localId ↔
        '_' ∉ id.toList.tail ∧ '_' ∉ localId.toList.dropLast) ∧
      (UniqueId (fun fromId toId => relationshipKey ⟨fromId, toId, none, none⟩) fromId toId ↔
        '-' ∉ fromId.toList.tail ∧ '-' ∉ toId.toList.dropLast) :=
  ⟨decodes_iff env hlocal, uniqueId_component_iff hid hlocal,
    uniqueId_relationship_iff hfrom hto⟩

/-- No component at all. -/
def noTables : ControlQueries := ⟨fun _ => none, fun _ => none⟩

theorem composite_ids_iff_phone :
    (Decodes noTables "home_1" "phone" ↔ '_' ∉ "home_1".toList ∧ '_' ∉ "phone".toList) ∧
      (UniqueId (fun id localId => componentKey id localId) "home_1" "phone" ↔
        '_' ∉ "home_1".toList.tail ∧ '_' ∉ "phone".toList.dropLast) ∧
      (UniqueId (fun fromId toId => relationshipKey ⟨fromId, toId, none, none⟩) "anna-maria" "bob"
        ↔ '-' ∉ "anna-maria".toList.tail ∧ '-' ∉ "bob".toList.dropLast) :=
  composite_ids_iff noTables (by decide) (by decide) (by decide) (by decide)

/-- The component `phone` of the device `home_1` is taken for the component `1` of `home`; it has
the id of the component `1_phone` of `home`. The relationship from `anna-maria` to `bob` has the id
of the one from `anna` to `maria-bob`. -/
theorem composite_ids_collide : ¬ Decodes noTables "home_1" "phone" ∧
    DeviceControlAction.control noTables { requestId := some (componentKey "home_1" "phone") } =
      .ok ({ requestId := some "home_1_phone", id := some "home", localId := some "1" },
        "component") ∧
    componentKey "home_1" "phone" = componentKey "home" "1_phone" ∧
    relationshipKey ⟨"anna-maria", "bob", none, none⟩ =
      relationshipKey ⟨"anna", "maria-bob", none, none⟩ := by
  refine ⟨?_, by rfl, by decide, by decide⟩
  rw [decodes_iff noTables (by decide)]
  decide

end MTalk.Assistance
