import MTalk.Library.XmlText
import MTalk.Library.JavaText

/-!
# Definitions and relations of devices

The XML of a device and of the relations of a device. The sets in them are written as the text of a
collection and split at the commas, so a device comes back only if it has exactly one channel. The
reading of a relation takes the length of one list for the range of the other.
-/

namespace MTalk.Assistance

open MTalk.Xml MTalk.JavaText

structure DeviceComponent where
  localId : Option String
  name : Option String
  componentType : Option String
  deriving DecidableEq

/-- A device. The components are in a map under some key each. -/
structure GeneralDevice where
  id : Option String := none
  name : Option String := none
  type : Option String := none
  ownerId : Option String := none
  supportedChannel : Option (Finset String) := none
  components : AList (fun _ : Option String => DeviceComponent) := ∅

namespace GeneralDevice

/-- `components.values()`. -/
def values (o : GeneralDevice) : List DeviceComponent := o.components.entries.map Sigma.snd

end GeneralDevice

/-- An attribute whose value is not null. The writer fails on null. -/
def deviceAttribute (name : String) (value : Option String) : Option (String × String) :=
  value.map fun v => (name, v)

/-- The element of a component. -/
def componentElement (c : DeviceComponent) : Option Element := do
  let localId ← deviceAttribute "localId" c.localId
  let name ← deviceAttribute "name" c.name
  let componentType ← deviceAttribute "componentType" c.componentType
  some ⟨"deviceComponent", [localId, name, componentType], .nil⟩

/-- The attribute that only a device with a type gets. -/
def typeAttribute : Option String → List (String × String)
  | none => []
  | some t => [("type", t)]

/-- The element that `ProtocolStreamer.streamDevice` writes. -/
def deviceElement (order : HashOrder) (o : GeneralDevice) : Option Element := do
  let id ← deviceAttribute "id" o.id
  let name ← deviceAttribute "name" o.name
  let ownerId ← deviceAttribute "ownerId" o.ownerId
  let channels ← o.supportedChannel
  let components ← o.values.mapM componentElement
  some ⟨"generalDevice", id :: name :: (typeAttribute o.type
    ++ [ownerId, ("supportedChannel", String.ofList (order.text channels))]),
    .node "deviceComponents" [] (Forest.ofList components) .nil⟩

/-- `ProtocolStreamer.streamDevice`. After an exception the text is not complete. -/
def streamDevice (xml : XmlLibrary) (order : HashOrder) (o : GeneralDevice) : Option String :=
  (deviceElement order o).map xml.write

/-- One component of the map in `ProtocolParser.components`. -/
def readComponent (com : Element) : DeviceComponent where
  localId := some (com.getAttribute "localId")
  name := some (com.getAttribute "name")
  componentType := some (com.getAttribute "componentType")

/-- `ProtocolParser.components`. -/
def components (node : Element) : AList (fun _ : Option String => DeviceComponent) :=
  (node.getElementsByTagName "deviceComponent").foldl
    (fun coms com => coms.insert (readComponent com).localId (readComponent com)) ∅

/-- The text between the first and the last character, as the parts between its commas. -/
def unbracket (sc : String) : Option (List String) :=
  (substring sc.toList 1 (sc.toList.length - 1)).map fun s => (split ',' s).map String.ofList

/-- `ProtocolParser.parseDeviceDefination` on an element. -/
def readDevice (nd : Element) : Option GeneralDevice := do
  let ss ← unbracket (nd.getAttribute "supportedChannel")
  some {
    id := some (nd.getAttribute "id")
    name := some (nd.getAttribute "name")
    ownerId := some (nd.getAttribute "ownerId")
    type := some (nd.getAttribute "type")
    supportedChannel := if 0 < ss.length then some ss.toFinset else none
    components :=
      match nd.getElementsByTagName "deviceComponents" with
      | [] => ∅
      | dd :: _ => components dd }

/-- `ProtocolParser.parseDeviceDefination` on a text: null if anything fails. -/
def parseDeviceDefination (xml : XmlLibrary) (text : String) : Option GeneralDevice :=
  (xml.read text).bind readDevice

/-- The device that is read is the device that was written. -/
def DeviceRoundTrips (xml : XmlLibrary) (order : HashOrder) (d : GeneralDevice) : Prop :=
  ∃ r, (streamDevice xml order d).bind (parseDeviceDefination xml) = some r
    ∧ r.id = d.id ∧ r.name = d.name ∧ r.ownerId = d.ownerId ∧ r.type = d.type
    ∧ r.supportedChannel = d.supportedChannel ∧ ∀ c, c ∈ r.values ↔ c ∈ d.values

/-! A relation of a device. -/

structure DeviceRelation where
  «in» : List String
  out : List String

/-- The element that `ProtocolStreamer.streamSimpleRelation` writes. -/
def relationElement (order : HashOrder) (o : DeviceRelation) : Element :=
  ⟨"relation", [("in", String.ofList (order.text o.in.toFinset)),
    ("out", String.ofList (order.text o.out.toFinset))], .nil⟩

/-- `ProtocolStreamer.streamSimpleRelation`. -/
def streamSimpleRelation (xml : XmlLibrary) (order : HashOrder) (o : DeviceRelation) : String :=
  xml.write (relationElement order o)

/-- `ProtocolParser.parseSimpleRelation` on an element. The range of `outs` ends where the length of
the text `ins`, which has lost its brackets already, says. -/
def readSimpleRelation (root : Element) : Option DeviceRelation := do
  let ins := (root.getAttribute "in").toList
  let ins ← substring ins 1 (ins.length - 1)
  let outs ← substring (root.getAttribute "out").toList 1 (ins.length - 1)
  some ⟨(split ',' ins).map String.ofList, (split ',' outs).map String.ofList⟩

/-- `ProtocolParser.parseSimpleRelation`. -/
def parseSimpleRelation (xml : XmlLibrary) (text : String) : Option DeviceRelation :=
  (xml.read text).bind readSimpleRelation

/-- The relation that is read has the same ids on both sides. -/
def RelationRoundTrips (xml : XmlLibrary) (order : HashOrder) (r : DeviceRelation) : Prop :=
  ∃ r', parseSimpleRelation xml (streamSimpleRelation xml order r) = some r'
    ∧ r'.in.toFinset = r.in.toFinset ∧ r'.out.toFinset = r.out.toFinset

/-! The sets. -/

lemma unbracket_text (order : HashOrder) (s : Finset String) :
    unbracket (String.ofList (order.text s)) = some (order.parts s) := by
  rw [unbracket, String.toList_ofList, HashOrder.text, substring_collectionText]
  rfl

/-- The channels are read as they were exactly when there is one. -/
lemma readChannels_iff (order : HashOrder) {s : Finset String} (hcomma : ∀ x ∈ s, ',' ∉ x.toList) :
    (if 0 < (order.parts s).length then some (order.parts s).toFinset else none) = some s
      ↔ ∃ x, s = {x} := by
  rw [← order.parts_toFinset_iff hcomma]
  by_cases hlength : 0 < (order.parts s).length
  · rw [if_pos hlength, Option.some.injEq]
  · have hnil : order.parts s = [] := List.length_eq_zero_iff.mp (by omega)
    rw [if_neg hlength, hnil]
    constructor
    · intro h
      cases h
    · intro h
      rw [List.toFinset_nil] at h
      rw [← h, order.parts_empty] at hnil
      cases hnil

/-! The components. -/

/-- The component can be written. -/
def DeviceComponent.Complete (c : DeviceComponent) : Prop :=
  c.localId ≠ none ∧ c.name ≠ none ∧ c.componentType ≠ none

lemma validName_device : ∀ s ∈ ["generalDevice", "id", "name", "type", "ownerId",
    "supportedChannel", "deviceComponents", "deviceComponent", "localId", "componentType"],
    ValidName s := by
  simp only [List.forall_mem_cons, ValidName]
  simp
  and_intros
  all_goals decide

/-- The node of a component: nothing in it, and the component in its attributes. -/
def HoldsComponent (e : Element) (c : DeviceComponent) : Prop :=
  e.name = "deviceComponent" ∧ e.children = .nil ∧ ValidAttributes e.attributes
    ∧ readComponent e = c

lemma componentElement_eq {c : DeviceComponent} {e : Element} (h : componentElement c = some e) :
    c.Complete ∧ HoldsComponent e c := by
  obtain ⟨localId, name, componentType⟩ := c
  cases localId with
  | none => cases h
  | some localId =>
    cases name with
    | none => cases h
    | some name =>
      cases componentType with
      | none => cases h
      | some componentType =>
        cases h
        refine ⟨by simp [DeviceComponent.Complete], rfl, rfl, ⟨?_, by simp⟩, ?_⟩
        · intro a ha
          simp only [List.mem_cons, List.not_mem_nil, or_false] at ha
          rcases ha with rfl | rfl | rfl
          · exact validName_device _ (by simp)
          · exact validName_device _ (by simp)
          · exact validName_device _ (by simp)
        · simp [readComponent, Element.getAttribute, List.lookup]

lemma componentElement_of_complete {c : DeviceComponent} (h : c.Complete) :
    ∃ e, componentElement c = some e := by
  obtain ⟨localId, name, componentType⟩ := c
  obtain ⟨hid, hname, htype⟩ := h
  obtain ⟨i, rfl⟩ := Option.ne_none_iff_exists'.mp hid
  obtain ⟨n, rfl⟩ := Option.ne_none_iff_exists'.mp hname
  obtain ⟨t, rfl⟩ := Option.ne_none_iff_exists'.mp htype
  exact ⟨_, rfl⟩

/-- The nodes of all components. -/
lemma mapM_componentElement {l : List DeviceComponent} {es : List Element}
    (h : l.mapM componentElement = some es) :
    (∀ c ∈ l, c.Complete) ∧ List.Forall₂ HoldsComponent es l := by
  induction l generalizing es with
  | nil =>
    cases h
    exact ⟨by simp, List.Forall₂.nil⟩
  | cons c l ih =>
    rw [List.mapM_cons] at h
    obtain ⟨e, he, h⟩ := Option.bind_eq_some_iff.mp h
    obtain ⟨es', hes', h⟩ := Option.bind_eq_some_iff.mp h
    cases h
    obtain ⟨hcomplete, hholds⟩ := componentElement_eq he
    obtain ⟨hall, hrest⟩ := ih hes'
    exact ⟨List.forall_mem_cons.mpr ⟨hcomplete, hall⟩, List.Forall₂.cons hholds hrest⟩

lemma mapM_of_complete {l : List DeviceComponent} (h : ∀ c ∈ l, c.Complete) :
    ∃ es, l.mapM componentElement = some es := by
  induction l with
  | nil => exact ⟨[], rfl⟩
  | cons c l ih =>
    obtain ⟨e, he⟩ := componentElement_of_complete (h c List.mem_cons_self)
    obtain ⟨es, hes⟩ := ih fun d hd => h d (List.mem_cons_of_mem c hd)
    exact ⟨e :: es, by rw [List.mapM_cons, he, hes]; rfl⟩

/-- The nodes of a row of leaves by their name. -/
lemma tagged_ofList {es : List Element} {name : String}
    (h : ∀ e ∈ es, e.name = name ∧ e.children = .nil) (tag : String) :
    (Forest.ofList es).tagged tag = if name = tag then es else [] := by
  induction es with
  | nil => simp [Forest.ofList, Forest.tagged]
  | cons e es ih =>
    obtain ⟨hname, hchildren⟩ := h e List.mem_cons_self
    have hrest := ih fun d hd => h d (List.mem_cons_of_mem e hd)
    obtain ⟨n, as, cs⟩ := e
    dsimp only at hname hchildren
    subst hname hchildren
    rw [Forest.ofList, Forest.tagged, hrest]
    split_ifs
    · simp [Forest.tagged]
    · simp [Forest.tagged]

/-- The map that the components are put into, each under its local id. -/
def store (cs : List DeviceComponent) : AList fun _ : Option String => DeviceComponent :=
  cs.foldl (fun coms c => coms.insert c.localId c) ∅

lemma components_eq {es : List Element} {cs : List DeviceComponent}
    (h : List.Forall₂ HoldsComponent es cs) (m : AList fun _ : Option String => DeviceComponent) :
    es.foldl (fun coms com => coms.insert (readComponent com).localId (readComponent com)) m
      = cs.foldl (fun coms c => coms.insert c.localId c) m := by
  induction h generalizing m with
  | nil => rfl
  | cons hholds _ ih =>
    rw [List.foldl_cons, List.foldl_cons, hholds.2.2.2]
    exact ih _

lemma lookup_foldl_insert (cs : List DeviceComponent)
    (m : AList fun _ : Option String => DeviceComponent) (k : Option String) :
    (cs.foldl (fun coms c => coms.insert c.localId c) m).lookup k
      = (cs.reverse.find? (·.localId = k)).or (m.lookup k) := by
  induction cs generalizing m with
  | nil => rfl
  | cons c cs ih =>
    rw [List.foldl_cons, ih, List.reverse_cons, List.find?_append, Option.or_assoc]
    congr 1
    by_cases hk : c.localId = k
    · subst hk
      simp
    · rw [AList.lookup_insert_ne (Ne.symm hk)]
      simp [hk]

lemma mem_values_iff {m : AList fun _ : Option String => DeviceComponent} {c : DeviceComponent} :
    c ∈ m.entries.map Sigma.snd ↔ ∃ k, m.lookup k = some c := by
  rw [List.mem_map]
  constructor
  · rintro ⟨⟨k, d⟩, hd, rfl⟩
    exact ⟨k, AList.mem_lookup_iff.mpr hd⟩
  · rintro ⟨k, hk⟩
    exact ⟨⟨k, c⟩, AList.mem_lookup_iff.mp hk, rfl⟩

/-- The map holds the components exactly when equal local ids are of equal components. -/
lemma store_values_iff (cs : List DeviceComponent) :
    (∀ c, c ∈ (store cs).entries.map Sigma.snd ↔ c ∈ cs)
      ↔ ∀ c ∈ cs, ∀ d ∈ cs, c.localId = d.localId → c = d := by
  have hvalue : ∀ c, c ∈ (store cs).entries.map Sigma.snd
      ↔ ∃ k, cs.reverse.find? (·.localId = k) = some c := by
    intro c
    rw [mem_values_iff]
    simp only [store, lookup_foldl_insert, AList.lookup_empty, Option.or_none]
  constructor
  · intro h c hc d hd hid
    obtain ⟨k, hk⟩ := (hvalue c).mp ((h c).mpr hc)
    obtain ⟨k', hk'⟩ := (hvalue d).mp ((h d).mpr hd)
    have hck : c.localId = k := by simpa using List.find?_some hk
    have hdk : d.localId = k' := by simpa using List.find?_some hk'
    have hkeys : k = k' := by rw [← hck, ← hdk, hid]
    rw [hkeys] at hk
    exact Option.some.inj (hk.symm.trans hk')
  · intro h c
    rw [hvalue]
    constructor
    · rintro ⟨k, hk⟩
      exact List.mem_reverse.mp (List.mem_of_find?_eq_some hk)
    · intro hc
      refine ⟨c.localId, ?_⟩
      cases hfind : cs.reverse.find? (·.localId = c.localId) with
      | none =>
        rw [List.find?_eq_none] at hfind
        exact absurd (decide_eq_true rfl) (hfind c (List.mem_reverse.mpr hc))
      | some d =>
        have hid : d.localId = c.localId := by simpa using List.find?_some hfind
        have hd := List.mem_reverse.mp (List.mem_of_find?_eq_some hfind)
        rw [h c hc d hd hid.symm]

/-! The whole device. -/

/-- The attributes of the element of a device. -/
def deviceAttributes (id name : String) (type : Option String) (ownerId channels : String) :
    List (String × String) :=
  ("id", id) :: ("name", name) ::
    (typeAttribute type ++ [("ownerId", ownerId), ("supportedChannel", channels)])

lemma deviceElement_eq {order : HashOrder} {d : GeneralDevice} {e : Element}
    (h : deviceElement order d = some e) :
    ∃ id name ownerId channels es, d.id = some id ∧ d.name = some name ∧ d.ownerId = some ownerId
      ∧ d.supportedChannel = some channels ∧ d.values.mapM componentElement = some es
      ∧ e = ⟨"generalDevice", deviceAttributes id name d.type ownerId
          (String.ofList (order.text channels)),
        .node "deviceComponents" [] (Forest.ofList es) .nil⟩ := by
  unfold deviceElement at h
  obtain ⟨_, hidAttribute, h⟩ := Option.bind_eq_some_iff.mp h
  obtain ⟨_, hnameAttribute, h⟩ := Option.bind_eq_some_iff.mp h
  obtain ⟨_, hownerAttribute, h⟩ := Option.bind_eq_some_iff.mp h
  obtain ⟨channels, hchannels, h⟩ := Option.bind_eq_some_iff.mp h
  obtain ⟨es, hes, h⟩ := Option.bind_eq_some_iff.mp h
  cases h
  obtain ⟨id, hid, rfl⟩ := Option.map_eq_some_iff.mp hidAttribute
  obtain ⟨name, hname, rfl⟩ := Option.map_eq_some_iff.mp hnameAttribute
  obtain ⟨ownerId, howner, rfl⟩ := Option.map_eq_some_iff.mp hownerAttribute
  exact ⟨id, name, ownerId, channels, es, hid, hname, howner, hchannels, hes, rfl⟩

lemma deviceElement_of {order : HashOrder} {d : GeneralDevice} {id name ownerId : String}
    {channels : Finset String} {es : List Element} (hid : d.id = some id)
    (hname : d.name = some name)
    (howner : d.ownerId = some ownerId) (hchannels : d.supportedChannel = some channels)
    (hes : d.values.mapM componentElement = some es) :
    deviceElement order d = some ⟨"generalDevice", deviceAttributes id name d.type ownerId
        (String.ofList (order.text channels)),
      .node "deviceComponents" [] (Forest.ofList es) .nil⟩ := by
  unfold deviceElement
  rw [hid, hname, howner, hchannels, hes]
  rfl

lemma wellFormed_ofList {es : List Element} {cs : List DeviceComponent}
    (h : List.Forall₂ HoldsComponent es cs) : (Forest.ofList es).WellFormed := by
  induction h with
  | nil => trivial
  | cons hholds _ ih =>
    obtain ⟨hname, hchildren, hattributes, -⟩ := hholds
    rw [Forest.ofList, Forest.WellFormed, hname, hchildren]
    exact ⟨validName_device _ (by simp), hattributes, trivial, ih⟩

lemma validAttributes_device (id name : String) (type : Option String) (ownerId channels : String) :
    ValidAttributes (deviceAttributes id name type ownerId channels) := by
  cases type with
  | none =>
    refine ⟨?_, by simp [deviceAttributes, typeAttribute]⟩
    intro a ha
    simp only [deviceAttributes, typeAttribute, List.mem_cons, List.nil_append,
      List.not_mem_nil, or_false] at ha
    rcases ha with rfl | rfl | rfl | rfl <;> exact validName_device _ (by simp)
  | some t =>
    refine ⟨?_, by simp [deviceAttributes, typeAttribute]⟩
    intro a ha
    simp only [deviceAttributes, typeAttribute, List.mem_cons, List.cons_append,
      List.nil_append, List.not_mem_nil, or_false] at ha
    rcases ha with rfl | rfl | rfl | rfl | rfl <;> exact validName_device _ (by simp)

lemma wellFormed_deviceElement {order : HashOrder} {d : GeneralDevice} {e : Element}
    (h : deviceElement order d = some e) : e.WellFormed := by
  obtain ⟨id, name, ownerId, channels, es, -, -, -, -, hes, rfl⟩ := deviceElement_eq h
  have hcomponents := wellFormed_ofList (mapM_componentElement hes).2
  exact ⟨validName_device _ (by simp), validAttributes_device _ _ _ _ _,
    validName_device _ (by simp), ⟨by simp, by simp⟩, hcomponents, trivial⟩

/-- A device is read from the element that was written. -/
lemma parse_streamDevice (xml : XmlLibrary) (order : HashOrder) (d : GeneralDevice) :
    (streamDevice xml order d).bind (parseDeviceDefination xml)
      = (deviceElement order d).bind readDevice := by
  unfold streamDevice parseDeviceDefination
  cases he : deviceElement order d with
  | none => rfl
  | some e => simp [xml.read_write e (wellFormed_deviceElement he)]

/-- What is read from the element of a device. -/
lemma readDevice_eq {order : HashOrder} {id name ownerId : String} {type : Option String}
    {channels : Finset String} {es : List Element} {cs : List DeviceComponent}
    (h : List.Forall₂ HoldsComponent es cs) :
    readDevice ⟨"generalDevice", deviceAttributes id name type ownerId
        (String.ofList (order.text channels)),
      .node "deviceComponents" [] (Forest.ofList es) .nil⟩
    = some {
        id := some id
        name := some name
        ownerId := some ownerId
        type := some (type.getD "")
        supportedChannel :=
          if 0 < (order.parts channels).length then some (order.parts channels).toFinset else none
        components := store cs } := by
  have hleaves : ∀ e ∈ es, e.name = "deviceComponent" ∧ e.children = .nil := by
    intro e he
    clear order
    induction h with
    | nil => cases he
    | cons hholds _ ih =>
      rcases List.mem_cons.mp he with rfl | hmem
      · exact ⟨hholds.1, hholds.2.1⟩
      · exact ih hmem
  have hlist : (Forest.node "deviceComponents" [] (Forest.ofList es) .nil).tagged "deviceComponents"
      = [⟨"deviceComponents", [], Forest.ofList es⟩] := by
    rw [Forest.tagged, tagged_ofList hleaves, if_pos rfl, if_neg (by decide)]
    rfl
  have hcomponents : components ⟨"deviceComponents", [], Forest.ofList es⟩ = store cs := by
    rw [components, Element.getElementsByTagName, tagged_ofList hleaves, if_pos rfl]
    exact components_eq h ∅
  have hchannels : (deviceAttributes id name type ownerId
      (String.ofList (order.text channels))).lookup "supportedChannel"
      = some (String.ofList (order.text channels)) := by
    cases type with
    | none => simp [deviceAttributes, typeAttribute, List.lookup]
    | some t => simp [deviceAttributes, typeAttribute, List.lookup]
  simp only [readDevice, Element.getAttribute, Element.getElementsByTagName, hlist, hcomponents,
    hchannels, Option.getD_some, unbracket_text, Option.bind_eq_bind, Option.bind_some]
  cases type with
  | none => simp [deviceAttributes, typeAttribute, List.lookup]
  | some t => simp [deviceAttributes, typeAttribute, List.lookup]

/-- A device comes back exactly when it has an id, a name, an owner and a type, one channel, and
components that can be written and that differ in their local ids. -/
theorem device_roundTrips_iff (xml : XmlLibrary) (order : HashOrder) {d : GeneralDevice}
    (hcomma : ∀ s, d.supportedChannel = some s → ∀ x ∈ s, ',' ∉ x.toList) :
    DeviceRoundTrips xml order d ↔ d.id ≠ none ∧ d.name ≠ none ∧ d.ownerId ≠ none ∧ d.type ≠ none
      ∧ (∃ x, d.supportedChannel = some {x}) ∧ (∀ c ∈ d.values, c.Complete)
      ∧ ∀ c ∈ d.values, ∀ c' ∈ d.values, c.localId = c'.localId → c = c' := by
  unfold DeviceRoundTrips
  rw [parse_streamDevice]
  constructor
  · rintro ⟨r, hr, -, -, -, htype, hchannel, hvalues⟩
    obtain ⟨e, he, hread⟩ := Option.bind_eq_some_iff.mp hr
    obtain ⟨id, name, ownerId, channels, es, hid, hname, howner, hchannels, hes, rfl⟩ :=
      deviceElement_eq he
    obtain ⟨hcomplete, hholds⟩ := mapM_componentElement hes
    rw [readDevice_eq hholds] at hread
    cases hread
    refine ⟨by simp [hid], by simp [hname], by simp [howner], ?_, ?_, hcomplete, ?_⟩
    · rw [← htype]
      simp
    · rw [hchannels] at hchannel ⊢
      obtain ⟨x, hx⟩ := (readChannels_iff order (hcomma _ hchannels)).mp hchannel
      exact ⟨x, by rw [hx]⟩
    · exact (store_values_iff d.values).mp hvalues
  · rintro ⟨hid, hname, howner, htype, ⟨x, hx⟩, hcomplete, hdistinct⟩
    obtain ⟨id, hid⟩ := Option.ne_none_iff_exists'.mp hid
    obtain ⟨name, hname⟩ := Option.ne_none_iff_exists'.mp hname
    obtain ⟨ownerId, howner⟩ := Option.ne_none_iff_exists'.mp howner
    obtain ⟨type, htype⟩ := Option.ne_none_iff_exists'.mp htype
    obtain ⟨es, hes⟩ := mapM_of_complete hcomplete
    have he : deviceElement order d = some _ := deviceElement_of hid hname howner hx hes
    refine ⟨_, Option.bind_eq_some_iff.mpr ⟨_, he, readDevice_eq (mapM_componentElement hes).2⟩,
      hid.symm, hname.symm, howner.symm, ?_, ?_, ?_⟩
    · rw [htype]
      rfl
    · rw [hx]
      exact (readChannels_iff order (hcomma _ hx)).mpr ⟨x, rfl⟩
    · exact (store_values_iff d.values).mpr hdistinct

/-- A phone with one channel and one sensor. -/
def phoneDevice : GeneralDevice where
  id := some "p1"
  name := some "phone"
  type := some "mobile"
  ownerId := some "u1"
  supportedChannel := some {"sms"}
  components := (∅ : AList _).insert (some "gps")
    { localId := some "gps", name := some "place", componentType := some "sensor" }

theorem device_roundTrips_phone : DeviceRoundTrips plainXml .sorted phoneDevice := by
  have hvalues : phoneDevice.values =
      [{ localId := some "gps", name := some "place", componentType := some "sensor" }] := rfl
  refine (device_roundTrips_iff plainXml .sorted ?_).mpr ⟨?_, ?_, ?_, ?_, ⟨"sms", rfl⟩, ?_, ?_⟩
  · intro s hs x hx
    cases hs
    rw [Finset.mem_singleton.mp hx]
    simp
  · simp [phoneDevice]
  · simp [phoneDevice]
  · simp [phoneDevice]
  · simp [phoneDevice]
  · simp [hvalues, DeviceComponent.Complete]
  · simp [hvalues]

/-- A phone with two channels. -/
def smartDevice : GeneralDevice :=
  { phoneDevice with supportedChannel := some {"sms", "http"} }

theorem smartDevice_changes : ¬ DeviceRoundTrips plainXml .sorted smartDevice := by
  rintro ⟨r, hr, -, -, -, -, hchannel, -⟩
  rw [parse_streamDevice] at hr
  obtain ⟨e, he, hread⟩ := Option.bind_eq_some_iff.mp hr
  obtain ⟨id, name, ownerId, channels, es, -, -, -, hchannels, hes, rfl⟩ := deviceElement_eq he
  rw [readDevice_eq (mapM_componentElement hes).2] at hread
  cases hread
  rw [hchannels] at hchannel
  cases hchannels
  obtain ⟨x, hx⟩ := (readChannels_iff .sorted (by simp)).mp hchannel
  have hcard := congrArg Finset.card hx
  simp at hcard

/-! The relations. -/

/-- The text of an id in a relation. -/
structure PlainId (x : String) : Prop where
  nonempty : x.toList ≠ []
  comma : ',' ∉ x.toList
  blank : ' ' ∉ x.toList
  closing : ']' ∉ x.toList

/-- The element is read as it was written. -/
lemma parse_streamSimpleRelation (xml : XmlLibrary) (order : HashOrder) (r : DeviceRelation) :
    parseSimpleRelation xml (streamSimpleRelation xml order r)
      = readSimpleRelation (relationElement order r) := by
  have hvalid : (relationElement order r).WellFormed := by
    have hnames : ∀ s ∈ ["relation", "in", "out"], ValidName s := by
      simp only [List.forall_mem_cons, ValidName]
      simp
      and_intros
      all_goals decide
    refine ⟨hnames _ (by simp [relationElement]), ⟨?_, by simp [relationElement]⟩, trivial⟩
    intro a ha
    simp only [relationElement, List.mem_cons, List.not_mem_nil, or_false] at ha
    rcases ha with rfl | rfl
    · exact hnames _ (by simp)
    · exact hnames _ (by simp)
  rw [parseSimpleRelation, streamSimpleRelation, xml.read_write _ hvalid]
  rfl

/-- The text of a set of ids. -/
def idsText (order : HashOrder) (s : Finset String) : List Char :=
  joined ((order.enumerate s).map String.toList)

lemma readSimpleRelation_eq (order : HashOrder) (r : DeviceRelation) :
    readSimpleRelation (relationElement order r) =
      (substring (order.text r.out.toFinset) 1
        ((idsText order r.in.toFinset).length - 1)).map fun outs =>
          ⟨order.parts r.in.toFinset, (split ',' outs).map String.ofList⟩ := by
  have hin : (relationElement order r).getAttribute "in"
      = String.ofList (order.text r.in.toFinset) := by
    simp [relationElement, Element.getAttribute]
  have hout : (relationElement order r).getAttribute "out"
      = String.ofList (order.text r.out.toFinset) := by
    simp [relationElement, Element.getAttribute, List.lookup]
  unfold readSimpleRelation
  rw [hin, hout, String.toList_ofList, String.toList_ofList]
  dsimp only
  rw [HashOrder.text, HashOrder.text, substring_collectionText]
  cases h : substring (collectionText ((order.enumerate r.out.toFinset).map String.toList)) 1
      ((idsText order r.in.toFinset).length - 1) with
  | none =>
    simp only [idsText] at h
    simp [h]
  | some outs =>
    simp only [idsText] at h
    simp [h, HashOrder.parts]

/-- A range that ends too early or too late does not give the ids, unless it is by chance the range
of a single id. -/
lemma readOut_iff (order : HashOrder) {s : Finset String} (hs : ∀ x ∈ s, PlainId x) (n : ℕ) :
    (∃ outs, substring (order.text s) 1 (n - 1) = some outs
      ∧ ((split ',' outs).map String.ofList).toFinset = s)
    ↔ ∃ b, s = {b} ∧ n = b.toList.length + 2 := by
  have hmem := order.mem s
  have hnodup := order.nodup s
  constructor
  · rintro ⟨outs, hrange, hset⟩
    obtain ⟨htwo, houts⟩ := substring_eq_some hrange
    have hpart : ∀ y, y ∈ split ',' outs ↔ String.ofList y ∈ s := by
      intro y
      rw [← hset, List.mem_toFinset,
        List.mem_map_of_injective fun _ _ h => String.ofList_injective h]
    have hone : ∀ x ∈ s, ∀ y, split ',' outs = [y] → x.toList = y := by
      intro x hx y hy
      have h := (hpart x.toList).mpr (by rwa [String.ofList_toList])
      rwa [hy, List.mem_singleton] at h
    have htext : outs = (idsText order s ++ [']']).take (n - 2) := houts
    rcases horder : order.enumerate s with _ | ⟨b, _ | ⟨b', rest⟩⟩
    · exfalso
      have hcomma : ',' ∉ outs := by
        intro h
        rw [htext, idsText, horder] at h
        have := List.mem_of_mem_take h
        simp [joined] at this
      have h := (hpart outs).mp (by rw [split_of_notMem hcomma]; exact List.mem_singleton_self _)
      rw [← hmem, horder] at h
      cases h
    · rw [horder] at hmem
      have hb := hs b ((hmem b).mp List.mem_cons_self)
      have hids : idsText order s = b.toList := by rw [idsText, horder]; rfl
      rw [hids] at htext
      have hcomma : ',' ∉ outs := by
        intro h
        rw [htext] at h
        have := List.mem_of_mem_take h
        simp [hb.comma] at this
      have hwhole := hone b ((hmem b).mp List.mem_cons_self) outs (split_of_notMem hcomma)
      have hlength := congrArg List.length htext
      rw [← hwhole, List.length_take, List.length_append, List.length_singleton] at hlength
      refine ⟨b, ?_, by omega⟩
      ext y
      rw [← hmem, List.mem_singleton, Finset.mem_singleton]
    · exfalso
      rw [horder] at hmem hnodup
      have hb := (hmem b).mp (by simp)
      have hb' := (hmem b').mp (by simp)
      have hplain := hs b hb
      have hblank : ' ' ∉ outs := by
        intro h
        obtain ⟨y, hy, hin⟩ := mem_split h (by decide)
        have hy := (hs _ ((hpart y).mp hy)).blank
        rw [String.toList_ofList] at hy
        exact hy hin
      have hids : idsText order s ++ [']'] = b.toList ++ ',' :: ' ' ::
          (joined ((b' :: rest).map String.toList) ++ [']']) := by
        rw [idsText, horder]
        simp [joined]
      rw [hids] at htext
      have hshort : n - 2 ≤ b.toList.length + 1 := by
        by_contra hlong
        refine hblank ?_
        rw [htext, List.take_append,
          show n - 2 - b.toList.length = (n - 2 - b.toList.length - 2) + 2 by omega]
        simp
      have hsingle : ∃ y, split ',' outs = [y] := by
        rcases Nat.lt_or_ge b.toList.length (n - 2) with hlt | hle
        · have hend : outs = b.toList ++ [','] := by
            rw [htext, List.take_append, List.take_of_length_le (by omega),
              show n - 2 - b.toList.length = 1 by omega]
            simp
          exact ⟨_, by rw [hend, split_concat_comma hplain.comma hplain.nonempty]⟩
        · have hend : outs = b.toList.take (n - 2) := by
            rw [htext, List.take_append_of_le_length hle]
          refine ⟨outs, split_of_notMem ?_⟩
          rw [hend]
          exact fun h => hplain.comma (List.mem_of_mem_take h)
      obtain ⟨y, hy⟩ := hsingle
      have hsame : b = b' :=
        String.toList_injective ((hone b hb y hy).trans (hone b' hb' y hy).symm)
      rw [hsame] at hnodup
      simp at hnodup
  · rintro ⟨b, rfl, rfl⟩
    have hb := hs b (Finset.mem_singleton_self b)
    have htext : order.text {b} = '[' :: b.toList ++ [']'] := by
      rw [HashOrder.text, order.enumerate_singleton]
      rfl
    refine ⟨b.toList, ?_, ?_⟩
    · have hrange : (((b.toList.length + 2 : ℕ) : ℤ) - 1).toNat = b.toList.length + 1 := by omega
      have hpos := List.length_pos_iff.mpr hb.nonempty
      rw [htext, substring, if_pos, hrange]
      · simp
      · simp
        omega
    · rw [split_of_notMem hb.comma, List.map_singleton, String.ofList_toList]
      rfl

end MTalk.Assistance
