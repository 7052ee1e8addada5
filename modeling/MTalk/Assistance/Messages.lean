import MTalk.Library.XmlText

/-!
# Messages of the assistance protocol

The messages, their XML, and the reading of it. A message keeps its kind, source, action and
component on the way, and it arrives at all exactly when it has no attribute of its own: the map
for these is never created.
-/

namespace MTalk.Assistance

open MTalk.Xml

/-- The classes `Request` and `Report`. -/
inductive Kind where
  | request
  | report
  deriving DecidableEq

/-- A map from names to texts. -/
abbrev Attributes := AList fun _ : String => String

structure ProtocolMessage where
  kind : Kind
  «from» : Option String := none
  «to» : Option String := none
  source : Option String := none
  component : Option String := none
  action : Option String := none
  asstributes : Option Attributes := none
  deriving DecidableEq

namespace ProtocolMessage

/-- The value of an attribute of the message's own. -/
def extra (m : ProtocolMessage) (name : String) : Option String :=
  m.asstributes.bind fun attributes => attributes.lookup name

end ProtocolMessage

/-- `s.trim().equals("")`. -/
def isBlank (s : String) : Bool := s.toList.all fun c => c.toNat ≤ 32

def tagOf : Kind → String
  | .request => "request"
  | .report => "report"

/-- `XmlSerializer.attribute`, which fails on a null value. -/
def writeAttribute (name : String) (value : Option String) : Option (String × String) :=
  value.map fun v => (name, v)

/-- The attribute `source`, which only a source with a text gets. -/
def sourceAttribute : Option String → List (String × String)
  | none => []
  | some s => if isBlank s then [] else [("source", s)]

/-- The attributes of the message's own. -/
def ownAttributes (m : ProtocolMessage) : List (String × String) :=
  match m.asstributes with
  | none => []
  | some attributes => attributes.entries.map fun a => (a.1, a.2)

/-- The element that `ProtocolStreamer.stream` writes. -/
def messageElement (pm : ProtocolMessage) : Option Element := do
  let action ← writeAttribute "action" pm.action
  let component ← writeAttribute "component" pm.component
  some ⟨tagOf pm.kind, sourceAttribute pm.source ++ action :: component :: ownAttributes pm, .nil⟩

/-- `ProtocolStreamer.stream`. -/
def stream (xml : XmlLibrary) (pm : ProtocolMessage) : Option String :=
  (messageElement pm).map xml.write

/-- The set `ProtocolParser.fields`. -/
def fields : List String := ["action", "component", "from", "to", "source"]

/-- `r.getClass().getField(name).set(r, value)`. -/
def setField (r : ProtocolMessage) (name value : String) : Option ProtocolMessage :=
  if name = "action" then some { r with action := some value }
  else if name = "component" then some { r with component := some value }
  else if name = "from" then some { r with «from» := some value }
  else if name = "to" then some { r with «to» := some value }
  else if name = "source" then some { r with source := some value }
  else none

/-- One attribute of the element, into its field or into the map. -/
def readAttribute (r : ProtocolMessage) (a : String × String) : Option ProtocolMessage :=
  if a.1 ∈ fields then setField r a.1 a.2
  else
    match r.asstributes with
    | none => none
    | some attributes => some { r with asstributes := some (attributes.insert a.1 a.2) }

/-- The message that the parser creates for an element. -/
def newMessage (re : Element) : ProtocolMessage :=
  { kind := if re.name = "request" then .request else .report }

/-- The message of an element. -/
def readMessage (re : Element) : Option ProtocolMessage :=
  re.attributes.foldlM readAttribute (newMessage re)

/-- `ProtocolParser.parseProtocolMessage`: null if the text is no document or the reading fails. -/
def parseProtocolMessage (xml : XmlLibrary) (text : String) : Option ProtocolMessage :=
  (xml.read text).bind readMessage

/-- The messages of the protocol: a source is absent or has a text, an attribute of the message's
own has a name of XML that is not the name of a field. -/
structure ProtocolMessage.Admissible (m : ProtocolMessage) : Prop where
  source : ∀ s, m.source = some s → isBlank s = false
  names : ∀ a ∈ ownAttributes m, ValidName a.1 ∧ a.1 ∉ fields

/-- What is written is read back as a message with the same content. -/
def RoundTrips (xml : XmlLibrary) (m : ProtocolMessage) : Prop :=
  ∃ r, (stream xml m).bind (parseProtocolMessage xml) = some r ∧ r.kind = m.kind
    ∧ r.source = m.source ∧ r.action = m.action ∧ r.component = m.component
    ∧ ∀ name, r.extra name = m.extra name

/-! The attributes that the streamer writes. -/

lemma mem_sourceAttribute {s : Option String} {a : String × String} (h : a ∈ sourceAttribute s) :
    a.1 = "source" := by
  cases s with
  | none => simp [sourceAttribute] at h
  | some s =>
    simp only [sourceAttribute] at h
    split_ifs at h
    · cases h
    · rw [List.mem_singleton.mp h]

lemma ownAttributes_keys (m : ProtocolMessage) : ((ownAttributes m).map Prod.fst).Nodup := by
  unfold ownAttributes
  split
  · exact List.nodup_nil
  · next attributes _ =>
    rw [List.map_map]
    exact attributes.nodupKeys

lemma messageElement_eq {m : ProtocolMessage} {e : Element} (h : messageElement m = some e) :
    ∃ action component, m.action = some action ∧ m.component = some component
      ∧ e = ⟨tagOf m.kind, sourceAttribute m.source ++ ("action", action) ::
        ("component", component) :: ownAttributes m, .nil⟩ := by
  obtain ⟨kind, «from», «to», source, component, action, asstributes⟩ := m
  cases action with
  | none => cases h
  | some action =>
    cases component with
    | none => cases h
    | some component =>
      cases h
      exact ⟨action, component, rfl, rfl, rfl⟩

/-! The attributes that the parser reads. -/

/-- The value of one of the fields that the parser sets. -/
def fieldOf (r : ProtocolMessage) (name : String) : Option String :=
  if name = "action" then r.action
  else if name = "component" then r.component
  else if name = "from" then r.from
  else if name = "to" then r.to
  else if name = "source" then r.source
  else none

lemma mem_fields {name : String} : name ∈ fields ↔ name = "action" ∨ name = "component"
    ∨ name = "from" ∨ name = "to" ∨ name = "source" := by
  simp [fields]

lemma setField_eq (r : ProtocolMessage) {name : String} (hname : name ∈ fields) (value : String) :
    ∃ r', setField r name value = some r' ∧ r'.kind = r.kind ∧ r'.asstributes = r.asstributes
      ∧ ∀ other, fieldOf r' other = if other = name then some value else fieldOf r other := by
  rw [mem_fields] at hname
  unfold setField
  rcases hname with rfl | rfl | rfl | rfl | rfl
  · exact ⟨_, rfl, rfl, rfl, fun other => by unfold fieldOf; split_ifs <;> simp_all⟩
  · exact ⟨_, rfl, rfl, rfl, fun other => by unfold fieldOf; split_ifs <;> simp_all⟩
  · exact ⟨_, rfl, rfl, rfl, fun other => by unfold fieldOf; split_ifs <;> simp_all⟩
  · exact ⟨_, rfl, rfl, rfl, fun other => by unfold fieldOf; split_ifs <;> simp_all⟩
  · exact ⟨_, rfl, rfl, rfl, fun other => by unfold fieldOf; split_ifs <;> simp_all⟩

/-- Attributes that are fields are read into the fields. -/
lemma readAll_eq {l : List (String × String)} (hl : ∀ a ∈ l, a.1 ∈ fields)
    (hkeys : (l.map Prod.fst).Nodup) (r : ProtocolMessage) :
    ∃ r', l.foldlM readAttribute r = some r' ∧ r'.kind = r.kind ∧ r'.asstributes = r.asstributes
      ∧ ∀ name, fieldOf r' name = (l.lookup name).or (fieldOf r name) := by
  induction l generalizing r with
  | nil => exact ⟨r, rfl, rfl, rfl, fun name => rfl⟩
  | cons a l ih =>
    rw [List.map_cons, List.nodup_cons] at hkeys
    have ha := hl a List.mem_cons_self
    obtain ⟨r₁, hset, hkind₁, hown₁, hfields₁⟩ := setField_eq r ha a.2
    obtain ⟨r₂, hrest, hkind₂, hown₂, hfields₂⟩ :=
      ih (fun b hb => hl b (List.mem_cons_of_mem a hb)) hkeys.2 r₁
    refine ⟨r₂, ?_, hkind₂.trans hkind₁, hown₂.trans hown₁, ?_⟩
    · have hstep : readAttribute r a = some r₁ := by rw [readAttribute, if_pos ha, hset]
      rw [List.foldlM_cons, hstep]
      exact hrest
    · intro name
      rw [hfields₂, hfields₁]
      by_cases hname : name = a.1
      · have hnone : l.lookup name = none := by
          rw [List.lookup_eq_none_iff]
          intro b hb
          rw [bne_iff_ne]
          rintro rfl
          exact hkeys.1 (hname ▸ List.mem_map_of_mem hb)
        rw [hnone, if_pos hname]
        subst hname
        simp [List.lookup]
      · rw [if_neg hname]
        have hskip : (a :: l).lookup name = l.lookup name := by
          rw [List.lookup]
          simp [beq_eq_false_iff_ne.mpr hname]
        rw [hskip]

/-- An attribute of another name meets the map that was never created. -/
lemma readAll_eq_none {l : List (String × String)} {a : String × String} (ha : a ∈ l)
    (hfield : a.1 ∉ fields) {r : ProtocolMessage} (hr : r.asstributes = none) :
    l.foldlM readAttribute r = none := by
  induction l generalizing r with
  | nil => cases ha
  | cons b l ih =>
    rw [List.foldlM_cons]
    by_cases hb : b.1 ∈ fields
    · obtain ⟨r₁, hset, -, hown, -⟩ := setField_eq r hb b.2
      have hstep : readAttribute r b = some r₁ := by rw [readAttribute, if_pos hb, hset]
      have hmem : a ∈ l := by
        rcases List.mem_cons.mp ha with rfl | h
        · exact absurd hb hfield
        · exact h
      rw [hstep]
      exact ih hmem (hown.trans hr)
    · rw [readAttribute, if_neg hb, hr]
      rfl

/-! The round trip. -/

lemma validName_tagOf (kind : Kind) : ValidName (tagOf kind) := by
  cases kind
  · exact ⟨⟨'r', by simp [tagOf], by decide⟩, by simp only [tagOf]; simp; decide⟩
  · exact ⟨⟨'r', by simp [tagOf], by decide⟩, by simp only [tagOf]; simp; decide⟩

lemma validName_source : ValidName "source" := ⟨⟨'s', by simp, by decide⟩, by simp; decide⟩

lemma validName_action : ValidName "action" := ⟨⟨'a', by simp, by decide⟩, by simp; decide⟩

lemma validName_component : ValidName "component" := ⟨⟨'c', by simp, by decide⟩, by simp; decide⟩

lemma tagOf_eq_request {kind : Kind} : tagOf kind = "request" ↔ kind = .request := by
  cases kind
  · simp [tagOf]
  · simp [tagOf]

lemma ownAttributes_eq_nil_iff {m : ProtocolMessage} :
    ownAttributes m = [] ↔ ∀ name, m.extra name = none := by
  unfold ownAttributes ProtocolMessage.extra
  cases m.asstributes with
  | none => simp
  | some attributes =>
    simp only [List.map_eq_nil_iff, Option.bind_some, AList.lookup_eq_none]
    constructor
    · intro h name hname
      rw [AList.mem_keys, AList.keys, h] at hname
      cases hname
    · intro h
      rw [List.eq_nil_iff_forall_not_mem]
      intro a ha
      exact h a.1 (AList.mem_keys.mpr (List.mem_map_of_mem ha))

lemma wellFormed_messageElement {m : ProtocolMessage} (hm : m.Admissible) {e : Element}
    (he : messageElement m = some e) : e.WellFormed := by
  obtain ⟨action, component, -, -, rfl⟩ := messageElement_eq he
  refine ⟨validName_tagOf m.kind, ⟨?_, ?_⟩, trivial⟩
  · intro a ha
    rcases List.mem_append.mp ha with hsource | hrest
    · rw [mem_sourceAttribute hsource]
      exact validName_source
    · rcases List.mem_cons.mp hrest with rfl | hrest
      · exact validName_action
      · rcases List.mem_cons.mp hrest with rfl | hown
        · exact validName_component
        · exact (hm.names a hown).1
  · have hother : ∀ name ∈ fields, name ∉ (ownAttributes m).map Prod.fst := by
      intro name hname hmem
      obtain ⟨a, ha, rfl⟩ := List.mem_map.mp hmem
      exact (hm.names a ha).2 hname
    have hsource : (sourceAttribute m.source).map Prod.fst = []
        ∨ (sourceAttribute m.source).map Prod.fst = ["source"] := by
      cases m.source with
      | none => exact Or.inl rfl
      | some s =>
        simp only [sourceAttribute]
        split_ifs
        · exact Or.inl rfl
        · exact Or.inr rfl
    have haction := hother "action" (by simp [fields])
    have hcomponent := hother "component" (by simp [fields])
    have hsrc := hother "source" (by simp [fields])
    have hown := ownAttributes_keys m
    rw [List.map_append]
    rcases hsource with h | h
    · rw [h]
      simp [haction, hcomponent, hown]
    · rw [h]
      simp [haction, hcomponent, hown, hsrc]

/-- A message that is written is read from the same element. -/
lemma parse_stream (xml : XmlLibrary) {m : ProtocolMessage} (hm : m.Admissible) :
    (stream xml m).bind (parseProtocolMessage xml) = (messageElement m).bind readMessage := by
  unfold stream parseProtocolMessage
  cases he : messageElement m with
  | none => rfl
  | some e => simp [xml.read_write e (wellFormed_messageElement hm he)]

lemma lookup_source {m : ProtocolMessage} (hm : m.Admissible) (l : List (String × String)) :
    (sourceAttribute m.source ++ l).lookup "source" = m.source.or (l.lookup "source") := by
  cases hs : m.source with
  | none => rfl
  | some s =>
    simp only [sourceAttribute]
    rw [if_neg (by simp [hm.source s hs])]
    simp

lemma lookup_of_ne_source {name : String} (hname : name ≠ "source") {s : Option String}
    {l : List (String × String)} : (sourceAttribute s ++ l).lookup name = l.lookup name := by
  cases s with
  | none => rfl
  | some s =>
    simp only [sourceAttribute]
    split_ifs
    · rfl
    · rw [List.singleton_append, List.lookup, beq_eq_false_iff_ne.mpr hname]

/-- A message comes back as it was sent exactly when it has an action and a component and no
attribute of its own. -/
theorem roundTrips_iff (xml : XmlLibrary) {m : ProtocolMessage} (hm : m.Admissible) :
    RoundTrips xml m ↔ (∀ name, m.extra name = none) ∧ m.action ≠ none ∧ m.component ≠ none := by
  unfold RoundTrips
  rw [parse_stream xml hm]
  constructor
  · rintro ⟨r, hr, -, -, -, -, -⟩
    obtain ⟨e, he, hread⟩ := Option.bind_eq_some_iff.mp hr
    obtain ⟨action, component, haction, hcomponent, rfl⟩ := messageElement_eq he
    refine ⟨?_, by simp [haction], by simp [hcomponent]⟩
    rw [← ownAttributes_eq_nil_iff, List.eq_nil_iff_forall_not_mem]
    intro a ha
    have hnone : readMessage ⟨tagOf m.kind, sourceAttribute m.source ++ ("action", action) ::
        ("component", component) :: ownAttributes m, .nil⟩ = none := by
      unfold readMessage
      exact readAll_eq_none (a := a) (by simp [ha]) (hm.names a ha).2 rfl
    rw [hnone] at hread
    cases hread
  · rintro ⟨hextra, haction, hcomponent⟩
    obtain ⟨action, haction⟩ := Option.ne_none_iff_exists'.mp haction
    obtain ⟨component, hcomponent⟩ := Option.ne_none_iff_exists'.mp hcomponent
    have hown := ownAttributes_eq_nil_iff.mpr hextra
    have he : messageElement m = some ⟨tagOf m.kind, sourceAttribute m.source ++
        [("action", action), ("component", component)], .nil⟩ := by
      unfold messageElement
      rw [haction, hcomponent, hown]
      rfl
    have hvalid := (wellFormed_messageElement hm he).2.1
    have hfields : ∀ a ∈ sourceAttribute m.source ++
        [("action", action), ("component", component)], a.1 ∈ fields := by
      intro a ha
      rcases List.mem_append.mp ha with hsource | hrest
      · rw [mem_sourceAttribute hsource]
        simp [fields]
      · simp only [List.mem_cons, List.not_mem_nil, or_false] at hrest
        rcases hrest with rfl | rfl
        · simp [fields]
        · simp [fields]
    obtain ⟨r, hr, hkind, hnull, hvalue⟩ := readAll_eq hfields hvalid.2
      (newMessage ⟨tagOf m.kind, sourceAttribute m.source ++
        [("action", action), ("component", component)], .nil⟩)
    refine ⟨r, ?_, ?_, ?_, ?_, ?_, ?_⟩
    · rw [he]
      exact hr
    · rw [hkind]
      cases m.kind
      · rfl
      · rfl
    · have h := hvalue "source"
      rw [lookup_source hm] at h
      simpa [fieldOf, newMessage, List.lookup] using h
    · have h := hvalue "action"
      rw [lookup_of_ne_source (by decide)] at h
      simpa [fieldOf, haction] using h
    · have h := hvalue "component"
      rw [lookup_of_ne_source (by decide)] at h
      simpa [fieldOf, List.lookup, hcomponent] using h
    · intro name
      rw [hextra name, ProtocolMessage.extra, hnull]
      rfl

/-- A report without attributes of its own. -/
def profileReport : ProtocolMessage :=
  { kind := .report, source := some "13800000000", action := some "profile",
    component := some "device" }

theorem roundTrips_profileReport : RoundTrips plainXml profileReport :=
  (roundTrips_iff plainXml
    { source := by
        intro s hs
        cases hs
        decide +kernel
      names := by
        intro a ha
        cases ha }).mpr ⟨fun _ => rfl, by simp [profileReport], by simp [profileReport]⟩

/-- The report of a place, with the longitude as `LocationReport.setLongitude` puts it. -/
def placeReport : ProtocolMessage :=
  { kind := .report, action := some "location", component := some "phone",
    asstributes := some ((∅ : Attributes).insert "longitude" "116.4") }

theorem placeReport_is_lost : ¬ RoundTrips plainXml placeReport := by
  have hadmissible : placeReport.Admissible :=
    { source := by
        intro s hs
        cases hs
      names := by
        intro a ha
        have ha : a = ("longitude", "116.4") := List.mem_singleton.mp ha
        subst ha
        refine ⟨⟨⟨'l', by simp, by decide⟩, by simp; decide⟩, by simp [fields]⟩ }
  rintro ⟨r, hr, -⟩
  rw [parse_stream plainXml hadmissible] at hr
  cases hr

end MTalk.Assistance
