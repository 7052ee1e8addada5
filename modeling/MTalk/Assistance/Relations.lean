import MTalk.Assistance.Devices

/-!
# Detailed relations

The XML of the relationships that lead to a device and of those that lead from it. The two lists are
told apart by the element around them.
-/

namespace MTalk.Assistance

open MTalk.Xml

/-- A relationship of two devices. The names may be null. -/
structure Relationship where
  fromId : String
  toId : String
  name : Option String
  reverseName : Option String
  deriving DecidableEq

structure DetailedRelation where
  «in» : List Relationship
  out : List Relationship
  deriving DecidableEq

/-- The relationship with the empty string for a null name. -/
def Relationship.named (r : Relationship) : Relationship :=
  { r with name := some (r.name.getD ""), reverseName := some (r.reverseName.getD "") }

/-- The element of a relationship. -/
def relationshipElement (fromId toId name reverseName : String) : Element :=
  ⟨"relationship", [("fromId", fromId), ("toId", toId), ("name", name),
    ("reverseName", reverseName)], .nil⟩

/-- The element of a relation with the elements of its relationships. -/
def relationDocument (ins outs : List Element) : Element :=
  ⟨"detailedRelation", [], .node "in" [] (.ofList ins) (.node "out" [] (.ofList outs) .nil)⟩

/-- One relationship that `ProtocolStreamer.streamDetailedRelation` writes. -/
def streamedRelationship (r : Relationship) : Element :=
  relationshipElement r.fromId r.toId (r.name.getD "") (r.reverseName.getD "")

/-- `ProtocolStreamer.streamDetailedRelation`. -/
def streamDetailedRelation (xml : XmlLibrary) (relation : DetailedRelation) : String :=
  xml.write (relationDocument (relation.in.map streamedRelationship)
    (relation.out.map streamedRelationship))

/-- One relationship of the list in `ProtocolParser.relations`. -/
def readRelationship (er : Element) : Relationship where
  fromId := er.getAttribute "fromId"
  toId := er.getAttribute "toId"
  name := some (er.getAttribute "name")
  reverseName := some (er.getAttribute "reverseName")

/-- `ProtocolParser.relations`. -/
def relations (root : Element) : List Relationship :=
  (root.getElementsByTagName "relationship").map readRelationship

/-- `ProtocolParser.parseDeviceRelation` on an element, which fails without one of the lists. -/
def readDetailedRelation (relationNode : Element) : Option DetailedRelation := do
  let ins ← (relationNode.getElementsByTagName "in").head?
  let outs ← (relationNode.getElementsByTagName "out").head?
  some ⟨relations ins, relations outs⟩

/-- `ProtocolParser.parseDeviceRelation` on a text. -/
def parseDeviceRelation (xml : XmlLibrary) (text : String) : Option DetailedRelation :=
  (xml.read text).bind readDetailedRelation

/-! The document. -/

lemma validName_relation : ∀ s ∈ ["detailedRelation", "in", "out", "relationship", "fromId", "toId",
    "name", "reverseName"], ValidName s := by
  simp only [List.forall_mem_cons, ValidName]
  simp
  and_intros
  all_goals decide

lemma readRelationship_element (fromId toId name reverseName : String) :
    readRelationship (relationshipElement fromId toId name reverseName)
      = ⟨fromId, toId, some name, some reverseName⟩ := by
  simp [readRelationship, relationshipElement, Element.getAttribute, List.lookup]

/-- An element of a relationship. -/
def IsRelationship (e : Element) : Prop :=
  ∃ fromId toId name reverseName, e = relationshipElement fromId toId name reverseName

lemma wellFormed_relationships {es : List Element} (h : ∀ e ∈ es, IsRelationship e) :
    (Forest.ofList es).WellFormed := by
  induction es with
  | nil => trivial
  | cons e es ih =>
    obtain ⟨fromId, toId, name, reverseName, rfl⟩ := h e List.mem_cons_self
    refine ⟨validName_relation _ (by simp [relationshipElement]), ⟨?_, ?_⟩, trivial,
      ih fun d hd => h d (List.mem_cons_of_mem _ hd)⟩
    · intro a ha
      simp only [relationshipElement, List.mem_cons, List.not_mem_nil, or_false] at ha
      rcases ha with rfl | rfl | rfl | rfl
      · exact validName_relation _ (by simp)
      · exact validName_relation _ (by simp)
      · exact validName_relation _ (by simp)
      · exact validName_relation _ (by simp)
    · simp [relationshipElement]

lemma wellFormed_relationDocument {ins outs : List Element} (hin : ∀ e ∈ ins, IsRelationship e)
    (hout : ∀ e ∈ outs, IsRelationship e) : (relationDocument ins outs).WellFormed := by
  have hnone : ValidAttributes [] := ⟨by simp, by simp⟩
  exact ⟨validName_relation _ (by simp [relationDocument]), hnone,
    validName_relation _ (by simp), hnone, wellFormed_relationships hin,
    validName_relation _ (by simp), hnone, wellFormed_relationships hout, trivial⟩

/-- The elements of the two lists are found again, each below its own element. -/
lemma tagged_relationDocument {ins outs : List Element} (hin : ∀ e ∈ ins, IsRelationship e)
    (hout : ∀ e ∈ outs, IsRelationship e) :
    (relationDocument ins outs).getElementsByTagName "in" = [⟨"in", [], .ofList ins⟩]
      ∧ (relationDocument ins outs).getElementsByTagName "out" = [⟨"out", [], .ofList outs⟩]
      ∧ (Forest.ofList ins).tagged "relationship" = ins
      ∧ (Forest.ofList outs).tagged "relationship" = outs := by
  have hleaf : ∀ {es : List Element}, (∀ e ∈ es, IsRelationship e) →
      ∀ e ∈ es, e.name = "relationship" ∧ e.children = .nil := by
    intro es h e he
    obtain ⟨fromId, toId, name, reverseName, rfl⟩ := h e he
    exact ⟨rfl, rfl⟩
  have hins := tagged_ofList (hleaf hin)
  have houts := tagged_ofList (hleaf hout)
  refine ⟨?_, ?_, (hins "relationship").trans (if_pos rfl),
    (houts "relationship").trans (if_pos rfl)⟩
  · simp [relationDocument, Element.getElementsByTagName, Forest.tagged, hins, houts]
  · simp [relationDocument, Element.getElementsByTagName, Forest.tagged, hins, houts]

/-- A document of relationships is read with both lists. -/
lemma parse_relationDocument (xml : XmlLibrary) {ins outs : List Element}
    (hin : ∀ e ∈ ins, IsRelationship e) (hout : ∀ e ∈ outs, IsRelationship e) :
    parseDeviceRelation xml (xml.write (relationDocument ins outs))
      = some ⟨ins.map readRelationship, outs.map readRelationship⟩ := by
  obtain ⟨hinElement, houtElement, hins, houts⟩ := tagged_relationDocument hin hout
  rw [parseDeviceRelation, xml.read_write _ (wellFormed_relationDocument hin hout),
    Option.bind_some, readDetailedRelation, hinElement, houtElement]
  simp only [List.head?_cons, Option.bind_eq_bind, Option.bind_some, relations,
    Element.getElementsByTagName, hins, houts]

end MTalk.Assistance
