import MTalk.Assistance.Messages

/-!
# The receiver of short messages

The loop of `SmsProtocolProvider` over the messages that arrive together. The parser hands every
message to `wrap` as a report and without a test for null, so a request or a text that is no
message ends the loop with an exception. The loop does its work exactly when every text is a report
with fields only.
-/

namespace MTalk.Assistance

open MTalk.Xml

/-- A short message: where it comes from and its text. -/
structure Sms where
  originatingAddress : String
  messageBody : String

/-- The classes of wrappers. -/
inductive WrapperClass where
  | wrapper
  | picture
  | location
  | defination
  | alarm
  deriving DecidableEq

structure ProtocolMessageWrapper where
  cls : WrapperClass
  protocolMessage : ProtocolMessage
  deriving DecidableEq

/-- `o.getProtocolMessage().from = ...`. -/
def ProtocolMessageWrapper.setFrom (o : ProtocolMessageWrapper) (address : String) :
    ProtocolMessageWrapper :=
  { o with protocolMessage := { o.protocolMessage with «from» := some address } }

/-- The calls of the listener. -/
inductive Call where
  | onReport (o : ProtocolMessageWrapper)
  | onCommand (o : ProtocolMessageWrapper)
  | onAlarm (o : ProtocolMessageWrapper)
  deriving DecidableEq

/-- `ProtocolParser.wrap`: an exception for null and for a report without an action. The
constructors of the wrappers set the action and the component. -/
def wrap (report : Option ProtocolMessage) : Option ProtocolMessageWrapper := do
  let r ← report
  let action ← r.action
  if action = "picture" then
    some ⟨.picture, { r with action := some "picture", component := some "phone" }⟩
  else if action = "location" then
    some ⟨.location, { r with action := some "location", component := some "phone" }⟩
  else if action = "profile" then
    some ⟨.defination, { r with action := some "defination", component := some "device" }⟩
  else some ⟨.wrapper, r⟩

/-- `ProtocolParser.parseAndWrap` with its cast to `Report`. -/
def parseAndWrap (xml : XmlLibrary) (text : String) : Option ProtocolMessageWrapper :=
  match parseProtocolMessage xml text with
  | none => wrap none
  | some m => if m.kind = .report then wrap (some m) else none

/-- `SmsProtocolProvider.process`. -/
def process (o : ProtocolMessageWrapper) : List Call :=
  (if o.protocolMessage.kind = .report then [.onReport o] else [])
    ++ (if o.protocolMessage.kind = .request then [.onCommand o] else [])
    ++ (if o.cls = .alarm then [.onAlarm o] else [])

/-- What a run of the receiver does: the calls, and whether an exception ended it. -/
structure Reception where
  calls : List Call
  failed : Bool

/-- The loop of `onReceive` over the messages. -/
def onReceive (xml : XmlLibrary) : List Sms → Reception
  | [] => ⟨[], false⟩
  | msg :: rest =>
    match parseAndWrap xml msg.messageBody with
    | none => ⟨[], true⟩
    | some o =>
      let later := onReceive xml rest
      ⟨process (o.setFrom msg.originatingAddress) ++ later.calls, later.failed⟩

/-! What the receiver is for. -/

/-- The kind of message that an element is: a request or a report with an action and a component. -/
def messageKind (e : Element) : Option Kind :=
  if "action" ∈ e.attributes.map Prod.fst ∧ "component" ∈ e.attributes.map Prod.fst then
    if e.name = "request" then some .request
    else if e.name = "report" then some .report
    else none
  else none

/-- A message among the texts, with its sender. -/
structure Arrival where
  address : String
  kind : Kind
  element : Element

/-- The message that a text is, if it is one. -/
def arrival (xml : XmlLibrary) (msg : Sms) : Option Arrival := do
  let e ← xml.read msg.messageBody
  let kind ← messageKind e
  some ⟨msg.originatingAddress, kind, e⟩

/-- The call that a message of a kind belongs to. -/
def callOf : Kind → ProtocolMessageWrapper → Call
  | .report => .onReport
  | .request => .onCommand

/-- The call hands the message over. -/
def Hands (call : Call) (a : Arrival) : Prop :=
  ∃ o, call = callOf a.kind o ∧ o.protocolMessage.kind = a.kind
    ∧ o.protocolMessage.from = some a.address
    ∧ o.protocolMessage.source = a.element.attributes.lookup "source"
    ∧ ∀ name, name ∉ fields → o.protocolMessage.extra name = a.element.attributes.lookup name

/-- No exception, and every message is handed over once and in the order of arrival. -/
def Dispatches (xml : XmlLibrary) (msgs : List Sms) : Prop :=
  (onReceive xml msgs).failed = false
    ∧ List.Forall₂ Hands (onReceive xml msgs).calls (msgs.filterMap (arrival xml))

/-- The text is a report that has fields only. -/
def IsPlainReport (xml : XmlLibrary) (text : String) : Prop :=
  ∃ e, xml.read text = some e ∧ messageKind e = some .report ∧ ∀ a ∈ e.attributes, a.1 ∈ fields

/-! One message. -/

lemma wrap_eq {r : ProtocolMessage} {o : ProtocolMessageWrapper} (h : wrap (some r) = some o) :
    o.cls ≠ .alarm ∧ o.protocolMessage.kind = r.kind ∧ o.protocolMessage.source = r.source
      ∧ o.protocolMessage.asstributes = r.asstributes := by
  cases haction : r.action with
  | none => simp [wrap, haction] at h
  | some action =>
    simp only [wrap, haction, Option.bind_eq_bind, Option.bind_some] at h
    split_ifs at h
    · cases h
      exact ⟨by simp, rfl, rfl, rfl⟩
    · cases h
      exact ⟨by simp, rfl, rfl, rfl⟩
    · cases h
      exact ⟨by simp, rfl, rfl, rfl⟩
    · cases h
      exact ⟨by simp, rfl, rfl, rfl⟩

lemma wrap_of_action {r : ProtocolMessage} {action : String} (h : r.action = some action) :
    ∃ o, wrap (some r) = some o := by
  simp only [wrap, h, Option.bind_eq_bind, Option.bind_some]
  split_ifs
  · exact ⟨_, rfl⟩
  · exact ⟨_, rfl⟩
  · exact ⟨_, rfl⟩
  · exact ⟨_, rfl⟩

/-- A text that is wrapped is an element that is no request and has fields only. -/
lemma parseAndWrap_eq {xml : XmlLibrary} {text : String} {o : ProtocolMessageWrapper}
    (h : parseAndWrap xml text = some o) : o.cls ≠ .alarm ∧ o.protocolMessage.kind = .report
      ∧ ∃ e, xml.read text = some e ∧ e.name ≠ "request" ∧ ∀ a ∈ e.attributes, a.1 ∈ fields := by
  unfold parseAndWrap at h
  cases hm : parseProtocolMessage xml text with
  | none =>
    rw [hm] at h
    cases h
  | some m =>
    rw [hm] at h
    dsimp only at h
    split_ifs at h with hkind
    obtain ⟨hcls, hwrapped, -, -⟩ := wrap_eq h
    obtain ⟨e, he, hread⟩ := Option.bind_eq_some_iff.mp hm
    have hfields : ∀ a ∈ e.attributes, a.1 ∈ fields := by
      intro a ha
      by_contra hfield
      rw [readMessage, readAll_eq_none ha hfield rfl] at hread
      cases hread
    obtain ⟨r, hr, hnew, -, -⟩ :=
      readAll_eq hfields (xml.wellFormed_of_read he).2.1.2 (newMessage e)
    have hsame : r = m := Option.some.inj (hr.symm.trans hread)
    refine ⟨hcls, hwrapped.trans hkind, e, he, ?_, hfields⟩
    intro hrequest
    rw [hsame, hkind, newMessage, if_pos hrequest] at hnew
    cases hnew

lemma messageKind_report {e : Element} (h : messageKind e = some .report) :
    e.name = "report" ∧ "action" ∈ e.attributes.map Prod.fst := by
  unfold messageKind at h
  split_ifs at h with hnames hrequest hreport
  · cases h
  · exact ⟨hreport, hnames.1⟩

/-- A report with fields only is wrapped, with its source and without attributes of its own. -/
lemma parseAndWrap_of_plain {xml : XmlLibrary} {e : Element} {text : String}
    (he : xml.read text = some e) (hkind : messageKind e = some .report)
    (hfields : ∀ a ∈ e.attributes, a.1 ∈ fields) :
    ∃ o, parseAndWrap xml text = some o
      ∧ o.protocolMessage.source = e.attributes.lookup "source"
      ∧ o.protocolMessage.asstributes = none := by
  obtain ⟨hname, haction⟩ := messageKind_report hkind
  obtain ⟨r, hr, hnew, hnull, hvalue⟩ :=
    readAll_eq hfields (xml.wellFormed_of_read he).2.1.2 (newMessage e)
  have hparsed : parseProtocolMessage xml text = some r := by
    rw [parseProtocolMessage, he]
    exact hr
  have hreport : r.kind = .report := by
    rw [hnew, newMessage, if_neg (by rw [hname]; decide)]
  obtain ⟨action, hlookup⟩ : ∃ action, e.attributes.lookup "action" = some action := by
    obtain ⟨a, ha, hkey⟩ := List.mem_map.mp haction
    rw [← Option.isSome_iff_exists, List.lookup_isSome_iff]
    exact ⟨a, ha, by simp [hkey]⟩
  have hset : r.action = some action := by
    have h := hvalue "action"
    rw [hlookup] at h
    simpa [fieldOf] using h
  have hsource : r.source = e.attributes.lookup "source" := by
    have h := hvalue "source"
    simpa [fieldOf, newMessage] using h
  obtain ⟨o, ho⟩ := wrap_of_action hset
  obtain ⟨-, -, hsame, hown⟩ := wrap_eq ho
  refine ⟨o, ?_, hsame.trans hsource, hown.trans hnull⟩
  rw [parseAndWrap, hparsed]
  dsimp only
  rw [if_pos hreport, ho]

/-! The whole loop. -/

lemma process_report {o : ProtocolMessageWrapper} (hkind : o.protocolMessage.kind = .report)
    (hcls : o.cls ≠ .alarm) (address : String) :
    process (o.setFrom address) = [.onReport (o.setFrom address)] := by
  simp [process, ProtocolMessageWrapper.setFrom, hkind, hcls]

/-- A run without an exception has wrapped every text and made one call for each. -/
lemma onReceive_returns {xml : XmlLibrary} {msgs : List Sms}
    (h : (onReceive xml msgs).failed = false) :
    (onReceive xml msgs).calls.length = msgs.length
      ∧ ∀ msg ∈ msgs, ∃ o, parseAndWrap xml msg.messageBody = some o := by
  induction msgs with
  | nil => exact ⟨rfl, by simp⟩
  | cons msg rest ih =>
    unfold onReceive at h ⊢
    cases ho : parseAndWrap xml msg.messageBody with
    | none =>
      rw [ho] at h
      cases h
    | some o =>
      rw [ho] at h
      obtain ⟨hlength, hall⟩ := ih h
      obtain ⟨hcls, hkind, -⟩ := parseAndWrap_eq ho
      dsimp only
      rw [process_report hkind hcls]
      refine ⟨by simp [hlength], ?_⟩
      intro msg' hmsg'
      rcases List.mem_cons.mp hmsg' with rfl | hmem
      · exact ⟨o, ho⟩
      · exact hall msg' hmem

lemma mem_of_length_filterMap {α β : Type} {f : α → Option β} {l : List α}
    (h : (l.filterMap f).length = l.length) : ∀ a ∈ l, ∃ b, f a = some b := by
  induction l with
  | nil => simp
  | cons a l ih =>
    have hle := List.length_filterMap_le f l
    cases ha : f a with
    | none =>
      rw [List.filterMap_cons_none ha, List.length_cons] at h
      omega
    | some b =>
      rw [List.filterMap_cons_some ha, List.length_cons, List.length_cons] at h
      intro c hc
      rcases List.mem_cons.mp hc with rfl | hmem
      · exact ⟨b, ha⟩
      · exact ih (by omega) c hmem

lemma onReceive_of_plain {xml : XmlLibrary} {msgs : List Sms}
    (h : ∀ msg ∈ msgs, IsPlainReport xml msg.messageBody) : Dispatches xml msgs := by
  induction msgs with
  | nil => exact ⟨rfl, List.Forall₂.nil⟩
  | cons msg rest ih =>
    obtain ⟨e, he, hkind, hfields⟩ := h msg List.mem_cons_self
    obtain ⟨hfailed, hcalls⟩ := ih fun m hm => h m (List.mem_cons_of_mem msg hm)
    obtain ⟨o, ho, hsource, hnull⟩ := parseAndWrap_of_plain he hkind hfields
    obtain ⟨hcls, hreport, -⟩ := parseAndWrap_eq ho
    have harrival : arrival xml msg = some ⟨msg.originatingAddress, .report, e⟩ := by
      simp [arrival, he, hkind]
    unfold Dispatches onReceive
    rw [ho, List.filterMap_cons_some harrival]
    dsimp only
    rw [process_report hreport hcls]
    refine ⟨hfailed, List.Forall₂.cons ⟨_, rfl, hreport, rfl, hsource, ?_⟩ hcalls⟩
    intro name hname
    have hnone : e.attributes.lookup name = none := by
      rw [List.lookup_eq_none_iff]
      intro a ha
      rw [bne_iff_ne]
      rintro rfl
      exact hname (hfields a ha)
    have hown : (o.setFrom msg.originatingAddress).protocolMessage.asstributes = none := hnull
    rw [hnone, ProtocolMessage.extra, hown]
    rfl

/-- The receiver dispatches the messages that arrive together exactly when each of the texts is a
report with fields only. -/
theorem dispatches_iff (xml : XmlLibrary) (msgs : List Sms) :
    Dispatches xml msgs ↔ ∀ msg ∈ msgs, IsPlainReport xml msg.messageBody := by
  constructor
  · rintro ⟨hfailed, hcalls⟩ msg hmsg
    obtain ⟨hlength, hall⟩ := onReceive_returns hfailed
    obtain ⟨a, ha⟩ := mem_of_length_filterMap (hcalls.length_eq.symm.trans hlength) msg hmsg
    obtain ⟨o, ho⟩ := hall msg hmsg
    obtain ⟨-, -, e, he, hname, hfields⟩ := parseAndWrap_eq ho
    refine ⟨e, he, ?_, hfields⟩
    cases hkind : messageKind e with
    | none => simp [arrival, he, hkind] at ha
    | some kind =>
      unfold messageKind at hkind
      rw [if_neg hname] at hkind
      split_ifs at hkind
      exact hkind.symm
  · exact onReceive_of_plain

/-- The request for a picture. -/
def pictureRequest : Element :=
  ⟨"request", [("action", "picture"), ("component", "phone")], .nil⟩

lemma wellFormed_pictureRequest : pictureRequest.WellFormed := by
  refine ⟨validName_tagOf .request, ⟨?_, by simp [pictureRequest]⟩, trivial⟩
  intro a ha
  simp only [pictureRequest, List.mem_cons, List.not_mem_nil, or_false] at ha
  rcases ha with rfl | rfl
  · exact validName_action
  · exact validName_component

lemma parseAndWrap_pictureRequest (xml : XmlLibrary) :
    parseAndWrap xml (xml.write pictureRequest) = none := by
  rw [parseAndWrap, parseProtocolMessage, xml.read_write _ wellFormed_pictureRequest]
  rfl

lemma onReceive_failed {xml : XmlLibrary} {text : String} (h : parseAndWrap xml text = none)
    (address : String) (rest : List Sms) :
    (onReceive xml (⟨address, text⟩ :: rest)).failed = true := by
  simp only [onReceive, h]

/-- A single request ends the loop with an exception. -/
theorem pictureRequest_is_lost :
    ¬ Dispatches plainXml [⟨"13800000000", plainXml.write pictureRequest⟩] := by
  rintro ⟨hfailed, -⟩
  rw [onReceive_failed (parseAndWrap_pictureRequest plainXml)] at hfailed
  cases hfailed

end MTalk.Assistance
