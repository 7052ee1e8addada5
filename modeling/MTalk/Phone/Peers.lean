import MTalk.Config.Friends
import MTalk.Phone.PresenceBody

/-!
# Peers and their addresses

The friends, the unknown subscribers and the chat rooms that an incoming SUBSCRIBE, an answer to a
SUBSCRIBE, a NOTIFY or a MESSAGE is attached to. A friend is looked up by the user name, or by the
host when one side has no user name, a chat room by the user name only, and a NOTIFY goes to the
friend whose subscription has its number.
-/

namespace MTalk.Phone

open CStrings Config

/-- The parts of an `osip_from_t` that are compared. -/
structure PeerAddress where
  username : Option String
  host : Option String
deriving DecidableEq

structure LinphoneFriend where
  url : PeerAddress
  outDid : ℤ
  inDid : ℤ
  nid : ℤ
  sid : ℤ
  pol : SubscribePolicy
  status : OnlineStatus
  subscribe : Bool
  incSubscribePending : Bool
deriving DecidableEq

/-- The state of a subscription in a NOTIFY that is sent. -/
inductive SubscriptionState where
  | pending
  | active
  | terminated
deriving DecidableEq

/-- What is handed to the SIP stack and to the user interface. Friends and chat rooms are given by
their places in the lists. -/
inductive PeerOutput where
  | answer (tid code : ℤ)
  | notify (did : ℤ) (ss : SubscriptionState) (os : OnlineStatus)
  | subscribe (friend : ℕ)
  | notifyRecv (friend : ℕ) (status : OnlineStatus)
  | newUnknownSubscriber (url : PeerAddress)
  | textReceived (room : Option ℕ) (sender : PeerAddress) (msg : String)
deriving DecidableEq

structure Peers where
  friends : List LinphoneFriend
  subscribers : List LinphoneFriend
  chatrooms : List PeerAddress
  presenceMode : OnlineStatus
deriving DecidableEq

/-- The events. `readBack` is what is read from the text of the sender's address, by
`osip_from_parse` or `linphone_core_interpret_url`, when a subscriber or a chat room is made. -/
inductive PeerEvent where
  | subscriptionNew (sender : PeerAddress) (did nid tid : ℤ) (readBack : Option PeerAddress)
  | subscriptionAnswered (callee : PeerAddress) (did sid : ℤ)
  | subscriptionNotify (sender : PeerAddress) (sid : ℤ) (body : Option String) (terminated : Bool)
  | message (sender : PeerAddress) (body : Option String) (readBack : Option PeerAddress)
deriving DecidableEq

/-- `friend_data_compare` with the result zero. -/
def friendDataCompare (a b : PeerAddress) : Bool :=
  match a.username, b.username with
  | some ua, some ub => caseEq ua ub
  | _, _ =>
    match a.host, b.host with
    | some ha, some hb => caseEq ha hb
    | _, _ => false

/-- `find_friend`, as a place in the list. -/
def findFriend (fl : List LinphoneFriend) (address : PeerAddress) : Option ℕ :=
  fl.findIdx? fun lf => friendDataCompare lf.url address

def linphoneFindFriendBySid (fl : List LinphoneFriend) (sid : ℤ) : Option ℕ :=
  fl.findIdx? fun lf => lf.sid = sid

def linphoneFriendNew (url : PeerAddress) : LinphoneFriend where
  url := url
  outDid := -1
  inDid := -1
  nid := -1
  sid := -1
  pol := .accept
  status := .offline
  subscribe := true
  incSubscribePending := false

namespace LinphoneFriend

def setNid (lf : LinphoneFriend) (nid : ℤ) : LinphoneFriend :=
  { lf with nid := nid, incSubscribePending := true }

/-- The friend whose SUBSCRIBE came in. -/
def asked (lf : LinphoneFriend) (did nid : ℤ) : LinphoneFriend := { lf with inDid := did }.setNid nid

/-- The friend with the status of a NOTIFY, and without its subscription when this was the last. -/
def notified (lf : LinphoneFriend) (status : OnlineStatus) (terminated : Bool) : LinphoneFriend :=
  let lf := { lf with status := status }
  if terminated then { lf with sid := -1, outDid := -1 } else lf

/-- `linphone_friend_notify`. -/
def notify (lf : LinphoneFriend) (ss : SubscriptionState) (os : OnlineStatus) : List PeerOutput :=
  if lf.inDid = -1 then [] else [.notify lf.inDid ss os]

/-- The NOTIFY that answers a pending subscription. -/
def answerPending (lf : LinphoneFriend) (presenceMode : OnlineStatus) : List PeerOutput :=
  if lf.incSubscribePending then
    match lf.pol with
    | .wait => lf.notify .pending .pending
    | .accept => lf.notify .active presenceMode
    | .deny => lf.notify .terminated .closed
  else []

/-- `__linphone_friend_do_subscribe`; who has not answered yet appears as offline. -/
def doSubscribe (lf : LinphoneFriend) (i : ℕ) : List PeerOutput :=
  (if lf.sid < 0 then [.notifyRecv i .offline] else []) ++ [.subscribe i]

/-- What `linphone_friend_apply` sends and shows. -/
def applied (lf : LinphoneFriend) (presenceMode : OnlineStatus) (i : ℕ) : List PeerOutput :=
  lf.answerPending presenceMode
    ++ if lf.subscribe ∧ lf.outDid = -1 then lf.doSubscribe i else []

end LinphoneFriend

namespace Peers

def modifyFriend (p : Peers) (i : ℕ) (f : LinphoneFriend → LinphoneFriend) : Peers :=
  { p with friends := p.friends.modify i f }

/-- `linphone_core_add_subscriber`. -/
def addSubscriber (p : Peers) (url : PeerAddress) (did nid : ℤ) : Peers :=
  { p with subscribers := p.subscribers ++ [(linphoneFriendNew url).asked did nid] }

def linphoneSubscriptionNew (p : Peers) (sender : PeerAddress) (did nid tid : ℤ)
    (readBack : Option PeerAddress) : Peers × List PeerOutput :=
  match findFriend p.friends sender with
  | some i =>
    let outputs := (p.friends[i]?.map fun lf => (lf.asked did nid).applied p.presenceMode i).getD []
    (p.modifyFriend i fun lf => { lf.asked did nid with incSubscribePending := false },
      .answer tid 202 :: outputs)
  | none =>
    match findFriend p.subscribers sender with
    | some j =>
      let denied := p.subscribers[j]?.any fun lf => lf.pol = .deny
      (p, if denied then [.answer tid 401] else [])
    | none =>
      match readBack with
      | none => (p, [.answer tid 202])
      | some url => (p.addSubscriber url did nid, [.answer tid 202, .newUnknownSubscriber url])

def linphoneSubscriptionAnswered (p : Peers) (callee : PeerAddress) (did sid : ℤ) :
    Peers × List PeerOutput :=
  match findFriend p.friends callee with
  | some i => (p.modifyFriend i fun lf => { lf with outDid := did, sid := sid }, [])
  | none => (p, [])

/-- `linphone_notify_recv`; nothing is done without a body. -/
def linphoneNotifyRecv (p : Peers) (sid : ℤ) (body : Option String) (terminated : Bool) :
    Peers × List PeerOutput :=
  match body with
  | none => (p, [])
  | some text =>
    match linphoneFindFriendBySid p.friends sid with
    | none => (p, [])
    | some i =>
      (p.modifyFriend i fun lf => lf.notified (notifyRecvStatus text) terminated,
        [.notifyRecv i (notifyRecvStatus text)])

/-- `linphone_chat_room_matches`. -/
def linphoneChatRoomMatches (peer sender : PeerAddress) : Bool :=
  match peer.username, sender.username with
  | some u, some v => u == v
  | _, _ => false

/-- `linphone_core_text_received`. Where no room matches and none can be made, the room is `NULL`. -/
def linphoneCoreTextReceived (p : Peers) (sender : PeerAddress) (body : Option String)
    (readBack : Option PeerAddress) : Peers × List PeerOutput :=
  match body with
  | none => (p, [])
  | some msg =>
    match p.chatrooms.findIdx? fun peer => linphoneChatRoomMatches peer sender with
    | some j => (p, [.textReceived (some j) sender msg])
    | none =>
      match readBack with
      | some peer => ({ p with chatrooms := p.chatrooms ++ [peer] },
          [.textReceived (some p.chatrooms.length) sender msg])
      | none => (p, [.textReceived none sender msg])

/-- What `linphone_core_process_event` does with the event. -/
def processEvent (p : Peers) : PeerEvent → Peers × List PeerOutput
  | .subscriptionNew sender did nid tid readBack =>
    p.linphoneSubscriptionNew sender did nid tid readBack
  | .subscriptionAnswered callee did sid => p.linphoneSubscriptionAnswered callee did sid
  | .subscriptionNotify _ sid body terminated => p.linphoneNotifyRecv sid body terminated
  | .message sender body readBack => p.linphoneCoreTextReceived sender body readBack

def run (p : Peers) (events : List PeerEvent) : Peers :=
  events.foldl (fun p e => (p.processEvent e).1) p

end Peers

/-! What an event is attached to. -/

/-- The address of the other party. -/
def PeerEvent.sender : PeerEvent → PeerAddress
  | .subscriptionNew sender .. => sender
  | .subscriptionAnswered callee .. => callee
  | .subscriptionNotify sender .. => sender
  | .message sender .. => sender

/-- Parts of two addresses that are both there and equal up to case, or both absent. -/
def SamePart : Option String → Option String → Prop
  | some s, some t => caseEq s t = true
  | none, none => True
  | _, _ => False

/-- The same user name and the same host. -/
def SameAddress (a b : PeerAddress) : Prop :=
  SamePart a.username b.username ∧ SamePart a.host b.host

/-- The same user name or, where one has none, the same host. -/
def SamePeer (a b : PeerAddress) : Prop :=
  (∃ u v, a.username = some u ∧ b.username = some v ∧ caseEq u v = true)
    ∨ (a.username = none ∨ b.username = none)
      ∧ ∃ h k, a.host = some h ∧ b.host = some k ∧ caseEq h k = true

/-- The same user name, in upper and lower case letters too. -/
def SameUser (a b : PeerAddress) : Prop := ∃ u, a.username = some u ∧ b.username = some u

lemma friendDataCompare_iff (a b : PeerAddress) : friendDataCompare a b = true ↔ SamePeer a b := by
  rcases a with ⟨_ | u, _ | h⟩ <;> rcases b with ⟨_ | v, _ | k⟩ <;>
    simp [friendDataCompare, SamePeer]

namespace Peers

lemma linphoneChatRoomMatches_iff (peer sender : PeerAddress) :
    linphoneChatRoomMatches peer sender = true ↔ SameUser peer sender := by
  rcases peer with ⟨_ | u, h⟩ <;> rcases sender with ⟨_ | v, k⟩ <;>
    simp [linphoneChatRoomMatches, SameUser]
  exact eq_comm

/-- The friends that are not meant stay as they are, and nothing is sent to or shown for them. -/
def FriendsUntouched (meant : ℕ → LinphoneFriend → Prop) (p : Peers)
    (result : Peers × List PeerOutput) : Prop :=
  ∀ i lf, p.friends[i]? = some lf → ¬ meant i lf →
    result.1.friends[i]? = some lf ∧ .subscribe i ∉ result.2
      ∧ ∀ status, .notifyRecv i status ∉ result.2

/-- The event goes to friends and chat rooms with the sender's address only, and a message for
which there is no such room gets a new one. -/
structure AttachedByAddress (p : Peers) (e : PeerEvent) : Prop where
  friends : FriendsUntouched (fun _ lf => SameAddress lf.url e.sender) p (p.processEvent e)
  rooms : ∀ j sender msg, .textReceived (some j) sender msg ∈ (p.processEvent e).2 →
    ∃ peer, (p.processEvent e).1.chatrooms[j]? = some peer ∧ SameAddress peer e.sender
  created : ∀ sender msg peer, e = .message sender (some msg) (some peer) →
    (∀ room ∈ p.chatrooms, ¬ SameAddress room sender) →
      (p.processEvent e).1.chatrooms = p.chatrooms ++ [peer]

/-- The number of a friend's subscription is none, the one from the start, or was given by an
answer of that peer. -/
def Numbered (start : Peers) (past : List PeerEvent) (i : ℕ) (lf : LinphoneFriend) : Prop :=
  lf.sid = -1 ∨ start.friends[i]?.map LinphoneFriend.sid = some lf.sid
    ∨ ∃ callee did, .subscriptionAnswered callee did lf.sid ∈ past ∧ SamePeer lf.url callee

/-- The friends that an event may come to after the events of the past. -/
def MeantFor (start : Peers) (past : List PeerEvent) (i : ℕ) (lf : LinphoneFriend) :
    PeerEvent → Prop
  | .subscriptionNew sender .. => SamePeer lf.url sender
  | .subscriptionAnswered callee .. => SamePeer lf.url callee
  | .subscriptionNotify _ sid .. => lf.sid = sid ∧ Numbered start past i lf
  | .message .. => False

/-- The event goes to friends of that name or number and to chat rooms of that name only. A
subscription is refused for a denied subscriber of that name only, and a message for which there
is no room of that name gets a new one. -/
structure AttachedByUser (start : Peers) (past : List PeerEvent) (p : Peers) (e : PeerEvent) :
    Prop where
  friends : FriendsUntouched (fun i lf => MeantFor start past i lf e) p (p.processEvent e)
  refused : ∀ tid, .answer tid 401 ∈ (p.processEvent e).2 →
    ∃ lf ∈ p.subscribers, SamePeer lf.url e.sender ∧ lf.pol = .deny
  rooms : ∀ j sender msg, .textReceived (some j) sender msg ∈ (p.processEvent e).2 →
    sender = e.sender ∧ ∃ peer, (p.processEvent e).1.chatrooms[j]? = some peer
      ∧ (SameUser peer sender ∨ ∃ body, e = .message sender body (some peer))
  created : ∀ sender msg readBack, e = .message sender (some msg) readBack →
    (∀ room ∈ p.chatrooms, ¬ SameUser room sender) →
      (p.processEvent e).1.chatrooms = p.chatrooms ++ readBack.toList

variable {p : Peers} {fl : List LinphoneFriend} {address : PeerAddress} {i j : ℕ} {sid : ℤ}
  {meant : ℕ → LinphoneFriend → Prop}

lemma exists_of_findIdx? {α : Type} {found : α → Bool} {l : List α} (h : l.findIdx? found = some i) :
    ∃ a, l[i]? = some a ∧ found a = true := by
  obtain ⟨hi, hfound, -⟩ := List.findIdx?_eq_some_iff_getElem.mp h
  exact ⟨l[i], List.getElem?_eq_getElem hi, hfound⟩

lemma exists_of_findFriend (h : findFriend fl address = some i) :
    ∃ lf, fl[i]? = some lf ∧ SamePeer lf.url address := by
  obtain ⟨lf, hlf, hfound⟩ := exists_of_findIdx? h
  exact ⟨lf, hlf, (friendDataCompare_iff _ _).mp hfound⟩

lemma exists_of_findFriendBySid (h : linphoneFindFriendBySid fl sid = some i) :
    ∃ lf, fl[i]? = some lf ∧ lf.sid = sid := by
  obtain ⟨lf, hlf, hfound⟩ := exists_of_findIdx? h
  exact ⟨lf, hlf, by simpa using hfound⟩

lemma getElem?_modifyFriend (p : Peers) (i j : ℕ) (f : LinphoneFriend → LinphoneFriend) :
    (p.modifyFriend i f).friends[j]? = if i = j then p.friends[j]?.map f else p.friends[j]? := by
  rw [modifyFriend, List.getElem?_modify]
  split_ifs <;> simp

lemma untouched_of_eq {outputs : List PeerOutput} {p' : Peers} (h : p'.friends = p.friends)
    (hsubscribe : ∀ i, .subscribe i ∉ outputs) (hshown : ∀ i status, .notifyRecv i status ∉ outputs) :
    FriendsUntouched meant p (p', outputs) := by
  intro i lf hlf _
  rw [h]
  exact ⟨hlf, hsubscribe i, hshown i⟩

/-- Only the friend that is meant is changed. -/
lemma modifyFriend_untouched {lf : LinphoneFriend} {f : LinphoneFriend → LinphoneFriend}
    {outputs : List PeerOutput} (hlf : p.friends[i]? = some lf) (hmeant : meant i lf)
    (hsubscribe : ∀ j, .subscribe j ∈ outputs → j = i)
    (hshown : ∀ j status, .notifyRecv j status ∈ outputs → j = i) :
    FriendsUntouched meant p (p.modifyFriend i f, outputs) := by
  intro j lf' hlf' hnot
  have hne : j ≠ i := by
    rintro rfl
    rw [hlf, Option.some.injEq] at hlf'
    subst hlf'
    exact hnot hmeant
  refine ⟨?_, fun h => hne (hsubscribe j h), fun status h => hne (hshown j status h)⟩
  rw [getElem?_modifyFriend, if_neg hne.symm]
  exact hlf'

lemma of_modifyFriend {f : LinphoneFriend → LinphoneFriend} {lf' : LinphoneFriend}
    (h : (p.modifyFriend i f).friends[j]? = some lf') :
    ∃ lf, p.friends[j]? = some lf ∧ (lf' = lf ∨ i = j ∧ lf' = f lf) := by
  rw [getElem?_modifyFriend] at h
  split_ifs at h with hij
  · obtain ⟨lf, hlf, hf⟩ := Option.map_eq_some_iff.mp h
    exact ⟨lf, hlf, .inr ⟨hij, hf.symm⟩⟩
  · exact ⟨lf', h, .inl rfl⟩

/-- What applying a friend sends and shows is for that friend. -/
lemma mem_applied {lf : LinphoneFriend} {mode : OnlineStatus} {out : PeerOutput}
    (h : out ∈ lf.applied mode i) :
    (∃ ss os, out = .notify lf.inDid ss os) ∨ out = .notifyRecv i .offline ∨ out = .subscribe i := by
  have hnotify : ∀ ss os, out ∈ lf.notify ss os → ∃ ss os, out = .notify lf.inDid ss os := by
    intro ss os hout
    unfold LinphoneFriend.notify at hout
    split_ifs at hout
    · simp at hout
    · exact ⟨ss, os, List.mem_singleton.mp hout⟩
  unfold LinphoneFriend.applied at h
  rcases List.mem_append.mp h with h | h
  · unfold LinphoneFriend.answerPending at h
    split_ifs at h
    · cases hpol : lf.pol <;> rw [hpol] at h <;> exact .inl (hnotify _ _ h)
    · simp at h
  · split_ifs at h
    · unfold LinphoneFriend.doSubscribe at h
      split_ifs at h <;> simp at h <;> tauto
    · simp at h

/-! The handlers. -/

/-- A SUBSCRIBE of a friend. -/
lemma subscriptionNew_friend {sender : PeerAddress} {lf : LinphoneFriend} (did nid tid : ℤ)
    (readBack : Option PeerAddress) (hfind : findFriend p.friends sender = some i)
    (hlf : p.friends[i]? = some lf) : p.linphoneSubscriptionNew sender did nid tid readBack =
      (p.modifyFriend i fun lf => { lf.asked did nid with incSubscribePending := false },
        .answer tid 202 :: (lf.asked did nid).applied p.presenceMode i) := by
  simp only [linphoneSubscriptionNew, hfind, hlf, Option.map_some, Option.getD_some]

lemma subscriptionNew_attached (start : Peers) (past : List PeerEvent) (p : Peers)
    (sender : PeerAddress) (did nid tid : ℤ) (readBack : Option PeerAddress) :
    AttachedByUser start past p (.subscriptionNew sender did nid tid readBack) := by
  cases hfind : findFriend p.friends sender with
  | some i =>
    obtain ⟨lf, hlf, hsame⟩ := exists_of_findFriend hfind
    have hstep := subscriptionNew_friend did nid tid readBack hfind hlf
    constructor
    · rw [processEvent, hstep]
      refine modifyFriend_untouched hlf hsame ?_ ?_
      · intro j hj
        rcases List.mem_cons.mp hj with h | h
        · cases h
        · rcases mem_applied h with ⟨ss, os, h⟩ | h | h <;> cases h
          rfl
      · intro j status hj
        rcases List.mem_cons.mp hj with h | h
        · cases h
        · rcases mem_applied h with ⟨ss, os, h⟩ | h | h <;> cases h
          rfl
    · intro tid' h
      rw [processEvent, hstep] at h
      rcases List.mem_cons.mp h with h | h
      · cases h
      · rcases mem_applied h with ⟨ss, os, h⟩ | h | h <;> cases h
    · intro j sender' msg h
      rw [processEvent, hstep] at h
      rcases List.mem_cons.mp h with h | h
      · cases h
      · rcases mem_applied h with ⟨ss, os, h⟩ | h | h <;> cases h
    · intro sender' msg readBack' h
      cases h
  | none =>
    cases hsubscriber : findFriend p.subscribers sender with
    | some j =>
      obtain ⟨lf, hlf, hsame⟩ := exists_of_findFriend hsubscriber
      have hstep : p.linphoneSubscriptionNew sender did nid tid readBack
          = (p, if lf.pol = .deny then [.answer tid 401] else []) := by
        simp [linphoneSubscriptionNew, hfind, hsubscriber, hlf]
      have hout : ∀ out ∈ (p.linphoneSubscriptionNew sender did nid tid readBack).2,
          out = .answer tid 401 ∧ lf.pol = .deny := by
        intro out h
        rw [hstep] at h
        split_ifs at h with hdeny
        · exact ⟨List.mem_singleton.mp h, hdeny⟩
        · simp at h
      have hfriends : (p.linphoneSubscriptionNew sender did nid tid readBack).1.friends
          = p.friends := by
        rw [hstep]
      constructor
      · rw [processEvent]
        refine untouched_of_eq hfriends ?_ ?_
        · intro i h
          cases (hout _ h).1
        · intro i status h
          cases (hout _ h).1
      · intro tid' h
        exact ⟨lf, List.mem_of_getElem? hlf, hsame, (hout _ h).2⟩
      · intro j sender' msg h
        cases (hout _ h).1
      · intro sender' msg readBack' h
        cases h
    | none =>
      have hfriends : (p.linphoneSubscriptionNew sender did nid tid readBack).1.friends
          = p.friends := by
        cases readBack <;> simp [linphoneSubscriptionNew, hfind, hsubscriber, addSubscriber]
      have hout : ∀ out ∈ (p.linphoneSubscriptionNew sender did nid tid readBack).2,
          out = .answer tid 202 ∨ ∃ url, out = .newUnknownSubscriber url := by
        intro out h
        cases readBack with
        | none => exact .inl (by simpa [linphoneSubscriptionNew, hfind, hsubscriber] using h)
        | some url =>
          rw [linphoneSubscriptionNew, hfind, hsubscriber] at h
          rcases List.mem_cons.mp h with h | h
          · exact .inl h
          · exact .inr ⟨url, List.mem_singleton.mp h⟩
      constructor
      · rw [processEvent]
        refine untouched_of_eq hfriends ?_ ?_
        · intro i h
          rcases hout _ h with h | ⟨url, h⟩ <;> cases h
        · intro i status h
          rcases hout _ h with h | ⟨url, h⟩ <;> cases h
      · intro tid' h
        rcases hout _ h with h | ⟨url, h⟩ <;> cases h
      · intro j sender' msg h
        rcases hout _ h with h | ⟨url, h⟩ <;> cases h
      · intro sender' msg readBack' h
        cases h

lemma subscriptionAnswered_attached (start : Peers) (past : List PeerEvent) (p : Peers)
    (callee : PeerAddress) (did sid : ℤ) :
    AttachedByUser start past p (.subscriptionAnswered callee did sid) := by
  have hout : (p.linphoneSubscriptionAnswered callee did sid).2 = [] := by
    unfold linphoneSubscriptionAnswered
    split <;> rfl
  constructor
  · rw [processEvent]
    cases hfind : findFriend p.friends callee with
    | some i =>
      obtain ⟨lf, hlf, hsame⟩ := exists_of_findFriend hfind
      rw [linphoneSubscriptionAnswered, hfind]
      exact modifyFriend_untouched hlf hsame (by simp) (by simp)
    | none =>
      rw [linphoneSubscriptionAnswered, hfind]
      exact untouched_of_eq rfl (by simp) (by simp)
  · intro tid h
    rw [processEvent, hout] at h
    simp at h
  · intro j sender msg h
    rw [processEvent, hout] at h
    simp at h
  · intro sender msg readBack h
    cases h

lemma notifyRecv_attached {start : Peers} {past : List PeerEvent}
    (hnumbered : ∀ i lf, p.friends[i]? = some lf → Numbered start past i lf)
    (sender : PeerAddress) (sid : ℤ) (body : Option String) (terminated : Bool) :
    AttachedByUser start past p (.subscriptionNotify sender sid body terminated) := by
  have hquiet : p.linphoneNotifyRecv sid body terminated = (p, []) ∨
      ∃ i lf text, p.friends[i]? = some lf ∧ lf.sid = sid
        ∧ p.linphoneNotifyRecv sid body terminated =
          (p.modifyFriend i fun lf => lf.notified (notifyRecvStatus text) terminated,
            [.notifyRecv i (notifyRecvStatus text)]) := by
    cases body with
    | none => exact .inl rfl
    | some text =>
      cases hfind : linphoneFindFriendBySid p.friends sid with
      | none => exact .inl (by simp [linphoneNotifyRecv, hfind])
      | some i =>
        obtain ⟨lf, hlf, hsid⟩ := exists_of_findFriendBySid hfind
        exact .inr ⟨i, lf, text, hlf, hsid, by simp [linphoneNotifyRecv, hfind]⟩
  rcases hquiet with hstep | ⟨i, lf, text, hlf, hsid, hstep⟩
  · constructor
    · rw [processEvent, hstep]
      exact untouched_of_eq rfl (by simp) (by simp)
    · simp [processEvent, hstep]
    · simp [processEvent, hstep]
    · intro sender' msg readBack h
      cases h
  · constructor
    · rw [processEvent, hstep]
      exact modifyFriend_untouched hlf ⟨hsid, hnumbered i lf hlf⟩ (by simp) (by simp +contextual)
    · simp [processEvent, hstep]
    · simp [processEvent, hstep]
    · intro sender' msg readBack h
      cases h

lemma textReceived_attached (start : Peers) (past : List PeerEvent) (p : Peers)
    (sender : PeerAddress) (body : Option String) (readBack : Option PeerAddress) :
    AttachedByUser start past p (.message sender body readBack) := by
  cases body with
  | none =>
    constructor
    · exact untouched_of_eq rfl (by simp) (by simp)
    · simp [processEvent, linphoneCoreTextReceived]
    · simp [processEvent, linphoneCoreTextReceived]
    · intro sender' msg readBack' h
      cases h
  | some text =>
    cases hfind : p.chatrooms.findIdx? fun peer => linphoneChatRoomMatches peer sender with
    | some k =>
      obtain ⟨peer, hpeer, hmatches⟩ := exists_of_findIdx? hfind
      have hsame := (linphoneChatRoomMatches_iff peer sender).mp hmatches
      have hstep : p.linphoneCoreTextReceived sender (some text) readBack
          = (p, [.textReceived (some k) sender text]) := by
        simp [linphoneCoreTextReceived, hfind]
      constructor
      · rw [processEvent, hstep]
        exact untouched_of_eq rfl (by simp) (by simp)
      · simp [processEvent, hstep]
      · intro j sender' msg h
        rw [processEvent, hstep] at h
        cases List.mem_singleton.mp h
        refine ⟨rfl, peer, ?_, .inl hsame⟩
        rw [processEvent, hstep]
        exact hpeer
      · intro sender' msg readBack' h hnone
        cases h
        exact absurd hsame (hnone peer (List.mem_of_getElem? hpeer))
    | none =>
      cases readBack with
      | none =>
        have hstep : p.linphoneCoreTextReceived sender (some text) none
            = (p, [.textReceived none sender text]) := by
          simp [linphoneCoreTextReceived, hfind]
        constructor
        · rw [processEvent, hstep]
          exact untouched_of_eq rfl (by simp) (by simp)
        · simp [processEvent, hstep]
        · simp [processEvent, hstep]
        · intro sender' msg readBack' h _
          cases h
          rw [processEvent, hstep]
          exact (List.append_nil _).symm
      | some url =>
        have hstep : p.linphoneCoreTextReceived sender (some text) (some url)
            = ({ p with chatrooms := p.chatrooms ++ [url] },
              [.textReceived (some p.chatrooms.length) sender text]) := by
          simp [linphoneCoreTextReceived, hfind]
        constructor
        · rw [processEvent, hstep]
          exact untouched_of_eq rfl (by simp) (by simp)
        · simp [processEvent, hstep]
        · intro j sender' msg h
          rw [processEvent, hstep] at h
          cases List.mem_singleton.mp h
          refine ⟨rfl, url, ?_, .inr ⟨some text, rfl⟩⟩
          rw [processEvent, hstep]
          simp
        · intro sender' msg readBack' h _
          cases h
          rw [processEvent, hstep]
          rfl

/-! Runs. -/

/-- What an event makes of a friend's address and of the number of its subscription. -/
lemma processEvent_friend {e : PeerEvent} {lf' : LinphoneFriend}
    (h : (p.processEvent e).1.friends[i]? = some lf') :
    ∃ lf, p.friends[i]? = some lf ∧ lf'.url = lf.url ∧ (lf'.sid = lf.sid ∨ lf'.sid = -1
      ∨ ∃ callee did, e = .subscriptionAnswered callee did lf'.sid ∧ SamePeer lf.url callee) := by
  cases e with
  | subscriptionNew sender did nid tid readBack =>
    dsimp only [processEvent, linphoneSubscriptionNew] at h
    split at h
    · obtain ⟨lf, hlf, rfl | ⟨-, rfl⟩⟩ := of_modifyFriend h
      · exact ⟨lf', hlf, rfl, .inl rfl⟩
      · exact ⟨lf, hlf, rfl, .inl rfl⟩
    · split at h
      · exact ⟨lf', h, rfl, .inl rfl⟩
      · split at h <;> exact ⟨lf', h, rfl, .inl rfl⟩
  | subscriptionAnswered callee did sid =>
    rw [processEvent, linphoneSubscriptionAnswered] at h
    split at h
    next i' hfind =>
      obtain ⟨lf, hlf, rfl | ⟨rfl, rfl⟩⟩ := of_modifyFriend h
      · exact ⟨lf', hlf, rfl, .inl rfl⟩
      · obtain ⟨found, hfound, hsame⟩ := exists_of_findFriend hfind
        rw [hlf, Option.some.injEq] at hfound
        subst hfound
        exact ⟨lf, hlf, rfl, .inr (.inr ⟨callee, did, rfl, hsame⟩)⟩
    next => exact ⟨lf', h, rfl, .inl rfl⟩
  | subscriptionNotify sender sid body terminated =>
    change (p.linphoneNotifyRecv sid body terminated).1.friends[i]? = some lf' at h
    unfold linphoneNotifyRecv at h
    split at h
    · exact ⟨lf', h, rfl, .inl rfl⟩
    · split at h
      · exact ⟨lf', h, rfl, .inl rfl⟩
      · obtain ⟨lf, hlf, rfl | ⟨-, rfl⟩⟩ := of_modifyFriend h
        · exact ⟨lf', hlf, rfl, .inl rfl⟩
        · cases terminated
          · exact ⟨lf, hlf, rfl, .inl rfl⟩
          · exact ⟨lf, hlf, rfl, .inr (.inl rfl)⟩
  | message sender body readBack =>
    change (p.linphoneCoreTextReceived sender body readBack).1.friends[i]? = some lf' at h
    unfold linphoneCoreTextReceived at h
    split at h
    · exact ⟨lf', h, rfl, .inl rfl⟩
    · split at h
      · exact ⟨lf', h, rfl, .inl rfl⟩
      · split at h <;> exact ⟨lf', h, rfl, .inl rfl⟩

/-- The step of the runs. -/
lemma processEvent_numbered {start : Peers} {past : List PeerEvent}
    (h : ∀ i lf, p.friends[i]? = some lf → Numbered start past i lf) (e : PeerEvent) (i : ℕ)
    (lf : LinphoneFriend) (hlf : (p.processEvent e).1.friends[i]? = some lf) :
    Numbered start (past ++ [e]) i lf := by
  obtain ⟨lf₀, hlf₀, hurl, hsid | hnone | ⟨callee, did, rfl, hsame⟩⟩ := processEvent_friend hlf
  · rcases h i lf₀ hlf₀ with hnone | hstart | ⟨callee, did, hpast, hsame⟩
    · exact .inl (hsid.trans hnone)
    · exact .inr (.inl (hstart.trans (congrArg some hsid.symm)))
    · refine .inr (.inr ⟨callee, did, List.mem_append_left _ ?_, ?_⟩)
      · rw [hsid]
        exact hpast
      · rw [hurl]
        exact hsame
  · exact .inl hnone
  · refine .inr (.inr ⟨callee, did, List.mem_append_right _ (List.mem_singleton_self _), ?_⟩)
    rw [hurl]
    exact hsame

lemma run_numbered (start : Peers) (past : List PeerEvent) :
    ∀ i lf, (start.run past).friends[i]? = some lf → Numbered start past i lf := by
  induction past using List.reverseRecOn with
  | nil =>
    intro i lf hlf
    refine .inr (.inl ?_)
    change start.friends[i]? = some lf at hlf
    rw [hlf]
    rfl
  | append_singleton past e ih =>
    have hrun : start.run (past ++ [e]) = ((start.run past).processEvent e).1 := by
      simp [run, List.foldl_append]
    rw [hrun]
    exact processEvent_numbered ih e

/-- A friend at one host and a SUBSCRIBE from the same name at another. -/
def homeFriend : Peers where
  friends := [linphoneFriendNew ⟨some "bob", some "home.example"⟩]
  subscribers := []
  chatrooms := []
  presenceMode := .online

end Peers

end MTalk.Phone
