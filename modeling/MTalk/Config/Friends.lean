import MTalk.Config.LpConfig

/-!
# Proxies and friends in the configuration

The proxies and friends of `CLinphoneCore`, the calls that add, edit and remove them with what each
writes into the configuration, the end of the program and its next start. A friend refers to its
proxy by a pointer, and in the configuration by the place of the proxy in the list.
-/

namespace MTalk.Config

open CStrings LpConfig

/-- The functions of the osip library. The text of an address that was parsed is an address with
the same text. -/
structure Osip where
  From : Type
  fromParse : String → Option From
  fromToStr : From → Option String
  host : From → Option String
  username : From → Option String
  routeParse : String → Option String
  fromToStr_parse : ∀ s url, fromParse s = some url →
    ∃ text url', fromToStr url = some text ∧ fromParse text = some url'
      ∧ fromToStr url' = some text

/-- `CProxyConfig`, with its pointer. -/
structure ProxyConfig where
  ref : ℕ
  type : Option String
  regProxy : Option String
  regRoute : Option String
  regIdentity : Option String
  expires : ℤ
  regSendregister : ℤ
  publish : ℤ

/-- What the user enters for a proxy, or what is read of it. -/
structure ProxySettings where
  serverAddr : Option String
  identity : Option String
  route : Option String
  expires : ℤ
  sendregister : ℤ
  publish : ℤ
  sipSetup : Option String

namespace ProxyConfig

variable (osip : Osip)

/-- `linphone_proxy_config_new`. -/
def new (ref : ℕ) : ProxyConfig where
  ref := ref
  type := none
  regProxy := none
  regRoute := none
  regIdentity := none
  expires := 3600
  regSendregister := 0
  publish := 0

/-- The server addresses that `linphone_proxy_config_set_server_addr` takes. -/
def IsServerAddr (addr : String) : Bool :=
  addr ≠ "" && (osip.fromParse addr).any fun url => (osip.host url).isSome

/-- The identities that `linphone_proxy_config_set_identity` takes. -/
def IsIdentity (identity : String) : Bool :=
  (osip.fromParse identity).any fun url => (osip.host url).isSome && (osip.username url).isSome

/-- `linphone_proxy_config_set_server_addr`. -/
def setServerAddr (obj : ProxyConfig) (serverAddr : Option String) : ProxyConfig :=
  { obj with regProxy := serverAddr.filter fun addr => IsServerAddr osip addr }

/-- `linphone_proxy_config_set_identity`. An identity that cannot be parsed leaves the old one. -/
def setIdentity (obj : ProxyConfig) (identity : Option String) : ProxyConfig :=
  match identity.filter (· ≠ "") with
  | none => { obj with regIdentity := none }
  | some id => if IsIdentity osip id then { obj with regIdentity := some id } else obj

/-- `linphone_proxy_config_set_route`. -/
def setRoute (obj : ProxyConfig) (route : Option String) : ProxyConfig :=
  match route.filter (· ≠ "") with
  | none => { obj with regRoute := none }
  | some rt =>
    match osip.routeParse rt with
    | some text => { obj with regRoute := some text }
    | none => obj

/-- `linphone_proxy_config_set_sip_setup`, with a placeholder for a missing address. -/
def setSipSetup (obj : ProxyConfig) (type : String) : ProxyConfig :=
  if obj.regProxy.isNone then
    setServerAddr osip { obj with type := some type } (some "sip:undefined")
  else { obj with type := some type }

/-- The setters one after the other. -/
def configure (obj : ProxyConfig) (settings : ProxySettings) : ProxyConfig :=
  let obj := obj.setIdentity osip settings.identity
  let obj := obj.setServerAddr osip settings.serverAddr
  let obj := if settings.route.isSome then obj.setRoute osip settings.route else obj
  let obj :=
    { obj with
      expires := if settings.expires ≤ 0 then 600 else settings.expires
      regSendregister := settings.sendregister % 256
      publish := settings.publish % 256 }
  match settings.sipSetup.filter (· ≠ "") with
  | some type => obj.setSipSetup osip type
  | none => obj

/-- `linphone_proxy_config_check`. -/
def check (obj : ProxyConfig) : Bool := obj.regProxy.isSome && obj.regIdentity.isSome

end ProxyConfig

inductive SubscribePolicy where
  | wait
  | deny
  | accept
  deriving DecidableEq

namespace SubscribePolicy

/-- `__policy_enum_to_str`. -/
def toStr : SubscribePolicy → String
  | accept => "accept"
  | deny => "deny"
  | wait => "wait"

/-- `__policy_str_to_enum`. -/
def ofStr (pol : String) : SubscribePolicy :=
  if pol = "accept" then accept else if pol = "deny" then deny else wait

end SubscribePolicy

/-- `LinphoneFriend`, with the pointer to its proxy. -/
structure Friend (osip : Osip) where
  url : osip.From
  pol : SubscribePolicy
  subscribe : ℤ
  proxy : Option ℕ

/-- `sprintf(key,"proxy_%i",index)`. -/
def proxyKey (index : ℕ) : String := "proxy_" ++ toString (index : ℤ)

/-- `sprintf(item,"friend_%i",index)`. -/
def friendKey (index : ℕ) : String := "friend_" ++ toString (index : ℤ)

/-- `linphone_proxy_config_write_to_config_file` on a proxy. -/
def writeProxy (c : LpConfig) (obj : ProxyConfig) (index : ℕ) : LpConfig :=
  let key := proxyKey index
  let c := c.cleanSection key
  let c := setOptional c key "type" obj.type
  let c := setOptional c key "reg_proxy" obj.regProxy
  let c := setOptional c key "reg_route" obj.regRoute
  let c := setOptional c key "reg_identity" obj.regIdentity
  let c := c.setInt key "reg_expires" obj.expires
  let c := c.setInt key "reg_sendregister" obj.regSendregister
  c.setInt key "publish" obj.publish

/-- Elements are written one after the other, from a place on. -/
def writeFrom {α : Type} (write : LpConfig → α → ℕ → LpConfig) : LpConfig → ℕ → List α → LpConfig
  | c, _, [] => c
  | c, i, a :: l => writeFrom write (write c a i) (i + 1) l

/-- The members of `CLinphoneCore` for proxies and friends, with the next unused pointer. -/
structure FriendCore (osip : Osip) where
  config : LpConfig
  proxies : List ProxyConfig
  friends : List (Friend osip)
  ready : Bool
  nextRef : ℕ

namespace FriendCore

variable {osip : Osip}

/-- `linphone_proxy_config_write_all_to_config_file`. -/
def writeProxies (s : FriendCore osip) : FriendCore osip :=
  { s with config := writeFrom writeProxy s.config 0 s.proxies }

/-- The number that stands for the proxy of a friend: its place, or -1 if it is not in the list. -/
def proxyIndex (proxies : List ProxyConfig) (proxy : Option ℕ) : ℤ :=
  match proxy with
  | none => -1
  | some ref => if proxies.any (·.ref = ref) then proxies.findIdx (·.ref = ref) else -1

/-- `linphone_friend_write_to_config_file` on a friend. -/
def writeFriend (proxies : List ProxyConfig) (c : LpConfig) (lf : Friend osip) (index : ℕ) :
    LpConfig :=
  let key := friendKey index
  match osip.fromToStr lf.url with
  | none => c
  | some url =>
    let c := c.setString key "url" (some url)
    let c := c.setString key "pol" (some lf.pol.toStr)
    let c := c.setInt key "subscribe" lf.subscribe
    c.setInt key "proxy" (proxyIndex proxies lf.proxy)

/-- `linphone_core_write_friends_config`. -/
def writeFriends (s : FriendCore osip) : FriendCore osip :=
  if s.ready then
    { s with
      config := (writeFrom (writeFriend s.proxies) s.config 0 s.friends).cleanSection
        (friendKey s.friends.length) }
  else s

/-- `linphone_core_add_proxy_config`. -/
def addProxyConfig (s : FriendCore osip) (cfg : ProxyConfig) : FriendCore osip :=
  if cfg.check then writeProxies { s with proxies := s.proxies ++ [cfg] } else s

/-- `linphone_core_add_friend`. -/
def addFriend (s : FriendCore osip) (lf : Friend osip) : FriendCore osip :=
  writeFriends { s with friends := s.friends ++ [lf] }

/-- `linphone_friend_check_for_removed_proxy`. -/
def checkForRemovedProxy (ref : ℕ) (lf : Friend osip) : Friend osip :=
  if lf.proxy = some ref then { lf with proxy := none } else lf

/-- `linphone_core_remove_proxy_config`. -/
def removeProxyConfig (s : FriendCore osip) (ref : ℕ) : FriendCore osip :=
  { s with
    proxies := s.proxies.eraseP (·.ref = ref)
    friends := s.friends.map (checkForRemovedProxy ref) }

/-! The next start. -/

/-- What `linphone_proxy_config_new_from_config_file` reads. -/
def readSettings (c : LpConfig) (key : String) : ProxySettings where
  serverAddr := c.getString key "reg_proxy"
  identity := c.getString key "reg_identity"
  route := c.getString key "reg_route"
  expires := c.getInt key "reg_expires" 600
  sendregister := c.getInt key "reg_sendregister" 0
  publish := c.getInt key "publish" 0
  sipSetup := c.getString key "type"

/-- The loop over the proxies in `sip_config_read`. A proxy that does not pass the check is left
out. -/
def readProxies : ℕ → ℕ → FriendCore osip → FriendCore osip
  | 0, _, s => s
  | n + 1, i, s =>
    if s.config.hasSection (proxyKey i) then
      let cfg := (ProxyConfig.new s.nextRef).configure osip (readSettings s.config (proxyKey i))
      readProxies n (i + 1) (addProxyConfig { s with nextRef := s.nextRef + 1 } cfg)
    else s

/-- `__index_to_proxy`. -/
def indexToProxy (s : FriendCore osip) (index : ℤ) : Option ℕ :=
  if 0 ≤ index then s.proxies[index.toNat]?.map ProxyConfig.ref else none

/-- `linphone_friend_new_from_config_file`. -/
def readFriend (s : FriendCore osip) (i : ℕ) : Option (Friend osip) :=
  if s.config.hasSection (friendKey i) then
    (s.config.getString (friendKey i) "url").bind fun tmp =>
      (osip.fromParse tmp).map fun url =>
        { url := url
          pol := match s.config.getString (friendKey i) "pol" with
            | none => .wait
            | some pol => .ofStr pol
          subscribe := s.config.getInt (friendKey i) "subscribe" 0 % 256
          proxy :=
            let a := s.config.getInt (friendKey i) "proxy" (-1)
            if a ≠ -1 then s.indexToProxy a else none }
  else none

/-- `ui_config_read`. -/
def readFriends : ℕ → ℕ → FriendCore osip → FriendCore osip
  | 0, _, s => s
  | n + 1, i, s =>
    match s.readFriend i with
    | some lf => readFriends n (i + 1) (addFriend s lf)
    | none => s

/-- A start with a configuration. -/
def load (c : LpConfig) : FriendCore osip :=
  let s := readProxies (c.length + 1) 0 ⟨c, [], [], false, 0⟩
  { readFriends (c.length + 1) 0 s with ready := true }

/-- The configuration that is left at the end, after `sip_config_uninit`. -/
def save (s : FriendCore osip) : LpConfig :=
  (writeFrom writeProxy s.config 0 s.proxies).cleanSection (proxyKey s.proxies.length)

/-! The calls of a user. -/

inductive Op where
  | addProxy (settings : ProxySettings)
  | editProxy (ref : ℕ) (settings : ProxySettings)
  | removeProxy (ref : ℕ)
  | addFriend (addr : String) (pol : SubscribePolicy) (subscribe : ℤ) (proxy : Option ℕ)
  | editFriend (place : ℕ) (addr : String) (pol : SubscribePolicy) (subscribe : ℤ)
      (proxy : Option ℕ)
  | removeFriend (place : ℕ)
  | restart

/-- The proxies after one of them was edited. -/
def editedProxies (s : FriendCore osip) (ref : ℕ) (settings : ProxySettings) : List ProxyConfig :=
  s.proxies.map fun obj => if obj.ref = ref then obj.configure osip settings else obj

/-- The setters and `linphone_proxy_config_done`, which writes if the proxy passes the check. -/
def editProxy (s : FriendCore osip) (ref : ℕ) (settings : ProxySettings) : FriendCore osip :=
  let s := { s with proxies := s.editedProxies ref settings }
  match s.proxies.find? (·.ref = ref) with
  | some obj => if obj.check then s.writeProxies else s
  | none => s

/-- The setters of a friend. An address that cannot be parsed leaves the old one. -/
def Friend.configure (lf : Friend osip) (addr : String) (pol : SubscribePolicy) (subscribe : ℤ)
    (proxy : Option ℕ) : Friend osip where
  url := (osip.fromParse addr).getD lf.url
  pol := pol
  subscribe := subscribe % 256
  proxy := proxy

def step (s : FriendCore osip) : Op → FriendCore osip
  | .addProxy settings =>
    addProxyConfig { s with nextRef := s.nextRef + 1 }
      ((ProxyConfig.new s.nextRef).configure osip settings)
  | .editProxy ref settings => s.editProxy ref settings
  | .removeProxy ref => s.removeProxyConfig ref
  | .addFriend addr pol subscribe proxy =>
    match osip.fromParse addr with
    | some url => s.addFriend ⟨url, pol, subscribe % 256, proxy⟩
    | none => s
  | .editFriend place addr pol subscribe proxy =>
    match s.friends[place]? with
    | some lf =>
      writeFriends { s with
        friends := s.friends.set place (Friend.configure lf addr pol subscribe proxy) }
    | none => s
  | .removeFriend place =>
    if place < s.friends.length then writeFriends { s with friends := s.friends.eraseIdx place }
    else s
  | .restart => load s.save

/-- The start with an empty configuration. -/
def initial : FriendCore osip := load []

def run (ops : List Op) : FriendCore osip := ops.foldl step initial

/-- The identity and the address of the proxy of a friend, `none` for no proxy. -/
def binding (s : FriendCore osip) (lf : Friend osip) :
    Option (Option (Option String × Option String)) :=
  lf.proxy.map fun ref =>
    (s.proxies.find? (·.ref = ref)).map fun obj => (obj.regIdentity, obj.regProxy)

/-- After saving and loading the friends are the same and have the same proxies. -/
def KeepsProxies (s : FriendCore osip) : Prop :=
  List.Forall₂ (fun lf lf' => osip.fromToStr lf'.url = osip.fromToStr lf.url
    ∧ (load s.save : FriendCore osip).binding lf' = s.binding lf)
    s.friends (load s.save : FriendCore osip).friends

/-- The proxy is in the list, and it and the proxies before it have an address and an identity. -/
def Listed (proxies : List ProxyConfig) (ref : ℕ) : Prop :=
  ∃ i < 2 ^ 31, ∃ obj, proxies[i]? = some obj ∧ obj.ref = ref
    ∧ ∀ j ≤ i, ∀ other, proxies[j]? = some other → other.check = true

/-- No friend is bound to a proxy or to a later one of the list. -/
def Unbound (s : FriendCore osip) (ref : ℕ) : Prop :=
  ∀ lf ∈ s.friends, ∀ ref', lf.proxy = some ref' →
    s.proxies.findIdx (·.ref = ref') < s.proxies.findIdx (·.ref = ref)

/-- A removed proxy has no friend and is before no proxy with a friend, and neither is a proxy that
loses its address or identity; the proxy that a friend gets will be loaded at its place. -/
def CarefulStep (s : FriendCore osip) : Op → Prop
  | .addProxy _ => True
  | .editProxy ref settings =>
    (∀ obj ∈ s.proxies, obj.ref = ref → (obj.configure osip settings).check = true)
      ∨ s.Unbound ref
  | .removeProxy ref => s.Unbound ref
  | .addFriend _ _ _ proxy => ∀ ref ∈ proxy, Listed s.proxies ref
  | .editFriend _ _ _ _ proxy => ∀ ref ∈ proxy, Listed s.proxies ref
  | .removeFriend _ => True
  | .restart => True

/-- Every step is careful in the state it is taken in. -/
def Careful : FriendCore osip → List Op → Prop
  | _, [] => True
  | s, op :: ops => s.CarefulStep op ∧ Careful (s.step op) ops

end FriendCore

end MTalk.Config
