import MTalk.Config.Friends

/-!
# Friends and their proxies across restarts

What the configuration holds of the proxies and the friends, what the next start makes of it, and
the steps after which each friend still has its proxy.
-/

namespace MTalk.Config

open CStrings LpConfig

/-! The keys. -/

lemma toString_injective {m n : ℤ} (h : toString m = toString n) : m = n := by
  rw [← atoi_toString m, h, atoi_toString]

lemma append_cancel {p s t : String} (h : p ++ s = p ++ t) : s = t := by
  have hlist := congrArg String.toList h
  rw [String.toList_append, String.toList_append, List.append_cancel_left_eq] at hlist
  rw [← String.ofList_toList (s := s), hlist, String.ofList_toList]

lemma proxyKey_injective {i j : ℕ} (h : proxyKey i = proxyKey j) : i = j := by
  have hint := toString_injective (append_cancel h)
  exact_mod_cast hint

lemma friendKey_injective {i j : ℕ} (h : friendKey i = friendKey j) : i = j := by
  have hint := toString_injective (append_cancel h)
  exact_mod_cast hint

lemma proxyKey_ne_friendKey (i j : ℕ) : proxyKey i ≠ friendKey j := by
  intro h
  have hhead := congrArg (fun s => s.toList.head?) h
  simp [proxyKey, friendKey] at hhead

/-! What is written. -/

/-- No section is there twice. -/
def NamesNodup (c : LpConfig) : Prop := (c.map LpSection.name).Nodup

/-- The writes of `linphone_proxy_config_write_to_config_file`. -/
def proxyWrites (obj : ProxyConfig) (index : ℕ) : List Write :=
  [⟨(proxyKey index, "type"), obj.type⟩,
    ⟨(proxyKey index, "reg_proxy"), obj.regProxy⟩,
    ⟨(proxyKey index, "reg_route"), obj.regRoute⟩,
    ⟨(proxyKey index, "reg_identity"), obj.regIdentity⟩,
    ⟨(proxyKey index, "reg_expires"), some (toString obj.expires)⟩,
    ⟨(proxyKey index, "reg_sendregister"), some (toString obj.regSendregister)⟩,
    ⟨(proxyKey index, "publish"), some (toString obj.publish)⟩]

lemma writeProxy_eq (c : LpConfig) (obj : ProxyConfig) (index : ℕ) :
    writeProxy c obj index =
      writeAll (proxyWrites obj index) (c.cleanSection (proxyKey index)) := by
  simp only [writeProxy, proxyWrites, writeAll, List.foldl_cons, List.foldl_nil, setInt,
    setOptional]

/-- A section has the identity and the address of a proxy. -/
structure ProxyStored (c : LpConfig) (obj : ProxyConfig) (index : ℕ) : Prop where
  there : c.hasSection (proxyKey index) = true
  identity : c.getString (proxyKey index) "reg_identity" = obj.regIdentity
  address : c.getString (proxyKey index) "reg_proxy" = obj.regProxy

/-- Sections with the same values store the same proxies. -/
lemma ProxyStored.congr {c c' : LpConfig} {obj : ProxyConfig} {index : ℕ}
    (h : ProxyStored c obj index) (hview : c'.view (proxyKey index) = c.view (proxyKey index)) :
    ProxyStored c' obj index := by
  obtain ⟨hthere, hidentity, haddress⟩ := h
  rw [hasSection_eq_view, ← hview, ← hasSection_eq_view] at hthere
  rw [getString_eq_view, ← hview, ← getString_eq_view] at hidentity haddress
  exact ⟨hthere, hidentity, haddress⟩

lemma hasSection_of_getString {c : LpConfig} {name key v : String}
    (h : c.getString name key = some v) : c.hasSection name = true := by
  rw [getString_eq_view] at h
  obtain ⟨values, hvalues, -⟩ := Option.bind_eq_some_iff.mp h
  rw [hasSection_eq_view, hvalues]
  rfl

lemma proxyWrites_keys (obj : ProxyConfig) (index : ℕ) :
    ((proxyWrites obj index).map Write.key).Nodup := by
  simp [proxyWrites]

lemma writeProxy_stored {c : LpConfig} (hc : NamesNodup c) (obj : ProxyConfig) (index : ℕ) :
    ProxyStored (writeProxy c obj index) obj index := by
  have hclean : ∀ key, (c.cleanSection (proxyKey index)).getString (proxyKey index) key = none := by
    intro key
    rw [getString_eq_view, view_cleanSection hc, if_pos rfl, Option.bind_none]
  have hvalue : ∀ w ∈ proxyWrites obj index,
      (writeProxy c obj index).getString w.key.1 w.key.2
        = w.value.or ((c.cleanSection (proxyKey index)).getString w.key.1 w.key.2) := by
    intro w hw
    rw [writeProxy_eq]
    exact getString_writes (proxyWrites_keys obj index) hw _
  simp only [proxyWrites, List.forall_mem_cons, hclean, Option.or_none] at hvalue
  obtain ⟨-, haddress, -, hidentity, hexpires, -⟩ := hvalue
  exact ⟨hasSection_of_getString hexpires, hidentity, haddress⟩

lemma writeProxy_view {c : LpConfig} (hc : NamesNodup c) (obj : ProxyConfig) {index : ℕ}
    {name : String} (h : name ≠ proxyKey index) :
    (writeProxy c obj index).view name = c.view name := by
  have hother : ∀ w ∈ proxyWrites obj index, w.key.1 ≠ name := by
    simp [proxyWrites, Ne.symm h]
  rw [writeProxy_eq, view_writeAll hother, view_cleanSection hc, if_neg h]

lemma writeProxy_names {c : LpConfig} (hc : NamesNodup c) (obj : ProxyConfig) (index : ℕ) :
    NamesNodup (writeProxy c obj index) := by
  rw [writeProxy_eq]
  exact names_writeAll (names_cleanSection hc _) _

/-! Elements that are written one after the other. -/

section WriteFrom

variable {α : Type} {write : LpConfig → α → ℕ → LpConfig} {key : ℕ → String}
  {stored : LpConfig → α → ℕ → Prop} {good : α → Prop}

/-- A write of an element at a place stores it in the section of the place and leaves the other
sections. -/
structure WritesPlace (write : LpConfig → α → ℕ → LpConfig) (key : ℕ → String)
    (stored : LpConfig → α → ℕ → Prop) (good : α → Prop) : Prop where
  key_injective : ∀ i j, key i = key j → i = j
  congr : ∀ c c' a i, stored c a i → c'.view (key i) = c.view (key i) → stored c' a i
  names : ∀ c a i, NamesNodup c → good a → NamesNodup (write c a i)
  stored : ∀ c a i, NamesNodup c → good a → stored (write c a i) a i
  view : ∀ c a i name, NamesNodup c → good a → name ≠ key i →
    (write c a i).view name = c.view name

lemma WritesPlace.names_writeFrom (h : WritesPlace write key stored good) {l : List α}
    (hl : ∀ a ∈ l, good a) {c : LpConfig} (hc : NamesNodup c) (i : ℕ) :
    NamesNodup (writeFrom write c i l) := by
  induction l generalizing c i with
  | nil => exact hc
  | cons a l ih =>
    rw [writeFrom]
    exact ih (fun b hb => hl b (List.mem_cons_of_mem a hb))
      (h.names c a i hc (hl a List.mem_cons_self)) (i + 1)

/-- A section of none of the places is left. -/
lemma WritesPlace.view_writeFrom (h : WritesPlace write key stored good) {l : List α}
    (hl : ∀ a ∈ l, good a) {c : LpConfig} (hc : NamesNodup c) {i : ℕ} {name : String}
    (hname : ∀ j < l.length, name ≠ key (i + j)) :
    (writeFrom write c i l).view name = c.view name := by
  induction l generalizing c i with
  | nil => rfl
  | cons a l ih =>
    have ha := hl a List.mem_cons_self
    have hfirst : name ≠ key i := hname 0 (by simp)
    have hrest : ∀ j < l.length, name ≠ key (i + 1 + j) := by
      intro j hj
      rw [Nat.add_assoc, Nat.add_comm 1 j]
      exact hname (j + 1) (by simpa using hj)
    rw [writeFrom, ih (fun b hb => hl b (List.mem_cons_of_mem a hb)) (h.names c a i hc ha) hrest,
      h.view c a i name hc ha hfirst]

/-- Each element is stored at its place. -/
lemma WritesPlace.stored_writeFrom (h : WritesPlace write key stored good) {l : List α}
    (hl : ∀ a ∈ l, good a) {c : LpConfig} (hc : NamesNodup c) (i : ℕ) {j : ℕ} {a : α}
    (hj : l[j]? = some a) : stored (writeFrom write c i l) a (i + j) := by
  induction l generalizing c i j with
  | nil => simp at hj
  | cons b l ih =>
    have hb := hl b List.mem_cons_self
    have hrest : ∀ d ∈ l, good d := fun d hd => hl d (List.mem_cons_of_mem b hd)
    rw [writeFrom]
    cases j with
    | zero =>
      rw [List.getElem?_cons_zero, Option.some.injEq] at hj
      subst hj
      apply h.congr _ _ _ _ (h.stored c b i hc hb)
      apply h.view_writeFrom hrest (h.names c b i hc hb)
      intro k _ hsame
      have hplace := h.key_injective _ _ hsame
      omega
    | succ j =>
      rw [List.getElem?_cons_succ] at hj
      have hstored := ih hrest (h.names c b i hc hb) (i + 1) hj
      rw [Nat.add_assoc, Nat.add_comm 1 j] at hstored
      exact hstored

end WriteFrom

/-! The setters of a proxy. -/

namespace ProxyConfig

variable {osip : Osip}

/-- The setters take the address and the identity. -/
structure WellSet (osip : Osip) (obj : ProxyConfig) : Prop where
  address : ∀ addr, obj.regProxy = some addr → IsServerAddr osip addr = true
  identity : ∀ id, obj.regIdentity = some id → id ≠ "" ∧ IsIdentity osip id = true

lemma WellSet.congr {obj obj' : ProxyConfig} (h : obj.WellSet osip)
    (haddress : obj'.regProxy = obj.regProxy) (hidentity : obj'.regIdentity = obj.regIdentity) :
    obj'.WellSet osip := by
  refine ⟨?_, ?_⟩
  · rw [haddress]
    exact h.address
  · rw [hidentity]
    exact h.identity

lemma new_wellSet (ref : ℕ) : (new ref).WellSet osip := ⟨by simp [new], by simp [new]⟩

lemma setServerAddr_wellSet {obj : ProxyConfig} (h : obj.WellSet osip) (addr : Option String) :
    (obj.setServerAddr osip addr).WellSet osip := by
  refine ⟨?_, h.identity⟩
  intro a ha
  exact (Option.filter_eq_some_iff.mp ha).2

lemma setIdentity_wellSet {obj : ProxyConfig} (h : obj.WellSet osip) (identity : Option String) :
    (obj.setIdentity osip identity).WellSet osip := by
  unfold setIdentity
  split
  · exact ⟨h.address, by simp⟩
  · rename_i id hid
    have hne := (Option.filter_eq_some_iff.mp hid).2
    split_ifs with hidentity
    · refine ⟨h.address, ?_⟩
      intro id' hid'
      cases hid'
      exact ⟨by simpa using hne, hidentity⟩
    · exact h

lemma setRoute_fields (obj : ProxyConfig) (route : Option String) :
    (obj.setRoute osip route).regProxy = obj.regProxy
      ∧ (obj.setRoute osip route).regIdentity = obj.regIdentity
      ∧ (obj.setRoute osip route).ref = obj.ref := by
  unfold setRoute
  split
  · exact ⟨rfl, rfl, rfl⟩
  · split
    · exact ⟨rfl, rfl, rfl⟩
    · exact ⟨rfl, rfl, rfl⟩

lemma setSipSetup_wellSet {obj : ProxyConfig} (h : obj.WellSet osip) (type : String) :
    (obj.setSipSetup osip type).WellSet osip := by
  unfold setSipSetup
  split_ifs
  · apply setServerAddr_wellSet
    exact h.congr rfl rfl
  · exact h.congr rfl rfl

lemma configure_wellSet {obj : ProxyConfig} (h : obj.WellSet osip) (settings : ProxySettings) :
    (obj.configure osip settings).WellSet osip := by
  have hset := setServerAddr_wellSet (setIdentity_wellSet h settings.identity) settings.serverAddr
  have hroute : ∀ o : ProxyConfig, o.WellSet osip →
      (if settings.route.isSome then o.setRoute osip settings.route else o).WellSet osip := by
    intro o ho
    split_ifs
    · exact ho.congr (setRoute_fields o settings.route).1 (setRoute_fields o settings.route).2.1
    · exact ho
  unfold configure
  dsimp only
  split
  · apply setSipSetup_wellSet
    exact (hroute _ hset).congr rfl rfl
  · exact (hroute _ hset).congr rfl rfl

lemma setIdentity_ref (obj : ProxyConfig) (identity : Option String) :
    (obj.setIdentity osip identity).ref = obj.ref := by
  unfold setIdentity
  split
  · rfl
  · split_ifs <;> rfl

lemma setSipSetup_ref (obj : ProxyConfig) (type : String) :
    (obj.setSipSetup osip type).ref = obj.ref := by
  unfold setSipSetup
  split_ifs <;> rfl

lemma configure_ref (obj : ProxyConfig) (settings : ProxySettings) :
    (obj.configure osip settings).ref = obj.ref := by
  have hset : ((obj.setIdentity osip settings.identity).setServerAddr osip
      settings.serverAddr).ref = obj.ref := setIdentity_ref obj settings.identity
  have hroute : ∀ o : ProxyConfig,
      (if settings.route.isSome then o.setRoute osip settings.route else o).ref = o.ref := by
    intro o
    split_ifs
    · exact (setRoute_fields o settings.route).2.2
    · rfl
  unfold configure
  dsimp only
  split
  · rw [setSipSetup_ref]
    exact (hroute _).trans hset
  · exact (hroute _).trans hset

/-- An address and an identity that the setters take are set. -/
lemma configure_valid (obj : ProxyConfig) {settings : ProxySettings} {addr id : String}
    (haddr : settings.serverAddr = some addr) (hserver : IsServerAddr osip addr = true)
    (hid : settings.identity = some id) (hne : id ≠ "") (hidentity : IsIdentity osip id = true) :
    (obj.configure osip settings).regProxy = some addr
      ∧ (obj.configure osip settings).regIdentity = some id := by
  have hset : ((obj.setIdentity osip settings.identity).setServerAddr osip
        settings.serverAddr).regProxy = some addr
      ∧ ((obj.setIdentity osip settings.identity).setServerAddr osip
        settings.serverAddr).regIdentity = some id := by
    constructor
    · rw [haddr, setServerAddr]
      exact Option.filter_eq_some_iff.mpr ⟨rfl, hserver⟩
    · have hfilter : settings.identity.filter (· ≠ "") = some id := by
        rw [hid]
        exact Option.filter_eq_some_iff.mpr ⟨rfl, by simpa using hne⟩
      rw [setServerAddr, setIdentity, hfilter]
      dsimp only
      rw [if_pos hidentity]
  have hroute : ∀ o : ProxyConfig, o.regProxy = some addr ∧ o.regIdentity = some id →
      (if settings.route.isSome then o.setRoute osip settings.route else o).regProxy = some addr
        ∧ (if settings.route.isSome then o.setRoute osip settings.route else o).regIdentity
          = some id := by
    intro o ho
    obtain ⟨hproxy, hident, -⟩ := @setRoute_fields osip o settings.route
    split_ifs
    · rw [hproxy, hident]
      exact ho
    · exact ho
  unfold configure
  dsimp only
  split
  · unfold setSipSetup
    rw [if_neg (by simp [(hroute _ hset).1])]
    exact hroute _ hset
  · exact hroute _ hset

end ProxyConfig

lemma writesPlace_proxy : WritesPlace writeProxy proxyKey ProxyStored fun _ => True where
  key_injective _ _ := proxyKey_injective
  congr _ _ _ _ h hview := h.congr hview
  names _ obj index hc _ := writeProxy_names hc obj index
  stored _ obj index hc _ := writeProxy_stored hc obj index
  view _ obj _ _ hc _ hname := writeProxy_view hc obj hname

namespace FriendCore

variable {osip : Osip}

/-- The address of a friend can be written and read. -/
def Printable (lf : Friend osip) : Prop :=
  ∃ text url, osip.fromToStr lf.url = some text ∧ osip.fromParse text = some url
    ∧ osip.fromToStr url = some text

/-- A section has the address of a friend and the place of its proxy. -/
structure FriendStored (proxies : List ProxyConfig) (c : LpConfig) (lf : Friend osip)
    (index : ℕ) : Prop where
  there : c.hasSection (friendKey index) = true
  url : c.getString (friendKey index) "url" = osip.fromToStr lf.url
  proxy : c.getString (friendKey index) "proxy" = some (toString (proxyIndex proxies lf.proxy))

lemma FriendStored.congr {proxies : List ProxyConfig} {c c' : LpConfig} {lf : Friend osip}
    {index : ℕ} (h : FriendStored proxies c lf index)
    (hview : c'.view (friendKey index) = c.view (friendKey index)) :
    FriendStored proxies c' lf index := by
  obtain ⟨hthere, hurl, hproxy⟩ := h
  rw [hasSection_eq_view, ← hview, ← hasSection_eq_view] at hthere
  rw [getString_eq_view, ← hview, ← getString_eq_view] at hurl hproxy
  exact ⟨hthere, hurl, hproxy⟩

/-- The writes of `linphone_friend_write_to_config_file`. -/
def friendWrites (proxies : List ProxyConfig) (lf : Friend osip) (url : String) (index : ℕ) :
    List Write :=
  [⟨(friendKey index, "url"), some url⟩,
    ⟨(friendKey index, "pol"), some lf.pol.toStr⟩,
    ⟨(friendKey index, "subscribe"), some (toString lf.subscribe)⟩,
    ⟨(friendKey index, "proxy"), some (toString (proxyIndex proxies lf.proxy))⟩]

lemma writeFriend_eq {proxies : List ProxyConfig} {lf : Friend osip} {url : String}
    (h : osip.fromToStr lf.url = some url) (c : LpConfig) (index : ℕ) :
    writeFriend proxies c lf index = writeAll (friendWrites proxies lf url index) c := by
  simp only [writeFriend, h, friendWrites, writeAll, List.foldl_cons, List.foldl_nil, setInt,
    setOptional]

lemma friendWrites_keys (proxies : List ProxyConfig) (lf : Friend osip) (url : String)
    (index : ℕ) : ((friendWrites proxies lf url index).map Write.key).Nodup := by
  simp [friendWrites]

lemma writesPlace_friend (proxies : List ProxyConfig) :
    WritesPlace (writeFriend proxies) friendKey (FriendStored proxies)
      (Printable : Friend osip → Prop) where
  key_injective _ _ := friendKey_injective
  congr _ _ _ _ h hview := h.congr hview
  names c lf index hc hlf := by
    obtain ⟨text, -, htext, -⟩ := hlf
    rw [writeFriend_eq htext]
    exact names_writeAll hc _
  stored c lf index hc hlf := by
    obtain ⟨text, -, htext, -⟩ := hlf
    have hvalue : ∀ w ∈ friendWrites proxies lf text index,
        (writeFriend proxies c lf index).getString w.key.1 w.key.2
          = w.value.or (c.getString w.key.1 w.key.2) := by
      intro w hw
      rw [writeFriend_eq htext]
      exact getString_writes (friendWrites_keys proxies lf text index) hw c
    simp only [friendWrites, List.forall_mem_cons, Option.some_or] at hvalue
    obtain ⟨hurl, -, -, hproxy, -⟩ := hvalue
    exact ⟨hasSection_of_getString hurl, hurl.trans htext.symm, hproxy⟩
  view c lf index name hc hlf hname := by
    obtain ⟨text, -, htext, -⟩ := hlf
    have hother : ∀ w ∈ friendWrites proxies lf text index, w.key.1 ≠ name := by
      simp [friendWrites, Ne.symm hname]
    rw [writeFriend_eq htext, view_writeAll hother]

/-! The proxies of a state. -/

/-- The proxies have different pointers, all used, and the setters took what they have. -/
structure Sound (s : FriendCore osip) : Prop where
  names : NamesNodup s.config
  refs : (s.proxies.map ProxyConfig.ref).Nodup
  fresh : ∀ obj ∈ s.proxies, obj.ref < s.nextRef
  wellSet : ∀ obj ∈ s.proxies, obj.WellSet osip

/-- A state with more proxies at the end of the list, which pass the check. -/
structure Extends (s s' : FriendCore osip) : Prop where
  sound : s'.Sound
  proxies : ∃ rest, s'.proxies = s.proxies ++ rest ∧ ∀ obj ∈ rest, obj.check = true
  friends : s'.friends = s.friends
  ready : s'.ready = s.ready
  view : ∀ j, s'.config.view (friendKey j) = s.config.view (friendKey j)

lemma Extends.refl {s : FriendCore osip} (hs : s.Sound) : Extends s s :=
  ⟨hs, ⟨[], by simp⟩, rfl, rfl, fun _ => rfl⟩

lemma Extends.trans {s s' s'' : FriendCore osip} (h : Extends s s') (h' : Extends s' s'') :
    Extends s s'' := by
  obtain ⟨rest, hrest, hcheck⟩ := h.proxies
  obtain ⟨rest', hrest', hcheck'⟩ := h'.proxies
  refine ⟨h'.sound, ⟨rest ++ rest', ?_, ?_⟩, h'.friends.trans h.friends, h'.ready.trans h.ready,
    fun j => (h'.view j).trans (h.view j)⟩
  · rw [hrest', hrest, List.append_assoc]
  · intro obj hobj
    rcases List.mem_append.mp hobj with hobj | hobj
    · exact hcheck obj hobj
    · exact hcheck' obj hobj

/-- Writing the proxies changes their sections only. -/
lemma writeProxies_view {s : FriendCore osip} (hs : NamesNodup s.config) {name : String}
    (h : ∀ j < s.proxies.length, name ≠ proxyKey j) :
    s.writeProxies.config.view name = s.config.view name := by
  apply writesPlace_proxy.view_writeFrom (fun _ _ => trivial) hs
  simpa using h

lemma writeProxies_extends {s : FriendCore osip} (hs : s.Sound) : Extends s s.writeProxies := by
  refine ⟨⟨?_, hs.refs, hs.fresh, hs.wellSet⟩, ⟨[], by simp [writeProxies]⟩, rfl, rfl, ?_⟩
  · exact writesPlace_proxy.names_writeFrom (fun _ _ => trivial) hs.names 0
  · intro j
    exact writeProxies_view hs.names fun i _ => (proxyKey_ne_friendKey i j).symm

/-- Adding a new proxy. -/
lemma addProxyConfig_extends {s : FriendCore osip} (hs : s.Sound) {cfg : ProxyConfig}
    (href : cfg.ref = s.nextRef) (hset : cfg.WellSet osip) :
    Extends s (addProxyConfig { s with nextRef := s.nextRef + 1 } cfg) := by
  have hfresh : ∀ obj ∈ s.proxies, obj.ref < s.nextRef + 1 := by
    intro obj hobj
    have := hs.fresh obj hobj
    omega
  unfold addProxyConfig
  split_ifs with hcheck
  · have hsound : Sound { s with proxies := s.proxies ++ [cfg], nextRef := s.nextRef + 1 } := by
      refine ⟨hs.names, ?_, ?_, ?_⟩
      · rw [List.map_append, List.map_singleton, List.nodup_append]
        refine ⟨hs.refs, List.nodup_singleton _, ?_⟩
        rintro ref href' ref' hnew rfl
        rw [List.mem_singleton] at hnew
        obtain ⟨obj, hobj, hsame⟩ := List.mem_map.mp href'
        have := hs.fresh obj hobj
        omega
      · intro obj hobj
        rcases List.mem_append.mp hobj with hobj | hobj
        · exact hfresh obj hobj
        · rw [List.mem_singleton.mp hobj]
          change cfg.ref < s.nextRef + 1
          omega
      · intro obj hobj
        rcases List.mem_append.mp hobj with hobj | hobj
        · exact hs.wellSet obj hobj
        · rw [List.mem_singleton.mp hobj]
          exact hset
    have hadded : Extends s { s with proxies := s.proxies ++ [cfg], nextRef := s.nextRef + 1 } :=
      ⟨hsound, ⟨[cfg], rfl, by simpa using hcheck⟩, rfl, rfl, fun _ => rfl⟩
    exact hadded.trans (writeProxies_extends hsound)
  · exact ⟨⟨hs.names, hs.refs, hfresh, hs.wellSet⟩, ⟨[], by simp⟩, rfl, rfl, fun _ => rfl⟩

/-! The loop over the proxies. -/

lemma configured_new (s : FriendCore osip) (settings : ProxySettings) :
    ((ProxyConfig.new s.nextRef).configure osip settings).ref = s.nextRef
      ∧ ((ProxyConfig.new s.nextRef).configure osip settings).WellSet osip :=
  ⟨ProxyConfig.configure_ref _ settings,
    ProxyConfig.configure_wellSet (ProxyConfig.new_wellSet s.nextRef) settings⟩

lemma readProxies_extends {s : FriendCore osip} (hs : s.Sound) (n i : ℕ) :
    Extends s (readProxies n i s) := by
  induction n generalizing s i with
  | zero => exact Extends.refl hs
  | succ n ih =>
    rw [readProxies]
    split_ifs
    · obtain ⟨href, hset⟩ := configured_new s (readSettings s.config (proxyKey i))
      have hadded := addProxyConfig_extends hs href hset
      exact hadded.trans (ih hadded.sound (i + 1))
    · exact Extends.refl hs

/-- Two proxies have the same identity and address. -/
def SameProxy (obj obj' : ProxyConfig) : Prop :=
  obj'.regIdentity = obj.regIdentity ∧ obj'.regProxy = obj.regProxy

/-- Stored proxies that pass the check are read in their order. -/
lemma readProxies_stored {l : List ProxyConfig} (hcheck : ∀ obj ∈ l, obj.check = true)
    (hset : ∀ obj ∈ l, obj.WellSet osip) {s : FriendCore osip} (hs : s.Sound) {n i : ℕ}
    (hstored : ∀ j obj, l[j]? = some obj → ProxyStored s.config obj (i + j))
    (hn : l.length ≤ n) (hi : s.proxies.length ≤ i) :
    ∃ l' rest, (readProxies n i s).proxies = s.proxies ++ l' ++ rest
      ∧ List.Forall₂ SameProxy l l' := by
  induction l generalizing s n i with
  | nil =>
    obtain ⟨rest, hrest, -⟩ := (readProxies_extends hs n i).proxies
    exact ⟨[], rest, by simpa using hrest, List.Forall₂.nil⟩
  | cons obj l ih =>
    cases n with
    | zero => simp at hn
    | succ n =>
      have hfirst := hstored 0 obj rfl
      rw [Nat.add_zero] at hfirst
      have hobj := hcheck obj List.mem_cons_self
      have hwell := hset obj List.mem_cons_self
      rw [ProxyConfig.check, Bool.and_eq_true] at hobj
      obtain ⟨addr, haddr⟩ := Option.isSome_iff_exists.mp hobj.1
      obtain ⟨id, hid⟩ := Option.isSome_iff_exists.mp hobj.2
      rw [readProxies, if_pos hfirst.there]
      have haddress : (readSettings s.config (proxyKey i)).serverAddr = some addr :=
        hfirst.address.trans haddr
      have hidentity : (readSettings s.config (proxyKey i)).identity = some id :=
        hfirst.identity.trans hid
      have hvalid := (ProxyConfig.new s.nextRef).configure_valid haddress
        (hwell.address addr haddr) hidentity (hwell.identity id hid).1 (hwell.identity id hid).2
      obtain ⟨href, hnewSet⟩ := configured_new s (readSettings s.config (proxyKey i))
      generalize (ProxyConfig.new s.nextRef).configure osip (readSettings s.config (proxyKey i))
        = cfg at hvalid href hnewSet ⊢
      have hcfg : cfg.check = true := by simp [ProxyConfig.check, hvalid.1, hvalid.2]
      have hadded := addProxyConfig_extends hs href hnewSet
      have hnext : addProxyConfig { s with nextRef := s.nextRef + 1 } cfg
          = FriendCore.writeProxies { s with
              proxies := s.proxies ++ [cfg]
              nextRef := s.nextRef + 1 } := by rw [addProxyConfig, if_pos hcfg]
      have hproxies : (addProxyConfig { s with nextRef := s.nextRef + 1 } cfg).proxies
          = s.proxies ++ [cfg] := by rw [hnext, writeProxies]
      have hrest : ∀ j o, l[j]? = some o → ProxyStored
          (addProxyConfig { s with nextRef := s.nextRef + 1 } cfg).config o (i + 1 + j) := by
        intro j o ho
        have hsection := hstored (j + 1) o (by simpa using ho)
        rw [← Nat.add_assoc, Nat.add_right_comm] at hsection
        apply hsection.congr
        rw [hnext]
        apply writeProxies_view (s := { s with
          proxies := s.proxies ++ [cfg]
          nextRef := s.nextRef + 1 }) hs.names
        intro k hk hsame
        have hplace := proxyKey_injective hsame
        simp only [List.length_append, List.length_singleton] at hk
        omega
      obtain ⟨l', rest, hl', hsame⟩ := ih (fun o ho => hcheck o (List.mem_cons_of_mem obj ho))
        (fun o ho => hset o (List.mem_cons_of_mem obj ho)) hadded.sound hrest
        (Nat.le_of_succ_le_succ hn) (by simp [hproxies, hi])
      refine ⟨cfg :: l', rest, ?_, List.Forall₂.cons ⟨?_, ?_⟩ hsame⟩
      · rw [hl', hproxies]
        simp
      · exact hvalid.2.trans hid.symm
      · exact hvalid.1.trans haddr.symm

end FriendCore

end MTalk.Config
