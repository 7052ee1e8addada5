import MTalk.Config.FriendProxies

/-!
# Runs with restarts

The loop over the friends, the state after a restart, and the invariant under which a restart gives
each friend the proxy that it had. Careful steps keep the invariant.
-/

namespace MTalk.Config

open CStrings LpConfig

/-- Different sections of a configuration are not more than its sections. -/
lemma length_of_hasSection {c : LpConfig} {key : ℕ → String} (hkey : ∀ i j, key i = key j → i = j)
    {n : ℕ} (h : ∀ j < n, c.hasSection (key j) = true) : n ≤ c.length := by
  have hnodup : ((List.range n).map key).Nodup := List.nodup_range.map fun i j => hkey i j
  have hsub : (List.range n).map key ⊆ c.map LpSection.name := by
    intro name hname
    obtain ⟨j, hj, rfl⟩ := List.mem_map.mp hname
    obtain ⟨sec, hsec⟩ := Option.isSome_iff_exists.mp (h j (List.mem_range.mp hj))
    have hsame := List.find?_some hsec
    exact List.mem_map.mpr ⟨sec, List.mem_of_find?_eq_some hsec, by simpa using hsame⟩
  have hlength := (hnodup.subperm hsub).length_le
  simpa using hlength

lemma getInt_toString {c : LpConfig} {name key : String} {n : ℤ} (default : ℤ)
    (h : c.getString name key = some (toString n)) (hlow : -1 ≤ n) (hhigh : n < 2 ^ 31) :
    c.getInt name key default = n := by
  rw [getInt, h]
  dsimp only
  rw [atoi_toString]
  apply Int.bmod_eq_of_le_mul_two
  · omega
  · omega

namespace FriendCore

variable {osip : Osip}

/-! The place of a proxy. -/

/-- A proxy has its place as its number. -/
lemma proxyIndex_eq {proxies : List ProxyConfig} (hrefs : (proxies.map ProxyConfig.ref).Nodup)
    {i : ℕ} {obj : ProxyConfig} (h : proxies[i]? = some obj) :
    proxies.findIdx (·.ref = obj.ref) = i ∧ proxyIndex proxies (some obj.ref) = i := by
  obtain ⟨hi, hget⟩ := List.getElem?_eq_some_iff.mp h
  have hplace : proxies.findIdx (·.ref = obj.ref) = i := by
    rw [List.findIdx_eq hi]
    refine ⟨by simp [hget], ?_⟩
    intro j hj
    have hj' : j < (proxies.map ProxyConfig.ref).length := by
      rw [List.length_map]
      omega
    have hi' : i < (proxies.map ProxyConfig.ref).length := by rwa [List.length_map]
    have hne : (proxies.map ProxyConfig.ref)[j] ≠ (proxies.map ProxyConfig.ref)[i] := by
      intro hsame
      have := (List.Nodup.getElem_inj_iff hrefs).mp hsame
      omega
    rw [List.getElem_map, List.getElem_map, hget] at hne
    simpa using hne
  have hany : proxies.any (·.ref = obj.ref) = true :=
    List.any_eq_true.mpr ⟨obj, List.mem_of_getElem? h, by simp⟩
  refine ⟨hplace, ?_⟩
  simp only [proxyIndex]
  rw [if_pos hany, hplace]

/-- A pointer finds its proxy. -/
lemma find_ref {proxies : List ProxyConfig} (hrefs : (proxies.map ProxyConfig.ref).Nodup) {i : ℕ}
    {obj : ProxyConfig} (h : proxies[i]? = some obj) :
    proxies.find? (·.ref = obj.ref) = some obj := by
  obtain ⟨hi, hget⟩ := List.getElem?_eq_some_iff.mp h
  have hplace := (proxyIndex_eq hrefs h).1
  rw [List.find?_eq_some_iff_getElem]
  refine ⟨by simp, i, hi, hget, ?_⟩
  intro j hj
  have hbefore := List.not_of_lt_findIdx (hplace.symm ▸ hj)
  simpa using hbefore

/-! The loop over the friends. -/

/-- A friend that was read in place of another one. -/
structure Reread (s : FriendCore osip) (proxies : List ProxyConfig) (lf lf' : Friend osip) :
    Prop where
  url : osip.fromToStr lf'.url = osip.fromToStr lf.url
  proxy : lf'.proxy = s.indexToProxy (proxyIndex proxies lf.proxy)

lemma indexToProxy_missing (s : FriendCore osip) : s.indexToProxy (-1) = none := by
  rw [indexToProxy, if_neg (by decide)]

lemma readFriend_stored {s : FriendCore osip} {proxies : List ProxyConfig} {lf : Friend osip}
    {i : ℕ} (hstored : FriendStored proxies s.config lf i) (hprint : Printable lf)
    (hlow : -1 ≤ proxyIndex proxies lf.proxy) (hhigh : proxyIndex proxies lf.proxy < 2 ^ 31) :
    ∃ lf', s.readFriend i = some lf' ∧ Reread s proxies lf lf' := by
  obtain ⟨text, url, htext, hparse, hsame⟩ := hprint
  have hint := getInt_toString (-1) hstored.proxy hlow hhigh
  have hurl := hstored.url.trans htext
  unfold readFriend
  rw [if_pos hstored.there, hurl, Option.bind_some, hparse, Option.map_some]
  refine ⟨_, rfl, hsame.trans htext.symm, ?_⟩
  dsimp only
  rw [hint]
  split_ifs with hmissing
  · rfl
  · rw [not_not] at hmissing
    rw [hmissing, indexToProxy_missing]

/-- Stored friends are read in their order. -/
lemma readFriends_stored {proxies : List ProxyConfig} {l : List (Friend osip)}
    (hprint : ∀ lf ∈ l, Printable lf)
    (hindex : ∀ lf ∈ l, -1 ≤ proxyIndex proxies lf.proxy ∧ proxyIndex proxies lf.proxy < 2 ^ 31)
    {s : FriendCore osip} (hready : s.ready = false) {n i : ℕ}
    (hstored : ∀ j lf, l[j]? = some lf → FriendStored proxies s.config lf (i + j))
    (hend : s.config.hasSection (friendKey (i + l.length)) = false) (hn : l.length ≤ n) :
    ∃ l', readFriends n i s = { s with friends := s.friends ++ l' }
      ∧ List.Forall₂ (Reread s proxies) l l' := by
  induction l generalizing s n i with
  | nil =>
    refine ⟨[], ?_, List.Forall₂.nil⟩
    rw [List.append_nil]
    cases n with
    | zero => rfl
    | succ n =>
      have hnone : s.readFriend i = none := by
        rw [readFriend, if_neg (by simpa using hend)]
      rw [readFriends, hnone]
  | cons lf l ih =>
    cases n with
    | zero => simp at hn
    | succ n =>
      obtain ⟨hlow, hhigh⟩ := hindex lf List.mem_cons_self
      have hfirst := hstored 0 lf rfl
      rw [Nat.add_zero] at hfirst
      obtain ⟨lf', hread, hsame⟩ := readFriend_stored hfirst (hprint lf List.mem_cons_self)
        hlow hhigh
      have hadd : s.addFriend lf' = { s with friends := s.friends ++ [lf'] } := by
        rw [addFriend, writeFriends, if_neg (by simp [hready])]
      have hnext : ∀ j f, l[j]? = some f → FriendStored proxies s.config f (i + 1 + j) := by
        intro j f hf
        have hplace := hstored (j + 1) f (by simpa using hf)
        rwa [← Nat.add_assoc, Nat.add_right_comm] at hplace
      have hendNext : s.config.hasSection (friendKey (i + 1 + l.length)) = false := by
        rwa [List.length_cons, ← Nat.add_assoc, Nat.add_right_comm] at hend
      obtain ⟨l', hl', hforall⟩ := ih (fun f hf => hprint f (List.mem_cons_of_mem lf hf))
        (fun f hf => hindex f (List.mem_cons_of_mem lf hf)) (s := s.addFriend lf')
        (by rw [hadd]; exact hready) (by rw [hadd]; exact hnext) (by rw [hadd]; exact hendNext)
        (Nat.le_of_succ_le_succ hn)
      refine ⟨lf' :: l', ?_, List.Forall₂.cons hsame ?_⟩
      · rw [readFriends, hread]
        dsimp only
        rw [hl', hadd]
        simp
      · rw [hadd] at hforall
        exact hforall.imp fun f f' h => ⟨h.url, h.proxy⟩

/-! The invariant. -/

/-- Each friend is in the configuration at its place, with the place of its proxy, which the next
start reads again. -/
structure Kept (s : FriendCore osip) : Prop where
  sound : s.Sound
  ready : s.ready = true
  print : ∀ lf ∈ s.friends, Printable lf
  listed : ∀ lf ∈ s.friends, ∀ ref ∈ lf.proxy, Listed s.proxies ref
  stored : ∀ j lf, s.friends[j]? = some lf → FriendStored s.proxies s.config lf j
  ended : s.config.hasSection (friendKey s.friends.length) = false

/-- A listed proxy by its place. -/
lemma Listed.place {proxies : List ProxyConfig} {ref : ℕ} (h : Listed proxies ref)
    (hrefs : (proxies.map ProxyConfig.ref).Nodup) :
    ∃ i < 2 ^ 31, ∃ obj, proxies[i]? = some obj ∧ obj.ref = ref
      ∧ proxies.findIdx (·.ref = ref) = i ∧ proxyIndex proxies (some ref) = i
      ∧ ∀ j ≤ i, ∀ other, proxies[j]? = some other → other.check = true := by
  obtain ⟨i, hi, obj, hobj, rfl, hcheck⟩ := h
  obtain ⟨hplace, hindex⟩ := proxyIndex_eq hrefs hobj
  exact ⟨i, hi, obj, hobj, rfl, hplace, hindex, hcheck⟩

lemma Kept.index {s : FriendCore osip} (h : s.Kept) {lf : Friend osip} (hlf : lf ∈ s.friends) :
    -1 ≤ proxyIndex s.proxies lf.proxy ∧ proxyIndex s.proxies lf.proxy < 2 ^ 31 := by
  cases hproxy : lf.proxy with
  | none => simp [proxyIndex]
  | some ref =>
    obtain ⟨i, hi, -, -, -, -, hindex, -⟩ := (h.listed lf hlf ref hproxy).place h.sound.refs
    rw [hindex]
    omega

/-! The state after a restart. -/

/-- What a restart keeps: the friends, in the configuration too, and the proxies up to the first
that does not pass the check. -/
structure Reloaded (s s' : FriendCore osip) : Prop where
  sound : s'.Sound
  ready : s'.ready = true
  check : ∀ obj ∈ s'.proxies, obj.check = true
  view : ∀ j, s'.config.view (friendKey j) = s.config.view (friendKey j)
  proxies : ∀ (i : ℕ) (obj : ProxyConfig), s.proxies[i]? = some obj →
    (∀ j ≤ i, ∀ other, s.proxies[j]? = some other → other.check = true) →
    ∃ obj', s'.proxies[i]? = some obj' ∧ SameProxy obj obj'
  friends : List.Forall₂ (Reread s' s.proxies) s.friends s'.friends

/-- The configuration at the end. -/
lemma save_stored {s : FriendCore osip} (hs : s.Sound) :
    NamesNodup s.save ∧ (∀ j obj, s.proxies[j]? = some obj → ProxyStored s.save obj j)
      ∧ ∀ j, s.save.view (friendKey j) = s.config.view (friendKey j) := by
  have hnames := writesPlace_proxy.names_writeFrom (fun _ _ => trivial : ∀ obj ∈ s.proxies, True)
    hs.names 0
  refine ⟨names_cleanSection hnames _, ?_, ?_⟩
  · intro j obj hj
    have hstored := writesPlace_proxy.stored_writeFrom
      (fun _ _ => trivial : ∀ obj ∈ s.proxies, True) hs.names 0 hj
    rw [Nat.zero_add] at hstored
    apply hstored.congr
    rw [save, view_cleanSection hnames, if_neg]
    intro hsame
    have hplace := proxyKey_injective hsame
    have hlt := (List.getElem?_eq_some_iff.mp hj).1
    omega
  · intro j
    rw [save, view_cleanSection hnames, if_neg (proxyKey_ne_friendKey _ j).symm]
    exact writeProxies_view hs.names fun i _ => (proxyKey_ne_friendKey i j).symm

/-- The proxies that pass the check up to a place are the first proxies. -/
lemma takeWhile_getElem {proxies : List ProxyConfig} {i : ℕ} {obj : ProxyConfig}
    (h : proxies[i]? = some obj)
    (hcheck : ∀ j ≤ i, ∀ other, proxies[j]? = some other → other.check = true) :
    (proxies.takeWhile ProxyConfig.check)[i]? = some obj := by
  induction proxies generalizing i with
  | nil => simp at h
  | cons first rest ih =>
    have hfirst := hcheck 0 (Nat.zero_le i) first rfl
    rw [List.takeWhile_cons_of_pos hfirst]
    cases i with
    | zero => exact h
    | succ i =>
      rw [List.getElem?_cons_succ] at h ⊢
      apply ih h
      intro j hj other hother
      exact hcheck (j + 1) (by omega) other (by simpa using hother)

/-- The state of a start when the proxies are read. -/
def withProxies (c : LpConfig) : FriendCore osip :=
  readProxies (c.length + 1) 0 ⟨c, [], [], false, 0⟩

lemma withProxies_extends {c : LpConfig} (hc : NamesNodup c) :
    Extends (⟨c, [], [], false, 0⟩ : FriendCore osip) (withProxies c) := by
  apply readProxies_extends
  exact ⟨hc, List.nodup_nil, by simp, by simp⟩

/-- The proxies are read up to the first that does not pass the check. -/
lemma withProxies_save {s : FriendCore osip} (hs : s.Sound) {i : ℕ} {obj : ProxyConfig}
    (hobj : s.proxies[i]? = some obj)
    (hcheck : ∀ j ≤ i, ∀ other, s.proxies[j]? = some other → other.check = true) :
    ∃ obj', (withProxies s.save : FriendCore osip).proxies[i]? = some obj'
      ∧ SameProxy obj obj' := by
  obtain ⟨hnames, hproxies, -⟩ := save_stored hs
  have hsplit := List.takeWhile_append_dropWhile (p := ProxyConfig.check) (l := s.proxies)
  have hstored : ∀ j other, (s.proxies.takeWhile ProxyConfig.check)[j]? = some other →
      ProxyStored s.save other (0 + j) := by
    intro j other hj
    rw [Nat.zero_add]
    apply hproxies j other
    rw [← hsplit, List.getElem?_append_left (List.getElem?_eq_some_iff.mp hj).1, hj]
  have hlength : (s.proxies.takeWhile ProxyConfig.check).length ≤ s.save.length := by
    apply length_of_hasSection fun i j => proxyKey_injective
    intro j hj
    have hthere := (hstored j _ (List.getElem?_eq_getElem hj)).there
    rwa [Nat.zero_add] at hthere
  have hstart : Sound (⟨s.save, [], [], false, 0⟩ : FriendCore osip) :=
    ⟨hnames, List.nodup_nil, by simp, by simp⟩
  obtain ⟨l, rest, hl, hsame⟩ := readProxies_stored
    (fun other hother => List.mem_takeWhile_imp hother)
    (fun other hother => hs.wellSet other ((List.takeWhile_sublist _).subset hother)) hstart
    hstored (Nat.le_succ_of_le hlength) (Nat.zero_le 0)
  obtain ⟨hlt, hget⟩ := List.getElem?_eq_some_iff.mp (takeWhile_getElem hobj hcheck)
  have hlt' : i < l.length := hsame.length_eq ▸ hlt
  refine ⟨l[i], ?_, ?_⟩
  · rw [withProxies, hl, List.nil_append, List.getElem?_append_left hlt',
      List.getElem?_eq_getElem hlt']
  · rw [← hget]
    exact hsame.get hlt hlt'

lemma Kept.reloaded {s : FriendCore osip} (h : s.Kept) : Reloaded s (load s.save) := by
  obtain ⟨hnames, -, hsaved⟩ := save_stored h.sound
  have hextends : Extends (⟨s.save, [], [], false, 0⟩ : FriendCore osip) (withProxies s.save) :=
    withProxies_extends hnames
  have hview : ∀ j, (withProxies s.save : FriendCore osip).config.view (friendKey j)
      = s.config.view (friendKey j) := fun j => (hextends.view j).trans (hsaved j)
  have hlength : s.friends.length ≤ s.save.length := by
    apply length_of_hasSection fun i j => friendKey_injective
    intro j hj
    have hthere := (h.stored j _ (List.getElem?_eq_getElem hj)).there
    rwa [hasSection_eq_view, ← hsaved, ← hasSection_eq_view] at hthere
  have hstored : ∀ j lf, s.friends[j]? = some lf →
      FriendStored s.proxies (withProxies s.save : FriendCore osip).config lf (0 + j) := by
    intro j lf hj
    rw [Nat.zero_add]
    exact (h.stored j lf hj).congr (hview j)
  have hended : (withProxies s.save : FriendCore osip).config.hasSection
      (friendKey (0 + s.friends.length)) = false := by
    rw [Nat.zero_add, hasSection_eq_view, hview, ← hasSection_eq_view]
    exact h.ended
  obtain ⟨friends, hfriends, hreread⟩ := readFriends_stored h.print (fun lf hlf => h.index hlf)
    hextends.ready hstored hended (Nat.le_succ_of_le hlength)
  have hload : load s.save = { (withProxies s.save : FriendCore osip) with
      friends := friends
      ready := true } := by
    change { readFriends (s.save.length + 1) 0 (withProxies s.save) with ready := true } = _
    rw [hfriends, hextends.friends, List.nil_append]
  obtain ⟨all, hall, hcheck⟩ := hextends.proxies
  rw [hload]
  refine ⟨⟨hextends.sound.names, hextends.sound.refs, hextends.sound.fresh,
    hextends.sound.wellSet⟩, rfl, ?_, hview, ?_, ?_⟩
  · rw [hall]
    simpa using hcheck
  · intro i obj hobj hpass
    exact withProxies_save h.sound hobj hpass
  · exact hreread.imp fun lf lf' hlf => ⟨hlf.url, hlf.proxy⟩

/-- The proxy of a friend before and after a restart. -/
lemma Reloaded.proxy {s s' : FriendCore osip} (h : s.Kept) (hr : Reloaded s s')
    {lf lf' : Friend osip} (hlf : lf ∈ s.friends) (hsame : Reread s' s.proxies lf lf') :
    (lf.proxy = none ∧ lf'.proxy = none) ∨ ∃ i < 2 ^ 31, ∃ obj obj',
      s.proxies[i]? = some obj ∧ s'.proxies[i]? = some obj' ∧ SameProxy obj obj'
        ∧ lf.proxy = some obj.ref ∧ lf'.proxy = some obj'.ref := by
  have hnew := hsame.proxy
  cases hproxy : lf.proxy with
  | none =>
    rw [hproxy, proxyIndex, indexToProxy_missing] at hnew
    exact .inl ⟨rfl, hnew⟩
  | some ref =>
    obtain ⟨i, hi, obj, hobj, rfl, -, hindex, hcheck⟩ :=
      (h.listed lf hlf ref hproxy).place h.sound.refs
    obtain ⟨obj', hobj', hkept⟩ := hr.proxies i obj hobj hcheck
    rw [hproxy, hindex, indexToProxy, if_pos (Int.natCast_nonneg i), Int.toNat_natCast, hobj',
      Option.map_some] at hnew
    exact .inr ⟨i, hi, obj, obj', hobj, hobj', hkept, rfl, hnew⟩

/-- The friends of a state with the invariant keep their proxies. -/
lemma Kept.keepsProxies {s : FriendCore osip} (h : s.Kept) : s.KeepsProxies := by
  have hr := h.reloaded
  have hfriends := (List.forall₂_and_left _ _).mpr ⟨fun lf hlf => hlf, hr.friends⟩
  refine hfriends.imp fun lf lf' ⟨hlf, hsame⟩ => ⟨hsame.url, ?_⟩
  rcases hr.proxy h hlf hsame with ⟨hnone, hnone'⟩ |
    ⟨i, -, obj, obj', hobj, hobj', hkept, hproxy, hproxy'⟩
  · rw [binding, binding, hnone, hnone']
    rfl
  · rw [binding, binding, hproxy, hproxy', Option.map_some, Option.map_some,
      find_ref h.sound.refs hobj, find_ref hr.sound.refs hobj', Option.map_some, Option.map_some,
      hkept.1, hkept.2]

lemma forall₂_getElem {α β : Type} {R : α → β → Prop} {l : List α} {l' : List β}
    (h : List.Forall₂ R l l') {j : ℕ} {b : β} (hj : l'[j]? = some b) :
    ∃ a, l[j]? = some a ∧ R a b := by
  obtain ⟨hlt', hget⟩ := List.getElem?_eq_some_iff.mp hj
  have hlt : j < l.length := h.length_eq ▸ hlt'
  refine ⟨l[j], List.getElem?_eq_getElem hlt, ?_⟩
  rw [← hget]
  exact h.get hlt hlt'

lemma Kept.load {s : FriendCore osip} (h : s.Kept) :
    (FriendCore.load s.save : FriendCore osip).Kept := by
  have hr := h.reloaded
  generalize FriendCore.load s.save = s' at hr ⊢
  have hold : ∀ {j : ℕ} {lf' : Friend osip}, s'.friends[j]? = some lf' →
      ∃ lf, s.friends[j]? = some lf ∧ lf ∈ s.friends ∧ Reread s' s.proxies lf lf' := by
    intro j lf' hj
    obtain ⟨lf, hlf, hsame⟩ := forall₂_getElem hr.friends hj
    exact ⟨lf, hlf, List.mem_of_getElem? hlf, hsame⟩
  refine ⟨hr.sound, hr.ready, ?_, ?_, ?_, ?_⟩
  · intro lf' hlf'
    obtain ⟨j, hj⟩ := List.mem_iff_getElem?.mp hlf'
    obtain ⟨lf, -, hlf, hsame⟩ := hold hj
    obtain ⟨text, url, htext, hparse, hback⟩ := h.print lf hlf
    exact ⟨text, url, hsame.url.trans htext, hparse, hback⟩
  · intro lf' hlf' ref href
    obtain ⟨j, hj⟩ := List.mem_iff_getElem?.mp hlf'
    obtain ⟨lf, -, hlf, hsame⟩ := hold hj
    rcases hr.proxy h hlf hsame with ⟨-, hnone⟩ | ⟨i, hi, obj, obj', -, hobj', -, -, hproxy⟩
    · rw [hnone] at href
      cases href
    · rw [hproxy] at href
      cases href
      exact ⟨i, hi, obj', hobj', rfl,
        fun k _ other hother => hr.check other (List.mem_of_getElem? hother)⟩
  · intro j lf' hj
    obtain ⟨lf, hplace, hlf, hsame⟩ := hold hj
    have hstored := (h.stored j lf hplace).congr (hr.view j)
    have hindex : proxyIndex s'.proxies lf'.proxy = proxyIndex s.proxies lf.proxy := by
      rcases hr.proxy h hlf hsame with ⟨hnone, hnone'⟩ |
        ⟨i, -, obj, obj', hobj, hobj', -, hproxy, hproxy'⟩
      · rw [hnone, hnone']
        rfl
      · rw [hproxy, hproxy', (proxyIndex_eq hr.sound.refs hobj').2,
          (proxyIndex_eq h.sound.refs hobj).2]
    refine ⟨hstored.there, hstored.url.trans hsame.url.symm, ?_⟩
    rw [hindex]
    exact hstored.proxy
  · rw [← hr.friends.length_eq, hasSection_eq_view, hr.view, ← hasSection_eq_view]
    exact h.ended

/-! The steps. -/

/-- A proxy and those before it stay where they are, and pass the check if they did. -/
def SamePlace (proxies proxies' : List ProxyConfig) (ref : ℕ) : Prop :=
  ∀ j ≤ proxies.findIdx (·.ref = ref), ∀ obj, proxies[j]? = some obj →
    ∃ obj', proxies'[j]? = some obj' ∧ obj'.ref = obj.ref ∧ (obj.check = true → obj'.check = true)

lemma SamePlace.listed {proxies proxies' : List ProxyConfig} {ref : ℕ}
    (h : SamePlace proxies proxies' ref) (hlisted : Listed proxies ref)
    (hrefs : (proxies.map ProxyConfig.ref).Nodup) (hrefs' : (proxies'.map ProxyConfig.ref).Nodup) :
    Listed proxies' ref ∧ proxyIndex proxies' (some ref) = proxyIndex proxies (some ref) := by
  obtain ⟨i, hi, obj, hobj, rfl, hplace, hindex, hcheck⟩ := hlisted.place hrefs
  obtain ⟨obj', hobj', href, -⟩ := h i hplace.ge obj hobj
  refine ⟨⟨i, hi, obj', hobj', href, ?_⟩, ?_⟩
  · intro j hj other hother
    have hlt : j < proxies.length := by
      have := (List.getElem?_eq_some_iff.mp hobj).1
      omega
    have hbefore : proxies[j]? = some proxies[j] := List.getElem?_eq_getElem hlt
    obtain ⟨other', hother', -, hpass⟩ := h j (hplace ▸ hj) _ hbefore
    rw [hother, Option.some.injEq] at hother'
    rw [hother']
    exact hpass (hcheck j hj _ hbefore)
  · rw [hindex, ← href, (proxyIndex_eq hrefs' hobj').2]

/-- A change of the proxies that leaves those of the friends where they are. -/
lemma Kept.of_proxies {s s' : FriendCore osip} (h : s.Kept) (hsound : s'.Sound)
    (hready : s'.ready = s.ready) (hfriends : s'.friends = s.friends)
    (hview : ∀ j, s'.config.view (friendKey j) = s.config.view (friendKey j))
    (hplace : ∀ lf ∈ s.friends, ∀ ref ∈ lf.proxy, SamePlace s.proxies s'.proxies ref) :
    s'.Kept := by
  have hlisted : ∀ lf ∈ s.friends, ∀ ref ∈ lf.proxy, Listed s'.proxies ref
      ∧ proxyIndex s'.proxies (some ref) = proxyIndex s.proxies (some ref) := by
    intro lf hlf ref href
    exact (hplace lf hlf ref href).listed (h.listed lf hlf ref href) h.sound.refs hsound.refs
  refine ⟨hsound, hready.trans h.ready, ?_, ?_, ?_, ?_⟩
  · rw [hfriends]
    exact h.print
  · rw [hfriends]
    exact fun lf hlf ref href => (hlisted lf hlf ref href).1
  · intro j lf hj
    rw [hfriends] at hj
    obtain ⟨hthere, hurl, hproxy⟩ := (h.stored j lf hj).congr (hview j)
    refine ⟨hthere, hurl, ?_⟩
    cases hold : lf.proxy with
    | none =>
      rw [hold] at hproxy
      exact hproxy
    | some ref =>
      rw [(hlisted lf (List.mem_of_getElem? hj) ref hold).2, ← hold]
      exact hproxy
  · rw [hfriends, hasSection_eq_view, hview, ← hasSection_eq_view]
    exact h.ended

/-- More proxies at the end. -/
lemma Kept.extends {s s' : FriendCore osip} (h : s.Kept) (he : Extends s s') : s'.Kept := by
  apply h.of_proxies he.sound he.ready he.friends he.view
  intro lf _ ref _ j _ obj hobj
  obtain ⟨rest, hrest, -⟩ := he.proxies
  refine ⟨obj, ?_, rfl, fun hcheck => hcheck⟩
  rw [hrest, List.getElem?_append_left (List.getElem?_eq_some_iff.mp hobj).1, hobj]

lemma ne_of_lt_findIdx {proxies : List ProxyConfig} {ref j : ℕ} {obj : ProxyConfig}
    (hobj : proxies[j]? = some obj) (hj : j < proxies.findIdx (·.ref = ref)) : obj.ref ≠ ref := by
  obtain ⟨hlt, hget⟩ := List.getElem?_eq_some_iff.mp hobj
  have hbefore := List.not_of_lt_findIdx hj
  rw [hget] at hbefore
  simpa using hbefore

lemma editedProxies_sound {s : FriendCore osip} (hs : s.Sound) (ref : ℕ)
    (settings : ProxySettings) :
    Sound { s with proxies := s.editedProxies ref settings } := by
  have href : ∀ obj : ProxyConfig,
      (if obj.ref = ref then obj.configure osip settings else obj).ref = obj.ref := by
    intro obj
    split_ifs
    · exact ProxyConfig.configure_ref obj settings
    · rfl
  refine ⟨hs.names, ?_, ?_, ?_⟩
  · have hmap : (s.editedProxies ref settings).map ProxyConfig.ref
        = s.proxies.map ProxyConfig.ref := by
      rw [editedProxies, List.map_map]
      exact List.map_congr_left fun obj _ => href obj
    rw [hmap]
    exact hs.refs
  · intro obj hobj
    obtain ⟨old, hold, rfl⟩ := List.mem_map.mp hobj
    rw [href]
    exact hs.fresh old hold
  · intro obj hobj
    obtain ⟨old, hold, rfl⟩ := List.mem_map.mp hobj
    split_ifs
    · exact ProxyConfig.configure_wellSet (hs.wellSet old hold) settings
    · exact hs.wellSet old hold

lemma Kept.editProxy {s : FriendCore osip} (h : s.Kept) {ref : ℕ} {settings : ProxySettings}
    (hcareful : (∀ obj ∈ s.proxies, obj.ref = ref → (obj.configure osip settings).check = true)
      ∨ s.Unbound ref) : (s.editProxy ref settings).Kept := by
  have hsound := editedProxies_sound h.sound ref settings
  have hedited : Kept { s with proxies := s.editedProxies ref settings } := by
    refine h.of_proxies hsound rfl rfl (fun _ => rfl) ?_
    intro lf hlf ref' href' j hj obj hobj
    refine ⟨if obj.ref = ref then obj.configure osip settings else obj, ?_, ?_, ?_⟩
    · simp [editedProxies, hobj]
    · split_ifs
      · exact ProxyConfig.configure_ref obj settings
      · rfl
    · intro hcheck
      split_ifs with hsame
      · rcases hcareful with hvalid | hunbound
        · exact hvalid obj (List.mem_of_getElem? hobj) hsame
        · have hbefore := lt_of_le_of_lt hj (hunbound lf hlf ref' href')
          exact absurd hsame (ne_of_lt_findIdx hobj hbefore)
      · exact hcheck
  unfold FriendCore.editProxy
  dsimp only
  split
  · split_ifs
    · exact hedited.extends (writeProxies_extends hsound)
    · exact hedited
  · exact hedited

lemma getElem_eraseP {α : Type} {p : α → Bool} {l : List α} {j : ℕ} (hj : j < l.findIdx p) :
    (l.eraseP p)[j]? = l[j]? := by
  induction l generalizing j with
  | nil => rfl
  | cons a l ih =>
    rw [List.findIdx_cons] at hj
    cases ha : p a with
    | true => simp [ha] at hj
    | false =>
      rw [List.eraseP_cons_of_neg (by simp [ha])]
      cases j with
      | zero => rfl
      | succ j =>
        rw [List.getElem?_cons_succ, List.getElem?_cons_succ]
        apply ih
        simpa [ha] using hj

lemma Kept.removeProxyConfig {s : FriendCore osip} (h : s.Kept) {ref : ℕ}
    (hunbound : s.Unbound ref) : (s.removeProxyConfig ref).Kept := by
  have hsub : s.proxies.eraseP (·.ref = ref) ⊆ s.proxies := List.eraseP_subset
  have hsound : Sound (s.removeProxyConfig ref) := by
    refine ⟨h.sound.names, ?_, ?_, ?_⟩
    · exact h.sound.refs.sublist (List.eraseP_sublist.map ProxyConfig.ref)
    · exact fun obj hobj => h.sound.fresh obj (hsub hobj)
    · exact fun obj hobj => h.sound.wellSet obj (hsub hobj)
  have hfriends : (s.removeProxyConfig ref).friends = s.friends := by
    have hsame : ∀ lf ∈ s.friends, checkForRemovedProxy ref lf = id lf := by
      intro lf hlf
      rw [checkForRemovedProxy, if_neg, id]
      intro hsame
      exact lt_irrefl _ (hunbound lf hlf ref hsame)
    exact (List.map_congr_left hsame).trans (List.map_id s.friends)
  refine h.of_proxies hsound rfl hfriends (fun _ => rfl) ?_
  intro lf hlf ref' href' j hj obj hobj
  refine ⟨obj, ?_, rfl, fun hcheck => hcheck⟩
  rw [FriendCore.removeProxyConfig,
    getElem_eraseP (lt_of_le_of_lt hj (hunbound lf hlf ref' href')), hobj]

/-- Writing the friends stores all of them. -/
lemma Kept.writeFriends {s : FriendCore osip} (hsound : s.Sound) (hready : s.ready = true)
    (hprint : ∀ lf ∈ s.friends, Printable lf)
    (hlisted : ∀ lf ∈ s.friends, ∀ ref ∈ lf.proxy, Listed s.proxies ref) :
    s.writeFriends.Kept := by
  have hwrites := @writesPlace_friend osip s.proxies
  have hnames := hwrites.names_writeFrom hprint hsound.names 0
  rw [FriendCore.writeFriends, if_pos hready]
  refine ⟨⟨names_cleanSection hnames _, hsound.refs, hsound.fresh, hsound.wellSet⟩, hready, hprint,
    hlisted, ?_, ?_⟩
  · intro j lf hj
    have hstored := hwrites.stored_writeFrom hprint hsound.names 0 hj
    rw [Nat.zero_add] at hstored
    apply hstored.congr
    rw [view_cleanSection hnames, if_neg]
    intro hsame
    have hplace := friendKey_injective hsame
    have hlt := (List.getElem?_eq_some_iff.mp hj).1
    dsimp only at hlt
    omega
  · dsimp only
    rw [hasSection_eq_view, view_cleanSection hnames, if_pos rfl]
    rfl

lemma printable_parsed {addr : String} {url : osip.From} (h : osip.fromParse addr = some url)
    (pol : SubscribePolicy) (subscribe : ℤ) (proxy : Option ℕ) :
    Printable (⟨url, pol, subscribe, proxy⟩ : Friend osip) :=
  osip.fromToStr_parse addr url h

lemma Friend.configure_printable {lf : Friend osip} (h : Printable lf) (addr : String)
    (pol : SubscribePolicy) (subscribe : ℤ) (proxy : Option ℕ) :
    Printable (Friend.configure lf addr pol subscribe proxy) := by
  cases hparse : osip.fromParse addr with
  | none =>
    rw [Friend.configure, hparse, Option.getD_none]
    exact h
  | some url =>
    rw [Friend.configure, hparse, Option.getD_some]
    exact printable_parsed hparse _ _ _

/-- A careful step keeps the invariant. -/
lemma Kept.step {s : FriendCore osip} (h : s.Kept) {op : Op} (hcareful : s.CarefulStep op) :
    (s.step op).Kept := by
  cases op with
  | addProxy settings =>
    obtain ⟨href, hset⟩ := configured_new s settings
    exact h.extends (addProxyConfig_extends h.sound href hset)
  | editProxy ref settings => exact h.editProxy hcareful
  | removeProxy ref => exact h.removeProxyConfig hcareful
  | addFriend addr pol subscribe proxy =>
    rw [FriendCore.step]
    split
    · rename_i url hurl
      apply Kept.writeFriends
      · exact ⟨h.sound.names, h.sound.refs, h.sound.fresh, h.sound.wellSet⟩
      · exact h.ready
      · intro lf hlf
        rcases List.mem_append.mp hlf with hlf | hlf
        · exact h.print lf hlf
        · rw [List.mem_singleton.mp hlf]
          exact printable_parsed hurl _ _ _
      · intro lf hlf
        rcases List.mem_append.mp hlf with hlf | hlf
        · exact h.listed lf hlf
        · rw [List.mem_singleton.mp hlf]
          exact hcareful
    · exact h
  | editFriend place addr pol subscribe proxy =>
    rw [FriendCore.step]
    split
    · rename_i lf hplace
      apply Kept.writeFriends
      · exact ⟨h.sound.names, h.sound.refs, h.sound.fresh, h.sound.wellSet⟩
      · exact h.ready
      · intro lf' hlf'
        rcases List.mem_or_eq_of_mem_set hlf' with hold | rfl
        · exact h.print lf' hold
        · exact Friend.configure_printable (h.print lf (List.mem_of_getElem? hplace)) _ _ _ _
      · intro lf' hlf'
        rcases List.mem_or_eq_of_mem_set hlf' with hold | rfl
        · exact h.listed lf' hold
        · exact hcareful
    · exact h
  | removeFriend place =>
    rw [FriendCore.step]
    split_ifs
    · have hsub : s.friends.eraseIdx place ⊆ s.friends :=
        (List.eraseIdx_sublist s.friends place).subset
      apply Kept.writeFriends
      · exact ⟨h.sound.names, h.sound.refs, h.sound.fresh, h.sound.wellSet⟩
      · exact h.ready
      · exact fun lf hlf => h.print lf (hsub hlf)
      · exact fun lf hlf => h.listed lf (hsub hlf)
    · exact h
  | restart => exact h.load

lemma initial_kept : (initial : FriendCore osip).Kept := by
  have hempty : (initial : FriendCore osip) = ⟨[], [], [], true, 0⟩ := rfl
  rw [hempty]
  exact ⟨⟨List.nodup_nil, List.nodup_nil, by simp, by simp⟩, rfl, by simp, by simp, by simp, rfl⟩

/-- A run of careful steps keeps the invariant. -/
lemma Kept.run {s : FriendCore osip} (h : s.Kept) {ops : List Op} (hcareful : s.Careful ops)
    (k : ℕ) : ((ops.take k).foldl FriendCore.step s).Kept := by
  induction ops generalizing s k with
  | nil =>
    rw [List.take_nil]
    exact h
  | cons op ops ih =>
    cases k with
    | zero => exact h
    | succ k =>
      rw [List.take_succ_cons, List.foldl_cons]
      exact ih (h.step hcareful.1) hcareful.2 k

/-- In a run of careful steps, each friend has after a restart the proxy that it had, and no friend
has a proxy that was removed. -/
theorem run_keepsProxies {ops : List Op} (h : Careful (initial : FriendCore osip) ops) (k : ℕ) :
    (run (ops.take k) : FriendCore osip).KeepsProxies
      ∧ ∀ lf ∈ (run (ops.take k) : FriendCore osip).friends, ∀ ref ∈ lf.proxy,
        ∃ obj ∈ (run (ops.take k) : FriendCore osip).proxies, obj.ref = ref := by
  have hkept := initial_kept.run h k
  refine ⟨hkept.keepsProxies, ?_⟩
  intro lf hlf ref href
  obtain ⟨i, -, obj, hobj, hsame, -⟩ := hkept.listed lf hlf ref href
  exact ⟨obj, List.mem_of_getElem? hobj, hsame⟩

/-! Runs with addresses of the form `sip:user@host`. -/

/-- The characters of an address without brackets. -/
def bareAddress (s : String) : List Char := s.toList.filter fun ch => ch != '<' && ch != '>'

lemma bareAddress_bare (s : String) :
    bareAddress (String.ofList (bareAddress s)) = bareAddress s := by
  simp [bareAddress, List.filter_filter]

lemma bareAddress_bracketed (s : String) :
    bareAddress (String.ofList ('<' :: bareAddress s ++ ['>'])) = bareAddress s := by
  simp [bareAddress, List.filter_append, List.filter_filter]

/-- Addresses `sip:host` and `sip:user@host`, in brackets or not, that are printed in brackets. -/
def bracketed : Osip where
  From := String
  fromParse s :=
    if (bareAddress s).take 4 = ['s', 'i', 'p', ':'] then some (String.ofList (bareAddress s))
    else none
  fromToStr url := some (String.ofList ('<' :: bareAddress url ++ ['>']))
  host url :=
    let rest := url.toList.drop 4
    some (String.ofList (if '@' ∈ rest then (rest.dropWhile (· != '@')).drop 1 else rest))
  username url :=
    let rest := url.toList.drop 4
    if '@' ∈ rest then some (String.ofList (rest.takeWhile (· != '@'))) else none
  routeParse := some
  fromToStr_parse := by
    intro s url h
    split_ifs at h with hsip
    · cases h
      refine ⟨String.ofList ('<' :: bareAddress s ++ ['>']), String.ofList (bareAddress s), ?_, ?_,
        ?_⟩
      · rw [bareAddress_bare]
      · rw [bareAddress_bracketed, if_pos hsip]
      · rw [bareAddress_bare]

/-- The settings of a proxy with an identity and an address. -/
def proxyAt (identity serverAddr : String) : ProxySettings where
  serverAddr := some serverAddr
  identity := some identity
  route := none
  expires := 600
  sendregister := 1
  publish := 0
  sipSetup := none

/-- Two proxies and a friend of one of them, then a proxy is removed. -/
def removing (bound removed : ℕ) : List Op :=
  [.addProxy (proxyAt "sip:me@one" "sip:one"), .addProxy (proxyAt "sip:me@two" "sip:two"),
    .addFriend "sip:bob@two" .accept 1 (some bound), .removeProxy removed]

lemma listed_first {proxies : List ProxyConfig} {ref : ℕ}
    (h : ∃ obj ∈ proxies[0]?, obj.ref = ref ∧ obj.check = true) : Listed proxies ref := by
  obtain ⟨obj, hobj, href, hcheck⟩ := h
  refine ⟨0, by norm_num, obj, hobj, href, ?_⟩
  intro j hj other hother
  rw [Nat.le_zero.mp hj, hobj, Option.some.injEq] at hother
  rw [← hother]
  exact hcheck

/-- A friend of the first proxy, when the second is removed, has the first after a restart. -/
theorem run_keepsProxies_removing :
    (run ((removing 0 1).take 4) : FriendCore bracketed).KeepsProxies
      ∧ ∀ lf ∈ (run ((removing 0 1).take 4) : FriendCore bracketed).friends, ∀ ref ∈ lf.proxy,
        ∃ obj ∈ (run ((removing 0 1).take 4) : FriendCore bracketed).proxies, obj.ref = ref := by
  apply run_keepsProxies
  refine ⟨trivial, trivial, ?_, ?_, trivial⟩
  · intro ref href
    cases href
    apply listed_first
    decide +kernel
  · have hbefore : ∀ lf ∈ (run ((removing 0 1).take 3) : FriendCore bracketed).friends,
        ∀ ref ∈ lf.proxy,
        (run ((removing 0 1).take 3) : FriendCore bracketed).proxies.findIdx (·.ref = ref)
          < (run ((removing 0 1).take 3) : FriendCore bracketed).proxies.findIdx (·.ref = 1) := by
      decide +kernel
    exact fun lf hlf ref href => hbefore lf hlf ref href

lemma KeepsProxies.bindings {s : FriendCore osip} (h : s.KeepsProxies) :
    s.friends.map s.binding = (load s.save : FriendCore osip).friends.map
      (load s.save : FriendCore osip).binding := by
  rw [← List.forall₂_eq_eq_eq, List.forall₂_map_left_iff, List.forall₂_map_right_iff]
  exact h.imp fun lf lf' hlf => hlf.2.symm

/-- A friend of the second proxy, when the first is removed, has none after a restart. -/
theorem binding_is_lost : ¬ (run (removing 1 0) : FriendCore bracketed).KeepsProxies := by
  intro h
  have hsame := h.bindings
  revert hsame
  decide +kernel

end FriendCore

end MTalk.Config
