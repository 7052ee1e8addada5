import MTalk.Library.CStrings
import MTalk.Library.GuardedRuns
import MTalk.Phone.LinphoneCore

/-!
# Refreshing a registration

After each success of a registration the contact that was registered is compared with the address
that the proxy saw. A port that is there is replaced by `5060` before the comparison, where the
code means to replace an empty one, so that any two ports are found equal.
-/

namespace MTalk.Phone

open CStrings GuardedRuns

/-- The host and the port of a contact. -/
structure ContactUrl where
  host : String
  port : Option String
deriving DecidableEq

/-- The parameters of a `Via` header that are read. A parameter may come without a value. -/
structure Via where
  rport : Option (Option String)
  received : Option (Option String)
deriving DecidableEq

/-- What a success of the registration reads and writes in `CProxyConfig`. -/
structure ProxyContact where
  contactAddr : Option String
  contactPort : ℤ
  registered : Bool
deriving DecidableEq

/-- What `register_again_with_updated_contact` returns, the proxy configuration that it leaves and
the contact of the REGISTER that it sends. -/
structure Refresh where
  again : Bool
  cfg : ProxyContact
  sent : Option ContactUrl
deriving DecidableEq

/-- A pointer that the code reads through. -/
def nonNull {α : Type} : Option α → Except Fault α
  | none => .error .nullPointer
  | some a => .ok a

def updateContact (cfg : ProxyContact) (ip port : String) : ProxyContact :=
  { cfg with
    contactAddr := some ip
    contactPort := if atoi port = 0 then 5060 else atoi port }

/-- The port that is compared. -/
def comparedPort : Option String → String
  | none => "5060"
  | some port => if 0 < port.length then "5060" else port

/-- The REGISTER with the new contact, if the stack builds one. The port of the contact may be
`NULL`, but `update_contact` reads it. -/
def resendRegister (cfg : ProxyContact) (received : String) (rport : Option String) (built : Bool) :
    Except Fault Refresh :=
  if built then do
    let port ← nonNull rport
    return ⟨true, updateContact cfg received port, some ⟨received, rport⟩⟩
  else .ok ⟨false, cfg, none⟩

/-- `linphone_proxy_config_register_again_with_updated_contact`, for the contact of the request and
the `Via` of the answer. -/
def registerAgainWithUpdatedContact (cfg : ProxyContact) (origRequest : Option ContactUrl)
    (lastAnswer : Option Via) (built : Bool) : Except Fault Refresh :=
  match lastAnswer with
  | none => .ok ⟨false, cfg, none⟩
  | some via =>
    match via.rport, via.received with
    | some rport, some received => do
      let ctt ← nonNull origRequest
      let received ← nonNull received
      if ctt.host = received ∧ comparedPort ctt.port = comparedPort rport then
        return ⟨false, cfg, none⟩
      else resendRegister cfg received rport built
    | _, _ => .ok ⟨false, cfg, none⟩

/-- `linphone_registration_success`, for the value of the header `Expires` in the request. -/
def linphoneRegistrationSuccess (cfg : ProxyContact) (expires : Option String)
    (origRequest : Option ContactUrl) (lastAnswer : Option Via) (built : Bool) :
    Except Fault Refresh :=
  if expires.any fun value => atoi value ≠ 0 then
    registerAgainWithUpdatedContact { cfg with registered := true } origRequest lastAnswer built
  else .ok ⟨false, { cfg with registered := false }, none⟩

/-- The number of REGISTERs that a row of successes causes while the proxy sees the same address.
Each success is for the contact that was sent last. -/
def refreshes (cfg : ProxyContact) (contact : ContactUrl) (via : Via) :
    List (Option String × Bool) → Except Fault ℕ
  | [] => .ok 0
  | (expires, built) :: rest => do
    let out ← linphoneRegistrationSuccess cfg expires (some contact) (some via) built
    let n ← refreshes out.cfg (out.sent.getD contact) via rest
    return (if out.again then 1 else 0) + n

/-- The port that a missing or empty one stands for. -/
def effectivePort (port : Option String) : String :=
  if port.getD "" = "" then "5060" else port.getD ""

/-- The registered contact is the address that the proxy saw. -/
def SameMapping (contact : ContactUrl) (received : String) (rport : Option String) : Prop :=
  contact.host = received ∧ effectivePort contact.port = effectivePort rport

/-- The answer of a proxy that saw an address. -/
def viaOf (received : String) (rport : Option String) : Via := ⟨some rport, some (some received)⟩

/-- It is `FALSE` and nothing is sent only if the contact is up to date. Otherwise a REGISTER with
the contact `received:rport` is sent, and the next success with that address changes nothing. No
row of successes that begins here causes two REGISTERs. -/
def RefreshesRightly (cfg : ProxyContact) (contact : ContactUrl) (received : String)
    (rport : Option String) (built : Bool) : Prop :=
  ∃ out, registerAgainWithUpdatedContact cfg (some contact) (some (viaOf received rport)) built
      = .ok out
    ∧ (out.again = false ∧ out.sent = none ∧ SameMapping contact received rport
      ∨ out.again = true ∧ out.sent = some ⟨received, rport⟩ ∧ ∀ built',
        registerAgainWithUpdatedContact out.cfg (some ⟨received, rport⟩)
          (some (viaOf received rport)) built' = .ok ⟨false, out.cfg, none⟩)
    ∧ ∀ later n, refreshes cfg contact (viaOf received rport) later = .ok n → n ≤ 1

/-- The code finds the contact up to date: the hosts are equal and the ports are both empty or both
not. -/
def FoundUpToDate (contact : ContactUrl) (received : String) (rport : Option String) : Prop :=
  contact.host = received ∧ (contact.port = some "" ↔ rport = some "")

lemma comparedPort_eq (port : Option String) :
    comparedPort port = if port = some "" then "" else "5060" := by
  cases port with
  | none => rfl
  | some p =>
    rw [comparedPort]
    by_cases hp : p = ""
    · simp [hp]
    · have hlen : 0 < p.length := by
        rw [Nat.pos_iff_ne_zero, Ne, String.length_eq_zero_iff]
        exact hp
      simp [hp, hlen]

lemma comparedPort_eq_iff (port rport : Option String) :
    comparedPort port = comparedPort rport ↔ (port = some "" ↔ rport = some "") := by
  rw [comparedPort_eq, comparedPort_eq]
  by_cases hport : port = some "" <;> by_cases hrport : rport = some "" <;> simp [hport, hrport]

variable {cfg : ProxyContact} {contact : ContactUrl} {received : String} {rport : Option String}
  {built : Bool}

/-- What one call does with an answer that carries both parameters. -/
lemma registerAgain_eq : registerAgainWithUpdatedContact cfg (some contact)
    (some (viaOf received rport)) built =
      if contact.host = received ∧ comparedPort contact.port = comparedPort rport then
        .ok ⟨false, cfg, none⟩
      else resendRegister cfg received rport built := rfl

lemma registerAgain_upToDate (h : FoundUpToDate contact received rport) :
    registerAgainWithUpdatedContact cfg (some contact) (some (viaOf received rport)) built
      = .ok ⟨false, cfg, none⟩ := by
  rw [registerAgain_eq, if_pos]
  exact ⟨h.1, (comparedPort_eq_iff _ _).mpr h.2⟩

lemma registerAgain_changed (h : ¬ FoundUpToDate contact received rport) :
    registerAgainWithUpdatedContact cfg (some contact) (some (viaOf received rport)) built
      = resendRegister cfg received rport built := by
  rw [registerAgain_eq, if_neg]
  rintro ⟨hhost, hport⟩
  exact h ⟨hhost, (comparedPort_eq_iff _ _).mp hport⟩

lemma foundUpToDate_refl : FoundUpToDate ⟨received, rport⟩ received rport := ⟨rfl, Iff.rfl⟩

/-- Once the contact is found up to date, no success sends anything. -/
lemma refreshes_upToDate (h : FoundUpToDate contact received rport)
    (later : List (Option String × Bool)) :
    refreshes cfg contact (viaOf received rport) later = .ok 0 := by
  induction later generalizing cfg with
  | nil => rfl
  | cons success later ih =>
    obtain ⟨expires, built⟩ := success
    rw [refreshes, linphoneRegistrationSuccess]
    split_ifs
    · rw [registerAgain_upToDate h, ok_bind]
      change (refreshes _ contact _ later >>= _) = _
      rw [ih]
      rfl
    · rw [ok_bind]
      change (refreshes _ contact _ later >>= _) = _
      rw [ih]
      rfl

/-- A row of successes with one address causes one REGISTER at most. -/
lemma refreshes_le_one (later : List (Option String × Bool)) {n : ℕ}
    (h : refreshes cfg contact (viaOf received rport) later = .ok n) : n ≤ 1 := by
  by_cases hsame : FoundUpToDate contact received rport
  · rw [refreshes_upToDate hsame, Except.ok.injEq] at h
    omega
  induction later generalizing cfg n with
  | nil =>
    rw [refreshes, Except.ok.injEq] at h
    omega
  | cons success later ih =>
    obtain ⟨expires, built⟩ := success
    rw [refreshes, linphoneRegistrationSuccess] at h
    split_ifs at h
    · rw [registerAgain_changed hsame, resendRegister] at h
      cases built with
      | false =>
        simp only [Bool.false_eq_true, if_false, ok_bind, Option.getD_none, bind_eq_ok] at h
        obtain ⟨m, hm, heq⟩ := h
        have hle := ih hm
        cases heq
        simpa using hle
      | true =>
        cases rport with
        | none => simp [nonNull] at h
        | some port =>
          have hsent : FoundUpToDate ⟨received, some port⟩ received (some port) :=
            foundUpToDate_refl
          change (refreshes _ ⟨received, some port⟩ _ later >>= _) = _ at h
          rw [refreshes_upToDate hsent] at h
          cases h
          exact le_rfl
    · simp only [ok_bind, Option.getD_none, bind_eq_ok] at h
      obtain ⟨m, hm, heq⟩ := h
      have hle := ih hm
      cases heq
      simpa using hle

/-- The decision is right exactly when the effective ports are equal where the code finds the
contact up to date, and elsewhere a REGISTER can be built and the port has a value, or none can be
built and none is needed. -/
theorem refreshesRightly_iff (cfg : ProxyContact) (contact : ContactUrl) (received : String)
    (rport : Option String) (built : Bool) : RefreshesRightly cfg contact received rport built ↔
      (FoundUpToDate contact received rport →
        effectivePort contact.port = effectivePort rport)
      ∧ (¬ FoundUpToDate contact received rport →
        if built then rport ≠ none else SameMapping contact received rport) := by
  have hrow : ∀ later n, refreshes cfg contact (viaOf received rport) later = .ok n → n ≤ 1 :=
    fun later n h => refreshes_le_one later h
  by_cases hsame : FoundUpToDate contact received rport
  · rw [RefreshesRightly, registerAgain_upToDate hsame]
    simp only [Except.ok.injEq, exists_eq_left', hsame, forall_const, not_true_eq_false,
      false_implies, and_true, true_and, SameMapping, hsame.1, Bool.false_eq_true, false_and,
      or_false]
    exact and_iff_left hrow
  · rw [RefreshesRightly, registerAgain_changed hsame, resendRegister]
    cases built with
    | false =>
      simp only [Bool.false_eq_true, if_false, Except.ok.injEq, exists_eq_left', hsame,
        false_implies, not_false_eq_true, forall_const, true_and, false_and, or_false]
      exact and_iff_left hrow
    | true =>
      cases rport with
      | none => simp [nonNull, hsame]
      | some port =>
        simp only [hsame, false_implies, true_and, not_false_eq_true, forall_const, if_true,
          ne_eq, reduceCtorEq, iff_true]
        refine ⟨_, rfl, .inr ⟨rfl, rfl, fun built' => ?_⟩, hrow⟩
        exact registerAgain_upToDate foundUpToDate_refl

/-- The proxy sees another port of the same host, and the contact is left as it is. -/
theorem other_port_is_ignored :
    ¬ RefreshesRightly ⟨none, 0, true⟩ ⟨"10.0.0.2", some "5062"⟩ "10.0.0.2" (some "40001") true := by
  rintro ⟨out, hout, hright, -⟩
  rw [registerAgain_upToDate ⟨rfl, by decide⟩, Except.ok.injEq] at hout
  subst hout
  rcases hright with ⟨-, -, hsame⟩ | ⟨hagain, -⟩
  · exact absurd hsame.2 (by decide)
  · exact absurd hagain (by decide)

end MTalk.Phone
