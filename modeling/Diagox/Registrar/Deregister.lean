import Diagox.Registrar.Answers

/-!
# Removing contacts

A contact is removed by a request that gives it a zero interval, in its expires parameter or in the Expires
header. A kept contact stands for all of the binding, since a binding is replaced as a whole, and the check
of the smallest interval also meets the zero ones. So a removal works in one form only: by the parameter, with
a header that asks for half a minute at least, and for all contacts at once.
-/

namespace Registrar

open Sip Registry

/-- The effective interval of a contact is zero. -/
def ZeroExpiry (deps : Deps) (req : Request) (h : ContactHeader) : Prop :=
  if contactExpires h = "" then requestedExpiry deps req = some 0
  else contactExpires h = "0" ∨ deps.parseDuration (contactExpires h ++ "s") = some 0

instance (deps : Deps) (req : Request) (h : ContactHeader) : Decidable (ZeroExpiry deps req h) :=
  inferInstanceAs (Decidable (if contactExpires h = "" then requestedExpiry deps req = some 0
    else contactExpires h = "0" ∨ deps.parseDuration (contactExpires h ++ "s") = some 0))

/-- Two contacts are the same when their texts are, as for `RegisterBindingContactDelete`. -/
def SameContact (deps : Deps) (c c' : Uri) : Prop := deps.uriString c = deps.uriString c'

instance (deps : Deps) (c c' : Uri) : Decidable (SameContact deps c c') :=
  inferInstanceAs (Decidable (_ = _))

/-- The contacts of a request have been removed from the binding under an id, and no other ones. -/
structure Deregistered (deps : Deps) (hdrs : List ContactHeader) (regId : String) (r : RegistryMemory)
    (o : Outcome RegistryMemory) : Prop where
  answered : ∃ res, o.responses = [res] ∧ res.statusCode = 200
  removed : ∀ c ∈ contactsIn (o.registry.binding regId), ∀ h ∈ hdrs, ¬ SameContact deps c h.address
  others : ∀ c ∈ contactsIn (r.binding regId), (∀ h ∈ hdrs, ¬ SameContact deps c h.address) →
    c ∈ contactsIn (o.registry.binding regId)

section Deregister

variable {deps : Deps} {req : Request} {checked : Checked}

theorem asksAtLeast_of_zeroExpiry {h : ContactHeader} (hzero : ZeroExpiry deps req h) {expiry : Int}
    (hexpiry : requestedExpiry deps req = some expiry) (hlong : minExpiry ≤ expiry) :
    AsksAtLeast deps minExpiry h ↔ contactExpires h = "0" := by
  have hmin : 0 < minExpiry := by decide
  constructor
  · rintro (htext | hempty | ⟨exp, hexp, hle⟩)
    · exact htext
    · rw [ZeroExpiry, if_pos hempty, hexpiry] at hzero
      obtain rfl := Option.some.inj hzero
      omega
    · by_contra htext
      unfold ZeroExpiry at hzero
      split_ifs at hzero with hempty
      · rw [hexpiry] at hzero
        obtain rfl := Option.some.inj hzero
        omega
      · rw [hexp] at hzero
        obtain rfl := Option.some.inj (hzero.resolve_left htext)
        omega
  · exact .inl

theorem keepContacts_removed {expiry : Int} {hdrs : List ContactHeader} (h : ∀ x ∈ hdrs, contactExpires x = "0") :
    keepContacts deps expiry hdrs = .ok ([], expiry) := by
  induction hdrs with
  | nil => rfl
  | cons x hdrs ih =>
      rw [keepContacts, if_pos (h x List.mem_cons_self)]
      exact ih fun y hy => h y (List.mem_cons_of_mem x hy)

theorem not_isWildcard {hdrs : List ContactHeader} (h : ∀ x ∈ hdrs, x.address.wildcard = false) :
    ¬ isWildcard hdrs = true := by
  cases hdrs with
  | nil => decide
  | cons x hdrs =>
      cases hdrs with
      | nil => simp [isWildcard, h x List.mem_cons_self]
      | cons y hdrs => simp [isWildcard]

/-- A request whose contacts are rejected is not answered 200. -/
theorem not_deregistered_of_error {auth : Authenticators} {hostname regId : String} {r : RegistryMemory}
    {c : Credential} {hdrs : List ContactHeader} {rejection : Rejection}
    (hcheck : checkRegister deps hostname req = .ok checked)
    (hauthorize : authorizeRegister auth req checked.fromAddress.user checked.expiry = .accepted c)
    (hupdate : contactUpdate deps req checked = .error rejection) :
    ¬ Deregistered deps hdrs regId r (registerHandler deps auth memoryStore hostname r req) := by
  intro h
  obtain ⟨res, hres, h200⟩ := h.answered
  have hafter : registerHandler deps auth memoryStore hostname r req = rejection.outcome r (some c) := by
    simp only [registerHandler, hcheck, hauthorize, hupdate]
  rw [hafter] at hres
  cases rejection with
  | responds res' =>
      obtain rfl : res' = res := by simpa [Rejection.outcome] using hres
      exact (contactUpdate_error hupdate).refuses res' rfl h200
  | panics => simp [Rejection.outcome] at hres

end Deregister

/-- A request that removes contacts is answered 200, removes them and keeps the others of the binding, exactly when
every expires parameter is 0, the Expires header asks for half a minute at least, and the binding has no others. -/
theorem deregistered_iff {deps : Deps} {auth : Authenticators} {hostname : String} {r : RegistryMemory} (hr : r.Sound)
    {u : String} {req : Request} {checked : Checked} {c : Credential}
    (hcheck : checkRegister deps hostname req = .ok checked) (huser : checked.aor.user = u)
    (hauthorize : authorizeRegister auth req checked.fromAddress.user checked.expiry = .accepted c)
    {hdrs : List ContactHeader} (hread : req.contacts.mapM (readContact deps) = .ok hdrs)
    (hplain : ∀ h ∈ hdrs, h.address.wildcard = false) (hzero : ∀ h ∈ hdrs, ZeroExpiry deps req h) :
    Deregistered deps hdrs (createRegId u hostname) r (registerHandler deps auth memoryStore hostname r req) ↔
      (∀ h ∈ hdrs, contactExpires h = "0") ∧ minExpiry ≤ checked.expiry ∧
        ∀ c ∈ contactsIn (r.binding (createRegId u hostname)), ∃ h ∈ hdrs, SameContact deps c h.address := by
  obtain ⟨-, -, hexpiry⟩ := checkRegister_ok hcheck
  have hparsed : hdrs = parsedContacts deps req := mapM_readContact hread
  have hasks : (∃ update, contactUpdate deps req checked = .ok update) ↔
      (∀ h ∈ hdrs, contactExpires h = "0") ∧ minExpiry ≤ checked.expiry := by
    rw [contactUpdate_isOk_iff hread, or_iff_right fun h => not_isWildcard hplain h.2, and_comm]
    exact and_congr_left fun hlong =>
      forall₂_congr fun h hh => asksAtLeast_of_zeroExpiry (hzero h hh) hexpiry hlong
  rw [← and_assoc, ← hasks]
  by_cases hok : ∃ update, contactUpdate deps req checked = .ok update
  · obtain ⟨hremoved, -⟩ := hasks.mp hok
    rw [and_iff_right hok]
    obtain ⟨update, hupdate⟩ := hok
    obtain ⟨r', happly, -, hbinding⟩ := applyUpdate_memory hr c (createRegId u hostname) update
    have hafter : registerHandler deps auth memoryStore hostname r req = _ :=
      (registerHandler_of_admitted ⟨hcheck, hauthorize, hupdate⟩ memoryStore r).trans (huser ▸ happly)
    -- what is left is a binding without contacts
    have hempty : contactsIn (r'.binding (createRegId u hostname)) = [] := by
      rw [hbinding, Function.update_self]
      obtain ⟨-, -, rfl⟩ | ⟨-, binding, hkeep, -, -, -, rfl⟩ := contactUpdate_cases hupdate
      · rfl
      · rw [← hparsed, keepContacts_removed hremoved] at hkeep
        exact (Prod.mk.inj (Except.ok.inj hkeep)).1.symm
    rw [hafter]
    constructor
    · intro h c' hc'
      by_contra hother
      push Not at hother
      have hkept := h.others c' hc' hother
      simp [hempty] at hkept
    · intro h
      refine ⟨⟨_, rfl, update.response_statusCode⟩, by simp [hempty], fun c' hc' hother => ?_⟩
      obtain ⟨x, hx, hsame⟩ := h c' hc'
      exact absurd hsame (hother x hx)
  · refine iff_of_false (fun h => ?_) fun h => hok h.1
    cases hupdate : contactUpdate deps req checked with
    | ok update => exact hok ⟨update, hupdate⟩
    | error rejection => exact not_deregistered_of_error hcheck hauthorize hupdate h

/-- A request of alice that removes a phone by the expires parameter. -/
def removeRequest (host : String) : Request :=
  { bindRequest "pbx" "alice" with contacts := [.contact { address := { host := host }, params := [("expires", "0")] }] }

def aliceChecked : Checked := ⟨"", { user := "alice" }, { user := "alice" }, defaultExpiry⟩

/-- The registry with one phone of alice. -/
def alicePhone : RegistryMemory := registerStep plainDeps "pbx" RegistryMemory.new (trusting, bindRequest "pbx" "alice")

theorem sound_alicePhone : alicePhone.Sound := sound_registerStep _ _ RegistryMemory.sound_new

theorem deregistered_alice :
    Deregistered plainDeps [{ address := { host := "10.0.0.1" }, params := [("expires", "0")] }]
      (createRegId "alice" "pbx") alicePhone
      (registerHandler plainDeps trusting memoryStore "pbx" alicePhone (removeRequest "10.0.0.1")) :=
  (deregistered_iff sound_alicePhone (by decide : _ = Except.ok aliceChecked) rfl
    (by decide : _ = Verdict.accepted (.bearer "alice" "t")) rfl (by decide) (by decide)).mpr (by decide)

/-- Alice removes her phone by the Expires header. -/
def removeByHeader : Request := { bindRequest "pbx" "alice" with expires := some "0" }

theorem not_deregistered :
    ¬ ∀ (deps : Deps) (auth : Authenticators) (hostname : String) (r : RegistryMemory) (u : String) (req : Request)
        (checked : Checked) (c : Credential) (hdrs : List ContactHeader), r.Sound →
      checkRegister deps hostname req = .ok checked → checked.aor.user = u →
      authorizeRegister auth req checked.fromAddress.user checked.expiry = .accepted c →
      req.contacts.mapM (readContact deps) = .ok hdrs → (∀ h ∈ hdrs, h.address.wildcard = false) →
      (∀ h ∈ hdrs, ZeroExpiry deps req h) →
      Deregistered deps hdrs (createRegId u hostname) r (registerHandler deps auth memoryStore hostname r req) := by
  intro h
  have hremoved := h plainDeps trusting "pbx" alicePhone "alice" removeByHeader
    { aliceChecked with expiry := 0 } (.bearer "alice" "t") [{ address := { host := "10.0.0.1" } }] sound_alicePhone
    (by decide) rfl (by decide) rfl (by decide) (by decide)
  obtain ⟨res, hres, h200⟩ := hremoved.answered
  have hanswer : (registerHandler plainDeps trusting memoryStore "pbx" alicePhone removeByHeader).responses =
      [⟨423, "Interval Too Brief", [.other "Min-Expires" "30"]⟩] := by decide
  obtain rfl := List.singleton_injective (hres.symm.trans hanswer)
  cases h200

end Registrar
