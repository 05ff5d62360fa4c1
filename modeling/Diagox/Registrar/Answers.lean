import Diagox.Registrar.Resolve

/-!
# What a 200 response says of the binding

The contacts that are stored and the contacts that are answered come from two loops over the same headers.
The first one leaves out the contacts with a zero expires parameter, the second one answers all of them.
-/

namespace Registrar

open Sip Registry

/-- The address in a Contact header. -/
def contactAddress : Header → Option Uri
  | .contact h => some h.address
  | .other _ _ => none

/-- The addresses in the Contact headers of a response. -/
def contactAddresses (res : Response) : List Uri := res.headers.filterMap contactAddress

/-- The contacts of a binding, none without a binding. -/
def contactsIn (binding : Option (RegisterBinding (List Uri))) : List Uri := binding.elim [] (·.contacts)

/-- Every contact of the request is kept. Where the request removes the binding, the registry reports no
error or has had no contacts before. -/
def KeepsAll {ρ : Type} (deps : Deps) (store : RegistryStore ρ) (m : ρ) (regId : String) (req : Request) : Prop :=
  if requestedExpiry deps req = some 0 ∧ isWildcard (parsedContacts deps req) then
    (∀ m' err, store.registerBindingDelete m regId ≠ some (m', .error err)) ∨
      contactsIn (store.bindingOf m regId) = []
  else ∀ h ∈ parsedContacts deps req, contactExpires h ≠ "0"

section Answers

variable {ρ : Type} {deps : Deps} {auth : Authenticators} {store : RegistryStore ρ} {hostname : String} {m : ρ}
variable {req : Request}

theorem contactAddresses_registered (hdrs : List ContactHeader) (binding : RegisterBinding (List Uri)) :
    contactAddresses (registered hdrs binding) = hdrs.map (·.address) := by
  unfold contactAddresses registered
  rw [List.filterMap_map, ← List.filterMap_eq_map]
  rfl

theorem map_filter_eq_map_iff {α β : Type} (f : α → β) (p : α → Bool) (xs : List α) :
    (xs.filter p).map f = xs.map f ↔ ∀ x ∈ xs, p x := by
  rw [← List.filter_eq_self]
  constructor
  · intro h
    apply List.filter_sublist.eq_of_length
    simpa using congrArg List.length h
  · intro h
    rw [h]

theorem exists_admitted (hauth : auth.ErrorsRefuse) {res : Response}
    (hres : res ∈ (registerHandler deps auth store hostname m req).responses) (h200 : res.statusCode = 200) :
    ∃ checked c update, Admitted deps auth hostname req checked c update := by
  by_contra hnot
  push Not at hnot
  exact responses_of_not_admitted hauth hnot store m res hres h200

end Answers

/-- The binding has the contacts that a 200 response lists, in their order, exactly when every contact of the
request is kept, and, where the request removes the binding, the removal goes through or there is nothing to
remove. -/
theorem answer_describes_iff {ρ : Type} {deps : Deps} {auth : Authenticators} (hauth : auth.ErrorsRefuse)
    {store : RegistryStore ρ} {m : ρ} (hstore : store.Lawful m) {hostname : String} {req : Request} {aor : Uri}
    (hto : req.toAddress = some aor) {res : Response}
    (hres : res ∈ (registerHandler deps auth store hostname m req).responses) (h200 : res.statusCode = 200) :
    let after := registerHandler deps auth store hostname m req
    contactsIn (store.bindingOf after.registry (createRegId aor.user hostname)) = contactAddresses res ↔
      KeepsAll deps store m (createRegId aor.user hostname) req := by
  intro after
  obtain ⟨checked, c, update, hpassed⟩ := exists_admitted hauth hres h200
  obtain ⟨-, haor, hexpiry⟩ := checkRegister_ok hpassed.check
  obtain rfl : aor = checked.aor := Option.some.inj (hto.symm.trans haor)
  have hafter : after = applyUpdate store m c (createRegId checked.aor.user hostname) update :=
    registerHandler_of_admitted hpassed store m
  rw [registerHandler_of_admitted hpassed] at hres
  rw [hafter, KeepsAll, hexpiry]
  generalize createRegId checked.aor.user hostname = regId at hres ⊢
  obtain ⟨hzero, hwild, rfl⟩ | ⟨hwild, binding, hkeep, -, -, -, rfl⟩ := contactUpdate_cases hpassed.contacts
  · rw [if_pos ⟨congrArg some hzero, hwild⟩]
    unfold applyUpdate at hres ⊢
    rcases hdelete : store.registerBindingDelete m regId with _ | ⟨m', err | _⟩
    · simp [hdelete] at hres
    · -- the removal has failed, which the response does not say
      obtain rfl := hstore.delete_failed regId m' err hdelete
      obtain rfl : res = ⟨200, "OK", []⟩ := by simpa [hdelete] using hres
      simp [contactAddresses]
    · obtain rfl : res = ⟨200, "OK", []⟩ := by simpa [hdelete] using hres
      simp [contactAddresses, contactsIn, hstore.bindingOf_delete regId m' hdelete]
  · rw [if_neg fun h => hwild ⟨Option.some.inj h.1, h.2⟩]
    unfold applyUpdate at hres ⊢
    rcases hset : store.registerBindingSet m regId binding with _ | ⟨m', err | _⟩
    · simp [hset] at hres
    · obtain rfl : res = ⟨500, "Internal Server Error", []⟩ := by simpa [hset] using hres
      cases h200
    · obtain rfl : res = registered (parsedContacts deps req) binding := by simpa [hset] using hres
      simp only [hset, hstore.bindingOf_set regId binding m' hset, contactAddresses_registered, contactsIn,
        Option.elim_some, keepContacts_ok hkeep, map_filter_eq_map_iff]
      simp

theorem answer_describes_alice :
    let after := registerHandler plainDeps trusting memoryStore "pbx" RegistryMemory.new (bindRequest "pbx" "alice")
    contactsIn (memoryStore.bindingOf after.registry (createRegId "alice" "pbx")) =
        contactAddresses (bindUpdate plainDeps "alice").response ↔
      KeepsAll plainDeps memoryStore RegistryMemory.new (createRegId "alice" "pbx") (bindRequest "pbx" "alice") :=
  answer_describes_iff trusting_errorsRefuse (lawful_memoryStore RegistryMemory.sound_new)
    (rfl : (bindRequest "pbx" "alice").toAddress = some { user := "alice" }) (by decide +kernel) rfl

/-- Alice registers a phone and removes another one. -/
def mixedRequest : Request :=
  { bindRequest "pbx" "alice" with
    contacts :=
      [.contact { address := { host := "10.0.0.1" } },
       .contact { address := { host := "10.0.0.2" }, params := [("expires", "0")] }] }

theorem not_answer_describes :
    ¬ ∀ (deps : Deps) (auth : Authenticators) (r : RegistryMemory) (hostname : String) (req : Request) (aor : Uri)
        (res : Response), auth.ErrorsRefuse → r.Sound → req.toAddress = some aor →
      res ∈ (registerHandler deps auth memoryStore hostname r req).responses → res.statusCode = 200 →
      contactsIn (memoryStore.bindingOf (registerHandler deps auth memoryStore hostname r req).registry
        (createRegId aor.user hostname)) = contactAddresses res := by
  intro h
  let after := registerHandler plainDeps trusting memoryStore "pbx" RegistryMemory.new mixedRequest
  have hanswer : after.responses = [(after.responses.headD ⟨0, "", []⟩)] := by decide +kernel
  have hdescribes := h plainDeps trusting RegistryMemory.new "pbx" mixedRequest { user := "alice" }
    (after.responses.headD ⟨0, "", []⟩) trusting_errorsRefuse RegistryMemory.sound_new rfl
    (by rw [hanswer]; exact List.mem_singleton_self _) (by decide)
  exact absurd hdescribes (by decide)

end Registrar
