import Diagox.Registrar.Resolve

/-!
# Wildcard contacts

A wildcard is recognised as a removal of all contacts only where it is the sole contact of a request with a zero
interval. The loop over the contacts copies any other wildcard into the binding, where a call finds it as an
address to dial.
-/

namespace Registrar

open Sip Registry

/-- No contact that is stored is a wildcard. -/
def NoWildcard (r : RegistryMemory) : Prop :=
  ∀ id binding, r.binding id = some binding → ∀ c ∈ binding.contacts, c.wildcard = false

/-- A request with a wildcard among its contacts. -/
def HasWildcard (deps : Deps) (req : Request) : Prop := ∃ h ∈ parsedContacts deps req, h.address.wildcard = true

/-- The one form in which a wildcard is accepted. -/
def RemovesAll (deps : Deps) (req : Request) : Prop :=
  requestedExpiry deps req = some 0 ∧ isWildcard (parsedContacts deps req)

/-- A request with a wildcard in any other form is not answered 200, and leaves the registry as it is. -/
def RefusesWildcard (deps : Deps) (hostname : String) (r : RegistryMemory) (a : Arrival) : Prop :=
  HasWildcard deps a.2 → ¬ RemovesAll deps a.2 →
    (∀ res ∈ (registerHandler deps a.1 memoryStore hostname r a.2).responses, res.statusCode ≠ 200) ∧
      registerStep deps hostname r a = r

/-- A request with a wildcard that passes the checks and the authorization, and asks for half a minute at least. -/
def Overlooked (deps : Deps) (hostname : String) (a : Arrival) : Prop :=
  ∃ checked c hdrs, checkRegister deps hostname a.2 = .ok checked ∧
    authorizeRegister a.1 a.2 checked.fromAddress.user checked.expiry = .accepted c ∧
    a.2.contacts.mapM (readContact deps) = .ok hdrs ∧ (∃ h ∈ hdrs, h.address.wildcard = true) ∧
    minExpiry ≤ checked.expiry ∧ ∀ h ∈ hdrs, AsksAtLeast deps minExpiry h

section Wildcard

variable {deps : Deps} {hostname : String} {r : RegistryMemory} {a : Arrival}

theorem noWildcard_new : NoWildcard RegistryMemory.new := by
  intro id binding h
  simp [RegistryMemory.binding, RegistryMemory.new] at h

theorem exists_parsed {req : Request} {checked : Checked} {update : Update}
    (h : contactUpdate deps req checked = .ok update) :
    req.contacts.mapM (readContact deps) = .ok (parsedContacts deps req) := by
  unfold contactUpdate at h
  cases hread : req.contacts.mapM (readContact deps) with
  | error e => simp [hread, bind, Except.bind] at h
  | ok hdrs => rw [mapM_readContact hread, parsedContacts]

theorem overlooked_of_admitted {checked : Checked} {c : Credential} {update : Update}
    (h : Admitted deps a.1 hostname a.2 checked c update) (hwild : HasWildcard deps a.2)
    (hother : ¬ RemovesAll deps a.2) : Overlooked deps hostname a := by
  obtain ⟨-, -, hexpiry⟩ := checkRegister_ok h.check
  have hread := exists_parsed h.contacts
  obtain ⟨hzero, hsole⟩ | hlong := (contactUpdate_isOk_iff hread).mp ⟨update, h.contacts⟩
  · exact absurd ⟨hexpiry.trans (congrArg some hzero), hsole⟩ hother
  · exact ⟨checked, c, _, h.check, h.authorize, hread, hwild, hlong⟩

theorem answered_of_overlooked (hr : r.Sound) (h : Overlooked deps hostname a) : ¬ RefusesWildcard deps hostname r a := by
  obtain ⟨checked, c, hdrs, hcheck, hauthorize, hread, hwild, hlong⟩ := h
  obtain ⟨-, -, hexpiry⟩ := checkRegister_ok hcheck
  obtain ⟨update, hupdate⟩ := (contactUpdate_isOk_iff hread).mpr (.inr hlong)
  obtain ⟨r', happly, -⟩ := applyUpdate_memory hr c (createRegId checked.aor.user hostname) update
  intro hrefuses
  have hother : ¬ RemovesAll deps a.2 := by
    intro hremoves
    have hmin : 0 < minExpiry := by decide
    have hzero : checked.expiry = 0 := Option.some.inj (hexpiry.symm.trans hremoves.1)
    omega
  obtain rfl : hdrs = parsedContacts deps a.2 := mapM_readContact hread
  have hresponses := (hrefuses hwild hother).1
  rw [registerHandler_of_admitted ⟨hcheck, hauthorize, hupdate⟩, happly] at hresponses
  exact hresponses _ (List.mem_singleton_self _) update.response_statusCode

/-- What one request that is not overlooked preserves. -/
theorem noWildcard_step (hr : r.Sound) (hno : NoWildcard r) (h : ¬ Overlooked deps hostname a) :
    NoWildcard (registerStep deps hostname r a) := by
  rcases registerHandler_memory deps a.1 hostname hr a.2 with
    ⟨-, hsame⟩ | ⟨checked, c, update, r', hpassed, hout, -, hbinding⟩
  · rw [registerStep, hsame]
    exact hno
  · have hregistry : registerStep deps hostname r a = r' := by rw [registerStep, hout]
    rw [hregistry]
    intro id binding hid
    rw [hbinding] at hid
    by_cases hsame : id = createRegId checked.aor.user hostname
    · rw [hsame, Function.update_self] at hid
      obtain ⟨-, -, hnone⟩ | ⟨hkeep, binding', hsome, hcontacts, -⟩ := contactUpdate_ok hpassed.contacts
      · rw [hnone] at hid
        cases hid
      · obtain rfl : binding' = binding := Option.some.inj (hsome.symm.trans hid)
        intro addr haddr
        rw [hcontacts] at haddr
        obtain ⟨hdr, hhdr, rfl⟩ := List.mem_map.mp haddr
        by_contra hwild
        obtain ⟨-, -, hexpiry⟩ := checkRegister_ok hpassed.check
        refine h (overlooked_of_admitted hpassed ⟨hdr, List.mem_of_mem_filter hhdr, by simpa using hwild⟩ ?_)
        intro hremoves
        exact hkeep ⟨Option.some.inj (hexpiry.symm.trans hremoves.1), hremoves.2⟩
    · rw [Function.update_of_ne hsame] at hid
      exact hno id binding hid

theorem refusesWildcard_of_not_overlooked (ha : a.1.ErrorsRefuse) (h : ¬ Overlooked deps hostname a) :
    RefusesWildcard deps hostname r a := by
  intro hwild hother
  have hno : ∀ checked c update, ¬ Admitted deps a.1 hostname a.2 checked c update := fun checked c update hpassed =>
    h (overlooked_of_admitted hpassed hwild hother)
  exact ⟨responses_of_not_admitted ha hno memoryStore r, registerHandler_of_not_admitted hno memoryStore r⟩

end Wildcard

/-- In a run of requests no wildcard is ever stored, and every wildcard but a sole one with a zero interval is
refused, exactly when no request is overlooked. -/
theorem wildcards_iff (deps : Deps) (hostname : String) {arrivals : List Arrival}
    (hauth : ∀ a ∈ arrivals, a.1.ErrorsRefuse) :
    (∀ before, before <+: arrivals → NoWildcard (Run.run (registerStep deps hostname) RegistryMemory.new before)) ∧
        Run.Permitted (registerStep deps hostname) (RefusesWildcard deps hostname) RegistryMemory.new arrivals ↔
      ∀ a ∈ arrivals, ¬ Overlooked deps hostname a := by
  have hsound : ∀ before, (Run.run (registerStep deps hostname) RegistryMemory.new before).Sound :=
    Run.invariant _ sound_registerStep RegistryMemory.sound_new
  rw [Run.permitted_iff]
  constructor
  · rintro ⟨-, hrefuses⟩ a ha hover
    obtain ⟨before, after, harrivals⟩ := List.append_of_mem ha
    exact answered_of_overlooked (hsound before) hover (hrefuses before a after harrivals)
  · intro h
    constructor
    · intro before hbefore
      have hstep : ∀ r a, r.Sound ∧ NoWildcard r → ¬ Overlooked deps hostname a →
          (registerStep deps hostname r a).Sound ∧ NoWildcard (registerStep deps hostname r a) :=
        fun r a hr ha => ⟨sound_registerStep r a hr.1, noWildcard_step hr.1 hr.2 ha⟩
      have hpermitted := Run.permitted_of_forall (s := RegistryMemory.new) (registerStep deps hostname)
        fun a ha => h a (hbefore.subset ha)
      exact (Run.invariant_of_permitted _ hstep ⟨RegistryMemory.sound_new, noWildcard_new⟩ hpermitted).2
    · intro before a after harrivals
      have ha : a ∈ arrivals := by simp [harrivals]
      exact refusesWildcard_of_not_overlooked (hauth a ha) (h a ha)

/-- Alice registers a wildcard for the default interval. -/
def wildcardRequest : Request :=
  { bindRequest "pbx" "alice" with contacts := [.contact { address := { wildcard := true } }] }

/-- Alice registers a phone, asks for a wildcard for ten seconds, and removes all of her contacts. -/
def aliceArrivals : List Arrival :=
  [(trusting, bindRequest "pbx" "alice"), (trusting, { wildcardRequest with expires := some "10" }),
    (trusting, { wildcardRequest with expires := some "0" })]

theorem wildcards_iff_alice :
    (∀ before, before <+: aliceArrivals →
        NoWildcard (Run.run (registerStep plainDeps "pbx") RegistryMemory.new before)) ∧
      Run.Permitted (registerStep plainDeps "pbx") (RefusesWildcard plainDeps "pbx") RegistryMemory.new
        aliceArrivals := by
  have hauth : ∀ a ∈ aliceArrivals, a.1.ErrorsRefuse := by
    simp [aliceArrivals, trusting_errorsRefuse]
  refine (wildcards_iff plainDeps "pbx" hauth).mpr ?_
  have hshort : ∀ seconds expiry, plainParseDuration (seconds ++ "s") = some expiry → expiry < minExpiry →
      ¬ Overlooked plainDeps "pbx" (trusting, { wildcardRequest with expires := some seconds }) := by
    rintro seconds expiry hparse hlt ⟨checked, -, -, hcheck, -, -, -, hmin, -⟩
    obtain ⟨-, -, hexpiry⟩ := checkRegister_ok hcheck
    obtain rfl : expiry = checked.expiry := Option.some.inj (hparse.symm.trans hexpiry)
    exact absurd hmin (not_le.mpr hlt)
  have hplain : ¬ Overlooked plainDeps "pbx" (trusting, bindRequest "pbx" "alice") := by
    rintro ⟨-, -, hdrs, -, -, hread, ⟨h, hh, hwild⟩, -⟩
    obtain rfl : [_] = hdrs := Except.ok.inj hread
    rw [List.mem_singleton.mp hh] at hwild
    cases hwild
  intro a ha
  simp only [aliceArrivals, List.mem_cons, List.not_mem_nil, or_false] at ha
  obtain rfl | rfl | rfl := ha
  · exact hplain
  · exact hshort "10" _ rfl (by decide)
  · exact hshort "0" _ rfl (by decide)

theorem not_noWildcard :
    ¬ ∀ (deps : Deps) (hostname : String) (arrivals : List Arrival), (∀ a ∈ arrivals, a.1.ErrorsRefuse) →
      (∀ before, before <+: arrivals →
        NoWildcard (Run.run (registerStep deps hostname) RegistryMemory.new before)) ∧
      Run.Permitted (registerStep deps hostname) (RefusesWildcard deps hostname) RegistryMemory.new arrivals := by
  intro h
  have hauth : ∀ a ∈ [(trusting, wildcardRequest)], a.1.ErrorsRefuse := by
    intro a ha
    obtain rfl := List.mem_singleton.mp ha
    exact trusting_errorsRefuse
  have hno := (h plainDeps "pbx" [(trusting, wildcardRequest)] hauth).1 _ List.prefix_rfl "alice@pbx"
    { aor := { user := "alice" }, callID := "Call-ID: ", contacts := [{ wildcard := true }], expiry := defaultExpiry }
    (by decide)
  exact absurd (hno _ (List.mem_singleton_self _)) (by decide)

end Registrar
