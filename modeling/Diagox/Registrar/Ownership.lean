import Diagox.Lib.Interleave
import Diagox.Registrar.Handler

/-!
# Whose binding a REGISTER changes

The credentials of a request are checked for the user of its From header, and the binding it changes is that
of the user of its To header. Nothing compares the two, so whoever has credentials can change the binding of
any other user. A request changes nobody else's binding exactly when both headers name the same user, or
when it is not admitted at all.
-/

namespace Registrar

open Sip Registry

/-- A request, and how the authenticators answer while it is handled. -/
abbrev Arrival := Authenticators × Request

/-- The registry after one request. -/
def registerStep (deps : Deps) (hostname : String) (r : RegistryMemory) (a : Arrival) : RegistryMemory :=
  (registerHandler deps a.1 memoryStore hostname r a.2).registry

def Reachable (deps : Deps) (hostname : String) (r : RegistryMemory) : Prop :=
  ∃ arrivals : List Arrival, r = Run.run (registerStep deps hostname) RegistryMemory.new arrivals

/-- Every binding that the request changes is of a user whose credentials it was accepted with. -/
def ChangesOwn (deps : Deps) (auth : Authenticators) (hostname : String) (r : RegistryMemory) (req : Request) : Prop :=
  let after := registerHandler deps auth memoryStore hostname r req
  ∀ u, after.registry.binding (createRegId u hostname) ≠ r.binding (createRegId u hostname) →
    ∃ c, after.accepted = some c ∧ c.user = u

section Own

variable {deps : Deps} {hostname : String}

theorem sound_registerStep (r : RegistryMemory) (a : Arrival) (hr : r.Sound) :
    (registerStep deps hostname r a).Sound := by
  obtain ⟨-, hsame⟩ | ⟨_, _, _, r', -, hout, hsound, -⟩ := registerHandler_memory deps a.1 hostname hr a.2
  · rw [registerStep, hsame]
    exact hr
  · rw [registerStep, hout]
    exact hsound

theorem Reachable.sound {r : RegistryMemory} (h : Reachable deps hostname r) : r.Sound := by
  obtain ⟨arrivals, rfl⟩ := h
  exact Run.invariant _ sound_registerStep RegistryMemory.sound_new arrivals

theorem reachable_new : Reachable deps hostname RegistryMemory.new := ⟨[], rfl⟩

theorem Reachable.step {r : RegistryMemory} (h : Reachable deps hostname r) (a : Arrival) :
    Reachable deps hostname (registerStep deps hostname r a) := by
  obtain ⟨arrivals, rfl⟩ := h
  exact ⟨arrivals ++ [a], by rw [Run.run_append]; rfl⟩

/-- Authenticators that take every token. -/
def trusting : Authenticators where
  bearerStore := some fun _ => .ok ()
  authorizeRequest _ _ := (none, none)

/-- A request that binds a user at one contact. -/
def bindRequest (hostname user : String) : Request where
  recipient := { host := hostname }
  fromAddress := some { user := user }
  toAddress := some { user := user }
  contacts := [.contact { address := { host := "10.0.0.1" } }]
  authorization := some "Bearer t"

/-- What that request asks for. -/
def bindUpdate (deps : Deps) (user : String) : Update :=
  .set [{ address := { host := "10.0.0.1" } }]
    { aor := { user := user }, callID := deps.callIDString "", contacts := [{ host := "10.0.0.1" }],
      expiry := defaultExpiry }

theorem admitted_bindRequest (deps : Deps) (hostname user : String) :
    Admitted deps trusting hostname (bindRequest hostname user) ⟨"", { user := user }, { user := user }, defaultExpiry⟩
      (.bearer user "t") (bindUpdate deps user) where
  check := by simp [checkRegister, bindRequest, requestedExpiry]
  authorize := by
    have htoken : requestToken (bindRequest hostname user) = some "t" := by
      show requestToken { authorization := some "Bearer t" : Request } = some "t"
      decide
    simp [authorizeRegister, htoken, trusting]
  contacts := by
    have hinterval : ¬ defaultExpiry < minExpiry := by decide
    have hzero : defaultExpiry ≠ 0 := by decide
    simp [contactUpdate, bindRequest, readContact, keepContacts, contactExpires, Params.get, bindUpdate, hinterval,
      hzero, bind, Except.bind, pure, Except.pure]

theorem exists_reachable_binding (deps : Deps) (hostname user : String) :
    ∃ r, Reachable deps hostname r ∧ r.binding (createRegId user hostname) ≠ none := by
  refine ⟨_, reachable_new.step (trusting, bindRequest hostname user), ?_⟩
  have hpassed := admitted_bindRequest deps hostname user
  obtain ⟨r', happly, -, hbinding⟩ := applyUpdate_memory RegistryMemory.sound_new (.bearer user "t")
    (createRegId user hostname) (bindUpdate deps user)
  rw [registerStep, registerHandler_of_admitted hpassed, happly, hbinding]
  simp [bindUpdate, Update.binding]

end Own

/-- A request changes nobody else's binding, whatever the registry, exactly when its From and To headers
name the same user or it is not admitted. -/
theorem changesOwn_iff (deps : Deps) (auth : Authenticators) (hostname : String) (req : Request) :
    (∀ r, Reachable deps hostname r → ChangesOwn deps auth hostname r req) ↔
      req.fromAddress.map (·.user) = req.toAddress.map (·.user) ∨
        ∀ checked c update, ¬ Admitted deps auth hostname req checked c update := by
  constructor
  · intro hown
    by_contra hnot
    push Not at hnot
    obtain ⟨huser, checked, c, update, hpassed⟩ := hnot
    obtain ⟨hfrom, hto, -⟩ := checkRegister_ok hpassed.check
    have hne : c.user ≠ checked.aor.user := by
      rw [authorizeRegister_user hpassed.authorize]
      simpa [hfrom, hto] using huser
    -- the registry before the request differs from the update for the user of the To header
    obtain ⟨r, hreach, hr⟩ : ∃ r, Reachable deps hostname r ∧
        update.binding ≠ r.binding (createRegId checked.aor.user hostname) := by
      cases update with
      | delete =>
          obtain ⟨r, hreach, hr⟩ := exists_reachable_binding deps hostname checked.aor.user
          exact ⟨r, hreach, hr.symm⟩
      | set hdrs binding => exact ⟨_, reachable_new, by simp [Update.binding, RegistryMemory.binding, RegistryMemory.new]⟩
    obtain ⟨r', happly, -, hbinding⟩ :=
      applyUpdate_memory hreach.sound c (createRegId checked.aor.user hostname) update
    have hchanges := hown r hreach checked.aor.user
    rw [registerHandler_of_admitted hpassed, happly] at hchanges
    obtain ⟨c', hc', huser'⟩ := hchanges (by simpa [hbinding] using hr)
    obtain rfl : c = c' := by simpa using hc'
    exact hne huser'
  · intro h r hreach u hchange
    rcases registerHandler_memory deps auth hostname hreach.sound req with
      ⟨-, hsame⟩ | ⟨checked, c, update, r', hpassed, hout, -, hbinding⟩
    · exact absurd (by rw [hsame]) hchange
    · obtain huser | hnot := h
      · obtain ⟨hfrom, hto, -⟩ := checkRegister_ok hpassed.check
        have hsame : checked.fromAddress.user = checked.aor.user := by simpa [hfrom, hto] using huser
        refine ⟨c, by rw [hout], ?_⟩
        rw [authorizeRegister_user hpassed.authorize, hsame]
        -- a user with another id keeps the binding
        by_contra hne
        refine hchange ?_
        rw [hout, hbinding, Function.update_of_ne]
        exact fun hid => hne (createRegId_injective hostname hid).symm
      · exact absurd hpassed (hnot checked c update)

/-- Authenticators that take the tokens of one user only. -/
def trustingOnly (user : String) : Authenticators where
  bearerStore := some fun auth => if auth.user = user then .ok () else .error .invalid
  authorizeRequest _ _ := (none, none)

/-- A request of alice that binds bob. -/
def aliceBindsBob : Request :=
  { bindRequest "pbx" "bob" with fromAddress := some { user := "alice" } }

theorem not_changesOwn :
    ¬ ∀ (deps : Deps) (auth : Authenticators) (hostname : String) (r : RegistryMemory) (req : Request),
      Reachable deps hostname r → ChangesOwn deps auth hostname r req := by
  intro h
  obtain ⟨c, hc, huser⟩ := h plainDeps (trustingOnly "alice") "pbx" _ aliceBindsBob reachable_new "bob" (by decide)
  have haccepted : (registerHandler plainDeps (trustingOnly "alice") memoryStore "pbx" RegistryMemory.new
      aliceBindsBob).accepted = some (.bearer "alice" "t") := by decide
  obtain rfl : Credential.bearer "alice" "t" = c := by simpa [haccepted] using hc
  exact absurd huser (by decide)

end Registrar
