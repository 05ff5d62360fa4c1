import Diagox.Registrar.Resolve

/-!
# The age of a registration

The registrar stores the interval of a binding and announces it to the client. Neither the registry nor the
call resolution reads it, so a call finds a contact however old its registration is. The interval is kept
exactly when every call comes in time for what the last request of its user has asked for.
-/

namespace Registrar

open Sip Registry Configuration

/-- The registry, and what was handled so far with its time, the last request in front. -/
structure Timed where
  registry : RegistryMemory := RegistryMemory.new
  handled : List (Int × Request × List Response) := []

/-- A request, or a call that is resolved, at a time in nanoseconds. -/
inductive TimedEvent where
  | register (a : Arrival) (time : Int)
  | call (toEndpoint : ConfigEndpoint) (time : Int)

def timedStep (deps : Deps) (hostname : String) (s : Timed) : TimedEvent → Timed
  | .register a time =>
      { registry := registerStep deps hostname s.registry a
        handled := (time, a.2, (registerHandler deps a.1 memoryStore hostname s.registry a.2).responses) :: s.handled }
  | .call toEndpoint _ => match endpointResolveRegisteredURI deps memoryStore hostname s.registry toEndpoint with
    | none => s
    | some (r, _) => { s with registry := r }

/-- The last request for a user that was answered 200, and its time. -/
def lastRegistered (u : String) (handled : List (Int × Request × List Response)) : Option (Int × Request) :=
  (handled.find? fun x => answeredFor u x.2).map fun x => (x.1, x.2.1)

/-- A contact that a call is given is of a binding within its interval. -/
def DialsFresh (deps : Deps) (hostname : String) (s : Timed) : TimedEvent → Prop
  | .register _ _ => True
  | .call toEndpoint time => ∀ r uri,
      endpointResolveRegisteredURI deps memoryStore hostname s.registry toEndpoint = some (r, uri) → uri ≠ "" →
        ∃ since req binding, lastRegistered toEndpoint.name s.handled = some (since, req) ∧
          s.registry.binding (createRegId toEndpoint.name hostname) = some binding ∧ time - since ≤ binding.expiry

/-- No interval that a request asks for is shorter than `elapsed`. -/
def Spans (deps : Deps) (req : Request) (elapsed : Int) : Prop :=
  (∃ expiry, requestedExpiry deps req = some expiry ∧ elapsed ≤ expiry) ∧
    ∀ h ∈ parsedContacts deps req, AsksAtLeast deps elapsed h

/-- A call comes in time for the last request of its user, if that one has registered a contact. -/
def InTime (deps : Deps) (s : Timed) : TimedEvent → Prop
  | .register _ _ => True
  | .call toEndpoint time => ∀ since req, lastRegistered toEndpoint.name s.handled = some (since, req) →
      registeredURI deps toEndpoint.media.type req ≠ "" → Spans deps req (time - since)

/-- The authenticators of a request do not answer an error with 200. -/
def AuthorizesSoundly : TimedEvent → Prop
  | .register a _ => a.1.ErrorsRefuse
  | .call _ _ => True

def Timed.untimed (s : Timed) : Traced := ⟨s.registry, s.handled.map Prod.snd⟩

section Timed

variable {deps : Deps} {hostname : String} {s : Timed}

theorem lastAnswered_untimed (u : String) (handled : List (Int × Request × List Response)) :
    lastAnswered u (handled.map Prod.snd) = (lastRegistered u handled).map Prod.snd := by
  unfold lastAnswered lastRegistered
  rw [List.find?_map, Option.map_map, Option.map_map]
  rfl

theorem resolve_of_timed (huri : ∀ u, deps.uriString u ≠ "") (hs : Current deps hostname s.untimed)
    (toEndpoint : ConfigEndpoint) :
    endpointResolveRegisteredURI deps memoryStore hostname s.registry toEndpoint =
      some (s.registry, ((lastRegistered toEndpoint.name s.handled).map Prod.snd).elim ""
        (registeredURI deps toEndpoint.media.type)) := by
  rw [← lastAnswered_untimed]
  exact resolve_of_current huri hs toEndpoint

theorem current_timedStep (huri : ∀ u, deps.uriString u ≠ "") (s : Timed) (e : TimedEvent)
    (hs : Current deps hostname s.untimed) (he : AuthorizesSoundly e) :
    Current deps hostname (timedStep deps hostname s e).untimed := by
  cases e with
  | register a time => exact current_step s.untimed a hs he
  | call toEndpoint time =>
      have hsame : timedStep deps hostname s (.call toEndpoint time) = s := by
        simp only [timedStep, resolve_of_timed huri hs toEndpoint]
      rw [hsame]
      exact hs

/-- The interval of a binding with a contact is the smallest one that its request has asked for. -/
theorem exists_binding_spans {req : Request} {binding : Option (RegisterBinding (List Uri))}
    (h : AsksFor deps req binding) {mediaType : String} (hcontact : registeredURI deps mediaType req ≠ "") :
    ∃ b, binding = some b ∧ ∀ elapsed, elapsed ≤ b.expiry ↔ Spans deps req elapsed := by
  obtain ⟨checked, update, hexpiry, hupdate, rfl⟩ := h
  obtain ⟨hzero, hwild, rfl⟩ | ⟨-, b, hkeep, -, -, -, rfl⟩ := contactUpdate_cases hupdate
  · exact absurd (if_pos ⟨hexpiry.trans (congrArg some hzero), hwild⟩) hcontact
  · refine ⟨b, rfl, fun elapsed => ?_⟩
    have hinterval : (∃ contacts expiry', keepContacts deps checked.expiry (parsedContacts deps req) =
        .ok (contacts, expiry') ∧ elapsed ≤ expiry') ↔ _ := keepContacts_interval
    rw [hkeep] at hinterval
    rw [Spans, hexpiry]
    simpa using hinterval

theorem dialsFresh_iff (huri : ∀ u, deps.uriString u ≠ "") (s : Timed) (e : TimedEvent)
    (hs : Current deps hostname s.untimed) : DialsFresh deps hostname s e ↔ InTime deps s e := by
  cases e with
  | register a time => rfl
  | call toEndpoint time =>
      simp only [DialsFresh, InTime, resolve_of_timed huri hs toEndpoint]
      cases hlast : lastRegistered toEndpoint.name s.handled with
      | none => simp
      | some last =>
          obtain ⟨since, req⟩ := last
          have hasked := hs.asked toEndpoint.name req (by
            rw [Timed.untimed, lastAnswered_untimed, hlast]
            rfl)
          by_cases hcontact : registeredURI deps toEndpoint.media.type req = ""
          · simp [hcontact]
          · obtain ⟨b, hbinding, hspans⟩ := exists_binding_spans hasked hcontact
            have hb : s.registry.binding (createRegId toEndpoint.name hostname) = some b := hbinding
            simp [hcontact, hb, ← hspans]

end Timed

/-- In a timed run every contact that is dialed is within the interval of its registration, exactly when every call
comes in time for what the last request of its user has asked for. -/
theorem dialsFresh_run_iff {deps : Deps} (huri : ∀ u, deps.uriString u ≠ "") (hostname : String)
    {events : List TimedEvent} (hauth : ∀ e ∈ events, AuthorizesSoundly e) :
    Run.Permitted (timedStep deps hostname) (DialsFresh deps hostname) {} events ↔
      Run.Permitted (timedStep deps hostname) (InTime deps) {} events :=
  Run.permitted_congr (timedStep deps hostname) (fun s e hs he _ => current_timedStep huri s e hs he)
    (fun s e hs _ => dialsFresh_iff huri s e hs) current_initial
    (Run.permitted_of_forall (timedStep deps hostname) hauth)

/-- Alice registers for an hour and is called at a time. -/
def aliceCalled (time : Int) : List TimedEvent :=
  [.register (trusting, bindRequest "pbx" "alice") 0, .call { name := "alice" } time]

theorem aliceCalled_authorizesSoundly (time : Int) : ∀ e ∈ aliceCalled time, AuthorizesSoundly e := by
  intro e he
  simp only [aliceCalled, List.mem_cons, List.not_mem_nil, or_false] at he
  obtain rfl | rfl := he
  · exact trusting_errorsRefuse
  · trivial

theorem dialsFresh_run_alice :
    Run.Permitted (timedStep plainDeps "pbx") (DialsFresh plainDeps "pbx") {} (aliceCalled second) ↔
      Run.Permitted (timedStep plainDeps "pbx") (InTime plainDeps) {} (aliceCalled second) :=
  dialsFresh_run_iff plainUriString_ne_empty "pbx" (aliceCalled_authorizesSoundly second)

/-- A second after the hour she is dialed all the same. -/
theorem not_dialsFresh :
    ¬ ∀ (deps : Deps) (hostname : String) (events : List TimedEvent), (∀ u, deps.uriString u ≠ "") →
      (∀ e ∈ events, AuthorizesSoundly e) →
      Run.Permitted (timedStep deps hostname) (DialsFresh deps hostname) {} events := by
  intro h
  obtain ⟨-, hfresh, -⟩ := h plainDeps "pbx" (aliceCalled (3601 * second)) plainUriString_ne_empty
    (aliceCalled_authorizesSoundly _)
  have hresolved : (endpointResolveRegisteredURI plainDeps memoryStore "pbx"
      (registerStep plainDeps "pbx" RegistryMemory.new (trusting, bindRequest "pbx" "alice"))
      { name := "alice" }).map Prod.snd = some "sip:10.0.0.1" := by decide
  obtain ⟨⟨r, uri⟩, hr, rfl⟩ := Option.map_eq_some_iff.mp hresolved
  obtain ⟨since, req, binding, hlast, hbinding, hage⟩ := hfresh r _ hr (by decide)
  have hsince : since = 0 := by
    have : lastRegistered "alice" (timedStep plainDeps "pbx" {}
        (.register (trusting, bindRequest "pbx" "alice") 0)).handled = some (0, bindRequest "pbx" "alice") := by decide
    exact (Prod.mk.inj (Option.some.inj (hlast.symm.trans this))).1
  have hexpiry : binding.expiry = defaultExpiry := by
    have : (registerStep plainDeps "pbx" RegistryMemory.new (trusting, bindRequest "pbx" "alice")).binding "alice@pbx" =
        some { aor := { user := "alice" }, callID := "Call-ID: ", contacts := [{ host := "10.0.0.1" }],
               expiry := defaultExpiry } := by decide
    rw [Option.some.inj (hbinding.symm.trans this)]
  rw [hsince, hexpiry] at hage
  exact absurd hage (by decide)

end Registrar
