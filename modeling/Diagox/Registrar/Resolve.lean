import Diagox.Config.Types
import Diagox.Registrar.Contacts
import Diagox.Registrar.Ownership

/-!
# From the registrar to the calls

`endpointResolveRegisteredURI` of `pbx.go` reads what the registrar has written. After any run of requests
the binding of a user is what the last request for the user that was answered 200 has asked for, so the URI
that is dialed can be read off that request.
-/

namespace Registrar

open Sip Registry Configuration Strings

/-- The URI to dial for an endpoint, empty without one. -/
def endpointResolveRegisteredURI {ρ : Type} (deps : Deps) (store : RegistryStore ρ) (sipHostname : String) (m : ρ)
    (toEndpoint : ConfigEndpoint) : Option (ρ × String) :=
  match store.registerBindingGet m (createRegId toEndpoint.name sipHostname) with
  | none => none
  | some (m', .error _) => some (m', "")
  | some (m', .ok binding) => match binding.contacts with
    | [] => some (m', "")
    | contUri :: _ =>
        if deps.uriString contUri = "" then some (m', "")
        else if hasSuffix contUri.host ".invalid" ∨ toEndpoint.media.type = "webrtc" then
          some (m', "sip:" ++ binding.sourceAddr ++ ";transport=" ++ binding.transport)
        else some (m', deps.uriString contUri)

/-! ### What a request asks for -/

/-- The URI that a request registers for calls to endpoints of a media type: none when it removes all
contacts or keeps none. -/
def registeredURI (deps : Deps) (mediaType : String) (req : Request) : String :=
  if requestedExpiry deps req = some 0 ∧ isWildcard (parsedContacts deps req) then ""
  else match (parsedContacts deps req).find? fun h => contactExpires h ≠ "0" with
    | none => ""
    | some h =>
        if hasSuffix h.address.host ".invalid" ∨ mediaType = "webrtc" then
          "sip:" ++ req.source ++ ";transport=" ++ req.transport
        else deps.uriString h.address

/-! ### Runs of requests -/

/-- The registry after some requests, and what each of them was answered, the last one in front. -/
structure Traced where
  registry : RegistryMemory := RegistryMemory.new
  handled : List (Request × List Response) := []

def tracedStep (deps : Deps) (hostname : String) (s : Traced) (a : Arrival) : Traced where
  registry := registerStep deps hostname s.registry a
  handled := (a.2, (registerHandler deps a.1 memoryStore hostname s.registry a.2).responses) :: s.handled

def answeredFor (u : String) (x : Request × List Response) : Bool :=
  x.1.toAddress.map (·.user) = some u && x.2.any fun res => res.statusCode = 200

/-- The last request for a user that was answered 200. -/
def lastAnswered (u : String) (handled : List (Request × List Response)) : Option Request :=
  (handled.find? (answeredFor u)).map Prod.fst

/-- A binding is what a request asks for. -/
def AsksFor (deps : Deps) (req : Request) (binding : Option (RegisterBinding (List Uri))) : Prop :=
  ∃ checked update, requestedExpiry deps req = some checked.expiry ∧ contactUpdate deps req checked = .ok update ∧
    binding = update.binding

/-- Every user has the binding that the last answered request asks for, and none without such a request. -/
structure Current (deps : Deps) (hostname : String) (s : Traced) : Prop where
  sound : s.registry.Sound
  unset : ∀ u, lastAnswered u s.handled = none → s.registry.binding (createRegId u hostname) = none
  asked : ∀ u req, lastAnswered u s.handled = some req → AsksFor deps req (s.registry.binding (createRegId u hostname))

section Run

variable {deps : Deps} {hostname : String}

theorem current_initial : Current deps hostname {} where
  sound := RegistryMemory.sound_new
  unset _ _ := rfl
  asked _ _ h := by cases h

theorem lastAnswered_refused {handled : List (Request × List Response)} {req : Request} {responses : List Response}
    (h : ∀ res ∈ responses, res.statusCode ≠ 200) (u : String) :
    lastAnswered u ((req, responses) :: handled) = lastAnswered u handled := by
  have hno : answeredFor u (req, responses) = false := by
    simpa [answeredFor] using fun _ _ _ => h
  simp [lastAnswered, hno]

theorem current_step (s : Traced) (a : Arrival) (hs : Current deps hostname s) (ha : a.1.ErrorsRefuse) :
    Current deps hostname (tracedStep deps hostname s a) := by
  rcases registerHandler_memory deps a.1 hostname hs.sound a.2 with
    ⟨hno, hsame⟩ | ⟨checked, c, update, r', hpassed, hout, hsound, hbinding⟩
  · have hlast : ∀ u, lastAnswered u (tracedStep deps hostname s a).handled = lastAnswered u s.handled :=
      lastAnswered_refused (responses_of_not_admitted ha hno memoryStore s.registry)
    have hregistry : (tracedStep deps hostname s a).registry = s.registry := hsame
    refine ⟨?_, fun u hu => ?_, fun u req hu => ?_⟩
    · rw [hregistry]
      exact hs.sound
    · rw [hregistry]
      exact hs.unset u (hlast u ▸ hu)
    · rw [hregistry]
      exact hs.asked u req (hlast u ▸ hu)
  · obtain ⟨-, hto, hexpiry⟩ := checkRegister_ok hpassed.check
    have hregistry : (tracedStep deps hostname s a).registry = r' := by simp [tracedStep, registerStep, hout]
    have hhandled : (tracedStep deps hostname s a).handled = (a.2, [update.response]) :: s.handled := by
      simp [tracedStep, hout]
    -- the request is the last one for the user it is for, and for no other
    have hanswered : ∀ u, answeredFor u (a.2, [update.response]) = decide (checked.aor.user = u) := fun u => by
      simp [answeredFor, hto, Update.response_statusCode]
    have hother : ∀ u, checked.aor.user ≠ u →
        lastAnswered u (tracedStep deps hostname s a).handled = lastAnswered u s.handled ∧
          (tracedStep deps hostname s a).registry.binding (createRegId u hostname) =
            s.registry.binding (createRegId u hostname) := by
      intro u hu
      refine ⟨by simp [hhandled, lastAnswered, hanswered, hu], ?_⟩
      rw [hregistry, hbinding, Function.update_of_ne]
      exact fun hid => hu (createRegId_injective hostname hid).symm
    refine ⟨by rwa [hregistry], fun u hu => ?_, fun u req hu => ?_⟩
    · by_cases huser : checked.aor.user = u
      · simp [hhandled, lastAnswered, hanswered, huser] at hu
      · rw [(hother u huser).2]
        exact hs.unset u ((hother u huser).1 ▸ hu)
    · by_cases huser : checked.aor.user = u
      · subst huser
        obtain rfl : a.2 = req := by simpa [hhandled, lastAnswered, hanswered] using hu
        exact ⟨checked, update, hexpiry, hpassed.contacts, by rw [hregistry, hbinding, Function.update_self]⟩
      · rw [(hother u huser).2]
        exact hs.asked u req ((hother u huser).1 ▸ hu)

theorem resolve_of_asksFor {r : RegistryMemory} (hr : r.Sound) (huri : ∀ u, deps.uriString u ≠ "") {req : Request}
    {toEndpoint : ConfigEndpoint} (h : AsksFor deps req (r.binding (createRegId toEndpoint.name hostname))) :
    endpointResolveRegisteredURI deps memoryStore hostname r toEndpoint =
      some (r, registeredURI deps toEndpoint.media.type req) := by
  obtain ⟨checked, update, hexpiry, hupdate, hbinding⟩ := h
  have hget : memoryStore.registerBindingGet r (createRegId toEndpoint.name hostname) =
      some (r, update.binding.elim (.error .doesNotExist) .ok) := by
    rw [← hbinding]
    exact registerBindingGet_eq hr _
  unfold endpointResolveRegisteredURI registeredURI
  obtain ⟨hzero, hwild, hnone⟩ | ⟨hkeep, binding, hsome, hcontacts, hsource, htransport⟩ := contactUpdate_ok hupdate
  · simp [hget, hnone, hexpiry, hzero, hwild]
  · have hremoval : ¬ (requestedExpiry deps req = some 0 ∧ isWildcard (parsedContacts deps req)) := by
      rw [hexpiry, Option.some.injEq]
      exact hkeep
    rw [if_neg hremoval, hget, hsome]
    simp only [Option.elim_some, hcontacts, hsource, htransport]
    rw [← List.head?_filter]
    cases (parsedContacts deps req).filter fun h => contactExpires h ≠ "0" with
    | nil => rfl
    | cons h hs =>
        simp only [List.map_cons, huri, if_false, List.head?_cons]
        split_ifs <;> rfl

/-- A current registry resolves a call by the last request for the user that was answered 200. -/
theorem resolve_of_current (huri : ∀ u, deps.uriString u ≠ "") {s : Traced} (hs : Current deps hostname s)
    (toEndpoint : ConfigEndpoint) :
    endpointResolveRegisteredURI deps memoryStore hostname s.registry toEndpoint =
      some (s.registry, (lastAnswered toEndpoint.name s.handled).elim ""
        (registeredURI deps toEndpoint.media.type)) := by
  cases hlast : lastAnswered toEndpoint.name s.handled with
  | none =>
      have hget : memoryStore.registerBindingGet s.registry (createRegId toEndpoint.name hostname) =
          some (s.registry, .error .doesNotExist) := by
        have := registerBindingGet_eq hs.sound (createRegId toEndpoint.name hostname)
        rwa [hs.unset _ hlast] at this
      simp [endpointResolveRegisteredURI, hget]
  | some req => exact resolve_of_asksFor hs.sound huri (hs.asked _ req hlast)

end Run

/-- After any run of requests a call to a user is resolved by the last request for the user that was
answered 200, and by nothing else. -/
theorem resolve_lastAnswered {deps : Deps} (huri : ∀ u, deps.uriString u ≠ "") (hostname : String)
    {arrivals : List Arrival} (hauth : ∀ a ∈ arrivals, a.1.ErrorsRefuse) (toEndpoint : ConfigEndpoint) :
    let s := Run.run (tracedStep deps hostname) {} arrivals
    endpointResolveRegisteredURI deps memoryStore hostname s.registry toEndpoint =
      some (s.registry, (lastAnswered toEndpoint.name s.handled).elim ""
        (registeredURI deps toEndpoint.media.type)) := by
  intro s
  have hs : Current deps hostname s :=
    Run.invariant_of_permitted _ current_step current_initial (Run.permitted_of_forall _ hauth)
  exact resolve_of_current huri hs toEndpoint

theorem trusting_errorsRefuse : trusting.ErrorsRefuse := by
  intro req userAuth res err h
  cases h

theorem resolve_lastAnswered_alice :
    let s := Run.run (tracedStep plainDeps "pbx") {} [(trusting, bindRequest "pbx" "alice")]
    endpointResolveRegisteredURI plainDeps memoryStore "pbx" s.registry { name := "alice" } =
      some (s.registry, (lastAnswered "alice" s.handled).elim "" (registeredURI plainDeps "")) :=
  resolve_lastAnswered plainUriString_ne_empty "pbx"
    (fun a (ha : a ∈ [(trusting, bindRequest "pbx" "alice")]) => by
      obtain rfl : a = _ := List.mem_singleton.mp ha
      exact trusting_errorsRefuse) { name := "alice" }

example : registeredURI plainDeps "" (bindRequest "pbx" "alice") = "sip:10.0.0.1" := by decide

end Registrar
