import Diagox.Call.Records
import Diagox.Registrar.Resolve
import Diagox.Routing.Scan

/-!
# The default route

`ConfigLoad` adds a `default` context with one route, which matches every number and reads the registry. The route
has no endpoint, so a call comes to the registry by the `user` endpoint of its name. Who has registered without such an
endpoint, by a token that a `user_dynamic` endpoint admits, has a binding that no call looks for.
-/

namespace Call

open Configuration Sip Registry Registrar Routing

/-- The document has no list of routes under `default`. -/
def NoDefaultContext (conf : Config) : Prop := ∀ routeCtx, conf.routes.lookup "default" ≠ some (some routeCtx)

theorem lookup_withDefaultRoute {routes : StringMap (Option (List ConfigRoute))}
    (h : ∀ routeCtx, routes.lookup "default" ≠ some (some routeCtx)) :
    (withDefaultRoute routes).lookup "default" = some (some [defaultRoute]) := by
  unfold withDefaultRoute
  split
  · next routeCtx hlookup => exact absurd hlookup (h routeCtx)
  · exact AList.lookup_insert _

theorem matchIncomingRoute_default {conf : Config} (h : conf.routes.lookup "default" = some (some [defaultRoute]))
    (toUser : String) : matchIncomingRoute conf toUser "default" = some (defaultRoute, true) := by
  have hmatches : routeMatches toUser defaultRoute = true := by simp [routeMatches, defaultRoute]
  simp only [matchIncomingRoute, h, Option.map_some, Option.getD_some, List.find?_cons_of_pos hmatches]
  rfl

theorem mem_declared {endpoints : StringMap ConfigEndpoint} {order : List String} {e : ConfigEndpoint} :
    e ∈ declared endpoints order ↔ ∃ name, endpoints.lookup name = some e := by
  rw [declared, List.mem_filterMap]
  refine exists_congr fun name => and_iff_right_of_imp fun hname => ?_
  have hkey : name ∈ endpoints.keys := AList.mem_keys.mp (AList.lookup_isSome.mp (by rw [hname]; rfl))
  by_cases horder : name ∈ order
  · exact List.mem_append_left _ horder
  · refine List.mem_append_right _ ?_
    simp [hkey, horder]

theorem findUserEndpoint_eq {deps : Deps} {doc : YamlDocument} {c conf : Config}
    (h : configLoad deps doc c = (conf, none)) (u : String) :
    findUserEndpoint conf u = (declared conf.endpoints conf.endpointOrder).find? fun e => IsUser u e := by
  obtain ⟨-, -, -, index, hindex, hbuild⟩ := configLoad_ok h
  obtain ⟨n, hholds⟩ := holdsEndpoints_build hbuild
  rw [map_endpointNames] at hholds
  have husers : index.users u = (declared conf.endpoints conf.endpointOrder).filter fun e => IsUser u e :=
    hholds.users u
  simp only [findUserEndpoint, endpointIndex, hindex, husers, List.head?_filter]

/-! ### Reaching a registered user -/

section Registry

variable {ρ : Type} (deps : Deps) (store : RegistryStore ρ) (sipHostname : String) (m : ρ)

/-- Calls read the registry as it is. A read that does not return is none that is answered. -/
def RouteExternals.withRegistry (rx : RouteExternals) : RouteExternals :=
  { rx with
    registeredURI := fun e =>
      match endpointResolveRegisteredURI deps store sipHostname m e with
      | none => .panicked
      | some (_, uri) => .returned uri }

/-- The URI of a contact, or the address it was registered from where it cannot be dialed. -/
def contactURI (mediaType : String) (binding : RegisterBinding (List Uri)) (contUri : Uri) : String :=
  if Strings.hasSuffix contUri.host ".invalid" ∨ mediaType = "webrtc" then
    "sip:" ++ binding.sourceAddr ++ ";transport=" ++ binding.transport
  else deps.uriString contUri

/-- A call to a user in the default context comes to an endpoint, and so not to `OUTBOUND_DIAL_URI`, and is resolved
to a contact of the user. -/
def ReachesContact (pbx : PBX) (rx : RouteExternals) (u : String) (binding : RegisterBinding (List Uri))
    (contUri : Uri) : Prop :=
  ∃ route e, matchIncomingRoute pbx.conf u "default" = some (route, true) ∧
    matchOutgoingRouteEndpoint pbx.conf u route = some e ∧
    endpointLoadOutboundURI pbx (rx.withRegistry deps store sipHostname m) u route =
      .ok (e, contactURI deps e.media.type binding contUri)

variable {deps store sipHostname m}

theorem resolve_of_bindingOf {e : ConfigEndpoint} {binding : RegisterBinding (List Uri)} {contUri : Uri}
    {contacts : List Uri} (hbinding : store.bindingOf m (createRegId e.name sipHostname) = some binding)
    (hcontacts : binding.contacts = contUri :: contacts) (huri : ∀ uri, deps.uriString uri ≠ "") :
    ∃ m', endpointResolveRegisteredURI deps store sipHostname m e =
      some (m', contactURI deps e.media.type binding contUri) := by
  unfold RegistryStore.bindingOf at hbinding
  split at hbinding
  · next m' b hget =>
    obtain rfl := Option.some.inj hbinding
    refine ⟨m', ?_⟩
    simp only [endpointResolveRegisteredURI, hget, hcontacts, huri, if_false, contactURI]
    split_ifs <;> rfl
  · cases hbinding

end Registry

/-- A call in the default context comes to the contact of a registered user exactly when a `user` endpoint has the
name of the user. -/
theorem reachesContact_iff {ρ : Type} {deps : Deps} (store : RegistryStore ρ) (sipHostname : String) (m : ρ)
    {doc : YamlDocument} {c : Config} {pbx : PBX} (rx : RouteExternals)
    (hload : configLoad deps doc c = (pbx.conf, none)) (hdefault : NoDefaultContext (doc.decode c).1)
    (huri : ∀ uri, deps.uriString uri ≠ "") {u : String} {binding : RegisterBinding (List Uri)}
    {contUri : Uri} {contacts : List Uri} (hbinding : store.bindingOf m (createRegId u sipHostname) = some binding)
    (hcontacts : binding.contacts = contUri :: contacts) :
    ReachesContact deps store sipHostname m pbx rx u binding contUri ↔
      ∃ name e, pbx.conf.endpoints.lookup name = some e ∧ e.match.type = "user" ∧ e.name = u := by
  have hroute : matchIncomingRoute pbx.conf u "default" = some (defaultRoute, true) := by
    refine matchIncomingRoute_default ?_ u
    obtain ⟨-, hroutes, -⟩ := configLoad_ok hload
    rw [hroutes, lookup_withDefaultRoute hdefault]
  have hout : matchOutgoingRouteEndpoint pbx.conf u defaultRoute =
      ((declared pbx.conf.endpoints pbx.conf.endpointOrder).find? fun e => IsUser u e).map
        fun e => { e with useRegistry := true } := by
    rw [← findUserEndpoint_eq hload u]
    simp [matchOutgoingRouteEndpoint, defaultRoute]
  constructor
  · rintro ⟨route, e, hmatch, hend, -⟩
    obtain rfl : defaultRoute = route := by
      rw [hroute] at hmatch
      exact (Prod.mk.inj (Option.some.inj hmatch)).1
    rw [hout] at hend
    obtain ⟨e', he', -⟩ := Option.map_eq_some_iff.mp hend
    obtain ⟨name, hname⟩ := mem_declared.mp (List.mem_of_find?_eq_some he')
    have huser : IsUser u e' := by simpa using List.find?_some he'
    exact ⟨name, e', hname, huser⟩
  · rintro ⟨name, e, hname, huser⟩
    have hsome : ((declared pbx.conf.endpoints pbx.conf.endpointOrder).find? fun e => IsUser u e).isSome :=
      List.find?_isSome.mpr ⟨e, mem_declared.mpr ⟨name, hname⟩, decide_eq_true huser⟩
    obtain ⟨e', he'⟩ := Option.isSome_iff_exists.mp hsome
    have hend := hout
    rw [he', Option.map_some] at hend
    obtain ⟨-, rfl⟩ : IsUser u e' := by simpa using List.find?_some he'
    have hbinding' : store.bindingOf m (createRegId { e' with useRegistry := true }.name sipHostname) = some binding :=
      hbinding
    obtain ⟨m', hresolve⟩ := resolve_of_bindingOf hbinding' hcontacts huri
    refine ⟨defaultRoute, _, hroute, hend, ?_⟩
    simp only [endpointLoadOutboundURI, hend, endpointResolveOutboundURI, RouteExternals.withRegistry, hresolve]
    rfl

/-- The endpoint of alice, and one for everybody who has a token. -/
def tokenDocument : YamlDocument where
  decode _ :=
    ({ endpoints :=
        ⟨[⟨"alice", { «match» := { type := "user" } }⟩,
            ⟨"dynamic", { «match» := { type := "user_dynamic" }, auth := { type := "bearer" } }⟩],
          by simp [List.NodupKeys, List.keys]⟩ }, none)
  endpointKeys := ["alice", "dynamic"]

def tokenPBX : PBX := { conf := (configLoad plainDeps tokenDocument {}).1, outboundDialUri := "sip:carrier" }

/-- The registry once a user has registered with a token. -/
def tokenRegistry (user : String) : RegistryMemory :=
  registerStep plainDeps "pbx" RegistryMemory.new (trusting, bindRequest "pbx" user)

def tokenBinding (user : String) : RegisterBinding (List Uri) :=
  { aor := { user := user }, callID := "Call-ID: ", contacts := [{ host := "10.0.0.1" }], expiry := defaultExpiry }

theorem reachesContact_alice :
    ReachesContact plainDeps memoryStore "pbx" (tokenRegistry "alice") tokenPBX plainRouteExternals "alice"
        (tokenBinding "alice") { host := "10.0.0.1" } ↔
      ∃ name e, tokenPBX.conf.endpoints.lookup name = some e ∧ e.match.type = "user" ∧ e.name = "alice" := by
  have hload : configLoad plainDeps tokenDocument {} = (tokenPBX.conf, none) := Prod.ext rfl rfl
  have hdefault : NoDefaultContext (tokenDocument.decode {}).1 := fun _ => by simp [tokenDocument]
  exact reachesContact_iff memoryStore "pbx" (tokenRegistry "alice") plainRouteExternals hload hdefault
    plainUriString_ne_empty (by decide) rfl

/-- With a token carol registers under a name that is no endpoint, and is not reached. -/
theorem not_reachesContact :
    configLoad plainDeps tokenDocument {} = (tokenPBX.conf, none) ∧
      memoryStore.bindingOf (tokenRegistry "carol") (createRegId "carol" "pbx") = some (tokenBinding "carol") ∧
      endpointLoadOutboundURI tokenPBX
          (plainRouteExternals.withRegistry plainDeps memoryStore "pbx" (tokenRegistry "carol")) "carol" defaultRoute =
        .ok ({}, "sip:carrier") ∧
      ¬ReachesContact plainDeps memoryStore "pbx" (tokenRegistry "carol") tokenPBX plainRouteExternals "carol"
          (tokenBinding "carol") { host := "10.0.0.1" } := by
  have hroute : matchIncomingRoute tokenPBX.conf "carol" "default" = some (defaultRoute, true) := rfl
  have hend : matchOutgoingRouteEndpoint tokenPBX.conf "carol" defaultRoute = none := rfl
  refine ⟨Prod.ext rfl rfl, by decide, rfl, fun ⟨route, e, hmatch, hsome, _⟩ => ?_⟩
  obtain ⟨rfl, -⟩ := Prod.mk.inj (Option.some.inj (hroute.symm.trans hmatch))
  rw [hend] at hsome
  cases hsome

end Call
