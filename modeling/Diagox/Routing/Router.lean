import Diagox.Config.Load

/-!
# The router

`Router` of `routing.go`: which endpoint a request comes from, which route its To user takes, and which
endpoint that route leads to.
-/

namespace Routing

open Sip Configuration NetIP

variable (deps : Deps)

/-- `Router.endpointIndex`: the index of the configuration, built if it is not there. -/
def endpointIndex (conf : Config) : Except ConfigError EndpointIndex :=
  match conf.endpointIndex with
  | some index => .ok index
  | none => buildEndpointIndex conf.endpoints conf.endpointOrder

def EndpointIndex.matchUser (index : EndpointIndex) (fromUser transport : String) : Option ConfigEndpoint :=
  (index.users fromUser).find? fun e => endpointTransportMatches deps e transport

/-- The address in the source of a request. -/
def sourceIP (req : Request) : Option Addr := (deps.parseAddr req.source).bind fun x => parseAddr x.1

/-- The stages after the `user` and `ip` endpoints. -/
def EndpointIndex.matchRest (index : EndpointIndex) (fromUser transport : String) : Option ConfigEndpoint :=
  match index.dynamicUser.filter fun e => fromUser ≠ "" && endpointTransportMatches deps e transport with
  | some e => some e
  | none => index.defaultEnd.filter fun e => endpointTransportMatches deps e transport

/-- The endpoint that is matched, if any. A request without From header is a nil pointer. -/
def matchEndpoint (conf : Config) (req : Request) : Except Panic (Option ConfigEndpoint) :=
  match endpointIndex conf with
  | .error _ => .ok none
  | .ok index => match req.fromAddress with
    | none => .error .nilPointer
    | some fromAddress =>
        let reqTransport := requestTransport deps req
        match index.matchUser deps fromAddress.user reqTransport with
        | some e => .ok (some e)
        | none => match sourceIP deps req with
          | none => .ok none
          | some ip => match index.matchIP deps ip.unmap reqTransport with
            | some e => .ok (some e)
            | none => .ok (index.matchRest deps fromAddress.user reqTransport)

/-- The condition of `MatchIncomingRoute` on one route of a context. -/
def routeMatches (toUser : String) (did : ConfigRoute) : Bool :=
  did.id = toUser || (did.match = "prefix" && Strings.hasPrefix toUser did.id) ||
    (did.match = "any" && (did.id = "" || Strings.contains toUser did.id))

/-- The route that is delivered, and whether it counts as matched. `none` is an unknown context, which
delivers nothing. -/
def matchIncomingRoute (conf : Config) (toUser routeID : String) : Option (ConfigRoute × Bool) :=
  (conf.routes.lookup routeID).map fun routeCtx =>
    let route := ((routeCtx.getD []).find? (routeMatches toUser)).getD {}
    (route, route.match = "any" || route.id ≠ "")

def findUserEndpoint (conf : Config) (dstUser : String) : Option ConfigEndpoint :=
  match endpointIndex conf with
  | .error _ => none
  | .ok index => (index.users dstUser).head?

/-- The endpoint a matched route leads to, if any. -/
def matchOutgoingRouteEndpoint (conf : Config) (toUser : String) (route : ConfigRoute) : Option ConfigEndpoint :=
  if route.useRegistry then
    if route.endpointName ≠ "" then
      (conf.endpoints.lookup route.endpointName).map fun e => { e with name := toUser, useRegistry := true }
    else (findUserEndpoint conf toUser).map fun e => { e with useRegistry := true }
  else if route.endpointName = "" then none
  else conf.endpoints.lookup route.endpointName

/-! ### Incoming routes -/

section Incoming

variable (toUser : String) (did : ConfigRoute)

/-- The route is for the user: by its ID, as a prefix, or as an affix. -/
def RouteMatches : Prop :=
  did.id = toUser ∨ (did.match = "prefix" ∧ did.id.toList <+: toUser.toList) ∨
    (did.match = "any" ∧ (did.id = "" ∨ did.id.toList <:+: toUser.toList))

theorem routeMatches_iff : routeMatches toUser did = true ↔ RouteMatches toUser did := by
  simp [routeMatches, RouteMatches, Strings.hasPrefix, Strings.contains, or_assoc]

/-- The first route of a list that matches the user. -/
def FirstMatch (routes : List ConfigRoute) : Prop :=
  RouteMatches toUser did ∧ ∃ before after, routes = before ++ did :: after ∧ ∀ d ∈ before, ¬ RouteMatches toUser d

theorem find?_routeMatches {routes : List ConfigRoute} :
    routes.find? (routeMatches toUser) = some did ↔ FirstMatch toUser did routes := by
  rw [List.find?_eq_some_iff_append, FirstMatch, routeMatches_iff]
  simp only [Bool.not_eq_true', ← Bool.not_eq_true, routeMatches_iff]

end Incoming

/-- The result says whether a route of the list matches the user, and then delivers the first that does. -/
def FindsRoute (routes : List ConfigRoute) (toUser : String) (result : ConfigRoute × Bool) : Prop :=
  (result.2 = true ↔ ∃ did ∈ routes, RouteMatches toUser did) ∧
    (result.2 = true → FirstMatch toUser result.1 routes)

/-- In an existing context the first match is found exactly when it is a catch-all or has an ID. A first match
with an empty ID, by a user that is empty or as a prefix, is delivered but does not count. -/
theorem matchIncomingRoute_iff (conf : Config) (toUser routeID : String) {routeCtx : Option (List ConfigRoute)}
    (hctx : conf.routes.lookup routeID = some routeCtx) :
    ∃ result, matchIncomingRoute conf toUser routeID = some result ∧
      (FindsRoute (routeCtx.getD []) toUser result ↔
        ∀ did, FirstMatch toUser did (routeCtx.getD []) → did.match = "any" ∨ did.id ≠ "") := by
  refine ⟨_, by rw [matchIncomingRoute, hctx, Option.map_some], ?_⟩
  cases hfind : (routeCtx.getD []).find? (routeMatches toUser) with
  | none =>
      have hnone : ∀ did ∈ routeCtx.getD [], ¬ RouteMatches toUser did := fun did hdid =>
        mt (routeMatches_iff toUser did).mpr (List.find?_eq_none.mp hfind did hdid)
      have hfirst : ∀ did, ¬ FirstMatch toUser did (routeCtx.getD []) := by
        intro did h
        rw [← find?_routeMatches, hfind] at h
        cases h
      simpa [FindsRoute, hfirst] using hnone
  | some did =>
      have hfirst := (find?_routeMatches toUser did).mp hfind
      have honly : ∀ did', FirstMatch toUser did' (routeCtx.getD []) → did' = did := by
        intro did' h
        rw [← find?_routeMatches, hfind] at h
        exact (Option.some.inj h).symm
      have hsome : ∃ did ∈ routeCtx.getD [], RouteMatches toUser did :=
        ⟨did, List.mem_of_find?_eq_some hfind, hfirst.1⟩
      have hresult : FindsRoute (routeCtx.getD []) toUser (did, did.match = "any" || did.id ≠ "") ↔
          did.match = "any" ∨ did.id ≠ "" := by
        simp [FindsRoute, hsome, hfirst]
      rw [Option.getD_some]
      refine hresult.trans ?_
      constructor
      · intro h did' hdid'
        obtain rfl := honly did' hdid'
        exact h
      · intro h
        exact h did hfirst

/-- A route that everybody matches by its prefix. -/
def everybody : List ConfigRoute := [{ id := "", «match» := "prefix", endpointName := "carrier" }]

def incomingConfig (routes : List ConfigRoute) : Config where
  routes := AList.singleton "incoming" (some routes)

theorem matchIncomingRoute_alice :
    ∃ result, matchIncomingRoute (incomingConfig [{ id := "alice", endpointName := "alice" }]) "alice" "incoming" =
      some result ∧ FindsRoute [{ id := "alice", endpointName := "alice" }] "alice" result := by
  have hctx : (incomingConfig [{ id := "alice", endpointName := "alice" }]).routes.lookup "incoming" =
      some (some [{ id := "alice", endpointName := "alice" }]) := by decide
  obtain ⟨result, hresult, hiff⟩ := matchIncomingRoute_iff _ "alice" "incoming" hctx
  refine ⟨result, hresult, hiff.mpr fun did hdid => ?_⟩
  rw [← find?_routeMatches] at hdid
  obtain rfl := Option.some.inj hdid
  exact .inr (by decide)

theorem not_findsRoute :
    ¬ ∀ (conf : Config) (toUser routeID : String) (routeCtx : Option (List ConfigRoute)) (result : ConfigRoute × Bool),
      conf.routes.lookup routeID = some routeCtx → matchIncomingRoute conf toUser routeID = some result →
      FindsRoute (routeCtx.getD []) toUser result := by
  intro h
  have hfinds := h (incomingConfig everybody) "bob" "incoming" (some everybody) _ (by decide) rfl
  have htrue := hfinds.1.mpr ⟨_, List.mem_singleton_self _, .inr (.inl ⟨rfl, List.nil_prefix⟩)⟩
  revert htrue
  decide

end Routing
