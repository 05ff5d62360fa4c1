import Diagox.Call.Records
import Diagox.Lib.Interleave
import Diagox.Routing.References

/-!
# The connections of flow agents

The part of `FlowRPC` in `flow_rpc.go` that keeps the connections of agents, and the way by which `BridgeCall` comes
to one of them. A connection is filed under the endpoint in its URL, which is a key of the configuration. A call
looks for one under the name of its endpoint.
-/

namespace Flow

open Call Configuration Sip Routing Run
open Defer (Exit)

/-- A pointer: every connection that is accepted is a new one. -/
abbrev FlowConnection := Nat

structure FlowRPC where
  /-- A map without an entry and one with an empty buffer are alike: both have room for two. -/
  conns : String → List FlowConnection := fun _ => []
  /-- The reading goroutines under way, each with its endpoint and its connection. -/
  readers : List (String × FlowConnection) := []
  allocated : Nat := 0

def connectionCap : Nat := 2

/-- A request for a connection: the endpoint in its URL, and whether `UpgradeHTTP` succeeds. -/
structure Upgrade where
  endpoint : String
  succeeds : Bool := true

/-- The HTTP handler of `Serve`: its error is the response. The goroutine that reads is started at the end. -/
def serve (conf : Config) (rpc : FlowRPC) (r : Upgrade) : Except (Nat × String) FlowRPC :=
  if r.endpoint = "" then .error (400, "Endpoint parameter required")
  else if r.endpoint ∉ conf.endpoints then .error (404, "No endpoint found")
  else if (rpc.conns r.endpoint).length = connectionCap then .error (400, "Maximum connection of agent reached")
  else if r.succeeds = false then .error (500, "Failed to upgrade websocket")
  else .ok {
    conns := Function.update rpc.conns r.endpoint (rpc.conns r.endpoint ++ [rpc.allocated])
    readers := rpc.readers ++ [(r.endpoint, rpc.allocated)]
    allocated := rpc.allocated + 1 }

/-- `flowConnections.Delete`. No connection is filed twice, so the loop comes to it once. -/
def deleteConnection (rpc : FlowRPC) (endpointID : String) (c : FlowConnection) : FlowRPC :=
  { rpc with conns := Function.update rpc.conns endpointID ((rpc.conns endpointID).erase c) }

/-- `flowConnections.Load`, with the random numbers it draws. -/
def load (intN : (n : Nat) → Fin (n + 1)) (rpc : FlowRPC) (endpointID : String) : Option FlowConnection :=
  match rpc.conns endpointID with
  | [] => none
  | [c] => some c
  | c :: cs => some ((c :: cs).get (intN cs.length))

inductive ServeEvent where
  | serve (r : Upgrade)
  /-- A reading goroutine ends: its connection is deleted. -/
  | readEnds (i : Nat)

def serveStep (conf : Config) (rpc : FlowRPC) : ServeEvent → FlowRPC
  | .serve r => match serve conf rpc r with
    | .error _ => rpc
    | .ok rpc => rpc
  | .readEnds i => match rpc.readers[i]? with
    | none => rpc
    | some (endpointID, c) => { deleteConnection rpc endpointID c with readers := rpc.readers.eraseIdx i }

/-! ### The connections that are filed -/

/-- The connections filed under a key are those of the goroutines that read for it. -/
structure Filed (rpc : FlowRPC) : Prop where
  mem : ∀ k c, c ∈ rpc.conns k ↔ (k, c) ∈ rpc.readers
  nodup : ∀ k, (rpc.conns k).Nodup
  distinct : (rpc.readers.map Prod.snd).Nodup
  fresh : ∀ x ∈ rpc.readers, x.2 < rpc.allocated
  named : ∀ x ∈ rpc.readers, x.1 ≠ ""

section Filed

variable {conf : Config} {rpc rpc' : FlowRPC}

theorem filed_initial : Filed {} where
  mem k c := by simp
  nodup k := List.nodup_nil
  distinct := List.nodup_nil
  fresh x hx := by cases hx
  named x hx := by cases hx

theorem filed_serve (h : Filed rpc) {r : Upgrade} (hserve : serve conf rpc r = .ok rpc') : Filed rpc' := by
  unfold serve at hserve
  split_ifs at hserve with hname hexists hfull hfails
  rw [← Except.ok.inj hserve]
  have hnew : ∀ k, rpc.allocated ∉ rpc.conns k := fun k hk => lt_irrefl _ (h.fresh _ ((h.mem k _).mp hk))
  refine ⟨fun k c => ?_, fun k => ?_, ?_, fun x hx => ?_, fun x hx => ?_⟩
  · rw [List.mem_append, List.mem_singleton, Prod.mk.injEq, ← h.mem k c]
    by_cases hk : k = r.endpoint
    · subst hk
      simp
    · simp [hk]
  · show (Function.update rpc.conns r.endpoint (rpc.conns r.endpoint ++ [rpc.allocated]) k).Nodup
    by_cases hk : k = r.endpoint
    · subst hk
      rw [Function.update_self]
      exact (h.nodup _).append (List.nodup_singleton _) (List.disjoint_singleton.mpr (hnew _))
    · rw [Function.update_of_ne hk]
      exact h.nodup k
  · rw [List.map_append, List.map_singleton]
    refine h.distinct.append (List.nodup_singleton _) (List.disjoint_singleton.mpr fun hmem => ?_)
    obtain ⟨x, hx, hx'⟩ := List.mem_map.mp hmem
    exact absurd (h.fresh x hx) (by rw [hx']; exact lt_irrefl _)
  · obtain hx | hx := List.mem_append.mp hx
    · exact Nat.lt_succ_of_lt (h.fresh x hx)
    · rw [List.mem_singleton.mp hx]
      exact Nat.lt_succ_self _
  · obtain hx | hx := List.mem_append.mp hx
    · exact h.named x hx
    · rw [List.mem_singleton.mp hx]
      exact hname

theorem filed_readEnds (h : Filed rpc) {i : Nat} {x : String × FlowConnection} (hi : rpc.readers[i]? = some x) :
    Filed { deleteConnection rpc x.1 x.2 with readers := rpc.readers.eraseIdx i } := by
  have hx : x ∈ rpc.readers := List.mem_of_getElem? hi
  have hsub : ∀ y ∈ rpc.readers.eraseIdx i, y ∈ rpc.readers := fun y hy => List.mem_of_mem_eraseIdx hy
  refine ⟨fun k c => ?_, fun k => ?_, ?_, fun y hy => h.fresh y (hsub y hy), fun y hy => h.named y (hsub y hy)⟩
  · show c ∈ Function.update rpc.conns x.1 ((rpc.conns x.1).erase x.2) k ↔ (k, c) ∈ rpc.readers.eraseIdx i
    rw [Pool.mem_eraseIdx_iff h.distinct hi]
    by_cases hk : k = x.1
    · subst hk
      rw [Function.update_self, (h.nodup _).mem_erase_iff, h.mem, and_comm]
    · rw [Function.update_of_ne hk, h.mem, iff_self_and]
      intro hc hsame
      exact hk (congrArg Prod.fst (List.inj_on_of_nodup_map h.distinct hc hx hsame))
  · show (Function.update rpc.conns x.1 ((rpc.conns x.1).erase x.2) k).Nodup
    by_cases hk : k = x.1
    · subst hk
      rw [Function.update_self]
      exact (h.nodup _).erase _
    · rw [Function.update_of_ne hk]
      exact h.nodup k
  · exact h.distinct.sublist ((List.eraseIdx_sublist _ _).map _)

theorem filed_serveStep (h : Filed rpc) (e : ServeEvent) : Filed (serveStep conf rpc e) := by
  cases e with
  | serve r =>
      simp only [serveStep]
      cases hserve : serve conf rpc r with
      | error response => exact h
      | ok rpc' => exact filed_serve h hserve
  | readEnds i =>
      simp only [serveStep]
      cases hi : rpc.readers[i]? with
      | none => exact h
      | some x => exact filed_readEnds h hi

theorem filed_run (events : List ServeEvent) : Filed (run (serveStep conf) {} events) := by
  have hstep : ∀ rpc e, Filed rpc → Filed (serveStep conf rpc e) := fun _ e h => filed_serveStep h e
  exact invariant (serveStep conf) hstep filed_initial events

theorem mem_of_load {intN : (n : Nat) → Fin (n + 1)} {endpointID : String} {c : FlowConnection}
    (h : load intN rpc endpointID = some c) : c ∈ rpc.conns endpointID := by
  unfold load at h
  split at h
  · cases h
  · next c' hconns =>
    rw [hconns, Option.some.inj h]
    exact List.mem_singleton_self c
  · next c' cs _ hconns =>
    rw [hconns, ← Option.some.inj h]
    exact List.get_mem _ _

theorem exists_load (intN : (n : Nat) → Fin (n + 1)) {endpointID : String} (h : rpc.conns endpointID ≠ []) :
    ∃ c, load intN rpc endpointID = some c := by
  unfold load
  split
  · next hconns => exact absurd hconns h
  · exact ⟨_, rfl⟩
  · exact ⟨_, rfl⟩

end Filed

/-! ### The way of a call to a connection -/

/-- What `BridgeCall` has found when it compares the type of the endpoint. -/
structure MatchedCall where
  fromEndpoint : ConfigEndpoint
  routeConf : ConfigRoute
  toEndpoint : ConfigEndpoint
  outboundURI : String

section Call

variable (deps : Deps) (pbx : PBX) (rx : RouteExternals) (req : Request) (fromUser toUser : String)

/-- `BridgeCall` as far as that comparison. -/
def matchCall : Except Stop MatchedCall :=
  match matchEndpoint deps pbx.conf req with
  | .error _ => throw .panicked
  | .ok none => throw (.respond 403 "Forbidden")
  | .ok (some fromEndpoint) => do
      authorizeInboundDialog rx req fromUser fromEndpoint
      orReturn rx.trying
      match matchIncomingRoute pbx.conf toUser fromEndpoint.route with
      | some (routeConf, true) =>
          if routeConf.hangup.code > 0 then
            throw (.respond routeConf.hangup.code
              (if routeConf.hangup.reason = "" then sipResponseReason routeConf.hangup.code else routeConf.hangup.reason))
          else do
            let (toEndpoint, uri) ← endpointLoadOutboundURI pbx rx toUser routeConf
            if uri = "" then throw (.respond 487 "RequestTerminated")
            else return ⟨fromEndpoint, routeConf, toEndpoint, uri⟩
      | _ => throw (.respond 487 "RequestTerminated")

/-- `BridgeCall` from there on. -/
def dialMatched (call : MatchedCall) : Except Stop BridgeArgs := do
  let (toEndpoint, uri) ← redirectFlow pbx rx call.toEndpoint call.outboundURI
  let outboundURI ← parseOutboundURI rx uri
  limitOutgoing pbx rx
  orReturn rx.ringing
  return {
    outboundURI := { outboundURI with user := Strings.trimPrefix toUser call.routeConf.stripPrefix }
    routeConf := call.routeConf
    fromEndpoint := call.fromEndpoint
    toEndpoint := toEndpoint }

theorem routeCall_eq : routeCall deps pbx rx req fromUser toUser =
    matchCall deps pbx rx req fromUser toUser >>= dialMatched pbx rx toUser := by
  unfold routeCall matchCall
  cases matchEndpoint deps pbx.conf req with
  | error e => rfl
  | ok matched => cases matched with
    | none => rfl
    | some fromEndpoint =>
        dsimp only
        rw [bind_assoc]
        refine bind_congr fun _ => ?_
        rw [bind_assoc]
        refine bind_congr fun _ => ?_
        obtain _ | ⟨routeConf, _ | _⟩ := matchIncomingRoute pbx.conf toUser fromEndpoint.route
        · rfl
        · rfl
        · dsimp only
          by_cases hhangup : routeConf.hangup.code > 0
          · rw [if_pos hhangup, if_pos hhangup]
            rfl
          · rw [if_neg hhangup, if_neg hhangup, bind_assoc]
            refine bind_congr fun x => ?_
            by_cases huri : x.2 = ""
            · rw [if_pos huri, if_pos huri]
              rfl
            · rw [if_neg huri, if_neg huri]
              rfl

/-- The call is handed to a connection: it is one to a `flow` endpoint, and `NewServerDialog` loads the connection
for the id that `BridgeCall` gives it. -/
def HandedTo (intN : (n : Nat) → Fin (n + 1)) (rpc : FlowRPC) (c : FlowConnection) : Prop :=
  ∃ call, matchCall deps pbx rx req fromUser toUser = .ok call ∧ call.toEndpoint.match.type = "flow" ∧
    load intN rpc call.toEndpoint.name = some c

/-- The call comes to match a route. -/
structure Matches (fromEndpoint : ConfigEndpoint) (routeConf : ConfigRoute) : Prop where
  source : matchEndpoint deps pbx.conf req = .ok (some fromEndpoint)
  authorized : authorizeInboundDialog rx req fromUser fromEndpoint = .ok ()
  trying : rx.trying = .returned true
  route : matchIncomingRoute pbx.conf toUser fromEndpoint.route = some (routeConf, true)

end Call

/-- `NewServerDialog`, by what the agent of a connection makes of a dialog. Without a connection it is an error. -/
def newServerDialog (intN : (n : Nat) → Fin (n + 1)) (rpc : FlowRPC)
    (agent : FlowConnection → Exit (Option ConfigEndpoint)) (toEndpointId : String) : Exit (Option ConfigEndpoint) :=
  match load intN rpc toEndpointId with
  | none => .returned none
  | some c => agent c

/-- The agents take the calls that are handed to their connections. -/
def withAgents (rx : RouteExternals) (intN : (n : Nat) → Fin (n + 1)) (rpc : FlowRPC)
    (agent : FlowConnection → Exit (Option ConfigEndpoint)) : RouteExternals :=
  { rx with newServerDialog := newServerDialog intN rpc agent }

/-- The flag is not exported, so no document sets it. -/
def Unexported (endpoints : StringMap ConfigEndpoint) : Prop := ∀ x ∈ endpoints.entries, x.2.useRegistry = false

section HandedTo

variable {deps : Deps} {pbx : PBX} {rx : RouteExternals} {req : Request} {fromUser toUser : String}
  {intN : (n : Nat) → Fin (n + 1)} {rpc : FlowRPC} {fromEndpoint : ConfigEndpoint} {routeConf : ConfigRoute}

/-- What comes of a call is up to the agent of the connection it is handed to, and to no other. -/
theorem routeCall_congr {c : FlowConnection} (h : HandedTo deps pbx rx req fromUser toUser intN rpc c)
    {agent agent' : FlowConnection → Exit (Option ConfigEndpoint)} (hagent : agent c = agent' c) :
    routeCall deps pbx (withAgents rx intN rpc agent) req fromUser toUser =
      routeCall deps pbx (withAgents rx intN rpc agent') req fromUser toUser := by
  obtain ⟨call, hcall, -, hload⟩ := h
  have hmatch : ∀ agent, matchCall deps pbx (withAgents rx intN rpc agent) req fromUser toUser = .ok call :=
    fun _ => hcall
  have hdialog : ∀ agent, (withAgents rx intN rpc agent).newServerDialog call.toEndpoint.name = agent c := by
    intro agent
    show newServerDialog intN rpc agent call.toEndpoint.name = agent c
    rw [newServerDialog, hload]
  rw [routeCall_eq, routeCall_eq, hmatch, hmatch]
  show dialMatched _ _ _ call = dialMatched _ _ _ call
  unfold dialMatched redirectFlow
  rw [hdialog, hdialog, hagent]
  rfl

theorem useRegistry_normalizeEndpoint {name : String} {e e' : ConfigEndpoint}
    (h : normalizeEndpoint deps name e = .ok e') : e'.useRegistry = e.useRegistry := by
  unfold normalizeEndpoint at h
  dsimp only at h
  generalize hnamed : (if e.name = "" then { e with name := name } else e) = named at h
  generalize hrouted : (if named.route = "" then { named with route := "default" } else named) = routed at h
  have hrouted' : routed.useRegistry = e.useRegistry := by
    rw [← hrouted, ← hnamed]
    split_ifs <;> rfl
  rw [← hrouted']
  split_ifs at h with hcontact
  · rw [Except.ok.inj h]
  · split at h
    · cases h
    · rw [← Except.ok.inj h]
    · cases h

theorem unexported_of_configLoad {doc : YamlDocument} {c conf : Config}
    (h : configLoad deps doc c = (conf, none)) (hdoc : Unexported (doc.decode c).1.endpoints) :
    Unexported conf.endpoints := by
  obtain ⟨-, -, hentries, -⟩ := configLoad_ok h
  intro x hx
  rw [hentries] at hx
  obtain ⟨y, hy, rfl⟩ := List.mem_map.mp hx
  show ((normalizeEndpoint deps y.1 y.2).toOption.getD y.2).useRegistry = false
  cases hnormal : normalizeEndpoint deps y.1 y.2 with
  | error err => exact hdoc y hy
  | ok e => exact (useRegistry_normalizeEndpoint hnormal).trans (hdoc y hy)

theorem hangup_of_validate (hvalid : validate pbx.conf = .ok ()) {routeID : String}
    (hroute : matchIncomingRoute pbx.conf toUser routeID = some (routeConf, true))
    (hregistry : routeConf.useRegistry = false) (hname : routeConf.endpointName ≠ "") :
    ¬ routeConf.hangup.code > 0 := by
  obtain ⟨routeCtx, hentry, hr⟩ := mem_of_matchIncomingRoute hroute
  have hvalidated := (validate_ok hvalid).1 _ hentry routeConf hr
  intro hhangup
  rw [validateRoute, hregistry, if_neg Bool.false_ne_true, if_pos hhangup, if_pos hname] at hvalidated
  cases hvalidated

theorem matchCall_flow (hvalid : validate pbx.conf = .ok ()) (hunexported : Unexported pbx.conf.endpoints)
    (hmatches : Matches deps pbx rx req fromUser toUser fromEndpoint routeConf)
    (hregistry : routeConf.useRegistry = false) (hname : routeConf.endpointName ≠ "") {e : ConfigEndpoint}
    (hlookup : pbx.conf.endpoints.lookup routeConf.endpointName = some e) (hflow : e.match.type = "flow") :
    ∃ uri, matchCall deps pbx rx req fromUser toUser = .ok ⟨fromEndpoint, routeConf, e, uri⟩ := by
  have hhangup := hangup_of_validate hvalid hmatches.route hregistry hname
  have hexported : e.useRegistry = false := hunexported ⟨_, e⟩ (AList.mem_lookup_iff.mp hlookup)
  have houtgoing : matchOutgoingRouteEndpoint pbx.conf toUser routeConf = some e := by
    rw [matchOutgoingRouteEndpoint, hregistry, if_neg Bool.false_ne_true, if_neg hname, hlookup]
  obtain ⟨uri, huri, hresolve⟩ : ∃ uri, uri ≠ "" ∧ endpointResolveOutboundURI pbx rx e = .ok uri := by
    unfold endpointResolveOutboundURI
    rw [hexported, if_neg Bool.false_ne_true]
    by_cases huri : e.uri = ""
    · rw [if_neg (not_not.mpr huri), hflow, if_neg (by decide), if_pos rfl]
      exact ⟨"flow", by decide, rfl⟩
    · rw [if_pos huri]
      exact ⟨e.uri, huri, rfl⟩
  refine ⟨uri, ?_⟩
  have hload : endpointLoadOutboundURI pbx rx toUser routeConf = .ok (e, uri) := by
    rw [endpointLoadOutboundURI, houtgoing]
    show (endpointResolveOutboundURI pbx rx e >>= fun uri => pure (e, uri)) = _
    rw [hresolve]
    rfl
  have htrying : orReturn rx.trying = .ok () := by
    rw [hmatches.trying]
    rfl
  rw [matchCall, hmatches.source]
  dsimp only
  rw [hmatches.authorized, htrying, hmatches.route]
  show (if routeConf.hangup.code > 0 then _ else endpointLoadOutboundURI pbx rx toUser routeConf >>= _) = _
  rw [if_neg hhangup, hload]
  show (if uri = "" then _ else _) = _
  rw [if_neg huri]
  rfl

/-- In every state with a connection for the key of its endpoint a call is handed to one of the connections for that
key, exactly when the endpoint bears its key as its name. -/
theorem handedTo_iff (hvalid : validate pbx.conf = .ok ()) (hunexported : Unexported pbx.conf.endpoints)
    (hmatches : Matches deps pbx rx req fromUser toUser fromEndpoint routeConf)
    (hregistry : routeConf.useRegistry = false) {e : ConfigEndpoint}
    (hlookup : pbx.conf.endpoints.lookup routeConf.endpointName = some e) (hflow : e.match.type = "flow")
    (events : List ServeEvent) {c : FlowConnection}
    (hc : (routeConf.endpointName, c) ∈ (run (serveStep pbx.conf) {} events).readers) :
    (∃ c, HandedTo deps pbx rx req fromUser toUser intN (run (serveStep pbx.conf) {} events) c ∧
      (routeConf.endpointName, c) ∈ (run (serveStep pbx.conf) {} events).readers) ↔
      e.name = routeConf.endpointName := by
  have hfiled : Filed (run (serveStep pbx.conf) {} events) := filed_run events
  generalize run (serveStep pbx.conf) {} events = rpc at hc hfiled ⊢
  obtain ⟨uri, hcall⟩ := matchCall_flow hvalid hunexported hmatches hregistry (hfiled.named _ hc) hlookup hflow
  constructor
  · rintro ⟨c', ⟨call, hcall', -, hload⟩, hc'⟩
    rw [hcall, Except.ok.injEq] at hcall'
    subst hcall'
    have hreads := (hfiled.mem _ _).mp (mem_of_load hload)
    exact congrArg Prod.fst (List.inj_on_of_nodup_map hfiled.distinct hreads hc' rfl)
  · intro hname
    have hconns : rpc.conns e.name ≠ [] := by
      rw [hname]
      exact List.ne_nil_of_mem ((hfiled.mem _ _).mpr hc)
    obtain ⟨c', hload⟩ := exists_load intN hconns
    refine ⟨c', ⟨_, hcall, hflow, hload⟩, ?_⟩
    rw [← hfiled.mem, ← hname]
    exact mem_of_load hload

end HandedTo

/-! ### An agent -/

/-- Calls of alice, all of which go to the endpoint under the key `"agent"`. -/
def agentDocument (name : String) : YamlDocument where
  decode _ :=
    ({ endpoints :=
        ⟨[⟨"alice", { «match» := { type := "user" } }⟩, ⟨"agent", { name := name, «match» := { type := "flow" } }⟩],
          by simp [List.NodupKeys, List.keys]⟩
       routes := AList.singleton "default" (some [{ «match» := "any", endpointName := "agent" }]) }, none)
  endpointKeys := ["alice", "agent"]

def agentPBX (name : String) : PBX := { conf := (configLoad plainDeps (agentDocument name) {}).1 }

/-- One connection has been accepted. -/
def agentEvents : List ServeEvent := [.serve { endpoint := "agent" }]

theorem agentDocument_unexported (name : String) : Unexported ((agentDocument name).decode {}).1.endpoints := by
  intro x hx
  change x ∈ [_, _] at hx
  simp only [List.mem_cons, List.not_mem_nil, or_false] at hx
  obtain rfl | rfl := hx
  · rfl
  · rfl

theorem agentPBX_loaded : ∀ name ∈ ["", "support"],
    configLoad plainDeps (agentDocument name) {} = ((agentPBX name).conf, none) ∧
      validate (agentPBX name).conf = .ok () ∧
      Matches plainDeps (agentPBX name) plainRouteExternals aliceRequest "alice" "bob"
        { name := "alice", «match» := { type := "user" }, route := "default" }
        { «match» := "any", endpointName := "agent" } := by
  intro name hname
  simp only [List.mem_cons, List.not_mem_nil, or_false] at hname
  obtain rfl | rfl := hname
  · exact ⟨Prod.ext rfl rfl, by decide, rfl, rfl, rfl, by decide⟩
  · exact ⟨Prod.ext rfl rfl, by decide, rfl, rfl, rfl, by decide⟩

theorem handedTo_agent :
    ∃ c, HandedTo plainDeps (agentPBX "") plainRouteExternals aliceRequest "alice" "bob" Fin.last
      (run (serveStep (agentPBX "").conf) {} agentEvents) c ∧
        ("agent", c) ∈ (run (serveStep (agentPBX "").conf) {} agentEvents).readers := by
  obtain ⟨hload, hvalid, hmatches⟩ := agentPBX_loaded "" (by decide)
  have hunexported := unexported_of_configLoad hload (agentDocument_unexported "")
  let e : ConfigEndpoint := { name := "agent", «match» := { type := "flow" }, route := "default" }
  have hlookup : (agentPBX "").conf.endpoints.lookup "agent" = some e := rfl
  have hreads : ("agent", 0) ∈ (run (serveStep (agentPBX "").conf) {} agentEvents).readers := by decide
  exact (handedTo_iff hvalid hunexported hmatches rfl hlookup rfl agentEvents hreads).mpr rfl

/-- One that is called `"support"` is not: its connection is filed under `"agent"`. -/
theorem not_handedTo :
    ¬ ∀ (deps : Deps) (doc : YamlDocument) (pbx : PBX) (rx : RouteExternals) (req : Request) (fromUser toUser : String)
      (intN : (n : Nat) → Fin (n + 1)) (fromEndpoint : ConfigEndpoint) (routeConf : ConfigRoute) (e : ConfigEndpoint)
      (events : List ServeEvent) (c : FlowConnection),
      configLoad deps doc {} = (pbx.conf, none) → Unexported (doc.decode {}).1.endpoints → validate pbx.conf = .ok () →
      Matches deps pbx rx req fromUser toUser fromEndpoint routeConf → routeConf.useRegistry = false →
      pbx.conf.endpoints.lookup routeConf.endpointName = some e → e.match.type = "flow" →
      (routeConf.endpointName, c) ∈ (run (serveStep pbx.conf) {} events).readers →
      ∃ c, HandedTo deps pbx rx req fromUser toUser intN (run (serveStep pbx.conf) {} events) c ∧
        (routeConf.endpointName, c) ∈ (run (serveStep pbx.conf) {} events).readers := by
  intro h
  obtain ⟨hload, hvalid, hmatches⟩ := agentPBX_loaded "support" (by decide)
  let e : ConfigEndpoint := { name := "support", «match» := { type := "flow" }, route := "default" }
  have hlookup : (agentPBX "support").conf.endpoints.lookup "agent" = some e := rfl
  have hreads : ("agent", 0) ∈ (run (serveStep (agentPBX "support").conf) {} agentEvents).readers := by decide
  obtain ⟨c, ⟨call, hcall, -, hhanded⟩, -⟩ := h plainDeps (agentDocument "support") (agentPBX "support")
    plainRouteExternals aliceRequest "alice" "bob" Fin.last _ _ e agentEvents 0 hload
    (agentDocument_unexported "support") hvalid hmatches rfl hlookup rfl hreads
  obtain rfl : ⟨{ name := "alice", «match» := { type := "user" }, route := "default" },
      { «match» := "any", endpointName := "agent" }, e, "flow"⟩ = call :=
    Except.ok.inj ((show matchCall plainDeps (agentPBX "support") plainRouteExternals aliceRequest "alice" "bob" = _
      from rfl).symm.trans hcall)
  cases hhanded

end Flow
