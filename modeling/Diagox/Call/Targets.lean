import Diagox.Call.Records
import Diagox.Routing.References

/-!
# Two ways to dial an endpoint

`BridgeCall` and `bridgeAnswer` dial the endpoint of a route, `inviteFallback` the endpoints the route falls back to.
The first way reads the registry and the default URI, writes the dialed user into the URI and takes the credentials of
the endpoint. The second has the URI of the endpoint as it stands, and the options of the INVITE that has failed.
-/

namespace Call

open Defer Configuration Sip Routing

/-- An INVITE: where it goes, and what a challenge is answered with. -/
structure Invite where
  uri : Uri
  username : String := ""
  password : String := ""
  deriving DecidableEq, Repr

/-- The INVITE of `bridgeAnswer`. `InviteWebrtc` has no credentials among its options. -/
def bridgeInvite (outboundURI : Uri) (toEndpoint : ConfigEndpoint) : Invite :=
  if toEndpoint.media.type = "webrtc" then { uri := outboundURI }
  else { uri := outboundURI, username := toEndpoint.auth.username, password := toEndpoint.auth.password }

section Invites

variable (pbx : PBX) (rx : RouteExternals)

def parsed (uri : String) : Option Uri :=
  match rx.parseUri uri with
  | .returned uri => uri
  | .panicked => none

/-- The INVITE of `inviteFallback`, with the options made for `toEndpoint`. -/
def fallbackInvite (toEndpoint endpoint : ConfigEndpoint) : Option Invite :=
  (parsed rx endpoint.uri).map fun uri =>
    { uri := uri, username := toEndpoint.auth.username, password := toEndpoint.auth.password }

/-- What `BridgeCall` hands to `bridgeAnswer` on a route. -/
def routeTarget (toUser : String) (routeConf : ConfigRoute) : Except Stop (Uri × ConfigEndpoint) := do
  let (toEndpoint, uri) ← endpointLoadOutboundURI pbx rx toUser routeConf
  if uri = "" then throw (.respond 487 "RequestTerminated")
  else do
    let (toEndpoint, uri) ← redirectFlow pbx rx toEndpoint uri
    let outboundURI ← parseOutboundURI rx uri
    return ({ outboundURI with user := Strings.trimPrefix toUser routeConf.stripPrefix }, toEndpoint)

/-- The INVITE of a call on a route, if the call comes to one. -/
def routeInvite (toUser : String) (routeConf : ConfigRoute) : Option Invite :=
  (routeTarget pbx rx toUser routeConf).toOption.map fun target => bridgeInvite target.1 target.2

/-- What the route makes of its endpoint. -/
def routed (toUser : String) (routeConf : ConfigRoute) (e : ConfigEndpoint) : ConfigEndpoint :=
  if routeConf.useRegistry then { e with name := toUser, useRegistry := true } else e

/-- A call without a URI to dial is ended before the URI is parsed. -/
def dialable : Except Stop String → Option Uri
  | .ok uri => if uri = "" then none else parsed rx uri
  | .error _ => none

def resolved (e : ConfigEndpoint) : Option Uri := dialable rx (endpointResolveOutboundURI pbx rx e)

def registered (e : ConfigEndpoint) : Option Uri :=
  match rx.registeredURI e with
  | .returned uri => parsed rx uri
  | .panicked => none

end Invites

section Routes

variable {deps : Deps} {pbx : PBX} {rx : RouteExternals} {req : Request} {fromUser toUser : String}
  {routeConf : ConfigRoute} {args : BridgeArgs} {endName : String} {e toEndpoint : ConfigEndpoint}

/-- A call that comes to a bridge sends the INVITE of its route. -/
theorem routeInvite_of_routeCall (h : routeCall deps pbx rx req fromUser toUser = .ok args) :
    routeInvite pbx rx toUser args.routeConf = some (bridgeInvite args.outboundURI args.toEndpoint) := by
  suffices htarget : routeTarget pbx rx toUser args.routeConf = .ok (args.outboundURI, args.toEndpoint) by
    rw [routeInvite, htarget]
    rfl
  unfold routeCall at h
  split at h
  · cases h
  · cases h
  obtain ⟨_, -, h⟩ := bind_eq_ok.mp h
  obtain ⟨_, -, h⟩ := bind_eq_ok.mp h
  split at h
  · split_ifs at h
    obtain ⟨⟨toEndpoint, uri⟩, hload, h⟩ := bind_eq_ok.mp h
    dsimp only at h
    split_ifs at h with huri
    obtain ⟨⟨toEndpoint', uri'⟩, hflow, h⟩ := bind_eq_ok.mp h
    obtain ⟨outboundURI, hparse, h⟩ := bind_eq_ok.mp h
    obtain ⟨_, -, h⟩ := bind_eq_ok.mp h
    obtain ⟨_, -, h⟩ := bind_eq_ok.mp h
    cases h
    refine bind_eq_ok.mpr ⟨_, hload, ?_⟩
    dsimp only
    rw [if_neg huri]
    exact bind_eq_ok.mpr ⟨_, hflow, bind_eq_ok.mpr ⟨_, hparse, rfl⟩⟩
  · cases h

/-- A turn goes on to `NewDialog` when there is an INVITE to send. -/
theorem turn_eq {ext : Externals} {cx : CallContext} {i : Nat} (hlookup : cx.endpoints.lookup endName = some e)
    (hparse : ext.parseUri e.uri = .returned (parsed rx e.uri).isSome) :
    turn ext cx routeConf i endName =
      if (fallbackInvite rx toEndpoint e).isSome then
        match ext.newDialog (.fallback i) with
        | .panicked => .panicked
        | .returned false => .stopped false
        | .returned true => inviteTurn routeConf (ext.invite (.fallback i))
      else .stopped false := by
  unfold turn fallbackInvite
  rw [hlookup]
  simp only [hparse, Option.isSome_map]
  cases (parsed rx e.uri).isSome with
  | true => rfl
  | false => rfl

theorem matchOutgoingRouteEndpoint_own (hlookup : pbx.conf.endpoints.lookup endName = some e) (hname : endName ≠ "") :
    matchOutgoingRouteEndpoint pbx.conf toUser { routeConf with endpointName := endName } =
      some (routed toUser routeConf e) := by
  unfold matchOutgoingRouteEndpoint routed
  split_ifs
  · simp [hlookup]
  · exact hlookup

theorem routed_match : (routed toUser routeConf e).match = e.match := by
  unfold routed
  split_ifs
  · rfl
  · rfl

theorem toOption_parseOutboundURI (uri : String) : (parseOutboundURI rx uri).toOption = parsed rx uri := by
  unfold parseOutboundURI parsed
  obtain (_ | outboundURI) | _ := rx.parseUri uri
  · rfl
  · rfl
  · rfl

theorem routeInvite_own (hlookup : pbx.conf.endpoints.lookup endName = some e) (hname : endName ≠ "")
    (hflow : e.match.type ≠ "flow") :
    routeInvite pbx rx toUser { routeConf with endpointName := endName } =
      (resolved pbx rx (routed toUser routeConf e)).map fun uri =>
        bridgeInvite { uri with user := Strings.trimPrefix toUser routeConf.stripPrefix }
          (routed toUser routeConf e) := by
  have hnotFlow : (routed toUser routeConf e).match.type ≠ "flow" := by rwa [routed_match]
  unfold routeInvite routeTarget endpointLoadOutboundURI resolved dialable
  rw [matchOutgoingRouteEndpoint_own hlookup hname]
  dsimp only
  cases hresolve : endpointResolveOutboundURI pbx rx (routed toUser routeConf e) with
  | error stop => rfl
  | ok uri =>
      by_cases huri : uri = ""
      · simp only [huri, if_true]
        rfl
      · have hredirect :
            redirectFlow pbx rx (routed toUser routeConf e) uri = .ok (routed toUser routeConf e, uri) := by
          rw [redirectFlow, if_neg hnotFlow]
          rfl
        show Option.map _ (Except.toOption (if uri = "" then _ else redirectFlow _ _ _ _ >>= _)) = _
        rw [if_neg huri, hredirect]
        simp only [if_neg huri, ← toOption_parseOutboundURI]
        show Option.map _ (Except.toOption (parseOutboundURI rx uri >>= _)) = _
        cases parseOutboundURI rx uri with
        | error stop => rfl
        | ok outboundURI => rfl

/-! ### The same INVITE -/

def withUser (toUser : String) (routeConf : ConfigRoute) (uri : Uri) : Uri :=
  { uri with user := Strings.trimPrefix toUser routeConf.stripPrefix }

/-- The registry is asked where to dial an endpoint. -/
def ReadsRegistry (routeConf : ConfigRoute) (e : ConfigEndpoint) : Prop :=
  routeConf.useRegistry = true ∨ e.useRegistry = true ∨ e.uri = "" ∧ e.match.type = "user"

instance : Decidable (ReadsRegistry routeConf e) := inferInstanceAs (Decidable (_ ∨ _))

theorem parsed_empty (hempty : rx.parseUri "" = .returned none) : parsed rx "" = none := by
  unfold parsed
  rw [hempty]

theorem dialable_ok (hempty : rx.parseUri "" = .returned none) (uri : String) :
    dialable rx (.ok uri) = parsed rx uri := by
  show (if uri = "" then none else parsed rx uri) = parsed rx uri
  split_ifs with huri
  · rw [huri, parsed_empty hempty]
  · rfl

theorem dialable_registered (hempty : rx.parseUri "" = .returned none) (e : ConfigEndpoint) :
    dialable rx (orPanic (rx.registeredURI e)) = registered rx e := by
  unfold registered
  cases rx.registeredURI e with
  | panicked => rfl
  | returned uri => exact dialable_ok hempty uri

theorem resolved_routed (hempty : rx.parseUri "" = .returned none) (hflow : e.match.type ≠ "flow") :
    resolved pbx rx (routed toUser routeConf e) =
      if ReadsRegistry routeConf e then registered rx (routed toUser routeConf e)
      else if e.uri = "" then parsed rx pbx.outboundDialUri
      else parsed rx e.uri := by
  by_cases hroute : routeConf.useRegistry = true
  · have hreads : ReadsRegistry routeConf e := .inl hroute
    simp only [resolved, endpointResolveOutboundURI, routed, hroute, hreads, if_true]
    exact dialable_registered hempty _
  have hrouted : routed toUser routeConf e = e := if_neg hroute
  rw [hrouted]
  by_cases he : e.useRegistry = true
  · have hreads : ReadsRegistry routeConf e := .inr (.inl he)
    simp only [resolved, endpointResolveOutboundURI, he, hreads, if_true]
    exact dialable_registered hempty _
  by_cases huri : e.uri = ""
  · by_cases huser : e.match.type = "user"
    · have hreads : ReadsRegistry routeConf e := .inr (.inr ⟨huri, huser⟩)
      simp only [resolved, endpointResolveOutboundURI, he, huri, huser, hreads, if_true, ne_eq, not_true, if_false]
      exact dialable_registered hempty _
    · have hreads : ¬ReadsRegistry routeConf e := by simp [ReadsRegistry, hroute, he, huser]
      simp only [resolved, endpointResolveOutboundURI, he, huri, huser, hflow, hreads, if_true, ne_eq, not_true,
        if_false]
      exact dialable_ok hempty _
  · have hreads : ¬ReadsRegistry routeConf e := by simp [ReadsRegistry, hroute, he, huri]
    simp only [resolved, endpointResolveOutboundURI, he, huri, hreads, ne_eq, not_false_eq_true, if_true, if_false]
    exact dialable_ok hempty _

/-- The fallback to an endpoint sends what the route sends where the endpoint is its own, with the credentials of the
endpoint. -/
structure DialedAlike (pbx : PBX) (rx : RouteExternals) (toUser : String) (routeConf : ConfigRoute)
    (toEndpoint : ConfigEndpoint) (endName : String) (e : ConfigEndpoint) : Prop where
  same : fallbackInvite rx toEndpoint e = routeInvite pbx rx toUser { routeConf with endpointName := endName }
  own : ∀ invite, fallbackInvite rx toEndpoint e = some invite →
    invite.username = e.auth.username ∧ invite.password = e.auth.password

/-- The fallback endpoint has the credentials of the endpoint that was dialed first. For WebRTC there are none. -/
def SameCredentials (toEndpoint e : ConfigEndpoint) : Prop :=
  toEndpoint.auth.username = e.auth.username ∧ toEndpoint.auth.password = e.auth.password ∧
    (e.media.type = "webrtc" → e.auth.username = "" ∧ e.auth.password = "")

structure FallsBackAlike (pbx : PBX) (rx : RouteExternals) (toUser : String) (routeConf : ConfigRoute)
    (toEndpoint e : ConfigEndpoint) : Prop where
  credentials : parsed rx e.uri ≠ none → SameCredentials toEndpoint e
  /-- The URI of the endpoint is that of its contact. -/
  contact : ReadsRegistry routeConf e →
    parsed rx e.uri = (registered rx (routed toUser routeConf e)).map (withUser toUser routeConf)
  /-- An endpoint with no URI has no default either. -/
  noDefault : ¬ReadsRegistry routeConf e → e.uri = "" → parsed rx pbx.outboundDialUri = none
  /-- The user is in the URI of the endpoint already. -/
  user : ¬ReadsRegistry routeConf e → e.uri ≠ "" →
    ∀ uri, parsed rx e.uri = some uri → uri.user = Strings.trimPrefix toUser routeConf.stripPrefix

theorem bridgeInvite_routed (uri : Uri) : bridgeInvite uri (routed toUser routeConf e) = bridgeInvite uri e := by
  unfold bridgeInvite routed
  split_ifs
  · rfl
  · rfl
  · rfl
  · rfl

theorem bridgeInvite_uri (uri : Uri) : (bridgeInvite uri e).uri = uri := by
  unfold bridgeInvite
  split_ifs
  · rfl
  · rfl

theorem sameCredentials_iff {uri : Uri} :
    SameCredentials toEndpoint e ↔
      { uri := uri, username := toEndpoint.auth.username, password := toEndpoint.auth.password } = bridgeInvite uri e ∧
        toEndpoint.auth.username = e.auth.username ∧ toEndpoint.auth.password = e.auth.password := by
  unfold SameCredentials bridgeInvite
  split_ifs with hwebrtc
  · simp only [Invite.mk.injEq, true_and, hwebrtc, true_implies]
    constructor
    · intro ⟨huser, hpass, huser', hpass'⟩
      exact ⟨⟨huser.trans huser', hpass.trans hpass'⟩, huser, hpass⟩
    · intro ⟨⟨huser, hpass⟩, huser', hpass'⟩
      exact ⟨huser', hpass', huser'.symm.trans huser, hpass'.symm.trans hpass⟩
  · simp [hwebrtc]

theorem dialedAlike_iff_target (hlookup : pbx.conf.endpoints.lookup endName = some e) (hname : endName ≠ "")
    (hflow : e.match.type ≠ "flow") :
    DialedAlike pbx rx toUser routeConf toEndpoint endName e ↔
      parsed rx e.uri = (resolved pbx rx (routed toUser routeConf e)).map (withUser toUser routeConf) ∧
        (parsed rx e.uri ≠ none → SameCredentials toEndpoint e) := by
  have hroute : routeInvite pbx rx toUser { routeConf with endpointName := endName } =
      ((resolved pbx rx (routed toUser routeConf e)).map (withUser toUser routeConf)).map fun uri =>
        bridgeInvite uri e := by
    rw [routeInvite_own hlookup hname hflow, Option.map_map]
    congr 1
    funext uri
    exact bridgeInvite_routed _
  constructor
  · intro ⟨hsame, hown⟩
    rw [hroute] at hsame
    have huris := congrArg (Option.map Invite.uri) hsame
    rw [fallbackInvite, Option.map_map, Option.map_map] at huris
    have htarget : parsed rx e.uri = (resolved pbx rx (routed toUser routeConf e)).map (withUser toUser routeConf) := by
      simpa [Function.comp_def, bridgeInvite_uri] using huris
    refine ⟨htarget, fun hne => ?_⟩
    obtain ⟨uri, huri⟩ := Option.ne_none_iff_exists'.mp hne
    have hinvite : fallbackInvite rx toEndpoint e =
        some { uri := uri, username := toEndpoint.auth.username, password := toEndpoint.auth.password } := by
      rw [fallbackInvite, huri]
      rfl
    rw [← htarget, huri] at hsame
    exact sameCredentials_iff.mpr ⟨Option.some.inj (hinvite.symm.trans hsame), hown _ hinvite⟩
  · intro ⟨htarget, hauth⟩
    constructor
    case same =>
      rw [hroute, ← htarget, fallbackInvite]
      cases hparsed : parsed rx e.uri with
      | none => rfl
      | some uri => exact congrArg some (sameCredentials_iff.mp (hauth (by simp [hparsed]))).1
    case own =>
      intro invite hinvite
      obtain ⟨uri, huri, rfl⟩ := Option.map_eq_some_iff.mp hinvite
      exact (hauth (by simp [huri])).imp_right And.left

/-- A fallback endpoint is dialed as the endpoint of the route is, exactly when it has the URI and the credentials for
that by itself. -/
theorem dialedAlike_iff (hlookup : pbx.conf.endpoints.lookup endName = some e) (hname : endName ≠ "")
    (hflow : e.match.type ≠ "flow") (hempty : rx.parseUri "" = .returned none) :
    DialedAlike pbx rx toUser routeConf toEndpoint endName e ↔
      FallsBackAlike pbx rx toUser routeConf toEndpoint e := by
  rw [dialedAlike_iff_target hlookup hname hflow, resolved_routed hempty hflow]
  have huser : parsed rx e.uri = (parsed rx e.uri).map (withUser toUser routeConf) ↔
      ∀ uri, parsed rx e.uri = some uri → uri.user = Strings.trimPrefix toUser routeConf.stripPrefix := by
    cases parsed rx e.uri with
    | none => simp
    | some uri =>
        simp only [Option.map_some, Option.some.injEq, forall_eq', withUser]
        exact ⟨fun h => congrArg Uri.user h, fun h => by rw [← h]⟩
  by_cases hreads : ReadsRegistry routeConf e
  · rw [if_pos hreads]
    exact ⟨fun ⟨h, hauth⟩ => ⟨hauth, fun _ => h, fun h => absurd hreads h, fun h => absurd hreads h⟩,
      fun h => ⟨h.contact hreads, h.credentials⟩⟩
  by_cases huri : e.uri = ""
  · have hnone : parsed rx e.uri = none := by rw [huri, parsed_empty hempty]
    rw [if_neg hreads, if_pos huri, hnone, eq_comm, Option.map_eq_none_iff]
    exact ⟨fun ⟨h, _⟩ =>
        ⟨fun hne => absurd hnone hne, fun h => absurd h hreads, fun _ _ => h, fun _ h => absurd huri h⟩,
      fun h => ⟨h.noDefault hreads huri, fun hne => absurd rfl hne⟩⟩
  · rw [if_neg hreads, if_neg huri, huser]
    exact ⟨fun ⟨h, hauth⟩ => ⟨hauth, fun h => absurd h hreads, fun _ h => absurd h huri, fun _ _ => h⟩,
      fun h => ⟨h.user hreads huri, h.credentials⟩⟩

end Routes

/-- The URIs of the form `sip:user@host` and `sip:host`. -/
def parsePlain (uri : String) : Option Uri :=
  match Strings.split uri ':' with
  | ["sip", rest] => match Strings.split rest '@' with
    | [host] => if host = "" then none else some { scheme := "sip", host := host }
    | [user, host] => some { scheme := "sip", user := user, host := host }
    | _ => none
  | _ => none

def carrierExternals : RouteExternals := { plainRouteExternals with parseUri := fun uri => .returned (parsePlain uri) }

def carrierEndpoint (name username password : String) : ConfigEndpoint :=
  { name := name, uri := "sip:" ++ name, auth := { username := username, password := password } }

/-- Numbers with the prefix 0 go to one carrier, and to another one if it is busy. -/
def carrierRoute : ConfigRoute :=
  { busyRoute ["spare"] with id := "0", endpointName := "carrier", «match» := "prefix", stripPrefix := "0" }

def carrierPBX : PBX where
  conf :=
    { endpoints :=
        ⟨[⟨"alice", { name := "alice", «match» := { type := "user" }, route := "default" }⟩,
          ⟨"carrier", carrierEndpoint "carrier" "us" "secret"⟩, ⟨"spare", carrierEndpoint "spare" "we" "other"⟩],
          by rw [List.NodupKeys]; decide⟩
      routes := AList.singleton "default" (some [carrierRoute]) }

theorem dialedAlike_carrier :
    DialedAlike carrierPBX carrierExternals "0123" carrierRoute (carrierEndpoint "carrier" "us" "secret") "spare"
        (carrierEndpoint "spare" "we" "other") ↔
      FallsBackAlike carrierPBX carrierExternals "0123" carrierRoute (carrierEndpoint "carrier" "us" "secret")
        (carrierEndpoint "spare" "we" "other") :=
  dialedAlike_iff rfl (by decide) (by decide) (by decide)

/-- The second carrier is called without the number, and is given the password for the first one. -/
theorem not_dialedAlike :
    routeCall plainDeps carrierPBX carrierExternals { aliceRequest with toAddress := some { user := "0123" } } "alice"
        "0123" = .ok {
      outboundURI := { scheme := "sip", user := "123", host := "carrier" }
      routeConf := carrierRoute
      fromEndpoint := { name := "alice", «match» := { type := "user" }, route := "default" }
      toEndpoint := carrierEndpoint "carrier" "us" "secret" } ∧
    fallbackInvite carrierExternals (carrierEndpoint "carrier" "us" "secret") (carrierEndpoint "spare" "we" "other") =
      some { uri := { scheme := "sip", host := "spare" }, username := "us", password := "secret" } ∧
    routeInvite carrierPBX carrierExternals "0123" { carrierRoute with endpointName := "spare" } =
      some { uri := { scheme := "sip", user := "123", host := "spare" }, username := "we", password := "other" } ∧
    ¬DialedAlike carrierPBX carrierExternals "0123" carrierRoute (carrierEndpoint "carrier" "us" "secret") "spare"
      (carrierEndpoint "spare" "we" "other") := by
  exact ⟨rfl, rfl, rfl, fun h => absurd h.same (by decide)⟩

end Call
