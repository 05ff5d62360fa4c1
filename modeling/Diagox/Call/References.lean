import Diagox.Call.Records
import Diagox.Routing.References

/-!
# The names a call looks up

`Validate` checks the route contexts of the endpoints and the endpoints of the routes. The names of the
fallback endpoints are checked by nobody before `inviteFallback` looks them up.
-/

namespace Call

open Defer Defer.Body Configuration Sip Routing

/-- The fallback endpoints exist as far as the loop comes, which stops at an endpoint whose URI does not parse. -/
def FallbackResolves (endpoints : StringMap ConfigEndpoint) (parseUri : String → Bool) : List String → Prop
  | [] => True
  | endName :: endNames => ∃ e, endpoints.lookup endName = some e ∧
      (parseUri e.uri = true → FallbackResolves endpoints parseUri endNames)

/-- The way a function ends whose lookup has failed. -/
def LookupFailed (e : Exit FallbackResult) : Prop := ∃ name, e = .returned (.error (.endpointMissing name))

/-- No lookup of `inviteFallback` fails. -/
def FindsFallback (ext : Externals) (cx : CallContext) (routeConf : ConfigRoute) : Prop :=
  ∀ s, ¬ LookupFailed (run (interp ext cx) (inviteFallback ext cx routeConf) s).1

/-- A call that comes to dial its endpoint by SIP. -/
def DialsSip (deps : Deps) (pbx : PBX) (args : BridgeArgs) : Prop :=
  (∃ rx req fromUser toUser, routeCall deps pbx rx req fromUser toUser = .ok args) ∧
    args.toEndpoint.media.type ≠ "webrtc"

/-- Every name that the handling of a call looks up exists: the route context of the endpoint it comes from, the
endpoint of its route, and the fallback endpoints once the dialog has ended in an error that falls back. -/
structure ReferencesClosed (deps : Deps) (parseUri : String → Bool) (pbx : PBX) : Prop where
  routes : ∀ req e, matchEndpoint deps pbx.conf req = .ok (some e) → e.route ∈ pbx.conf.routes
  endpoints : ∀ req e toUser r, matchEndpoint deps pbx.conf req = .ok (some e) →
    matchIncomingRoute pbx.conf toUser e.route = some (r, true) → ¬ r.hangup.code > 0 → r.endpointName ≠ "" →
      r.endpointName ∈ pbx.conf.endpoints
  fallbacks : ∀ args, DialsSip deps pbx args → ∀ err, Falls args.routeConf err → ∀ ext : Externals,
    (∀ uri, ext.parseUri uri = .returned (parseUri uri)) → ∀ id callID,
      FindsFallback ext (pbx.callContext id callID) args.routeConf

section Fallback

variable {ext : Externals} {cx : CallContext} {routeConf : ConfigRoute} {parseUri : String → Bool}

theorem exists_falls_iff : (∃ err, Falls routeConf err) ↔
    routeConf.fallback.enabled = true ∧
      (routeConf.fallback.fallbacksCodes ≠ [] ∨ routeConf.fallback.fallbacksTimeout = true) := by
  simp only [Falls, isInviteErrFallback, Bool.and_eq_true, Bool.or_eq_true, exists_and_left]
  refine and_congr_right fun _ => ?_
  constructor
  · rintro ⟨⟨status, deadline⟩, h | h⟩
    · left
      rintro hnil
      simp [hnil] at h
    · exact .inr h.2
  · rintro (hcodes | htimeout)
    · obtain ⟨code, hcode⟩ := List.exists_mem_of_ne_nil _ hcodes
      exact ⟨{ status := some code }, .inl (by simpa using hcode)⟩
    · exact ⟨{ deadline := true }, .inr ⟨rfl, htimeout⟩⟩

/-- With endpoints that exist the loop does not end in a failed lookup. -/
theorem meets_loop_of_resolves (hparse : ∀ uri, ext.parseUri uri = .returned (parseUri uri))
    {endNames : List String} (h : FallbackResolves cx.endpoints parseUri endNames) (i : Nat)
    (f : Frame Vars Deferred) :
    let P : Exit FallbackResult → Frame Vars Deferred → Prop := fun e _ => ¬ LookupFailed e
    (inviteFallbackLoop ext cx routeConf i endNames).Meets f (fun r => P (.returned r)) P := by
  intro P
  have herror : ∀ e : FallbackError, (∀ name, e ≠ .endpointMissing name) → ∀ f, P (.returned (.error e)) f := by
    rintro e he f ⟨name, hname⟩
    exact he name (Except.error.inj (Exit.returned.inj hname))
  have hpanic : ∀ f, P .panicked f := by
    rintro f ⟨name, hname⟩
    cases hname
  have hanswered : ∀ o f, P (.returned (.ok o)) f := by
    rintro o f ⟨name, hname⟩
    cases hname
  induction endNames generalizing i f with
  | nil => exact herror .noneFound (fun name h => by cases h) f
  | cons endName endNames ih =>
      obtain ⟨endpoint, hlookup, hrest⟩ := h
      apply meets_inviteFallbackLoop_cons
      case hundialed =>
        intro e hundialed
        cases hundialed with
        | missing hmissing => simp [hlookup] at hmissing
        | badUri _ _ _ => exact herror .parseUri (fun name h => by cases h) f
        | uriPanicked _ _ _ => exact hpanic f
        | noDialog _ _ _ _ => exact herror .newDialog (fun name h => by cases h) f
        | dialogPanicked _ _ _ _ => exact hpanic f
      case hended =>
        intro endpoint' media e _ hended
        cases hended with
        | failed err _ _ _ => exact herror (.invite err) (fun name h => by cases h) f
        | earlyMedia _ => exact herror .earlyMedia (fun name h => by cases h) f
        | panicked _ => exact hpanic f
      case hanswered => exact fun _ _ _ => hanswered _ f
      case hrefused =>
        intro endpoint' media hdials _
        obtain rfl : endpoint' = endpoint := Option.some.inj (hdials.lookup.symm.trans hlookup)
        have hparsed : parseUri endpoint'.uri = true :=
          Exit.returned.inj ((hparse endpoint'.uri).symm.trans hdials.parseUri)
        exact ih (hrest hparsed) (i + 1) _

/-- A stack on which every INVITE of the fallback fails in the same way. -/
def failingExternals (parseUri : String → Bool) (err : InviteError) : Externals :=
  { plainExternals fun _ => .returned (.failed err false) with parseUri := fun uri => .returned (parseUri uri) }

/-- When every INVITE falls back the loop comes to the endpoint that is missing. -/
theorem meets_loop_of_not_resolves {err : InviteError} (herr : isInviteErrFallback err routeConf.fallback = true)
    {endNames : List String} (h : ¬ FallbackResolves cx.endpoints parseUri endNames) (i : Nat)
    (f : Frame Vars Deferred) (hf : ∀ d ∈ f.deferred, d.Quiet) :
    let P : Exit FallbackResult → Frame Vars Deferred → Prop :=
      fun e f' => LookupFailed e ∧ ∀ d ∈ f'.deferred, d.Quiet
    (inviteFallbackLoop (failingExternals parseUri err) cx routeConf i endNames).Meets f
      (fun r => P (.returned r)) P := by
  intro P
  induction endNames generalizing i f with
  | nil => exact absurd trivial h
  | cons endName endNames ih =>
      apply meets_inviteFallbackLoop_cons
      case hundialed =>
        intro e hundialed
        cases hundialed with
        | missing _ => exact ⟨⟨_, rfl⟩, hf⟩
        | badUri endpoint hlookup huri =>
            have hparsed : parseUri endpoint.uri = false := Exit.returned.inj huri
            exact absurd ⟨endpoint, hlookup, by simp [hparsed]⟩ h
        | uriPanicked _ _ huri => cases huri
        | noDialog _ _ _ hdialog => cases hdialog
        | dialogPanicked _ _ _ hdialog => cases hdialog
      case hended =>
        intro endpoint media e _ hended
        cases hended with
        | failed err' _ hresult herr' =>
            cases hresult
            exact absurd herr herr'
        | earlyMedia hresult => cases hresult
        | panicked hresult => cases hresult
      case hanswered =>
        intro endpoint _ hresult
        cases hresult
      case hrefused =>
        intro endpoint media hdials _
        apply ih
        · exact fun hrest => h ⟨endpoint, hdials.lookup, fun _ => hrest⟩
        · intro d hd
          obtain rfl | hd := List.mem_cons.mp hd
          · trivial
          obtain rfl | hd := List.mem_cons.mp hd
          · trivial
          · exact hf d hd

theorem findsFallback_of_resolves (hparse : ∀ uri, ext.parseUri uri = .returned (parseUri uri))
    (h : FallbackResolves cx.endpoints parseUri routeConf.fallback.endpoints) : FindsFallback ext cx routeConf := by
  intro s
  let P : Exit FallbackResult → Frame Vars Deferred → Prop := fun e _ => ¬ LookupFailed e
  have hmeets : (inviteFallback ext cx routeConf).Meets ⟨[], s⟩ (fun r => P (.returned r)) P :=
    meets_loop_of_resolves hparse h 0 ⟨[], s⟩
  obtain ⟨e, f', he, hrun⟩ := run_of_meets hmeets
  rw [hrun]
  -- the deferred calls make no failed lookup of another end
  rintro ⟨name, hname⟩
  cases hpanicking : (unwind (interp ext cx) f'.deferred e.isPanic f'.vars).1 with
  | true =>
      rw [hpanicking] at hname
      cases e <;> cases hname
  | false =>
      rw [hpanicking] at hname
      cases e with
      | returned r => exact he ⟨name, hname⟩
      | panicked => cases hname

theorem not_findsFallback {err : InviteError} (herr : isInviteErrFallback err routeConf.fallback = true)
    (h : ¬ FallbackResolves cx.endpoints parseUri routeConf.fallback.endpoints) :
    ¬ FindsFallback (failingExternals parseUri err) cx routeConf := by
  intro hfinds
  let P : Exit FallbackResult → Frame Vars Deferred → Prop := fun e f' => LookupFailed e ∧ ∀ d ∈ f'.deferred, d.Quiet
  have hmeets : (inviteFallback (failingExternals parseUri err) cx routeConf).Meets ⟨[], {}⟩
      (fun r => P (.returned r)) P := meets_loop_of_not_resolves herr h 0 ⟨[], {}⟩ (by simp)
  obtain ⟨e, f', ⟨he, hquiet⟩, hrun⟩ := run_of_meets hmeets
  apply hfinds {}
  rw [hrun, unwind_quiet hquiet, Exit.after_isPanic]
  exact he

end Fallback

/-! ### All names -/

section References

variable {deps : Deps} {doc : YamlDocument} {c : Config} {pbx : PBX} {parseUri : String → Bool}

theorem routes_of_validate (hload : configLoad deps doc c = (pbx.conf, none)) (hvalid : validate pbx.conf = .ok ())
    {req : Request} {e : ConfigEndpoint} (h : matchEndpoint deps pbx.conf req = .ok (some e)) :
    e.route ∈ pbx.conf.routes := by
  obtain ⟨name, hlookup⟩ := exists_of_matchEndpoint hload h
  exact (validate_ok hvalid).2 ⟨name, e⟩ (AList.mem_lookup_iff.mp hlookup)

theorem endpoints_of_validate (hvalid : validate pbx.conf = .ok ()) {toUser routeID : String} {r : ConfigRoute}
    (h : matchIncomingRoute pbx.conf toUser routeID = some (r, true)) (hhangup : ¬ r.hangup.code > 0)
    (hname : r.endpointName ≠ "") : r.endpointName ∈ pbx.conf.endpoints := by
  obtain ⟨routeCtx, hentry, hr⟩ := mem_of_matchIncomingRoute h
  have hvalidated := (validate_ok hvalid).1 _ hentry r hr
  by_contra hmissing
  unfold validateRoute at hvalidated
  split_ifs at hvalidated with hregistry hmissing'
  exact hmissing' ⟨hname, hmissing⟩

end References

/-- With a configuration that is loaded and valid every name that a call looks up exists, exactly when the fallback
endpoints exist of every route by which a call can come to a dialog that falls back. -/
theorem referencesClosed_iff {deps : Deps} {doc : YamlDocument} {c : Config} {pbx : PBX}
    (hload : configLoad deps doc c = (pbx.conf, none)) (hvalid : validate pbx.conf = .ok ())
    (parseUri : String → Bool) :
    ReferencesClosed deps parseUri pbx ↔ ∀ args, DialsSip deps pbx args → args.routeConf.fallback.enabled = true →
      args.routeConf.fallback.fallbacksCodes ≠ [] ∨ args.routeConf.fallback.fallbacksTimeout = true →
        FallbackResolves pbx.conf.endpoints parseUri args.routeConf.fallback.endpoints := by
  constructor
  · intro h args hdials henabled hfalls
    obtain ⟨err, herr⟩ := exists_falls_iff.mpr ⟨henabled, hfalls⟩
    by_contra hmissing
    have hboth := herr
    rw [Falls, Bool.and_eq_true] at hboth
    have hnot : ¬ FindsFallback (failingExternals parseUri err) (pbx.callContext "" "") args.routeConf :=
      not_findsFallback hboth.2 hmissing
    exact hnot (h.fallbacks args hdials err herr _ (fun _ => rfl) "" "")
  · intro h
    refine ⟨fun req e => routes_of_validate hload hvalid, fun req e toUser r _ => endpoints_of_validate hvalid, ?_⟩
    intro args hdials err herr ext hparse id callID
    obtain ⟨henabled, hfalls⟩ := exists_falls_iff.mp ⟨err, herr⟩
    exact findsFallback_of_resolves hparse (h args hdials henabled hfalls)

/-- Endpoints alice, bob and backup, and a route to bob with fallback endpoints. -/
def fallbackDocument (endpoints : List String) : YamlDocument where
  decode _ :=
    ({ endpoints := busyPBX.conf.endpoints, routes := AList.singleton "default" (some [busyRoute endpoints]) }, none)
  endpointKeys := ["alice", "bob", "backup"]

def fallbackPBX (endpoints : List String) : PBX := { conf := (configLoad plainDeps (fallbackDocument endpoints) {}).1 }

theorem fallbackPBX_loaded (endpoints : List String) :
    configLoad plainDeps (fallbackDocument endpoints) {} = ((fallbackPBX endpoints).conf, none) :=
  Prod.ext rfl rfl

theorem referencesClosed_backup :
    ReferencesClosed plainDeps (fun _ => true) (fallbackPBX ["backup"]) ↔
      ∀ args, DialsSip plainDeps (fallbackPBX ["backup"]) args → args.routeConf.fallback.enabled = true →
        args.routeConf.fallback.fallbacksCodes ≠ [] ∨ args.routeConf.fallback.fallbacksTimeout = true →
          FallbackResolves (fallbackPBX ["backup"]).conf.endpoints (fun _ => true) args.routeConf.fallback.endpoints :=
  referencesClosed_iff (fallbackPBX_loaded ["backup"]) (by decide) fun _ => true

/-- A fallback endpoint that does not exist is not noticed before bob is busy. -/
theorem not_referencesClosed :
    ¬ ∀ (deps : Deps) (doc : YamlDocument) (c : Config) (pbx : PBX) (parseUri : String → Bool),
      configLoad deps doc c = (pbx.conf, none) → validate pbx.conf = .ok () → ReferencesClosed deps parseUri pbx := by
  intro h
  have hclosed := h plainDeps (fallbackDocument ["spare"]) {} (fallbackPBX ["spare"]) (fun _ => true)
    (fallbackPBX_loaded ["spare"]) (by decide)
  have hroute : routeCall plainDeps (fallbackPBX ["spare"]) plainRouteExternals aliceRequest "alice" "bob" =
      .ok {
        outboundURI := { host := "sip:bob@10.0.0.2", user := "bob" }
        routeConf := busyRoute ["spare"]
        fromEndpoint := { name := "alice", «match» := { type := "user" }, route := "default" }
        toEndpoint :=
          { name := "bob", «match» := { type := "user" }, uri := "sip:bob@10.0.0.2", route := "default" } } := rfl
  have hfinds := hclosed.fallbacks _ ⟨⟨_, _, _, _, hroute⟩, by decide⟩ { status := some 486 } (by decide)
    (failingExternals (fun _ => true) { status := some 486 }) (fun _ => rfl) "d" "in"
  refine not_findsFallback (by decide) ?_ hfinds
  rintro ⟨e, he, -⟩
  cases he

end Call
