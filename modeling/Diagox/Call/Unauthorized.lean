import Diagox.Call.Records

/-!
# Callers who are not let in

What `PBX.handler` does for a caller whose endpoint does not authorize it is settled before any route is looked up. So
it is the same under any two configurations that ask the caller for the same credentials, whatever their routes, their
registries and the ends of all the calls that dialing would make. Nobody is dialed. The dialplans of the test mode ask
for no credentials, so calls that are for one of them are left out.
-/

namespace Call

open Defer Defer.Body Configuration Sip Routing

/-- What is asked of a caller. -/
structure Door where
  auth : ConfigAuth
  name : String
  type : String
  deriving DecidableEq, Repr

def door (e : ConfigEndpoint) : Door := ⟨e.auth, e.name, e.match.type⟩

/-- The door that the endpoint of a request leads to, if it has one. -/
def requestDoor (deps : Deps) (conf : Config) (req : Request) : Except Panic (Option Door) :=
  (matchEndpoint deps conf req).map (Option.map door)

/-- The two ask the same of the sender of a request, and their other code answers alike on the way to the route. -/
structure SameDoor (deps : Deps) (req : Request) (pbx pbx' : PBX) (rx rx' : RouteExternals) (ext ext' : Externals) :
    Prop where
  requestDoor : requestDoor deps pbx.conf req = requestDoor deps pbx'.conf req
  cdrEnable : pbx.cdrEnable = pbx'.cdrEnable
  testMode : pbx.testMode = pbx'.testMode
  limitsIncoming : pbx.limitsIncoming = pbx'.limitsIncoming
  dialogRPSLimit : rx.dialogRPSLimit = rx'.dialogRPSLimit
  dialogActiveLimit : rx.dialogActiveLimit = rx'.dialogActiveLimit
  registerOnStateDialog : rx.registerOnStateDialog = rx'.registerOnStateDialog
  respond : rx.respond = rx'.respond
  authorizeDialog : rx.authorizeDialog = rx'.authorizeDialog
  bearerStore : rx.bearerStore = rx'.bearerStore
  deferredPanics : ext.deferredPanics = ext'.deferredPanics
  cdrWrite : ext.cdrWrite = ext'.cdrWrite
  inFacts : ext.inFacts = ext'.inFacts
  inConfirmed : ext.inConfirmed = ext'.inConfirmed

/-- No endpoint lets the sender of the request in. -/
def Unauthorized (deps : Deps) (pbx : PBX) (rx : RouteExternals) (req : Request) (fromUser : String) : Prop :=
  ∀ e, matchEndpoint deps pbx.conf req = .ok (some e) → authorizeInboundDialog rx req fromUser e ≠ .ok ()

/-- The call is for a dialplan of the test mode. -/
def Tested (pbx : PBX) (req : Request) : Prop :=
  pbx.testMode = true ∧ ∃ toAddress, req.toAddress = some toAddress ∧ toAddress.user ∈ testUsers

section Door

variable {deps : Deps} {req : Request} {pbx pbx' : PBX} {rx rx' : RouteExternals} {ext ext' : Externals}
  {fromUser toUser dialogID : String}

theorem matchEndpoint_routes (conf : Config) (routes : StringMap (Option (List ConfigRoute))) :
    matchEndpoint deps { conf with routes := routes } req = matchEndpoint deps conf req := rfl

variable (fromUser) in
theorem authorizeInboundDialog_eq (h : SameDoor deps req pbx pbx' rx rx' ext ext') {e e' : ConfigEndpoint}
    (he : door e = door e') :
    authorizeInboundDialog rx req fromUser e = authorizeInboundDialog rx' req fromUser e' := by
  simp only [door, Door.mk.injEq] at he
  obtain ⟨hauth, hname, htype⟩ := he
  unfold authorizeInboundDialog authorizeInboundDialogBearer authorizeInboundDialogDigest endpointBearerIdentity
    endpointDigestIdentity
  rw [hauth, hname, htype, h.authorizeDialog, h.bearerStore]

variable (toUser) in
theorem routeCall_unauthorized (h : SameDoor deps req pbx pbx' rx rx' ext ext')
    (hnot : Unauthorized deps pbx rx req fromUser) :
    ∃ stop, routeCall deps pbx rx req fromUser toUser = .error stop ∧
      routeCall deps pbx' rx' req fromUser toUser = .error stop := by
  have hdoor := h.requestDoor
  unfold requestDoor at hdoor
  unfold routeCall
  cases hmatch : matchEndpoint deps pbx.conf req with
  | error err =>
      cases hmatch' : matchEndpoint deps pbx'.conf req with
      | error err' => exact ⟨_, rfl, rfl⟩
      | ok e' => simp [hmatch, hmatch', Except.map] at hdoor
  | ok e =>
      cases hmatch' : matchEndpoint deps pbx'.conf req with
      | error err' => simp [hmatch, hmatch', Except.map] at hdoor
      | ok e' =>
          rw [hmatch, hmatch'] at hdoor
          have hsome : e.map door = e'.map door := Except.ok.inj hdoor
          cases e with
          | none =>
              obtain rfl : e' = none := Option.map_eq_none_iff.mp hsome.symm
              exact ⟨_, rfl, rfl⟩
          | some e =>
              obtain ⟨e', rfl, he⟩ := Option.map_eq_some_iff.mp hsome.symm
              have hsame := authorizeInboundDialog_eq fromUser h he.symm
              cases hstop : authorizeInboundDialog rx req fromUser e with
              | ok u => exact absurd hstop (hnot e hmatch)
              | error stop =>
                  rw [hstop] at hsame
                  exact ⟨stop, by simp only [hstop]; rfl, by simp only [← hsame]; rfl⟩

theorem dialplan_unauthorized (h : SameDoor deps req pbx pbx' rx rx' ext ext')
    (hnot : Unauthorized deps pbx rx req fromUser) (hplan : ¬ (pbx.testMode = true ∧ toUser ∈ testUsers))
    (cx cx' : CallContext) :
    dialplan deps pbx rx ext cx req fromUser toUser = dialplan deps pbx' rx' ext' cx' req fromUser toUser := by
  obtain ⟨stop, hroute, hroute'⟩ := routeCall_unauthorized toUser h hnot
  have hplan' : ¬ (pbx'.testMode = true ∧ toUser ∈ testUsers) := h.testMode ▸ hplan
  unfold dialplan bridgeCall
  rw [if_neg hplan, if_neg hplan', hroute, hroute', h.respond]
  cases stop with
  | panicked => rfl
  | silent => rfl
  | respond code reason => rfl

theorem limitIncoming_eq (h : SameDoor deps req pbx pbx' rx rx' ext ext') :
    limitIncoming pbx rx = limitIncoming pbx' rx' := by
  unfold limitIncoming
  rw [h.limitsIncoming, h.dialogRPSLimit, h.dialogActiveLimit]

theorem handler_eq (h : SameDoor deps req pbx pbx' rx rx' ext ext')
    (hnot : ∀ fromAddress, req.fromAddress = some fromAddress → Unauthorized deps pbx rx req fromAddress.user)
    (hplan : ¬ Tested pbx req) :
    handler deps pbx rx ext dialogID req = handler deps pbx' rx' ext' dialogID req := by
  unfold handler
  cases req.callID with
  | none => rfl
  | some callID =>
      cases hfrom : req.fromAddress with
      | none => rfl
      | some fromAddress =>
          cases hto : req.toAddress with
          | none => rfl
          | some toAddress =>
              dsimp only
              rw [limitIncoming_eq h, h.registerOnStateDialog, dialplan_unauthorized h (hnot fromAddress hfrom)
                fun htest => hplan ⟨htest.1, toAddress, hto, htest.2⟩]

theorem storeCDR_eq (h : SameDoor deps req pbx pbx' rx rx' ext ext') : storeCDR ext = storeCDR ext' := by
  funext cdr panicking s
  unfold storeCDR
  rw [h.cdrWrite]

/-- A deferred call of the handler itself. -/
def Deferred.OfHandler : Deferred → Prop
  | .recover | .logFinished | .dialogActiveDec | .countEnded | .writeInCDR | .hangupIn => True
  | _ => False

theorem Deferred.OfHandler.closings {d : Deferred} (hd : d.OfHandler) (owned : Nat → Bool) : closings owned d = [] := by
  cases d with
  | closeLeg l => exact absurd hd not_false
  | closeOwned i => exact absurd hd not_false
  | _ => rfl

theorem interp_eq (h : SameDoor deps req pbx pbx' rx rx' ext ext') {d : Deferred} (hd : d.OfHandler) (callID : String)
    (p : Bool) (s : Vars) :
    interp ext (pbx.callContext dialogID callID) d p s = interp ext' (pbx'.callContext dialogID callID) d p s := by
  have hrecord : inRecord ext (pbx.callContext dialogID callID) s =
      inRecord ext' (pbx'.callContext dialogID callID) s := by
    unfold inRecord
    rw [h.inFacts, h.inConfirmed]
    rfl
  cases d with
  | writeInCDR =>
      show (if pbx.cdrEnable = true then _ else _) = (if pbx'.cdrEnable = true then _ else _)
      rw [h.cdrEnable, storeCDR_eq h, hrecord]
  | recover => rfl
  | logFinished => simp only [interp, h.deferredPanics]
  | dialogActiveDec => simp only [interp, h.deferredPanics]
  | countEnded => simp only [interp, h.deferredPanics]
  | hangupIn => simp only [interp, h.deferredPanics]
  | _ => exact absurd hd not_false

theorem unwind_eq (h : SameDoor deps req pbx pbx' rx rx' ext ext') {ds : List Deferred} (hds : ∀ d ∈ ds, d.OfHandler)
    (callID : String) (p : Bool) (s : Vars) :
    unwind (interp ext (pbx.callContext dialogID callID)) ds p s =
      unwind (interp ext' (pbx'.callContext dialogID callID)) ds p s := by
  induction ds generalizing p s with
  | nil => rfl
  | cons d ds ih =>
      rw [unwind_cons, unwind_cons, interp_eq h (hds d List.mem_cons_self)]
      exact ih (fun x hx => hds x (List.mem_cons_of_mem d hx)) _ _

/-- What the handler leaves when the caller is not let in: no leg, no INVITE, and deferred calls of its own. -/
def Idle (f : Frame Vars Deferred) : Prop :=
  (∃ responses, f.vars = { responses := responses }) ∧ ∀ d ∈ f.deferred, d.OfHandler

theorem idle_dialplan (h : SameDoor deps req pbx pbx' rx rx' ext ext')
    (hnot : Unauthorized deps pbx rx req fromUser) (hplan : ¬ (pbx.testMode = true ∧ toUser ∈ testUsers))
    (cx : CallContext) {ds : List Deferred} (hds : ∀ d ∈ ds, d.OfHandler) :
    (dialplan deps pbx rx ext cx req fromUser toUser).Meets ⟨ds, {}⟩ (fun _ => Idle) fun _ => Idle := by
  have hidle : ∀ responses, Idle ⟨ds, { responses := responses }⟩ := fun responses => ⟨⟨responses, rfl⟩, hds⟩
  obtain ⟨stop, hroute, -⟩ := routeCall_unauthorized toUser h hnot
  unfold dialplan bridgeCall
  rw [if_neg hplan, hroute]
  cases stop with
  | panicked => exact hidle []
  | silent => exact hidle []
  | respond code reason =>
      dsimp only
      rw [meets_bind]
      exact meets_await (fun _ _ => hidle [(code, reason)]) fun _ => hidle []

theorem idle_handler (h : SameDoor deps req pbx pbx' rx rx' ext ext')
    (hnot : ∀ fromAddress, req.fromAddress = some fromAddress → Unauthorized deps pbx rx req fromAddress.user)
    (hplan : ¬ Tested pbx req) :
    (handler deps pbx rx ext dialogID req).Meets ⟨[], {}⟩ (fun _ => Idle) fun _ => Idle := by
  have hidle : ∀ {ds : List Deferred}, (∀ d ∈ ds, d.OfHandler) → Idle ⟨ds, {}⟩ := fun hds => ⟨⟨[], rfl⟩, hds⟩
  unfold handler
  rw [meets_bind, meets_defer]
  cases req.callID with
  | none => exact hidle (by simp [Deferred.OfHandler])
  | some callID =>
      cases hfrom : req.fromAddress with
      | none => exact hidle (by simp [Deferred.OfHandler])
      | some fromAddress =>
          cases hto : req.toAddress with
          | none => exact hidle (by simp [Deferred.OfHandler])
          | some toAddress =>
              dsimp only
              rw [meets_bind, meets_defer, meets_bind]
              -- past the limiter, whether there is one or not
              have hpast : ∀ ds : List Deferred, (∀ d ∈ ds, d.OfHandler) →
                  (do
                    .defer_ .countEnded
                    .await rx.registerOnStateDialog
                    if req.source = req.destination then pure ()
                    else do
                      .defer_ .writeInCDR
                      .defer_ .hangupIn
                      dialplan deps pbx rx ext (pbx.callContext dialogID callID) req fromAddress.user toAddress.user :
                    Stmt Unit).Meets ⟨ds, {}⟩ (fun _ => Idle) fun _ => Idle := by
                intro ds hds
                have hcount : ∀ d ∈ Deferred.countEnded :: ds, d.OfHandler := List.forall_mem_cons.mpr ⟨trivial, hds⟩
                rw [meets_bind, meets_defer, meets_bind]
                refine meets_await (fun _ _ => meets_ite (fun _ => hidle hcount) fun _ => ?_) fun _ => hidle hcount
                rw [meets_bind, meets_defer, meets_bind, meets_defer]
                refine idle_dialplan h (hnot fromAddress hfrom)
                  (fun htest => hplan ⟨htest.1, toAddress, hto, htest.2⟩) _ ?_
                exact List.forall_mem_cons.mpr ⟨trivial, List.forall_mem_cons.mpr ⟨trivial, hcount⟩⟩
              have hfirst : ∀ d ∈ [Deferred.logFinished, .recover], d.OfHandler := by simp [Deferred.OfHandler]
              unfold limitIncoming
              apply meets_ite
              · intro _
                rw [meets_bind]
                refine meets_attempt (fun _ => ?_) (fun _ => hidle hfirst) fun _ => hidle hfirst
                rw [meets_bind]
                refine meets_attempt (fun _ => ?_) (fun _ => hidle hfirst) fun _ => hidle hfirst
                rw [meets_defer]
                exact hpast _ (List.forall_mem_cons.mpr ⟨trivial, hfirst⟩)
              · intro _
                exact hpast _ hfirst

end Door

/-- The handler of a caller who is not let in ends the same way, with the same responses and records, under every
configuration that asks the caller the same, and it dials nobody, unless the call is for a dialplan of the test mode. -/
theorem handler_unauthorized {deps : Deps} {req : Request} {pbx pbx' : PBX} {rx rx' : RouteExternals}
    {ext ext' : Externals} (h : SameDoor deps req pbx pbx' rx rx' ext ext')
    (hnot : ∀ fromAddress, req.fromAddress = some fromAddress → Unauthorized deps pbx rx req fromAddress.user)
    (hplan : ¬ Tested pbx req) (dialogID callID : String) :
    let ending := run (interp ext (pbx.callContext dialogID callID)) (handler deps pbx rx ext dialogID req) {}
    ending = run (interp ext' (pbx'.callContext dialogID callID)) (handler deps pbx' rx' ext' dialogID req) {} ∧
      ending.2.events = [] ∧ ending.2.callID .primary = none ∧ ending.2.dialed = [] := by
  intro ending
  let P : Exit Unit → Frame Vars Deferred → Prop := fun _ f => Idle f
  have hmeets : (handler deps pbx rx ext dialogID req).Meets ⟨[], {}⟩ (fun r => P (.returned r)) P :=
    idle_handler h hnot hplan
  have hrun : ending = run (interp ext' (pbx'.callContext dialogID callID)) (handler deps pbx rx ext dialogID req) {} :=
    run_congr (hmeets.mono (fun _ _ hf p => unwind_eq h hf.2 callID p _) fun _ _ hf p => unwind_eq h hf.2 callID p _)
  refine ⟨hrun.trans (by rw [handler_eq h hnot hplan]), ?_⟩
  obtain ⟨e, f, ⟨⟨responses, hvars⟩, hds⟩, hend⟩ : ∃ e f, P e f ∧ ending = _ := run_of_meets hmeets
  have hclosings : f.deferred.flatMap (closings f.vars.owned) = [] :=
    List.flatMap_eq_nil_iff.mpr fun d hd => (hds d hd).closings f.vars.owned
  rw [hend, unwind_vars, hclosings, hvars]
  exact ⟨rfl, rfl, rfl⟩

def lockedAlice : ConfigEndpoint :=
  { name := "alice", «match» := { type := "user" }, route := "default", auth := { password := "secret" } }

/-- Alice has to know a password. -/
def lockedConfig : Config := { endpoints := ⟨[⟨"alice", lockedAlice⟩], by rw [List.NodupKeys]; decide⟩ }

def lockedPBX (routes : StringMap (Option (List ConfigRoute))) (outboundDialUri : String) : PBX where
  cdrEnable := true
  outboundDialUri := outboundDialUri
  conf := { lockedConfig with routes := routes }

theorem matchEndpoint_lockedPBX (routes : StringMap (Option (List ConfigRoute))) (uri : String) :
    matchEndpoint plainDeps (lockedPBX routes uri).conf aliceRequest = .ok (some lockedAlice) := by
  show matchEndpoint plainDeps { lockedConfig with routes := routes } aliceRequest = _
  rw [matchEndpoint_routes]
  decide

def refusingExternals (uri : String) : RouteExternals :=
  { plainRouteExternals with authorizeDialog := fun _ => .returned false, registeredURI := fun _ => .returned uri }

/-- Without the password she cannot tell a call to the carrier from one to nowhere. -/
theorem handler_unauthorized_alice :
    let pbx := lockedPBX (AList.singleton "default" (some [busyRoute ["backup"]])) "sip:carrier"
    let pbx' := lockedPBX ∅ ""
    run (interp busyExternals (pbx.callContext "d" "in"))
        (handler plainDeps pbx (refusingExternals "sip:bob") busyExternals "d" aliceRequest) {} =
      run (interp (plainExternals fun _ => .returned .answered) (pbx'.callContext "d" "in"))
        (handler plainDeps pbx' (refusingExternals "") (plainExternals fun _ => .returned .answered) "d" aliceRequest)
        {} := by
  intro pbx pbx'
  have hdoor : SameDoor plainDeps aliceRequest pbx pbx' (refusingExternals "sip:bob") (refusingExternals "")
      busyExternals (plainExternals fun _ => .returned .answered) := by
    refine ⟨?_, rfl, rfl, rfl, rfl, rfl, rfl, rfl, rfl, rfl, rfl, rfl, rfl, rfl⟩
    rw [requestDoor, requestDoor, matchEndpoint_lockedPBX, matchEndpoint_lockedPBX]
  have hnot : ∀ fromAddress, aliceRequest.fromAddress = some fromAddress →
      Unauthorized plainDeps pbx (refusingExternals "sip:bob") aliceRequest fromAddress.user := by
    intro fromAddress _ e he
    obtain rfl := Option.some.inj (Except.ok.inj ((matchEndpoint_lockedPBX _ _).symm.trans he))
    exact nofun
  exact (handler_unauthorized hdoor hnot (fun htest => Bool.false_ne_true htest.1) "d" "in").1

end Call
