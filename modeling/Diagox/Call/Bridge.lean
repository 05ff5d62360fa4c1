import Diagox.Lib.Defer
import Diagox.Cdr.Storage
import Diagox.Config.Load

/-!
# Bridging a call

`CallContext.bridgeAnswer` of `pbx.go`, with its closures `invited` and `answered` and with `inviteFallback`.
The SIP and media stacks are code of other modules: `Externals` says how each call of them ends, a panic
included. What the body does to dialogs and media sessions is kept as a list of events.
-/

namespace Call

open Defer Defer.Body Configuration Cdr

/-- A client dialog: the one that is dialed first, or the one of a fallback endpoint. -/
inductive Dialog where
  | primary
  | fallback (i : Nat)
  deriving DecidableEq, Repr

/-- A client dialog or a media session. -/
inductive Leg where
  | dialog (d : Dialog)
  /-- What `Invite` hands back. -/
  | media (d : Dialog)
  /-- What `ProgressMedia` hands back. -/
  | early
  /-- What `Answer` hands back. -/
  | answer
  | webrtcOut
  | webrtcIn
  deriving DecidableEq, Repr

inductive Event where
  | opened (l : Leg)
  | closed (l : Leg)
  /-- The leg is part of the bridge: a media session was added, a dialog was acknowledged. -/
  | bridged (l : Leg)
  /-- `waitDialogTermination` has returned. -/
  | terminated
  deriving DecidableEq, Repr

/-- The variables of `bridgeAnswer` that hold a leg of the call. -/
inductive LegVariable where
  | outMedia
  | outWebrtc
  | inMedia
  | inWebrtc
  deriving DecidableEq, Repr

/-- The variables of `PBX.handler`, `bridgeAnswer` and `inviteFallback`, and what has happened so far. -/
structure Vars where
  outDialog : Option Dialog := none
  outMedia : Option Leg := none
  earlyMedia : Option Leg := none
  outWebrtc : Option Leg := none
  inMedia : Option Leg := none
  inWebrtc : Option Leg := none
  /-- `owned` of each turn of the fallback loop. -/
  owned : Nat → Bool := fun _ => false
  /-- The Call-ID of the INVITE of a dialog, once there is one. -/
  callID : Dialog → Option String := fun _ => none
  disposition : String := "NOANSWER"
  bridged : Bool := false
  recordingID : String := ""
  /-- The responses sent by `BridgeCall`. -/
  responses : List (Int × String) := []
  events : List Event := []
  /-- The records that were stored. -/
  cdrs : List CDR := []
  /-- The fallback endpoints that were dialed. -/
  dialed : List ConfigEndpoint := []
  /-- The variables that were nil when a method of their leg was called. -/
  nilCalls : List LegVariable := []

def Vars.log (s : Vars) (e : Event) : Vars := { s with events := s.events ++ [e] }

def Vars.setOwned (s : Vars) (i : Nat) (owned : Bool) : Vars := { s with owned := Function.update s.owned i owned }

def Vars.dial (s : Vars) (endpoint : ConfigEndpoint) : Vars := { s with dialed := s.dialed ++ [endpoint] }

def Vars.leg (s : Vars) : LegVariable → Option Leg
  | .outMedia => s.outMedia
  | .outWebrtc => s.outWebrtc
  | .inMedia => s.inMedia
  | .inWebrtc => s.inWebrtc

/-- The variable that `audioMediaIn` has its leg from. -/
def Vars.audioMediaIn (s : Vars) : LegVariable := if s.inWebrtc.isSome then .inWebrtc else .inMedia

/-- A method of the leg of a variable is called. -/
def Vars.called (s : Vars) (v : LegVariable) : Vars :=
  { s with nilCalls := s.nilCalls ++ if (s.leg v).isSome then [] else [v] }

theorem Vars.called_of_isSome {s : Vars} {v : LegVariable} (h : (s.leg v).isSome) : s.called v = s := by
  rw [called, if_pos h, List.append_nil]

inductive Deferred where
  | closeLeg (l : Leg)
  /-- Closes the dialog of a turn of the fallback loop while it is owned. -/
  | closeOwned (i : Nat)
  | cancel
  | writeOutCDR
  | writeInCDR
  | recover
  | deleteBridge
  | hangupOut
  | closeRecordFile
  | closeMonitor
  | logFinished
  | dialogActiveDec
  | countEnded
  | hangupIn
  deriving DecidableEq, Repr

structure InviteError where
  /-- The status code of an `ErrDialogResponse`. -/
  status : Option Int := none
  /-- `errors.Is(err, context.DeadlineExceeded)`. -/
  deadline : Bool := false
  deriving DecidableEq, Repr

/-- How `Invite` returns. A media session may come with an error too. -/
inductive InviteResult where
  | answered
  /-- `ErrClientEarlyMedia`. -/
  | earlyMedia
  | failed (err : InviteError) (media : Bool)
  deriving DecidableEq, Repr

def InviteResult.media : InviteResult → Bool
  | .failed _ media => media
  | _ => true

inductive Termination where
  /-- The caller has hung up; the end of the `Hangup` that follows. -/
  | inDone (hangup : Exit Bool)
  | outDone
  | timeout
  deriving DecidableEq, Repr

/-- What a record takes from its dialog and from the clock. -/
structure RecordFacts where
  startTime : Time := 0
  duration : Int := 0
  callerID : String := ""
  calleeID : String := ""
  mediaStats : DialogMediaStats := {}
  startTimeFormated : String := ""
  deriving DecidableEq, Repr

/-- How each call of other code ends, and what it hands back. `Exit Bool` is a call that reports an error
with `false`. -/
structure Externals where
  newDialog : Dialog → Exit Bool
  /-- The Call-ID the INVITE of a dialog gets. -/
  callID : Dialog → Option String
  invite : Dialog → Exit InviteResult
  inviteWebrtc : Exit Bool
  progressMedia : Exit Bool
  earlyBridgeAddIn : Exit Bool
  earlyBridgeAddOut : Exit Bool
  waitAnswer : Exit (Option InviteError)
  parseUri : String → Exit Bool
  commonCodecs : Exit Unit
  answerWebrtc : Exit Bool
  answerEarlyMedia : Exit Bool
  answer : Exit Bool
  inboundRTPSession : Exit Unit
  openRecordFile : Exit Bool
  stereoRecordingCreate : Exit Bool
  setAudioMonitor : Exit Unit
  addMediaIn : Exit Bool
  addMediaOut : Exit Bool
  ack : Exit Bool
  outboundRTPSession : Exit Unit
  termination : Termination
  /-- A deferred call that ends in a panic. The `Close` of a leg may report an error, which nobody reads. -/
  deferredPanics : Deferred → Bool
  /-- `CDRWrite`. -/
  cdrWrite : CDR → Exit Bool
  outFacts : Dialog → RecordFacts
  inFacts : RecordFacts
  /-- The inbound dialog has seen `DialogStateConfirmed`. -/
  inConfirmed : Bool

/-- What `bridgeAnswer` reads besides its arguments. -/
structure CallContext where
  /-- `env.CDREnable`. -/
  cdrEnable : Bool := false
  /-- `router.conf.Endpoints`. -/
  endpoints : StringMap ConfigEndpoint := ∅
  /-- `inDialog.ID`. -/
  inDialogID : String := ""
  /-- The Call-ID of the inbound INVITE. -/
  inCallID : String := ""

abbrev Stmt (α : Type) := Body Vars Deferred Unit α

/-! ### Deferred calls -/

def millisecond : Int := 1000000

def calcMES (mediaStats : DialogMediaStats) (disposition : String) : ℚ :=
  let mes : ℚ := if disposition = "ANSWER" ∨ disposition = "BRIDGED" then 9 / 10 else 0
  let mes := if mediaStats.rttMax > 20 * millisecond then mes - (20 * millisecond : Int) / mediaStats.rttMax else mes
  if mediaStats.maxJitter > 10 * millisecond then mes - (10 * millisecond : Int) / mediaStats.maxJitter else mes

section Deferred

variable (ext : Externals) (cx : CallContext)

def outRecord (s : Vars) (d : Dialog) (callID : String) : CDR :=
  let facts := ext.outFacts d
  { direction := directionOut
    callID := callID
    originatorCallID := cx.inCallID
    startTime := facts.startTime
    duration := facts.duration
    callerID := facts.callerID
    calleeID := facts.calleeID
    disposition := s.disposition
    mediaStats := facts.mediaStats
    mes := calcMES facts.mediaStats s.disposition
    recordingID := s.recordingID
    bridged := s.bridged
    startTimeFormated := facts.startTimeFormated }

def inRecord (s : Vars) : CDR :=
  let facts := ext.inFacts
  let disposition := if ext.inConfirmed then "ANSWER" else "NOANSWER"
  { direction := directionIn
    callID := cx.inCallID
    originatorCallID := cx.inCallID
    startTime := facts.startTime
    duration := facts.duration
    callerID := facts.callerID
    calleeID := facts.calleeID
    disposition := disposition
    mediaStats := facts.mediaStats
    mes := calcMES facts.mediaStats disposition
    recordingID := s.recordingID
    startTimeFormated := facts.startTimeFormated }

/-- A `CDRWrite` in a deferred call. -/
def storeCDR (cdr : CDR) (panicking : Bool) (s : Vars) : Bool × Vars :=
  match ext.cdrWrite cdr with
  | .returned true => (panicking, { s with cdrs := s.cdrs ++ [cdr] })
  | .returned false => (panicking, s)
  | .panicked => (true, s)

def interp : Interp Vars Deferred := fun d panicking s =>
  match d with
  | .closeLeg l => (panicking, s.log (.closed l))
  | .closeOwned i => (panicking, if s.owned i then s.log (.closed (.dialog (.fallback i))) else s)
  | .cancel => (panicking, s)
  | .writeOutCDR =>
      if cx.cdrEnable then
        match s.outDialog with
        | none => (true, s) -- the Call-ID of a nil dialog
        | some d => match s.callID d with
          | none => (panicking, s)
          | some callID => storeCDR ext (outRecord ext cx s d callID) panicking s
      else (panicking, s)
  | .writeInCDR => if cx.cdrEnable then storeCDR ext (inRecord ext cx s) panicking s else (panicking, s)
  | .recover => (false, s)
  | d => (panicking || ext.deferredPanics d, s)

def closings (owned : Nat → Bool) : Deferred → List Event
  | .closeLeg l => [.closed l]
  | .closeOwned i => if owned i then [.closed (.dialog (.fallback i))] else []
  | _ => []

/-- The deferred calls of a function that only closes legs. -/
def Deferred.Quiet : Deferred → Prop
  | .closeLeg _ | .closeOwned _ | .cancel => True
  | _ => False

variable {ext cx}

theorem storeCDR_vars (cdr : CDR) (p : Bool) (s : Vars) :
    (storeCDR ext cdr p s).2 = { s with cdrs := (storeCDR ext cdr p s).2.cdrs } := by
  unfold storeCDR
  obtain (_ | _) | _ := ext.cdrWrite cdr
  · rfl
  · rfl
  · rfl

theorem interp_write {d : Deferred} (hd : d = .writeOutCDR ∨ d = .writeInCDR) (p : Bool) (s : Vars) :
    (interp ext cx d p s).2 = s ∨ ∃ cdr, interp ext cx d p s = storeCDR ext cdr p s := by
  obtain rfl | rfl := hd
  · unfold interp
    dsimp only
    split_ifs
    · split
      · exact .inl rfl
      · split
        · exact .inl rfl
        · exact .inr ⟨_, rfl⟩
    · exact .inl rfl
  · unfold interp
    dsimp only
    split_ifs
    · exact .inr ⟨_, rfl⟩
    · exact .inl rfl

theorem interp_vars (d : Deferred) (p : Bool) (s : Vars) :
    (interp ext cx d p s).2 =
      { s with events := s.events ++ closings s.owned d, cdrs := (interp ext cx d p s).2.cdrs } := by
  have hwrite : d = .writeOutCDR ∨ d = .writeInCDR →
      (interp ext cx d p s).2 = { s with cdrs := (interp ext cx d p s).2.cdrs } := by
    intro hd
    obtain h | ⟨cdr, h⟩ := interp_write hd p s
    · rw [h]
    · rw [h]
      exact storeCDR_vars cdr p s
  cases d with
  | closeLeg l => rfl
  | closeOwned i =>
      simp only [interp, closings]
      split_ifs
      · rfl
      · simp
  | writeOutCDR => simpa [closings] using hwrite (.inl rfl)
  | writeInCDR => simpa [closings] using hwrite (.inr rfl)
  | _ => simp [interp, closings]

theorem unwind_vars (ds : List Deferred) (p : Bool) (s : Vars) :
    (unwind (interp ext cx) ds p s).2 =
      { s with
        events := s.events ++ ds.flatMap (closings s.owned)
        cdrs := (unwind (interp ext cx) ds p s).2.cdrs } := by
  induction ds generalizing p s with
  | nil => simp
  | cons d ds ih =>
      rw [unwind_cons, ih, interp_vars]
      simp

theorem unwind_quiet {ds : List Deferred} (h : ∀ d ∈ ds, d.Quiet) (p : Bool) (s : Vars) :
    unwind (interp ext cx) ds p s = (p, { s with events := s.events ++ ds.flatMap (closings s.owned) }) := by
  induction ds generalizing s with
  | nil => simp
  | cons d ds ih =>
      have hd := h d List.mem_cons_self
      have hstep : interp ext cx d p s = (p, { s with events := s.events ++ closings s.owned d }) := by
        cases d with
        | closeLeg l => rfl
        | closeOwned i =>
            simp only [interp, closings]
            split_ifs
            · rfl
            · simp
        | cancel => simp [interp, closings]
        | _ => exact hd.elim
      rw [unwind_cons, hstep, ih fun d' hd' => h d' (List.mem_cons_of_mem d hd')]
      simp

theorem resumes_quiet {ρ ρ' : Type} [Inhabited ρ'] {f f' : Frame Vars Deferred} {Q : ρ' → Frame Vars Deferred → Prop}
    {E : Exit ρ → Frame Vars Deferred → Prop} {e : Exit ρ'} (h : ∀ d ∈ f'.deferred, d.Quiet) :
    Resumes (interp ext cx) f Q E e f' ↔
      (await e : Body Vars Deferred ρ ρ').Meets { f with vars :=
        { f'.vars with events := f'.vars.events ++ f'.deferred.flatMap (closings f'.vars.owned) } } Q E := by
  unfold Resumes
  rw [unwind_quiet h, Exit.after_isPanic]

end Deferred

/-! ### Statements -/

section Body

variable {ρ : Type}

def event (e : Event) : Body Vars Deferred ρ Unit := .update fun s => s.log e

/-- `if leg != nil { defer leg.Close() }`. -/
def deferClose : Option Leg → Body Vars Deferred ρ Unit
  | none => pure ()
  | some l => .defer_ (.closeLeg l)

/-- The receiver of the call that follows. -/
def receiver (v : LegVariable) : Body Vars Deferred ρ Unit := .update fun s => s.called v

variable (ext : Externals)

def newDialog (d : Dialog) (r : ρ) : Body Vars Deferred ρ Unit := do
  .attempt (ext.newDialog d) r
  event (.opened (.dialog d))

/-- The INVITE of a dialog has got its headers. -/
def Vars.sent (s : Vars) (d : Dialog) : Vars := { s with callID := Function.update s.callID d (ext.callID d) }

/-- `outDialog.Invite`: its result and the media session. -/
def invite (d : Dialog) : Body Vars Deferred ρ (InviteResult × Option Leg) := do
  .update (·.sent ext d)
  let result ← .await (ext.invite d)
  if result.media then do
    event (.opened (.media d))
    pure (result, some (.media d))
  else pure (result, none)

variable {ext} {f : Frame Vars Deferred} {E : Exit ρ → Frame Vars Deferred → Prop}

theorem meets_event {e : Event} {Q : Unit → Frame Vars Deferred → Prop} :
    (event e : Body Vars Deferred ρ Unit).Meets f Q E ↔ Q () { f with vars := f.vars.log e } := Iff.rfl

theorem meets_receiver {v : LegVariable} {Q : Unit → Frame Vars Deferred → Prop} :
    (receiver v : Body Vars Deferred ρ Unit).Meets f Q E ↔ Q () { f with vars := f.vars.called v } := Iff.rfl

theorem meets_receiver_of_isSome {v : LegVariable} {Q : Unit → Frame Vars Deferred → Prop}
    (h : (f.vars.leg v).isSome) (hQ : Q () f) : (receiver v : Body Vars Deferred ρ Unit).Meets f Q E := by
  rw [meets_receiver, Vars.called_of_isSome h]
  exact hQ

theorem meets_deferClose {leg : Option Leg} {Q : Unit → Frame Vars Deferred → Prop} :
    (deferClose leg : Body Vars Deferred ρ Unit).Meets f Q E ↔
      Q () { f with deferred := (leg.map Deferred.closeLeg).toList ++ f.deferred } := by
  cases leg with
  | none => rfl
  | some l => rfl

theorem meets_newDialog {d : Dialog} {r : ρ} {Q : Unit → Frame Vars Deferred → Prop}
    (hok : ext.newDialog d = .returned true → Q () { f with vars := f.vars.log (.opened (.dialog d)) })
    (herr : ext.newDialog d = .returned false → E (.returned r) f)
    (hpanic : ext.newDialog d = .panicked → E .panicked f) : (newDialog ext d r).Meets f Q E := by
  unfold newDialog
  rw [meets_bind]
  exact meets_attempt hok herr hpanic

theorem meets_invite {d : Dialog} {Q : InviteResult × Option Leg → Frame Vars Deferred → Prop}
    (hnone : ∀ result, ext.invite d = .returned result → result.media = false →
      Q (result, none) { f with vars := f.vars.sent ext d })
    (hsome : ∀ result, ext.invite d = .returned result → result.media = true →
      Q (result, some (.media d)) { f with vars := (f.vars.sent ext d).log (.opened (.media d)) })
    (hpanic : ext.invite d = .panicked → E .panicked { f with vars := f.vars.sent ext d }) :
    (invite ext d : Body Vars Deferred ρ _).Meets f Q E := by
  unfold invite
  rw [meets_bind, meets_update, meets_bind]
  apply meets_await
  · intro result hresult
    apply meets_ite
    · exact hsome result hresult
    · intro hmedia
      exact hnone result hresult (by simpa using hmedia)
  · exact hpanic

end Body

/-! ### Dialing -/

def isInviteErrFallback (err : InviteError) (fallbackConf : ConfigRouteFallback) : Bool :=
  err.status.any (· ∈ fallbackConf.fallbacksCodes) || (err.deadline && fallbackConf.fallbacksTimeout)

/-- What `inviteFallback` returns as error. -/
inductive FallbackError where
  /-- The name is read from the endpoint that was not found. -/
  | endpointMissing (name : String)
  | parseUri
  | newDialog
  | earlyMedia
  | invite (err : InviteError)
  | noneFound
  deriving DecidableEq, Repr

abbrev FallbackResult := Except FallbackError (Dialog × Option Leg)

/-- The zero values of the results. -/
instance : Inhabited FallbackResult := ⟨.error .noneFound⟩

section Dial

variable (ext : Externals) (cx : CallContext) (routeConf : ConfigRoute)

/-- The loop over the fallback endpoints, from turn `i` on. -/
def inviteFallbackLoop : (i : Nat) → List String → Body Vars Deferred FallbackResult FallbackResult
  | _, [] => pure (.error .noneFound)
  | i, endName :: endNames => match cx.endpoints.lookup endName with
    | none => pure (.error (.endpointMissing ({} : ConfigEndpoint).name))
    | some endpoint => do
        .attempt (ext.parseUri endpoint.uri) (.error .parseUri)
        newDialog ext (.fallback i) (.error .newDialog)
        .update (·.setOwned i true)
        .defer_ (.closeOwned i)
        .defer_ .cancel
        .update (·.dial endpoint)
        let (result, outMedia) ← invite ext (.fallback i)
        match result with
        | .answered => do
            .update (·.setOwned i false)
            pure (.ok (.fallback i, outMedia))
        | .earlyMedia => pure (.error .earlyMedia)
        | .failed err _ =>
            if isInviteErrFallback err routeConf.fallback then inviteFallbackLoop (i + 1) endNames
            else pure (.error (.invite err))

def inviteFallback : Body Vars Deferred FallbackResult FallbackResult :=
  inviteFallbackLoop ext cx routeConf 0 routeConf.fallback.endpoints

/-- `Invite` of the first dialog, and the early media it may come to: the error, if there is one. -/
def dialOut : Body Vars Deferred Bool (Option InviteError) := do
  let (result, outMedia) ← invite ext .primary
  .update fun s => { s with outMedia := outMedia }
  match result with
  | .answered => pure none
  | .failed err _ => pure (some err)
  | .earlyMedia => do
      .attempt ext.progressMedia false
      event (.opened .early)
      .update fun s => { s with earlyMedia := some .early }
      .attempt ext.earlyBridgeAddIn false
      .attempt ext.earlyBridgeAddOut false
      .await ext.waitAnswer

/-- The fallback of `invited`. -/
def dialFallback : Body Vars Deferred Bool Bool := do
  let outMedia ← .read (·.outMedia)
  deferClose outMedia
  .update fun s => { s with outMedia := none }
  let result ← .call (interp ext cx) (inviteFallback ext cx routeConf)
  match result with
  | .error _ => do
      .update fun s => { s with outDialog := none, outMedia := none }
      pure false
  | .ok (outDialog, outMedia) => do
      .update fun s => { s with outDialog := some outDialog, outMedia := outMedia }
      .defer_ (.closeLeg (.dialog outDialog))
      pure true

def dialWebrtc : Body Vars Deferred Bool Bool := do
  .update (·.sent ext .primary)
  .attempt ext.inviteWebrtc false
  event (.opened .webrtcOut)
  .update fun s => { s with outWebrtc := some .webrtcOut }
  pure true

def invited (toEndpoint : ConfigEndpoint) : Body Vars Deferred Bool Bool :=
  if toEndpoint.media.type = "webrtc" then dialWebrtc ext
  else do
    match ← dialOut ext with
    | none => pure true
    | some err =>
        if routeConf.fallback.enabled && isInviteErrFallback err routeConf.fallback then dialFallback ext cx routeConf
        else pure false

end Dial

/-! ### Answering and bridging -/

section Answer

variable (ext : Externals) (cx : CallContext)

/-- The media session of an inbound dialog that is answered. -/
def answerMedia : Body Vars Deferred Bool Leg := do
  match ← .read (·.earlyMedia) with
  | some earlyMedia => do
      .attempt ext.answerEarlyMedia false
      pure earlyMedia
  | none => do
      .attempt ext.answer false
      event (.opened .answer)
      pure .answer

def answered (fromEndpoint : ConfigEndpoint) : Body Vars Deferred Bool Bool :=
  if fromEndpoint.media.type = "webrtc" then do
    receiver .outWebrtc
    .await ext.commonCodecs
    .attempt ext.answerWebrtc false
    event (.opened .webrtcIn)
    .update fun s => { s with inWebrtc := some .webrtcIn }
    pure true
  else do
    receiver .outMedia
    .await ext.commonCodecs
    let inMedia ← answerMedia ext
    .update fun s => { s with inMedia := some inMedia }
    receiver .inMedia
    .await ext.inboundRTPSession
    pure true

/-- The recording of a route that asks for one. -/
def startRecording (routeConf : ConfigRoute) : Stmt Unit :=
  if routeConf.recording then do
    .attempt ext.openRecordFile ()
    .defer_ .closeRecordFile
    receiver (← .read Vars.audioMediaIn)
    .attempt ext.stereoRecordingCreate ()
    .defer_ .closeMonitor
    receiver (← .read Vars.audioMediaIn)
    .await ext.setAudioMonitor
    .update fun s => { s with recordingID := cx.inDialogID }
  else pure ()

/-- A media session joins the bridge. A nil one leaves no event. -/
def addMedia (ok : Exit Bool) (leg : Option Leg) : Stmt Unit := do
  .attempt ok ()
  .update fun s => leg.elim s fun l => s.log (.bridged l)

def waitDialogTermination : Stmt Unit :=
  match ext.termination with
  | .inDone hangup => do
      let _ ← .await hangup
      event .terminated
  | .outDone => event .terminated
  | .timeout => event .terminated

/-- The media sessions and the outbound dialog are bridged until the call ends. -/
def bridgeMedia : Stmt Unit := do
  addMedia ext.addMediaIn (← .read fun s => s.inWebrtc <|> s.inMedia)
  addMedia ext.addMediaOut (← .read fun s => s.outWebrtc <|> s.outMedia)
  match ← .read (·.outDialog) with
  | none => .panic
  | some outDialog => do
      .attempt ext.ack ()
      event (.bridged (.dialog outDialog))
  .update fun s => { s with bridged := true }
  receiver .outMedia
  .await ext.outboundRTPSession
  waitDialogTermination ext

/-- What follows on an answered call. -/
def bridgeAnswered (routeConf : ConfigRoute) : Stmt Unit := do
  deferClose (← .read (·.inMedia))
  deferClose (← .read (·.inWebrtc))
  .update fun s => { s with disposition := "ANSWER" }
  startRecording ext cx routeConf
  bridgeMedia ext

/-- What follows on an outbound dialog that was answered. -/
def bridgeDialed (routeConf : ConfigRoute) (fromEndpoint : ConfigEndpoint) : Stmt Unit := do
  deferClose (← .read (·.outMedia))
  deferClose (← .read (·.outWebrtc))
  if ← .call (interp ext cx) (answered ext fromEndpoint) then bridgeAnswered ext cx routeConf else pure ()

def bridgeAnswer (routeConf : ConfigRoute) (fromEndpoint toEndpoint : ConfigEndpoint) : Stmt Unit := do
  .defer_ .deleteBridge
  .defer_ .cancel
  newDialog ext .primary ()
  .update fun s => { s with outDialog := some .primary }
  .defer_ (.closeLeg (.dialog .primary))
  .defer_ .hangupOut
  .defer_ .writeOutCDR
  if ← .call (interp ext cx) (invited ext cx routeConf toEndpoint) then bridgeDialed ext cx routeConf fromEndpoint
  else pure ()

end Answer

/-- A stack on which every call goes through, but for what becomes of the INVITEs. -/
def plainExternals (invite : Dialog → Exit InviteResult) : Externals where
  newDialog _ := .returned true
  callID d := some (match d with | .primary => "out" | .fallback _ => "fallback")
  invite := invite
  inviteWebrtc := .returned true
  progressMedia := .returned true
  earlyBridgeAddIn := .returned true
  earlyBridgeAddOut := .returned true
  waitAnswer := .returned none
  parseUri _ := .returned true
  commonCodecs := .returned ()
  answerWebrtc := .returned true
  answerEarlyMedia := .returned true
  answer := .returned true
  inboundRTPSession := .returned ()
  openRecordFile := .returned true
  stereoRecordingCreate := .returned true
  setAudioMonitor := .returned ()
  addMediaIn := .returned true
  addMediaOut := .returned true
  ack := .returned true
  outboundRTPSession := .returned ()
  termination := .outDone
  deferredPanics _ := false
  cdrWrite _ := .returned true
  outFacts _ := {}
  inFacts := {}
  inConfirmed := true

/-- The first dialog is busy, every fallback answers. -/
def busyInvite : Dialog → Exit InviteResult
  | .primary => .returned (.failed { status := some 486 } false)
  | .fallback _ => .returned .answered

/-- A route that falls back on a busy endpoint. -/
def busyRoute (endpoints : List String) : ConfigRoute where
  id := "bob"
  endpointName := "bob"
  fallback := { enabled := true, endpoints := endpoints, fallbacksCodes := [486] }

end Call
