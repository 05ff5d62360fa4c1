import Diagox.Call.Bridge
import Diagox.Registrar.Auth
import Diagox.Routing.Router

/-!
# The handler of inbound dialogs

`PBX.handler` and `CallContext.BridgeCall` of `pbx.go`. Every response of `BridgeCall` is followed by a return, so
the way to the bridge is a function: it ends with a bridge to dial or with a reason to stop.
-/

namespace Call

open Defer Configuration Sip Registrar

structure PBX where
  cdrEnable : Bool := false
  testMode : Bool := false
  outboundDialUri : String := ""
  conf : Config := {}
  /-- `rateLimiterInc != nil`. -/
  limitsIncoming : Bool := false
  /-- `rateLimiterOut != nil`. -/
  limitsOutgoing : Bool := false

/-- How each call of other code ends on the way to the bridge. -/
structure RouteExternals where
  dialogRPSLimit : Exit Bool
  dialogActiveLimit : Exit Bool
  registerOnStateDialog : Exit Unit
  /-- How a dialplan of the test mode ends. What it does on the way is not modelled: one of them dials. -/
  testDialplan : Exit Unit
  respond : Int → Exit Unit
  /-- `AuthorizeDialog`. -/
  authorizeDialog : DigestAuth → Exit Bool
  /-- `UserAuthenticateBearer`, if there is a store: an error or none. -/
  bearerStore : Option (UserBearerAuth → Exit (Option BearerError))
  trying : Exit Bool
  /-- What `endpointResolveRegisteredURI` reads from the registry. -/
  registeredURI : ConfigEndpoint → Exit String
  /-- `NewServerDialog`: the endpoint the call is redirected to, or an error. -/
  newServerDialog : String → Exit (Option ConfigEndpoint)
  parseUri : String → Exit (Option Uri)
  /-- `Block`: without an error, or with one that is a deadline or not. -/
  block : Exit (Option Bool)
  ringing : Exit Bool

/-! ### Response reasons -/

def sipReasons : List (Int × String) :=
  [(100, "Trying"), (180, "Ringing"), (181, "Call is Being Forwarded"), (182, "Queued"), (183, "Session Progress"),
    (200, "OK"), (202, "Accepted"), (300, "Multiple Choices"), (301, "Moved Permanently"), (302, "Moved Temporarily"),
    (305, "Use Proxy"), (380, "Alternative Service"), (400, "Bad Request"), (401, "Unauthorized"),
    (402, "Payment Required"), (403, "Forbidden"), (404, "Not Found"), (405, "Method Not Allowed"),
    (406, "Not Acceptable"), (407, "Proxy Authentication Required"), (408, "Request Timeout"), (410, "Gone"),
    (413, "Request Entity Too Large"), (414, "Request-URI Too Long"), (415, "Unsupported Media Type"),
    (416, "Unsupported URI Scheme"), (420, "Bad Extension"), (421, "Extension Required"), (423, "Interval Too Brief"),
    (480, "Temporarily Unavailable"), (481, "Call/Transaction Does Not Exist"), (482, "Loop Detected"),
    (483, "Too Many Hops"), (484, "Address Incomplete"), (485, "Ambiguous"), (486, "Busy Here"),
    (487, "Request Terminated"), (488, "Not Acceptable Here"), (491, "Request Pending"), (493, "Undecipherable"),
    (500, "Server Internal Error"), (501, "Not Implemented"), (502, "Bad Gateway"), (503, "Service Unavailable"),
    (504, "Server Time-out"), (505, "Version Not Supported"), (513, "Message Too Large"), (600, "Busy Everywhere"),
    (603, "Decline"), (604, "Does Not Exist Anywhere"), (606, "Not Acceptable")]

def sipResponseReason (code : Int) : String := (sipReasons.lookup code).getD "Unknown"

/-! ### The way to the bridge -/

/-- Why a call does not come to a bridge. -/
inductive Stop where
  | panicked
  | silent
  | respond (code : Int) (reason : String)
  deriving DecidableEq, Repr

structure BridgeArgs where
  outboundURI : Uri
  routeConf : ConfigRoute
  fromEndpoint : ConfigEndpoint
  toEndpoint : ConfigEndpoint

/-- A call of other code on the way. -/
def orPanic {α : Type} : Exit α → Except Stop α
  | .returned a => .ok a
  | .panicked => .error .panicked

/-- A call of other code that ends the call with an error. -/
def orReturn (o : Exit Bool) : Except Stop Unit := do
  if ← orPanic o then return () else throw .silent

def endpointBearerIdentity (fromUser : String) (endpoint : ConfigEndpoint) : String :=
  if endpoint.match.type = "user_dynamic" ∧ endpoint.auth.username = "" then fromUser
  else if endpoint.auth.username ≠ "" then endpoint.auth.username
  else endpoint.name

section Route

variable (deps : Deps) (pbx : PBX) (rx : RouteExternals)

def authorizeInboundDialogBearer (req : Request) (fromUser : String) (endpoint : ConfigEndpoint) : Except Stop Unit :=
  match requestToken req with
  | none => throw (.respond 401 "Unauthorized")
  | some token => match rx.bearerStore with
    | none => throw (.respond 503 "Service Unavailable")
    | some userAuthenticateBearer => do
        match ← orPanic (userAuthenticateBearer ⟨endpointBearerIdentity fromUser endpoint, token, "INVITE"⟩) with
        | none => return ()
        | some .unavailable => throw (.respond 503 "Service Unavailable")
        | some _ => throw (.respond 401 "Unauthorized")

/-- The digest server has sent its own response where it refuses a dialog. -/
def authorizeInboundDialogDigest (endpoint : ConfigEndpoint) : Except Stop Unit :=
  orReturn (rx.authorizeDialog
    { username := endpointDigestIdentity endpoint, password := endpoint.auth.password, realm := "diagox" })

def authorizeInboundDialog (req : Request) (fromUser : String) (endpoint : ConfigEndpoint) : Except Stop Unit :=
  if endpoint.auth.authType = "" then return ()
  else if endpoint.auth.authType = configAuthTypeBearer then authorizeInboundDialogBearer rx req fromUser endpoint
  else if endpoint.auth.authType = configAuthTypeDigest then authorizeInboundDialogDigest rx endpoint
  else throw (.respond 403 "Forbidden")

def endpointResolveOutboundURI (toEndpoint : ConfigEndpoint) : Except Stop String :=
  if toEndpoint.useRegistry then orPanic (rx.registeredURI toEndpoint)
  else if toEndpoint.uri ≠ "" then return toEndpoint.uri
  else if toEndpoint.match.type = "user" then orPanic (rx.registeredURI toEndpoint)
  else if toEndpoint.match.type = "flow" then return "flow"
  else return pbx.outboundDialUri

def endpointLoadOutboundURI (toUser : String) (route : ConfigRoute) : Except Stop (ConfigEndpoint × String) :=
  match Routing.matchOutgoingRouteEndpoint pbx.conf toUser route with
  | none => return ({}, pbx.outboundDialUri)
  | some toEndpoint => return (toEndpoint, ← endpointResolveOutboundURI pbx rx toEndpoint)

/-- An agent takes a call to a `flow` endpoint, and may redirect it. -/
def redirectFlow (toEndpoint : ConfigEndpoint) (uri : String) : Except Stop (ConfigEndpoint × String) :=
  if toEndpoint.match.type = "flow" then do
    match ← orPanic (rx.newServerDialog toEndpoint.name) with
    | none => throw .silent
    | some redirect =>
        if redirect.name = "" then throw .silent
        else return (redirect, ← endpointResolveOutboundURI pbx rx redirect)
  else return (toEndpoint, uri)

def parseOutboundURI (uri : String) : Except Stop Uri := do
  match ← orPanic (rx.parseUri uri) with
  | none => throw (.respond 403 "Forbidden")
  | some uri => return uri

def limitOutgoing : Except Stop Unit :=
  if pbx.limitsOutgoing then do
    match ← orPanic rx.block with
    | none => return ()
    | some true => throw (.respond 429 "Rate limited")
    | some false => throw .silent
  else return ()

/-- `BridgeCall`, up to its last statement. -/
def routeCall (req : Request) (fromUser toUser : String) : Except Stop BridgeArgs :=
  match Routing.matchEndpoint deps pbx.conf req with
  | .error _ => throw .panicked
  | .ok none => throw (.respond 403 "Forbidden")
  | .ok (some fromEndpoint) => do
      authorizeInboundDialog rx req fromUser fromEndpoint
      orReturn rx.trying
      match Routing.matchIncomingRoute pbx.conf toUser fromEndpoint.route with
      | some (routeConf, true) =>
          if routeConf.hangup.code > 0 then
            throw (.respond routeConf.hangup.code
              (if routeConf.hangup.reason = "" then sipResponseReason routeConf.hangup.code else routeConf.hangup.reason))
          else do
            let (toEndpoint, uri) ← endpointLoadOutboundURI pbx rx toUser routeConf
            if uri = "" then throw (.respond 487 "RequestTerminated")
            else do
              let (toEndpoint, uri) ← redirectFlow pbx rx toEndpoint uri
              let outboundURI ← parseOutboundURI rx uri
              limitOutgoing pbx rx
              orReturn rx.ringing
              return {
                outboundURI := { outboundURI with user := Strings.trimPrefix toUser routeConf.stripPrefix }
                routeConf := routeConf
                fromEndpoint := fromEndpoint
                toEndpoint := toEndpoint }
      | _ => throw (.respond 487 "RequestTerminated")

end Route

/-! ### The handler -/

section Handler

variable (deps : Deps) (pbx : PBX) (rx : RouteExternals) (ext : Externals)

/-- The context of a call with an inbound dialog `id`. -/
def PBX.callContext (pbx : PBX) (id callID : String) : CallContext where
  cdrEnable := pbx.cdrEnable
  endpoints := pbx.conf.endpoints
  inDialogID := id
  inCallID := callID

def bridgeCall (cx : CallContext) (req : Request) (fromUser toUser : String) : Stmt Unit :=
  match routeCall deps pbx rx req fromUser toUser with
  | .error .panicked => .panic
  | .error .silent => pure ()
  | .error (.respond code reason) => do
      .await (rx.respond code)
      .update fun s => { s with responses := s.responses ++ [(code, reason)] }
  | .ok args => .call (interp ext cx) (bridgeAnswer ext cx args.routeConf args.fromEndpoint args.toEndpoint)

/-- The To users that the test mode serves by itself. -/
def testUsers : List String := ["playback", "playbackmemory", "playback_webrtc", "webrtcbridge", "answerwebrtc"]

def dialplan (cx : CallContext) (req : Request) (fromUser toUser : String) : Stmt Unit :=
  if pbx.testMode ∧ toUser ∈ testUsers then .await rx.testDialplan
  else bridgeCall deps pbx rx ext cx req fromUser toUser

def limitIncoming : Stmt Unit :=
  if pbx.limitsIncoming then do
    .attempt rx.dialogRPSLimit ()
    .attempt rx.dialogActiveLimit ()
    .defer_ .dialogActiveDec
  else pure ()

/-- `PBX.handler`. The first log line reads the headers. -/
def handler (id : String) (req : Request) : Stmt Unit := do
  .defer_ .recover
  match req.callID, req.fromAddress, req.toAddress with
  | some callID, some fromAddress, some toAddress => do
      .defer_ .logFinished
      limitIncoming pbx rx
      .defer_ .countEnded
      .await rx.registerOnStateDialog
      -- requests are in loop
      if req.source = req.destination then pure ()
      else do
        .defer_ .writeInCDR
        .defer_ .hangupIn
        dialplan deps pbx rx ext (pbx.callContext id callID) req fromAddress.user toAddress.user
  | _, _, _ => .panic

end Handler

end Call
