import Diagox.Config.Types
import Diagox.Flow.Recording
import Diagox.Lib.Defer
import Diagox.Lib.Interleave
import Diagox.Lib.Path
import Mathlib.Data.Rat.Defs

/-!
# The dialog of a flow agent

`FlowRPC.NewServerDialog` of `flow_rpc.go`, from the invite to the agent on. Its loop takes one request after the
other out of the channel and runs a function literal on it, whose deferred calls are done when that request is. The
SIP and media stacks, the JSON package and the connection are code of other modules: `Externals` says how each call of
them ends.
-/

namespace Flow

open Defer Defer.Body Configuration

/-- An error of other code, by what `errors.Is` finds in it. -/
structure ExtError where
  /-- `context.Canceled`. -/
  canceled : Bool := false
  /-- `net.ErrClosed`. -/
  netClosed : Bool := false
  /-- `io.ErrClosedPipe`. -/
  closedPipe : Bool := false
  deriving DecidableEq, Repr, Inhabited

/-- How a call of other code ends: with a panic, with an error or without one. -/
abbrev ExtCall := Exit (Option ExtError)

inductive FlowError where
  | external (err : ExtError)
  /-- `errResponse`. -/
  | response (code : Nat) (reason : String)
  /-- `errAgentExit`, with the endpoint it redirects to. -/
  | agentExit (redirect : Option ConfigEndpoint)
  deriving DecidableEq, Repr, Inhabited

/-- The arguments that the operations read, with their defaults. -/
structure FlowArgs where
  termination : String := ""
  durationSeconds : Int := 10
  audioFormat : String := ""
  uri : String := ""
  endpoint : String := ""
  deriving DecidableEq, Repr

/-- A request as it is taken out of the channel. -/
structure FlowRequest where
  id : String
  op : String
  /-- What `json.Unmarshal` makes of its data. -/
  args : Except ExtError FlowArgs := .ok {}

/-- `media.Codec`, of the properties that are asked for. -/
structure Codec where
  samples16 : Nat := 320
  /-- `SampleDur.Seconds()`. -/
  sampleDur : ℚ := 1 / 50
  sampleRate : Int := 8000
  numChannels : Int := 1
  deriving DecidableEq, Repr

structure WavWriteOpts where
  sampleRate : Int
  bitDepth : Int
  numChans : Int
  audioFormat : Int
  deriving DecidableEq, Repr

/-- How each call of other code ends that is made for a request, and what it hands back. -/
structure Externals where
  ringing : ExtCall
  answer : ExtCall
  listenBackground : ExtCall
  /-- The function that `ListenBackground` has handed back. -/
  stopListen : ExtCall
  hangup : ExtCall
  /-- `LoadState` is `DialogStateConfirmed`. -/
  confirmed : Bool
  audioReaderDTMF : ExtCall
  /-- The digits that `Listen` reports within a number of seconds, and how it ends after the last one. -/
  digits : Int → List Char
  listenDTMF : Int → ExtCall
  /-- `AudioReader`, whose error is not read: the codec it fills in. -/
  audioReader : Exit Codec
  decoderInit : ExtCall
  /-- The frames that are decoded, and how `media.Copy` ends after the last one. -/
  frames : List (List UInt8)
  copyEnd : ExtCall
  wavWrite : WavWriteOpts → List UInt8 → ExtCall
  /-- What `WavWrite` has written. -/
  wavBytes : WavWriteOpts → List UInt8 → List UInt8
  playbackCreate : ExtCall
  playFile : String → ExtCall
  playURL : String → ExtCall
  echo : ExtCall
  /-- The write of a response with a code to the connection. -/
  writeResponse : Nat → Option ExtError
  writeBinary : Option ExtError
  /-- `request.ctx` is done when an error is handled. -/
  requestDone : Bool
  /-- `d.Context()` is done when an error is handled. -/
  callDone : Bool

structure Incoming where
  request : FlowRequest
  ext : Externals

/-- What `NewServerDialog` reads besides the requests. -/
structure DialogContext where
  /-- `d.ID`. -/
  dialogID : String
  endpoints : StringMap ConfigEndpoint
  playbackDir : String

/-- The data of a response. A duration that is no number is `none`. -/
inductive FlowData where
  | dtmf (digits : String)
  | recording (size : Nat) (durationSec : Option ℚ)
  deriving DecidableEq, Repr

/-- Whether `json.Marshal` takes it. -/
def FlowData.marshals : FlowData → Bool
  | .dtmf _ => true
  | .recording _ durationSec => durationSec.isSome

structure FlowResponse where
  id : String
  did : String
  code : Nat
  reason : String
  data : Option FlowData := none
  deriving DecidableEq, Repr

/-- The variables of the function, and what has been sent. A media session is the number of the `Answer` that has
made it. -/
structure DialogVars where
  dialogMedia : Option Nat := none
  /-- `stopListen` is a function of `ListenBackground`. -/
  stopListen : Bool := false
  answers : Nat := 0
  /-- The media sessions that are closed. -/
  closed : List Nat := []
  responses : List FlowResponse := []
  recordings : List (List UInt8) := []
  deriving DecidableEq, Repr

inductive DialogDeferred where
  | closeMedia (m : Nat)
  deriving DecidableEq, Repr

def dialogInterp : Interp DialogVars DialogDeferred
  | .closeMedia m, panicking, s => (panicking, { s with closed := m :: s.closed })

/-- The results of the function literal. With an error there is no data. -/
abbrev Reply := Except FlowError (Option FlowData)

abbrev Code (α : Type) := Body DialogVars DialogDeferred Reply α

/-! ### The operations -/

section Operations

def fail {α : Type} (err : FlowError) : Code α := .ret (.error err)

/-- A call of other code, and a return on an error. -/
def callOther (o : ExtCall) : Code Unit := do
  match ← .await o with
  | none => pure ()
  | some err => fail (.external err)

/-- A call of a method of `dialogMedia`, which is a nil pointer before the call is answered. -/
def onMedia {α : Type} (method : Code α) : Code α := do
  match ← .read (·.dialogMedia) with
  | none => .panic
  | some _ => method

variable (cx : DialogContext) (x : Incoming)

def DialogVars.respond (s : DialogVars) (code : Nat) (reason : String) (data : Option FlowData) : DialogVars :=
  { s with responses := s.responses ++ [⟨x.request.id, cx.dialogID, code, reason, data⟩] }

/-- A response while the request is handled. -/
def progress (code : Nat) (reason : String) : Code Unit :=
  match x.ext.writeResponse code with
  | none => .update (·.respond cx x code reason none)
  | some err => fail (.external err)

def unmarshal : Code FlowArgs :=
  match x.request.args with
  | .ok args => pure args
  | .error err => fail (.external err)

def stopListen : Code Unit := do
  if ← .read (·.stopListen) then callOther x.ext.stopListen else pure ()

def startListen : Code Unit := do
  match ← .read (·.dialogMedia) with
  | none => fail (.external {})
  | some _ => do
      callOther x.ext.listenBackground
      .update fun s => { s with stopListen := true }

def answer : Code (Option FlowData) := do
  callOther x.ext.answer
  let m ← .read (·.answers)
  .update fun s => { s with dialogMedia := some m, answers := s.answers + 1 }
  .defer_ (.closeMedia m)
  -- listening in background prevents bad streaming
  startListen x
  return none

/-- The digits as far as the termination, and whether it was among them. -/
def collectDTMF (termination : String) : List Char → String × Bool
  | [] => ("", false)
  | dtmf :: rest =>
      if String.singleton dtmf = termination then (String.singleton dtmf, true)
      else (String.singleton dtmf ++ (collectDTMF termination rest).1, (collectDTMF termination rest).2)

/-- `Listen` of the DTMF reader: the digits it reports. An end by the termination is no error. -/
def listenDTMF (args : FlowArgs) : Code String :=
  if (collectDTMF args.termination (x.ext.digits args.durationSeconds)).2 then
    return (collectDTMF args.termination (x.ext.digits args.durationSeconds)).1
  else do
    callOther (x.ext.listenDTMF args.durationSeconds)
    return (collectDTMF args.termination (x.ext.digits args.durationSeconds)).1

def readDTMF : Code (Option FlowData) :=
  if x.ext.confirmed then do
    let args ← unmarshal x
    onMedia (callOther x.ext.audioReaderDTMF)
    progress cx x 183 "Read DTMF In Progress"
    stopListen x
    let result ← listenDTMF x args
    startListen x
    return some (.dtmf result)
  else fail (.response 400 "call not answered")

/-- `media.Copy` into the buffer. A full buffer is no error. -/
def copyFrames (buf : RecordBuffer) : Code RecordBuffer :=
  match buf.writeFrames x.ext.frames with
  | (buf, some .closedPipe) => pure buf
  | (_, some .unexpectedEOF) => fail (.external {})
  | (buf, none) => do
      match ← .await x.ext.copyEnd with
      | none => return buf
      | some err => if err.closedPipe then return buf else fail (.external err)

def wavOpts (codec : Codec) : WavWriteOpts where
  sampleRate := codec.sampleRate
  bitDepth := 16
  numChans := codec.numChannels
  audioFormat := 1

/-- `DurationSec`: a division by no samples is no number. -/
def durationSec (codec : Codec) (n : Nat) : Option ℚ :=
  if codec.samples16 = 0 then none else some (n / codec.samples16 * codec.sampleDur)

/-- The message of a recording: the samples behind the metadata may be encoded. -/
def encodeRecording (args : FlowArgs) (codec : Codec) (recording : List UInt8) (metadataSize : Nat) :
    Code (List UInt8) :=
  if args.audioFormat = "wav" then do
    callOther (x.ext.wavWrite (wavOpts codec) (recording.drop metadataSize))
    return recording.take metadataSize ++ x.ext.wavBytes (wavOpts codec) (recording.drop metadataSize)
  else return recording

/-- `WriteServerBinary`. -/
def writeBinary (message : List UInt8) : Code Unit :=
  match x.ext.writeBinary with
  | none => .update fun s => { s with recordings := s.recordings ++ [message] }
  | some err => fail (.external err)

def recordID : List UInt8 := x.request.id.toUTF8.data.toList

def listen : Code (Option FlowData) := do
  let args ← unmarshal x
  if args.durationSeconds > 30 then fail (.response 400 "Bad Request - Duration Seconds above Max")
  else do
    stopListen x
    let codec ← onMedia (.await x.ext.audioReader)
    callOther x.ext.decoderInit
    let metadataSize := (newRecordBuffer (recordID x) codec.samples16).n
    progress cx x 183 "Recording In Progress"
    let recordBuf ← copyFrames x (newRecordBuffer (recordID x) codec.samples16)
    progress cx x 190 "Recording Write"
    if recordingConsistent recordBuf.bytes (recordID x) metadataSize = false then .panic
    else do
      let message ← encodeRecording x args codec recordBuf.bytes metadataSize
      writeBinary x message
      startListen x
      return some (.recording recordBuf.n (durationSec codec recordBuf.n))

def play : Code (Option FlowData) :=
  if x.ext.confirmed then do
    let args ← unmarshal x
    onMedia (callOther x.ext.playbackCreate)
    progress cx x 183 "Playback In Progress"
    if Strings.hasPrefix args.uri "file://" then do
      callOther (x.ext.playFile (Path.clean (Path.join [cx.playbackDir, Strings.trimPrefix args.uri "file://"])))
      return none
    else if Strings.hasPrefix args.uri "http" then do
      callOther (x.ext.playURL args.uri)
      return none
    else fail (.response 400 ("unknown playback type uri=" ++ args.uri))
  else fail (.response 400 "call not answered")

def echo : Code (Option FlowData) :=
  if x.ext.confirmed then do
    progress cx x 183 "Echo In Progress"
    onMedia (callOther x.ext.echo)
    return none
  else fail (.response 400 "Call Not Answered")

def redirect : Code (Option FlowData) := do
  let args ← unmarshal x
  match cx.endpoints.lookup args.endpoint with
  | none => fail (.response 400 "Endpoint Does Not Exist")
  | some endpoint =>
      if endpoint.match.type = "flow" then fail (.response 400 "Endpoint Can Not Be Flow API")
      else fail (.agentExit (some endpoint))

/-- The switch over the operations. -/
def operation : Code (Option FlowData) :=
  if x.request.op = "ring" then do
    callOther x.ext.ringing
    return none
  else if x.request.op = "answer" then answer x
  else if x.request.op = "hangup" then do
    callOther x.ext.hangup
    fail (.agentExit none)
  else if x.request.op = "read_dtmf" then readDTMF cx x
  else if x.request.op = "listen" then listen cx x
  else if x.request.op = "play" then play cx x
  else if x.request.op = "echo" then echo cx x
  else if x.request.op = "redirect" then redirect cx x
  else fail (.external {})

/-- The function literal in the loop. -/
def handleRequest : Code Reply := do return .ok (← operation cx x)

end Operations

/-! ### The loop -/

/-- How `NewServerDialog` has ended. A panic is recovered, and its results are the zero values. -/
inductive DialogEnd where
  | returned (err : Option FlowError) (next : Option ConfigEndpoint)
  | recovered
  deriving DecidableEq, Repr

/-- What `waitRequest` hands to the loop: a request, or the end of the context of the call. -/
inductive Turn where
  | request (x : Incoming)
  | contextDone (err : ExtError)

/-- A run of `NewServerDialog` once the agent has accepted. -/
structure DialogRun where
  vars : DialogVars := {}
  ended : Option DialogEnd := none
  /-- An `answer` request has succeeded. -/
  answered : Bool := false
  deriving DecidableEq, Repr

def FlowError.canceled : FlowError → Bool
  | .external err => err.canceled
  | _ => false

def FlowError.netClosed : FlowError → Bool
  | .external err => err.netClosed
  | _ => false

section Loop

variable (cx : DialogContext) (x : Incoming)

/-- The function literal `writeResponse`, whose error is not read here. -/
def writeResponse (code : Nat) (reason : String) (data : Option FlowData) (s : DialogVars) : DialogVars :=
  if data.all FlowData.marshals = true ∧ x.ext.writeResponse code = none then s.respond cx x code reason data else s

/-- What follows on the results of the function literal: the response, and whether the loop is left. -/
def conclude (reply : Reply) (s : DialogVars) : Option DialogEnd × DialogVars :=
  match reply with
  | .ok data => (none, writeResponse cx x 200 "OK" data s)
  | .error err =>
      if err.canceled = true ∧ x.ext.requestDone = true then
        (some (.returned (some err) none), writeResponse cx x 499 "Client Closed Request" none s)
      else if (err.canceled = true ∨ err.netClosed = true) ∧ x.ext.callDone = true then
        (some (.returned (some err) none), writeResponse cx x 487 "Request terminated" none s)
      else match err with
        | .response code reason => (none, writeResponse cx x code reason none s)
        | .agentExit redirect => (some (.returned none redirect), writeResponse cx x 200 "OK" none s)
        | .external _ => (some (.returned (some err) none), writeResponse cx x 500 "Internal Server Error" none s)

/-- One turn of the loop. -/
def turnStep (r : DialogRun) (t : Turn) : DialogRun :=
  match r.ended, t with
  | some _, _ => r
  | none, .contextDone err => { r with ended := some (.returned (some (.external err)) none) }
  | none, .request x => match run dialogInterp (handleRequest cx x) r.vars with
    | (.panicked, s) => { r with vars := s, ended := some .recovered }
    | (.returned reply, s) =>
        { vars := (conclude cx x reply s).2
          ended := (conclude cx x reply s).1
          answered := r.answered || (x.request.op = "answer" && reply.isOk) }

/-- `NewServerDialog` by what becomes of the invite, the code of the agent or an error, and by the turns of its loop.
The deferred calls do nothing to the variables, and a `bye` is a request of its own. -/
def newServerDialogRun (invite : Exit (Except ExtError Nat)) (turns : List Turn) : DialogRun :=
  match invite with
  | .panicked => { ended := some .recovered }
  | .returned (.error err) => { ended := some (.returned (some (.external err)) none) }
  | .returned (.ok code) =>
      if code = 200 then Run.run (turnStep cx) {} turns else { ended := some (.returned (some (.external {})) none) }

end Loop

/-! ### Ordinary requests -/

/-- Other code that reports no error and has nothing to hand back. -/
def quietExternals : Externals where
  ringing := .returned none
  answer := .returned none
  listenBackground := .returned none
  stopListen := .returned none
  hangup := .returned none
  confirmed := true
  audioReaderDTMF := .returned none
  digits _ := []
  listenDTMF _ := .returned none
  audioReader := .returned {}
  decoderInit := .returned none
  frames := []
  copyEnd := .returned none
  wavWrite _ _ := .returned none
  wavBytes _ samples := samples
  playbackCreate := .returned none
  playFile _ := .returned none
  playURL _ := .returned none
  echo := .returned none
  writeResponse _ := none
  writeBinary := none
  requestDone := false
  callDone := false

def quietRequest (id op : String) : Incoming := { request := { id := id, op := op }, ext := quietExternals }

def plainContext : DialogContext where
  dialogID := "d"
  endpoints := ∅
  playbackDir := "/srv"

end Flow
