import Diagox.Flow.Operations

/-!
# The final response of a flow request

Each turn of the loop sends at most one final response, to the request it is about. How the turn of a request ends is
decided by the calls of other code that it makes, one after the other: `endOf` is the first of them that does not go
through. A turn that leaves the loop leaves the requests behind it in the channel, where nobody answers them.
-/

namespace Flow

open Defer Defer.Body

/-! ### How a request ends -/

section EndOf

variable (cx : DialogContext) (answered : Bool) (x : Incoming)

def Incoming.args : FlowArgs :=
  match x.request.args with
  | .ok args => args
  | .error _ => {}

def Incoming.unmarshalled : ExtCall :=
  match x.request.args with
  | .ok _ => .returned none
  | .error err => .returned (some err)

/-- A method of the media session, which is there once the call is answered. -/
def mediaCall {α : Type} (o : Exit α) : Exit α := if answered then o else .panicked

def stopCall : ExtCall := if answered then x.ext.stopListen else .returned none

def startCall : ExtCall := if answered then x.ext.listenBackground else .returned (some {})

/-- The DTMF reader, unless it is the termination that ends it. -/
def Incoming.dtmfCall : ExtCall :=
  if (collectDTMF x.args.termination (x.ext.digits x.args.durationSeconds)).2 then .returned none
  else x.ext.listenDTMF x.args.durationSeconds

/-- The copy into a buffer, unless it is the buffer that ends it. -/
def Incoming.copyCall (buf : RecordBuffer) : ExtCall :=
  match (buf.writeFrames x.ext.frames).2, x.ext.copyEnd with
  | some _, _ => .returned none
  | none, .returned (some err) => if err.closedPipe then .returned none else .returned (some err)
  | none, o => o

def Incoming.wavCall (codec : Codec) (recording : List UInt8) (metadataSize : Nat) : ExtCall :=
  if x.args.audioFormat = "wav" then x.ext.wavWrite (wavOpts codec) (recording.drop metadataSize) else .returned none

/-- The message that is sent of a recording. -/
def Incoming.message (codec : Codec) (recording : List UInt8) (metadataSize : Nat) : List UInt8 :=
  if x.args.audioFormat = "wav" then
    recording.take metadataSize ++ x.ext.wavBytes (wavOpts codec) (recording.drop metadataSize)
  else recording

/-- A recording, from the reader of the media session on. -/
def Incoming.recordCall : ExtCall :=
  match mediaCall answered x.ext.audioReader with
  | .panicked => .panicked
  | .returned codec =>
      let buf := newRecordBuffer (recordID x) codec.samples16
      andThen x.ext.decoderInit (andThen (x.copyCall buf)
        (andThen (x.wavCall codec (buf.writeFrames x.ext.frames).1.bytes buf.n) (startCall answered x)))

/-- The play of a URI of one of the two known kinds. -/
def Incoming.playCall : ExtCall :=
  if Strings.hasPrefix x.args.uri "file://" then
    x.ext.playFile (Path.clean (Path.join [cx.playbackDir, Strings.trimPrefix x.args.uri "file://"]))
  else if Strings.hasPrefix x.args.uri "http" then x.ext.playURL x.args.uri
  else .returned none

/-- How the calls of other code end that are made for a request, on a call that is answered or not. -/
def endOf : ExtCall :=
  if x.request.op = "ring" then x.ext.ringing
  else if x.request.op = "answer" then andThen x.ext.answer x.ext.listenBackground
  else if x.request.op = "hangup" then x.ext.hangup
  else if x.request.op = "read_dtmf" then
    if x.ext.confirmed then
      andThen x.unmarshalled (andThen (mediaCall answered x.ext.audioReaderDTMF)
        (andThen (stopCall answered x) (andThen x.dtmfCall (startCall answered x))))
    else .returned none
  else if x.request.op = "listen" then
    andThen x.unmarshalled
      (if x.args.durationSeconds > 30 then .returned none
      else andThen (stopCall answered x) (x.recordCall answered))
  else if x.request.op = "play" then
    if x.ext.confirmed then
      andThen x.unmarshalled (andThen (mediaCall answered x.ext.playbackCreate) (x.playCall cx))
    else .returned none
  else if x.request.op = "echo" then if x.ext.confirmed then mediaCall answered x.ext.echo else .returned none
  else if x.request.op = "redirect" then x.unmarshalled
  else .returned none

/-- A redirect to an endpoint that takes it. -/
def Incoming.Redirects : Prop :=
  x.request.op = "redirect" ∧ ∃ endpoint, cx.endpoints.lookup x.args.endpoint = some endpoint ∧
    endpoint.match.type ≠ "flow"

def operations : List String := ["ring", "answer", "hangup", "read_dtmf", "listen", "play", "echo", "redirect"]

/-- A request that is meant to end the dialog, or does so because nobody knows its operation. -/
def Incoming.Leaves : Prop := x.request.op = "hangup" ∨ x.Redirects cx ∨ x.request.op ∉ operations

/-- The loop goes on after the request. -/
def Incoming.Stays : Prop := endOf cx answered x = .returned none ∧ ¬ x.Leaves cx

/-- The response to a recording has a duration that is a number. -/
def Incoming.reported : Bool :=
  match x.ext.audioReader with
  | .returned codec =>
      !decide (x.request.op = "listen") || decide (x.args.durationSeconds > 30) || !decide (codec.samples16 = 0)
  | .panicked => true

/-- The function literal that handles the request ends as its calls do. -/
def Ends (e : Exit Reply) : Prop :=
  match endOf cx answered x with
  | .panicked => e = .panicked
  | .returned (some err) => e = .returned (.error (.external err))
  | .returned none =>
      (x.Leaves cx → ∃ err, e = .returned (.error err) ∧ ∀ code reason, err ≠ .response code reason) ∧
        (¬ x.Leaves cx →
          (∃ data, e = .returned (.ok data) ∧ data.all FlowData.marshals = x.reported) ∨
            ∃ code reason, e = .returned (.error (.response code reason)) ∧ 200 ≤ code ∧ x.reported = true)

/-- The connection takes what is written to it. -/
structure Incoming.WritesSucceed : Prop where
  response : ∀ code, x.ext.writeResponse code = none
  binary : x.ext.writeBinary = none

end EndOf

/-! ### The calls of an operation -/

/-- A call of other code goes on with `Q` or leaves with `E`. -/
def Follows (o : ExtCall) (Q : Prop) (E : Exit Reply → Prop) : Prop :=
  match o with
  | .returned none => Q
  | .returned (some err) => E (.returned (.error (.external err)))
  | .panicked => E .panicked

section Follows

variable {cx : DialogContext} {answered : Bool} {x : Incoming} {P : Exit Reply → Prop}
  {f : Frame DialogVars DialogDeferred}

theorem follows_andThen {o o' : ExtCall} {Q : Prop} : Follows (andThen o o') Q P ↔ Follows o (Follows o' Q P) P := by
  rcases o with (_ | err) | _ <;> rfl

theorem follows_endOf {Q : Prop} (hQ : endOf cx answered x = .returned none → Q) :
    Follows (endOf cx answered x) Q (Ends cx answered x) := by
  rcases hend : endOf cx answered x with (_ | err) | _
  · exact hQ hend
  · show Ends cx answered x _
    rw [Ends, hend]
  · show Ends cx answered x _
    rw [Ends, hend]

theorem meets_callOther {o : ExtCall} {Q : Unit → Frame DialogVars DialogDeferred → Prop} :
    (callOther o).Meets f Q (fun e _ => P e) ↔ Follows o (Q () f) P := by
  rcases o with (_ | err) | _ <;> rfl

theorem meets_unmarshal {Q : FlowArgs → Frame DialogVars DialogDeferred → Prop} :
    (unmarshal x).Meets f Q (fun e _ => P e) ↔ Follows x.unmarshalled (Q x.args f) P := by
  unfold unmarshal Incoming.unmarshalled Incoming.args
  cases x.request.args <;> rfl

theorem meets_onMedia (hmedia : f.vars.dialogMedia.isSome = answered) {α : Type} {method : Code α}
    {Q : α → Frame DialogVars DialogDeferred → Prop} :
    (onMedia method).Meets f Q (fun e _ => P e) ↔
      if answered then method.Meets f Q (fun e _ => P e) else P .panicked := by
  unfold onMedia
  rw [meets_bind, meets_read]
  cases hm : f.vars.dialogMedia with
  | none =>
      obtain rfl : false = answered := by rw [← hmedia, hm]; rfl
      rfl
  | some m =>
      obtain rfl : true = answered := by rw [← hmedia, hm]; rfl
      rfl

theorem meets_callMedia (hmedia : f.vars.dialogMedia.isSome = answered) {o : ExtCall}
    {Q : Unit → Frame DialogVars DialogDeferred → Prop} :
    (onMedia (callOther o)).Meets f Q (fun e _ => P e) ↔ Follows (mediaCall answered o) (Q () f) P := by
  rw [meets_onMedia hmedia]
  cases answered with
  | false => rfl
  | true => exact meets_callOther

theorem meets_readMedia (hmedia : f.vars.dialogMedia.isSome = answered) {α : Type} {o : Exit α}
    {Q : α → Frame DialogVars DialogDeferred → Prop} :
    (onMedia (.await o)).Meets f Q (fun e _ => P e) ↔ (await (mediaCall answered o)).Meets f Q (fun e _ => P e) := by
  rw [meets_onMedia hmedia]
  cases answered <;> rfl

theorem meets_progress (hx : x.WritesSucceed) {code : Nat} {reason : String}
    {Q : Unit → Frame DialogVars DialogDeferred → Prop} :
    (progress cx x code reason).Meets f Q (fun e _ => P e) ↔
      Q () { f with vars := f.vars.respond cx x code reason none } := by
  unfold progress
  rw [hx.response]
  rfl

theorem meets_stopListen (hstop : f.vars.stopListen = answered) {Q : Unit → Frame DialogVars DialogDeferred → Prop} :
    (stopListen x).Meets f Q (fun e _ => P e) ↔ Follows (stopCall answered x) (Q () f) P := by
  unfold stopListen stopCall
  rw [meets_bind, meets_read, hstop]
  cases answered with
  | false => rfl
  | true => exact meets_callOther

theorem meets_startListen (hmedia : f.vars.dialogMedia.isSome = answered)
    {Q : Unit → Frame DialogVars DialogDeferred → Prop} :
    (startListen x).Meets f Q (fun e _ => P e) ↔
      Follows (startCall answered x) (Q () { f with vars := { f.vars with stopListen := true } }) P := by
  unfold startListen
  rw [meets_bind, meets_read]
  cases hm : f.vars.dialogMedia with
  | none =>
      obtain rfl : false = answered := by rw [← hmedia, hm]; rfl
      rfl
  | some m =>
      obtain rfl : true = answered := by rw [← hmedia, hm]; rfl
      dsimp only
      rw [meets_bind, meets_callOther]
      rfl

theorem meets_listenDTMF {Q : String → Frame DialogVars DialogDeferred → Prop} :
    (listenDTMF x x.args).Meets f Q (fun e _ => P e) ↔
      Follows x.dtmfCall (Q (collectDTMF x.args.termination (x.ext.digits x.args.durationSeconds)).1 f) P := by
  unfold listenDTMF Incoming.dtmfCall
  split_ifs
  · rfl
  · rw [meets_bind, meets_callOther]
    rfl

theorem meets_copyFrames {buf : RecordBuffer} (hn : 0 < buf.n)
    {Q : RecordBuffer → Frame DialogVars DialogDeferred → Prop} :
    (copyFrames x buf).Meets f Q (fun e _ => P e) ↔
      Follows (x.copyCall buf) (Q (buf.writeFrames x.ext.frames).1 f) P := by
  have hfull := RecordBuffer.writeFrames_ne_unexpectedEOF hn x.ext.frames
  unfold copyFrames Incoming.copyCall
  rcases hwrite : buf.writeFrames x.ext.frames with ⟨buf', _ | _ | _⟩
  · obtain (_ | err) | _ := x.ext.copyEnd
    · rfl
    · dsimp only
      rw [meets_bind]
      show (if err.closedPipe = true then pure buf' else fail (.external err) : Code RecordBuffer).Meets f Q
        (fun e _ => P e) ↔ _
      split_ifs <;> rfl
    · rfl
  · exact absurd (congrArg Prod.snd hwrite) hfull
  · rfl

theorem meets_encodeRecording {codec : Codec} {recording : List UInt8} {metadataSize : Nat}
    {Q : List UInt8 → Frame DialogVars DialogDeferred → Prop} :
    (encodeRecording x x.args codec recording metadataSize).Meets f Q (fun e _ => P e) ↔
      Follows (x.wavCall codec recording metadataSize) (Q (x.message codec recording metadataSize) f) P := by
  unfold encodeRecording Incoming.wavCall Incoming.message
  split_ifs
  · rw [meets_bind, meets_callOther]
    rfl
  · rfl

theorem meets_writeBinary (hx : x.WritesSucceed) {message : List UInt8}
    {Q : Unit → Frame DialogVars DialogDeferred → Prop} :
    (writeBinary x message).Meets f Q (fun e _ => P e) ↔
      Q () { f with vars := { f.vars with recordings := f.vars.recordings ++ [message] } } := by
  unfold writeBinary
  rw [hx.binary]
  rfl

/-! ### The operations -/

theorem follows_ok {o : ExtCall} (hend : endOf cx answered x = o) (hleaves : ¬ x.Leaves cx) (data : Option FlowData)
    (hdata : data.all FlowData.marshals = x.reported) :
    Follows o (Ends cx answered x (.returned (.ok data))) (Ends cx answered x) := by
  rw [← hend]
  apply follows_endOf
  intro hend
  rw [Ends, hend]
  exact ⟨fun h => absurd h hleaves, fun _ => .inl ⟨data, rfl, hdata⟩⟩

theorem follows_response {o : ExtCall} (hend : endOf cx answered x = o) (hleaves : ¬ x.Leaves cx) (reason : String)
    (hreported : x.reported = true) :
    Follows o (Ends cx answered x (.returned (.error (.response 400 reason)))) (Ends cx answered x) := by
  rw [← hend]
  apply follows_endOf
  intro hend
  rw [Ends, hend]
  exact ⟨fun h => absurd h hleaves, fun _ => .inr ⟨400, reason, rfl, by decide, hreported⟩⟩

theorem follows_leaves {o : ExtCall} (hend : endOf cx answered x = o) (hleaves : x.Leaves cx) (err : FlowError)
    (herr : ∀ code reason, err ≠ .response code reason) :
    Follows o (Ends cx answered x (.returned (.error err))) (Ends cx answered x) := by
  rw [← hend]
  apply follows_endOf
  intro hend
  rw [Ends, hend]
  exact ⟨fun _ => ⟨err, rfl, herr⟩, fun h => absurd hleaves h⟩

theorem not_leaves {op : String} (hop : x.request.op = op)
    (hstays : op ∈ operations ∧ op ≠ "hangup" ∧ op ≠ "redirect") : ¬ x.Leaves cx := by
  subst hop
  obtain ⟨hknown, hhangup, hredirect⟩ := hstays
  rintro (h | ⟨h, -⟩ | h)
  · exact hhangup h
  · exact hredirect h
  · exact h hknown

theorem reported_of_ne {op : String} (hop : x.request.op = op) (hlisten : op ≠ "listen") : x.reported = true := by
  subst hop
  unfold Incoming.reported
  cases x.ext.audioReader with
  | returned codec => simp [hlisten]
  | panicked => rfl

theorem reported_listen (hop : x.request.op = "listen") (hlong : ¬ x.args.durationSeconds > 30) {codec : Codec}
    (haudio : x.ext.audioReader = .returned codec) {n : Nat} :
    x.reported = (FlowData.recording n (durationSec codec n)).marshals := by
  have hreported : x.reported = !decide (codec.samples16 = 0) := by
    unfold Incoming.reported
    rw [haudio]
    simp [hop, hlong]
  rw [hreported, FlowData.marshals, durationSec]
  by_cases hsamples : codec.samples16 = 0
  · simp [hsamples]
  · simp [hsamples]

theorem mediaCall_eq_returned {α : Type} {o : Exit α} {a : α} (h : mediaCall answered o = .returned a) :
    o = .returned a := by
  cases answered with
  | false => cases h
  | true => exact h

/-- What the variables say of an answered call. -/
structure Tracks (answered : Bool) (s : DialogVars) : Prop where
  dialogMedia : s.dialogMedia.isSome = answered
  stopListen : s.stopListen = answered

theorem Tracks.progress (hf : Tracks answered f.vars) (cx : DialogContext) (x : Incoming) (code : Nat)
    (reason : String) : Tracks answered (Frame.mk f.deferred (f.vars.respond cx x code reason none)).vars :=
  ⟨hf.dialogMedia, hf.stopListen⟩

theorem Tracks.recorded (hf : Tracks answered f.vars) (message : List UInt8) :
    Tracks answered (Frame.mk f.deferred { f.vars with recordings := f.vars.recordings ++ [message] }).vars :=
  ⟨hf.dialogMedia, hf.stopListen⟩

theorem meets_ifConfirmed {o : ExtCall} (hend : endOf cx answered x = if x.ext.confirmed then o else .returned none)
    (hleaves : ¬ x.Leaves cx) (hreported : x.reported = true) {b : Code (Option FlowData)} {reason : String}
    (h : endOf cx answered x = o →
      b.Meets f (fun data _ => Ends cx answered x (.returned (.ok data))) fun e _ => Ends cx answered x e) :
    (if x.ext.confirmed then b else fail (.response 400 reason)).Meets f
      (fun data _ => Ends cx answered x (.returned (.ok data))) fun e _ => Ends cx answered x e := by
  by_cases hconfirmed : x.ext.confirmed = true
  · rw [if_pos hconfirmed] at hend ⊢
    exact h hend
  · rw [if_neg hconfirmed] at hend ⊢
    exact follows_response hend hleaves reason hreported

theorem meets_readDTMF (hop : x.request.op = "read_dtmf") (hx : x.WritesSucceed) (hf : Tracks answered f.vars) :
    (readDTMF cx x).Meets f (fun data _ => Ends cx answered x (.returned (.ok data)))
      (fun e _ => Ends cx answered x e) := by
  have hleaves : ¬ x.Leaves cx := not_leaves hop (by decide)
  have hreported : x.reported = true := reported_of_ne hop (by decide)
  have hend : endOf cx answered x = if x.ext.confirmed then
      andThen x.unmarshalled (andThen (mediaCall answered x.ext.audioReaderDTMF)
        (andThen (stopCall answered x) (andThen x.dtmfCall (startCall answered x)))) else .returned none := by
    simp [endOf, hop]
  apply meets_ifConfirmed hend hleaves hreported
  intro hend
  have hf' := hf.progress cx x 183 "Read DTMF In Progress"
  rw [meets_bind, meets_unmarshal, meets_bind, meets_callMedia hf.dialogMedia, meets_bind, meets_progress hx, meets_bind,
    meets_stopListen hf'.stopListen, meets_bind, meets_listenDTMF, meets_bind, meets_startListen hf'.dialogMedia]
  have hok := follows_ok hend hleaves
  simp only [follows_andThen] at hok
  exact hok _ hreported.symm

theorem meets_listen (hop : x.request.op = "listen") (hx : x.WritesSucceed) (hf : Tracks answered f.vars) :
    (listen cx x).Meets f (fun data _ => Ends cx answered x (.returned (.ok data)))
      (fun e _ => Ends cx answered x e) := by
  have hleaves : ¬ x.Leaves cx := not_leaves hop (by decide)
  have hend : endOf cx answered x = andThen x.unmarshalled
      (if x.args.durationSeconds > 30 then .returned none
      else andThen (stopCall answered x) (x.recordCall answered)) := by
    simp [endOf, hop]
  unfold listen
  rw [meets_bind, meets_unmarshal]
  by_cases hlong : x.args.durationSeconds > 30
  · rw [if_pos hlong] at hend ⊢
    have hreported : x.reported = true := by
      unfold Incoming.reported
      cases x.ext.audioReader with
      | returned codec => simp [hlong]
      | panicked => rfl
    exact follows_andThen.mp (follows_response hend hleaves "Bad Request - Duration Seconds above Max" hreported)
  · rw [if_neg hlong] at hend ⊢
    rw [meets_bind, meets_stopListen hf.stopListen, meets_bind, meets_readMedia hf.dialogMedia]
    cases hread : mediaCall answered x.ext.audioReader with
    | panicked =>
        have hpanics : Follows (endOf cx answered x) True (Ends cx answered x) := follows_endOf fun _ => trivial
        rw [hend, follows_andThen, follows_andThen, Incoming.recordCall, hread] at hpanics
        exact hpanics
    | returned codec =>
        have hok := follows_ok hend hleaves
        simp only [follows_andThen, Incoming.recordCall, hread] at hok
        obtain ⟨-, hn, -⟩ := newRecordBuffer_spec (recordID x) codec.samples16
        have hpos : 0 < (newRecordBuffer (recordID x) codec.samples16).n := by
          rw [hn]
          exact Nat.succ_pos _
        have hconsistent := recordingConsistent_writeFrames (recordID x) codec.samples16 x.ext.frames
        have hf' := hf.progress cx x 183 "Recording In Progress"
        have hf'' := hf'.progress cx x 190 "Recording Write"
        rw [meets_await_returned, meets_bind, meets_callOther, meets_bind, meets_progress hx, meets_bind,
          meets_copyFrames hpos, meets_bind, meets_progress hx, hconsistent, if_neg Bool.noConfusion, meets_bind,
          meets_encodeRecording, meets_bind, meets_writeBinary hx, meets_bind,
          meets_startListen (hf''.recorded _).dialogMedia]
        refine hok _ ?_
        rw [reported_listen hop hlong (mediaCall_eq_returned hread)]
        rfl

theorem meets_play (hop : x.request.op = "play") (hx : x.WritesSucceed) (hf : Tracks answered f.vars) :
    (play cx x).Meets f (fun data _ => Ends cx answered x (.returned (.ok data)))
      (fun e _ => Ends cx answered x e) := by
  have hleaves : ¬ x.Leaves cx := not_leaves hop (by decide)
  have hreported : x.reported = true := reported_of_ne hop (by decide)
  have hend : endOf cx answered x = if x.ext.confirmed then
      andThen x.unmarshalled (andThen (mediaCall answered x.ext.playbackCreate) (x.playCall cx))
      else .returned none := by
    simp [endOf, hop]
  apply meets_ifConfirmed hend hleaves hreported
  intro hend
  rw [meets_bind, meets_unmarshal, meets_bind, meets_callMedia hf.dialogMedia, meets_bind, meets_progress hx]
  have hok := follows_ok hend hleaves none hreported.symm
  have hresponse := follows_response hend hleaves ("unknown playback type uri=" ++ x.args.uri) hreported
  rw [follows_andThen, follows_andThen, Incoming.playCall] at hok hresponse
  by_cases hfile : Strings.hasPrefix x.args.uri "file://" = true
  · rw [if_pos hfile] at hok ⊢
    rw [meets_bind, meets_callOther]
    exact hok
  · rw [if_neg hfile] at hok hresponse ⊢
    by_cases hhttp : Strings.hasPrefix x.args.uri "http" = true
    · rw [if_pos hhttp] at hok ⊢
      rw [meets_bind, meets_callOther]
      exact hok
    · rw [if_neg hhttp] at hresponse ⊢
      exact hresponse

theorem meets_echo (hop : x.request.op = "echo") (hx : x.WritesSucceed) (hf : Tracks answered f.vars) :
    (echo cx x).Meets f (fun data _ => Ends cx answered x (.returned (.ok data)))
      (fun e _ => Ends cx answered x e) := by
  have hleaves : ¬ x.Leaves cx := not_leaves hop (by decide)
  have hreported : x.reported = true := reported_of_ne hop (by decide)
  have hend : endOf cx answered x =
      if x.ext.confirmed then mediaCall answered x.ext.echo else .returned none := by
    simp [endOf, hop]
  apply meets_ifConfirmed hend hleaves hreported
  intro hend
  have hf' := hf.progress cx x 183 "Echo In Progress"
  rw [meets_bind, meets_progress hx, meets_bind, meets_callMedia hf'.dialogMedia]
  exact follows_ok hend hleaves none hreported.symm

theorem meets_redirect (hop : x.request.op = "redirect") :
    (redirect cx x).Meets f (fun data _ => Ends cx answered x (.returned (.ok data)))
      (fun e _ => Ends cx answered x e) := by
  have hreported : x.reported = true := reported_of_ne hop (by decide)
  have hend : endOf cx answered x = x.unmarshalled := by simp [endOf, hop]
  have hleaves : x.Leaves cx ↔ x.Redirects cx := by
    simp [Incoming.Leaves, hop, operations]
  unfold redirect
  rw [meets_bind, meets_unmarshal, ← hend]
  cases hlookup : cx.endpoints.lookup x.args.endpoint with
  | none =>
      refine follows_response rfl (fun h => ?_) _ hreported
      obtain ⟨-, endpoint, hsome, -⟩ := hleaves.mp h
      rw [hlookup] at hsome
      cases hsome
  | some endpoint =>
      by_cases hflow : endpoint.match.type = "flow"
      · dsimp only
        rw [if_pos hflow]
        refine follows_response rfl (fun h => ?_) _ hreported
        obtain ⟨-, endpoint', hsome, hother⟩ := hleaves.mp h
        rw [hlookup, Option.some.injEq] at hsome
        exact hother (hsome ▸ hflow)
      · dsimp only
        rw [if_neg hflow]
        exact follows_leaves rfl (hleaves.mpr ⟨hop, endpoint, hlookup, hflow⟩) _ nofun

theorem meets_operation (hop : x.request.op ≠ "answer") (hx : x.WritesSucceed) (hf : Tracks answered f.vars) :
    (operation cx x).Meets f (fun data _ => Ends cx answered x (.returned (.ok data)))
      (fun e _ => Ends cx answered x e) := by
  unfold operation
  split_ifs with hring hhangup hread hlisten hplay hecho hredirect
  · have hleaves : ¬ x.Leaves cx := not_leaves hring (by decide)
    have hreported : x.reported = true := reported_of_ne hring (by decide)
    have hend : endOf cx answered x = x.ext.ringing := by simp [endOf, hring]
    rw [meets_bind, meets_callOther]
    exact follows_ok hend hleaves none hreported.symm
  · have hend : endOf cx answered x = x.ext.hangup := by simp [endOf, hhangup]
    rw [meets_bind, meets_callOther]
    exact follows_leaves hend (.inl hhangup) (.agentExit none) nofun
  · exact meets_readDTMF hread hx hf
  · exact meets_listen hlisten hx hf
  · exact meets_play hplay hx hf
  · exact meets_echo hecho hx hf
  · exact meets_redirect hredirect
  · have hend : endOf cx answered x = .returned none := by simp [endOf, *]
    have hunknown : x.Leaves cx := by
      right
      right
      simp [operations, *]
    exact follows_leaves hend hunknown (.external {}) nofun

end Follows

/-! ### Turns -/

section Turns

variable {cx : DialogContext} {answered : Bool} {x : Incoming}

theorem Calm.tracks {f f' : Frame DialogVars DialogDeferred} (h : Calm f f') (hf : Tracks answered f.vars) :
    Tracks answered f'.vars := by
  refine ⟨h.dialogMedia ▸ hf.dialogMedia, ?_⟩
  obtain hsame | ⟨hmedia, hlistens⟩ := h.stopListen
  · exact hsame.trans hf.stopListen
  · rw [hlistens, ← hf.dialogMedia, Option.isSome_iff_ne_none.mpr hmedia]

/-- A request ends as its calls do, has had no final response yet, and leaves the variables in step with the call. -/
theorem run_handleRequest (cx : DialogContext) (hx : x.WritesSucceed) {s : DialogVars} (hs : Tracks answered s) :
    ∃ e s', run dialogInterp (handleRequest cx x) s = (e, s') ∧ Ends cx answered x e ∧
      s'.answeredIDs = s.answeredIDs ∧
      (x.Stays cx answered → Tracks (answered || x.request.op = "answer") s') := by
  by_cases hop : x.request.op = "answer"
  · obtain ⟨s', hrun, hIDs, hmade, hlistens⟩ := run_answer cx hop s
    have hleaves : ¬ x.Leaves cx := not_leaves hop (by decide)
    have hreported : x.reported = true := reported_of_ne hop (by decide)
    have hend : endOf cx answered x = andThen x.ext.answer x.ext.listenBackground := by simp [endOf, hop]
    refine ⟨_, s', hrun, ?_, hIDs, fun hstays => ?_⟩
    · rw [Ends, hend]
      obtain (_ | err) | _ := andThen x.ext.answer x.ext.listenBackground
      · exact ⟨fun h => absurd h hleaves, fun _ => .inl ⟨none, rfl, hreported.symm⟩⟩
      · rfl
      · rfl
    · obtain ⟨hanswer, hlisten⟩ := andThen_eq_none.mp (hend.symm.trans hstays.1)
      obtain ⟨hmedia, -⟩ := hmade hanswer
      rw [decide_eq_true hop, Bool.or_true]
      refine ⟨?_, hlistens hanswer hlisten⟩
      rw [hmedia]
      rfl
  · have hmeets : (handleRequest cx x).Meets ⟨[], s⟩ (fun r _ => Ends cx answered x (.returned r))
        fun e _ => Ends cx answered x e := by
      unfold handleRequest
      rw [meets_bind]
      have hf : Tracks answered (Frame.mk ([] : List DialogDeferred) s).vars := hs
      exact meets_operation hop hx hf
    obtain ⟨e, f, he, hcalm, hrun⟩ := run_handleRequest_calm hop (P := fun e _ => Ends cx answered x e) hmeets
    refine ⟨e, f.vars, hrun, he, hcalm.answeredIDs, fun _ => ?_⟩
    rw [decide_eq_false hop, Bool.or_false]
    exact hcalm.tracks hs

theorem answeredIDs_writeResponse (hx : x.WritesSucceed) {code : Nat} (hcode : 200 ≤ code) (reason : String)
    (data : Option FlowData) (s : DialogVars) :
    (writeResponse cx x code reason data s).answeredIDs =
      s.answeredIDs ++ if data.all FlowData.marshals then [x.request.id] else [] := by
  unfold writeResponse
  by_cases hdata : data.all FlowData.marshals = true
  · rw [if_pos ⟨hdata, hx.response code⟩, if_pos hdata]
    simp [DialogVars.answeredIDs, DialogVars.respond, FlowResponse.isFinal, hcode]
  · rw [if_neg fun h => hdata h.1, if_neg hdata, List.append_nil]

theorem conclude_ok (cx : DialogContext) (hx : x.WritesSucceed) (data : Option FlowData) (s : DialogVars) :
    (conclude cx x (.ok data) s).1 = none ∧ (conclude cx x (.ok data) s).2.answeredIDs =
      s.answeredIDs ++ if data.all FlowData.marshals then [x.request.id] else [] :=
  ⟨rfl, answeredIDs_writeResponse hx (by decide) "OK" data s⟩

theorem conclude_error (cx : DialogContext) (hx : x.WritesSucceed) (err : FlowError)
    (hcode : ∀ code reason, err = .response code reason → 200 ≤ code) (s : DialogVars) :
    ((conclude cx x (.error err) s).1 = none ↔ ∃ code reason, err = .response code reason) ∧
      (conclude cx x (.error err) s).2.answeredIDs = s.answeredIDs ++ [x.request.id] := by
  have hwrite : ∀ code reason, 200 ≤ code →
      (writeResponse cx x code reason none s).answeredIDs = s.answeredIDs ++ [x.request.id] :=
    fun code reason h => answeredIDs_writeResponse hx h reason none s
  cases err with
  | response code reason => exact ⟨⟨fun _ => ⟨code, reason, rfl⟩, fun _ => rfl⟩, hwrite code reason (hcode _ _ rfl)⟩
  | agentExit redirect => exact ⟨⟨nofun, nofun⟩, hwrite 200 "OK" (by decide)⟩
  | external err =>
      unfold conclude
      dsimp only
      split_ifs
      · exact ⟨⟨nofun, nofun⟩, hwrite 499 _ (by decide)⟩
      · exact ⟨⟨nofun, nofun⟩, hwrite 487 _ (by decide)⟩
      · exact ⟨⟨nofun, nofun⟩, hwrite 500 _ (by decide)⟩

variable {r : DialogRun}

theorem turnStep_stays (hx : x.WritesSucceed) (hended : r.ended = none) (hr : Tracks answered r.vars)
    (hstays : x.Stays cx answered) :
    (turnStep cx r (.request x)).ended = none ∧
      Tracks (answered || x.request.op = "answer") (turnStep cx r (.request x)).vars ∧
      (turnStep cx r (.request x)).vars.answeredIDs =
        r.vars.answeredIDs ++ if x.reported then [x.request.id] else [] := by
  obtain ⟨e, s', hrun, hends, hIDs, htracks⟩ := run_handleRequest cx hx hr
  have hs' := htracks hstays
  have hconclude : ∀ reply, Tracks (answered || x.request.op = "answer") (conclude cx x reply s').2 := by
    intro reply
    rw [conclude_vars]
    exact ⟨hs'.dialogMedia, hs'.stopListen⟩
  rw [Ends, hstays.1] at hends
  obtain ⟨data, rfl, hdata⟩ | ⟨code, reason, rfl, hcode, hreported⟩ := hends.2 hstays.2
  · obtain ⟨hnone, hanswered⟩ := conclude_ok cx hx data s'
    rw [turnStep_returned hended hrun]
    refine ⟨hnone, hconclude _, ?_⟩
    rw [← hIDs, ← hdata]
    exact hanswered
  · have hfinal : ∀ code' reason', FlowError.response code reason = .response code' reason' → 200 ≤ code' := by
      rintro _ _ ⟨⟩
      exact hcode
    obtain ⟨hnone, hanswered⟩ := conclude_error cx hx (.response code reason) hfinal s'
    rw [turnStep_returned hended hrun]
    refine ⟨hnone.mpr ⟨code, reason, rfl⟩, hconclude _, ?_⟩
    rw [← hIDs, if_pos hreported]
    exact hanswered

theorem turnStep_ends (hx : x.WritesSucceed) (hended : r.ended = none) (hr : Tracks answered r.vars)
    (hends : ¬ x.Stays cx answered) :
    (turnStep cx r (.request x)).ended ≠ none ∧
      (turnStep cx r (.request x)).vars.answeredIDs =
        r.vars.answeredIDs ++ if endOf cx answered x = .panicked then [] else [x.request.id] := by
  obtain ⟨e, s', hrun, he, hIDs, -⟩ := run_handleRequest cx hx hr
  -- an error that is not an `errResponse`
  have herror : ∀ err, e = .returned (.error err) → (∀ code reason, err ≠ .response code reason) →
      (turnStep cx r (.request x)).ended ≠ none ∧
        (turnStep cx r (.request x)).vars.answeredIDs = r.vars.answeredIDs ++ [x.request.id] := by
    rintro err rfl hother
    obtain ⟨hnone, hanswered⟩ := conclude_error cx hx err (fun code reason h => absurd h (hother code reason)) s'
    rw [turnStep_returned hended hrun]
    refine ⟨fun h => ?_, hIDs ▸ hanswered⟩
    obtain ⟨code, reason, h⟩ := hnone.mp h
    exact hother code reason h
  unfold Ends at he
  rcases hend : endOf cx answered x with (_ | err) | _
  · rw [hend] at he
    have hleaves : x.Leaves cx := by
      by_contra hleaves
      exact hends ⟨hend, hleaves⟩
    obtain ⟨err, herr, hother⟩ := he.1 hleaves
    rw [if_neg nofun]
    exact herror err herr hother
  · rw [hend] at he
    rw [if_neg nofun]
    exact herror (.external err) he nofun
  · rw [hend] at he
    subst he
    rw [turnStep_panicked hended hrun, if_pos rfl, List.append_nil]
    exact ⟨nofun, hIDs⟩

end Turns

/-! ### Runs -/

/-- When `NewServerDialog` has returned, each request in its channel has had one final response, and nobody else. -/
def EveryAnswered (requests : List Incoming) (r : DialogRun) : Prop :=
  r.ended ≠ none → r.vars.answeredIDs.Perm (requests.map (·.request.id))

/-- The request that ends the dialog is the last one in the channel and does not panic, and none before it was lost:
a lost one has data that is not marshalled, so that its response is not written. -/
def EndsLast (cx : DialogContext) : (answered lost : Bool) → List Incoming → Prop
  | _, _, [] => True
  | answered, lost, x :: xs =>
      (x.Stays cx answered → EndsLast cx (answered || x.request.op = "answer") (lost || !x.reported) xs) ∧
        (¬ x.Stays cx answered → endOf cx answered x ≠ .panicked ∧ xs = [] ∧ lost = false)

/-- Without the agent's acceptance there may be no request at all. -/
def Settles (cx : DialogContext) (invite : Exit (Except ExtError Nat)) (requests : List Incoming) : Prop :=
  match invite with
  | .returned (.ok code) => if code = 200 then EndsLast cx false false requests else requests = []
  | _ => requests = []

section Runs

variable {cx : DialogContext}

theorem run_of_ended {r : DialogRun} (h : r.ended ≠ none) (turns : List Turn) : Run.run (turnStep cx) r turns = r := by
  induction turns with
  | nil => rfl
  | cons t turns ih => rw [Run.run_cons, turnStep_of_ended h, ih]

/-- The requests handled so far have `done` as their IDs, and `lost` tells whether one of them has had no response. -/
theorem everyAnswered_run_iff {requests : List Incoming} (hx : ∀ x ∈ requests, x.WritesSucceed) {r : DialogRun}
    {answered lost : Bool} {done : List String} (hended : r.ended = none) (hr : Tracks answered r.vars)
    (hdone : r.vars.answeredIDs.Sublist done) (hlost : lost = false ↔ r.vars.answeredIDs.length = done.length) :
    ((Run.run (turnStep cx) r (requests.map .request)).ended ≠ none →
      (Run.run (turnStep cx) r (requests.map .request)).vars.answeredIDs.Perm
        (done ++ requests.map (·.request.id))) ↔ EndsLast cx answered lost requests := by
  induction requests generalizing r answered lost done with
  | nil =>
      refine iff_of_true (fun h => absurd hended h) trivial
  | cons x requests ih =>
      have hx' : ∀ y ∈ requests, y.WritesSucceed := fun y hy => hx y (List.mem_cons_of_mem x hy)
      rw [List.map_cons, List.map_cons, Run.run_cons]
      have hlength := hdone.length_le
      by_cases hstays : x.Stays cx answered
      · obtain ⟨hended', hr', hIDs⟩ := turnStep_stays (hx x List.mem_cons_self) hended hr hstays
        have hdone' : (turnStep cx r (.request x)).vars.answeredIDs.Sublist (done ++ [x.request.id]) := by
          rw [hIDs]
          apply hdone.append
          split_ifs
          · exact List.Sublist.refl _
          · exact List.nil_sublist _
        have hlost' : (lost || !x.reported) = false ↔
            (turnStep cx r (.request x)).vars.answeredIDs.length = (done ++ [x.request.id]).length := by
          rw [hIDs, Bool.or_eq_false_iff, hlost, List.length_append, List.length_append]
          cases x.reported with
          | true => simp
          | false =>
              simp only [Bool.not_false, Bool.true_eq_false, and_false, false_iff, Bool.false_eq_true, if_false,
                List.length_nil, List.length_singleton]
              omega
        have hrest := ih hx' hended' hr' hdone' hlost'
        rw [List.append_assoc, List.singleton_append] at hrest
        rw [hrest, EndsLast]
        exact ⟨fun h => ⟨fun _ => h, fun hnot => absurd hstays hnot⟩, fun h => h.1 hstays⟩
      · obtain ⟨hended', hIDs⟩ := turnStep_ends (hx x List.mem_cons_self) hended hr hstays
        rw [run_of_ended hended', imp_iff_right hended', hIDs, EndsLast]
        constructor
        · intro hperm
          refine ⟨fun h => absurd h hstays, fun _ => ?_⟩
          have hcount := hperm.length_eq
          rw [List.length_append, List.length_append, List.length_cons, List.length_map] at hcount
          by_cases hpanics : endOf cx answered x = .panicked
          · rw [if_pos hpanics, List.length_nil] at hcount
            omega
          · rw [if_neg hpanics, List.length_singleton] at hcount
            exact ⟨hpanics, List.eq_nil_of_length_eq_zero (by omega), hlost.mpr (by omega)⟩
        · intro hlast
          obtain ⟨hpanics, rfl, hnone⟩ := hlast.2 hstays
          rw [if_neg hpanics, hdone.eq_of_length (hlost.mp hnone)]
          exact List.Perm.refl _

end Runs

/-- For all requests in the channel and all ends of the calls that are made for them, `NewServerDialog` answers every
request exactly when nothing is left in the channel behind the request that ends the dialog. -/
theorem everyAnswered_iff (cx : DialogContext) (invite : Exit (Except ExtError Nat)) {requests : List Incoming}
    (hx : ∀ x ∈ requests, x.WritesSucceed) :
    EveryAnswered requests (newServerDialogRun cx invite (requests.map .request)) ↔ Settles cx invite requests := by
  have hrefused : ∀ e : DialogEnd, EveryAnswered requests { ended := some e } ↔ requests = [] := by
    intro e
    have hnone : ({ ended := some e } : DialogRun).vars.answeredIDs = [] := rfl
    rw [EveryAnswered, imp_iff_right (Option.some_ne_none e), hnone, List.nil_perm, List.map_eq_nil_iff]
  unfold newServerDialogRun Settles
  obtain (err | code) | _ := invite
  · exact hrefused _
  · dsimp only
    split_ifs
    · have hinitial : Tracks false ({} : DialogRun).vars := ⟨rfl, rfl⟩
      exact everyAnswered_run_iff hx rfl hinitial (List.Sublist.refl []) (iff_of_true rfl rfl)
    · exact hrefused _
  · exact hrefused _

theorem quietRequest_writesSucceed (id op : String) : (quietRequest id op).WritesSucceed where
  response _ := rfl
  binary := rfl

/-- A call that is answered and hung up. -/
def hangupRequests : List Incoming := [quietRequest "1" "answer", quietRequest "2" "hangup"]

theorem everyAnswered_hangup : EveryAnswered hangupRequests
    (newServerDialogRun plainContext (.returned (.ok 200)) (hangupRequests.map .request)) := by
  have hx : ∀ x ∈ hangupRequests, x.WritesSucceed := by
    simp only [hangupRequests, List.forall_mem_cons, List.not_mem_nil, false_imp_iff, implies_true, and_true]
    exact ⟨quietRequest_writesSucceed "1" "answer", quietRequest_writesSucceed "2" "hangup"⟩
  refine (everyAnswered_iff plainContext (.returned (.ok 200)) hx).mpr ?_
  have hstays : (quietRequest "1" "answer").Stays plainContext false :=
    ⟨rfl, not_leaves rfl (by decide)⟩
  have hends : ¬ (quietRequest "2" "hangup").Stays plainContext true := fun h => h.2 (.inl rfl)
  refine ⟨fun _ => ⟨fun h => absurd h hends, fun _ => ⟨by decide, rfl, rfl⟩⟩, fun h => absurd hstays h⟩

/-- A request that is sent before the hangup has its response is not answered. -/
theorem not_everyAnswered :
    ¬ ∀ (cx : DialogContext) (invite : Exit (Except ExtError Nat)) (requests : List Incoming),
      (∀ x ∈ requests, x.WritesSucceed) →
      EveryAnswered requests (newServerDialogRun cx invite (requests.map .request)) := by
  intro h
  let requests : List Incoming := [quietRequest "1" "hangup", quietRequest "2" "ring"]
  have hx : ∀ x ∈ requests, x.WritesSucceed := by
    simp only [requests, List.forall_mem_cons, List.not_mem_nil, false_imp_iff, implies_true, and_true]
    exact ⟨quietRequest_writesSucceed "1" "hangup", quietRequest_writesSucceed "2" "ring"⟩
  have hperm := h plainContext (.returned (.ok 200)) requests hx (by decide)
  exact absurd hperm.length_eq (by decide)

end Flow
