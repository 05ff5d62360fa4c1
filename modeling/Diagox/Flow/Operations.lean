import Diagox.Flow.Dialog

/-!
# What an operation leaves behind

Every operation but `answer` leaves the media session alone, defers nothing, and sends provisional responses only.
`answer` defers the `Close` of the session it makes to its own end, not to that of the dialog.
-/

namespace Flow

open Defer Defer.Body

/-- A response that ends a request. -/
def FlowResponse.isFinal (res : FlowResponse) : Bool := decide (200 ≤ res.code)

/-- The requests that have had a final response, in its order. -/
def DialogVars.answeredIDs (s : DialogVars) : List String := (s.responses.filter FlowResponse.isFinal).map (·.id)

/-- What an operation leaves as it is. It may start to listen, on a media session that is there. -/
structure Calm (f f' : Frame DialogVars DialogDeferred) : Prop where
  deferred : f'.deferred = f.deferred
  dialogMedia : f'.vars.dialogMedia = f.vars.dialogMedia
  closed : f'.vars.closed = f.vars.closed
  answeredIDs : f'.vars.answeredIDs = f.vars.answeredIDs
  stopListen : f'.vars.stopListen = f.vars.stopListen ∨ f.vars.dialogMedia ≠ none ∧ f'.vars.stopListen = true

theorem Calm.refl (f : Frame DialogVars DialogDeferred) : Calm f f := ⟨rfl, rfl, rfl, rfl, .inl rfl⟩

theorem Calm.trans {f g h : Frame DialogVars DialogDeferred} (hfg : Calm f g) (hgh : Calm g h) : Calm f h where
  deferred := hgh.deferred.trans hfg.deferred
  dialogMedia := hgh.dialogMedia.trans hfg.dialogMedia
  closed := hgh.closed.trans hfg.closed
  answeredIDs := hgh.answeredIDs.trans hfg.answeredIDs
  stopListen := by
    obtain h | ⟨hmedia, h⟩ := hgh.stopListen
    · obtain h' | ⟨hmedia, h'⟩ := hfg.stopListen
      · exact .inl (h.trans h')
      · exact .inr ⟨hmedia, h.trans h'⟩
    · exact .inr ⟨hfg.dialogMedia ▸ hmedia, h⟩

theorem answeredIDs_respond {cx : DialogContext} {x : Incoming} {code : Nat} (hcode : code < 200) (reason : String)
    (data : Option FlowData) (s : DialogVars) : (s.respond cx x code reason data).answeredIDs = s.answeredIDs := by
  have hprovisional : ¬ 200 ≤ code := by omega
  simp [DialogVars.answeredIDs, DialogVars.respond, FlowResponse.isFinal, hprovisional]

section Calm

variable {α β : Type} {cx : DialogContext} {x : Incoming}

abbrev IsCalm (b : Code α) : Prop := Preserves Calm b

theorem calm_pure (a : α) : IsCalm (pure a) := preserves_pure Calm.refl a

theorem calm_bind {b : Code α} {k : α → Code β} (hb : IsCalm b) (hk : ∀ a, IsCalm (k a)) : IsCalm (b >>= k) := by
  have htrans : ∀ f g h, Calm f g → Calm g h → Calm f h := fun _ _ _ => Calm.trans
  exact preserves_bind htrans hb hk

theorem calm_fail (err : FlowError) : IsCalm (fail err : Code α) := preserves_ret Calm.refl _

theorem calm_callOther (o : ExtCall) : IsCalm (callOther o) := by
  refine calm_bind (preserves_await Calm.refl o) fun err => ?_
  cases err with
  | none => exact calm_pure ()
  | some err => exact calm_fail (.external err)

theorem calm_onMedia {method : Code α} (h : IsCalm method) : IsCalm (onMedia method) := by
  refine calm_bind (preserves_read Calm.refl _) fun media => ?_
  cases media with
  | none => exact preserves_panic Calm.refl
  | some m => exact h

theorem calm_progress {code : Nat} (hcode : code < 200) (reason : String) : IsCalm (progress cx x code reason) := by
  unfold progress
  cases x.ext.writeResponse code with
  | none => exact preserves_update fun f => ⟨rfl, rfl, rfl, answeredIDs_respond hcode reason none f.vars, .inl rfl⟩
  | some err => exact calm_fail (.external err)

theorem calm_unmarshal : IsCalm (unmarshal x) := by
  unfold unmarshal
  cases x.request.args with
  | ok args => exact calm_pure args
  | error err => exact calm_fail (.external err)

theorem calm_stopListen : IsCalm (stopListen x) :=
  calm_bind (preserves_read Calm.refl _) fun _ => preserves_ite (calm_callOther _) (calm_pure ())

theorem calm_startListen : IsCalm (startListen x) := by
  intro f
  unfold startListen
  rw [meets_bind, meets_read]
  cases hmedia : f.vars.dialogMedia with
  | none => exact Calm.refl f
  | some m =>
      rw [meets_bind]
      apply (calm_callOther x.ext.listenBackground f).mono
      · intro _ f' hcalm
        rw [meets_update]
        refine ⟨hcalm.deferred, hcalm.dialogMedia, hcalm.closed, hcalm.answeredIDs, .inr ⟨?_, rfl⟩⟩
        rw [hmedia]
        exact Option.some_ne_none m
      · exact fun _ _ hcalm => hcalm

theorem calm_copyFrames (buf : RecordBuffer) : IsCalm (copyFrames x buf) := by
  unfold copyFrames
  obtain ⟨buf, _ | _ | _⟩ := buf.writeFrames x.ext.frames
  · refine calm_bind (preserves_await Calm.refl _) fun err => ?_
    cases err with
    | none => exact calm_pure buf
    | some err => exact preserves_ite (calm_pure buf) (calm_fail _)
  · exact calm_fail _
  · exact calm_pure buf

theorem calm_listenDTMF (args : FlowArgs) : IsCalm (listenDTMF x args) :=
  preserves_ite (calm_pure _) (calm_bind (calm_callOther _) fun _ => calm_pure _)

theorem calm_encodeRecording (args : FlowArgs) (codec : Codec) (recording : List UInt8) (metadataSize : Nat) :
    IsCalm (encodeRecording x args codec recording metadataSize) :=
  preserves_ite (calm_bind (calm_callOther _) fun _ => calm_pure _) (calm_pure _)

theorem calm_writeBinary (message : List UInt8) : IsCalm (writeBinary x message) := by
  unfold writeBinary
  cases x.ext.writeBinary with
  | none => exact preserves_update fun f => ⟨rfl, rfl, rfl, rfl, .inl rfl⟩
  | some err => exact calm_fail _

theorem calm_readDTMF : IsCalm (readDTMF cx x) := by
  unfold readDTMF
  refine preserves_ite ?_ (calm_fail _)
  refine calm_bind calm_unmarshal fun args => ?_
  refine calm_bind (calm_onMedia (calm_callOther _)) fun _ => ?_
  refine calm_bind (calm_progress (by decide) _) fun _ => ?_
  refine calm_bind calm_stopListen fun _ => ?_
  refine calm_bind (calm_listenDTMF args) fun _ => ?_
  exact calm_bind calm_startListen fun _ => calm_pure _

theorem calm_listen : IsCalm (listen cx x) := by
  unfold listen
  refine calm_bind calm_unmarshal fun args => ?_
  refine preserves_ite (calm_fail _) ?_
  refine calm_bind calm_stopListen fun _ => ?_
  refine calm_bind (calm_onMedia (preserves_await Calm.refl _)) fun codec => ?_
  refine calm_bind (calm_callOther _) fun _ => ?_
  refine calm_bind (calm_progress (by decide) _) fun _ => ?_
  refine calm_bind (calm_copyFrames _) fun buf => ?_
  refine calm_bind (calm_progress (by decide) _) fun _ => ?_
  refine preserves_ite (preserves_panic Calm.refl) ?_
  refine calm_bind (calm_encodeRecording _ _ _ _) fun message => ?_
  refine calm_bind (calm_writeBinary message) fun _ => ?_
  exact calm_bind calm_startListen fun _ => calm_pure _

theorem calm_play : IsCalm (play cx x) := by
  unfold play
  refine preserves_ite ?_ (calm_fail _)
  refine calm_bind calm_unmarshal fun args => ?_
  refine calm_bind (calm_onMedia (calm_callOther _)) fun _ => ?_
  refine calm_bind (calm_progress (by decide) _) fun _ => ?_
  refine preserves_ite (calm_bind (calm_callOther _) fun _ => calm_pure _) ?_
  exact preserves_ite (calm_bind (calm_callOther _) fun _ => calm_pure _) (calm_fail _)

theorem calm_echo : IsCalm (echo cx x) := by
  unfold echo
  refine preserves_ite ?_ (calm_fail _)
  refine calm_bind (calm_progress (by decide) _) fun _ => ?_
  exact calm_bind (calm_onMedia (calm_callOther _)) fun _ => calm_pure _

theorem calm_redirect : IsCalm (redirect cx x) := by
  unfold redirect
  refine calm_bind calm_unmarshal fun args => ?_
  cases cx.endpoints.lookup args.endpoint with
  | none => exact calm_fail _
  | some endpoint => exact preserves_ite (calm_fail _) (calm_fail _)

theorem calm_operation (hop : x.request.op ≠ "answer") : IsCalm (operation cx x) := by
  unfold operation
  refine preserves_ite (calm_bind (calm_callOther _) fun _ => calm_pure _) ?_
  rw [if_neg hop]
  refine preserves_ite (calm_bind (calm_callOther _) fun _ => calm_fail _) ?_
  refine preserves_ite calm_readDTMF (preserves_ite calm_listen ?_)
  refine preserves_ite calm_play (preserves_ite calm_echo ?_)
  exact preserves_ite calm_redirect (calm_fail _)

/-- Without anything deferred a run ends as the function literal does. -/
theorem run_handleRequest_calm (hop : x.request.op ≠ "answer") {s : DialogVars}
    {P : Exit Reply → Frame DialogVars DialogDeferred → Prop}
    (h : (handleRequest cx x).Meets ⟨[], s⟩ (fun r => P (.returned r)) P) :
    ∃ e f, P e f ∧ Calm ⟨[], s⟩ f ∧ run dialogInterp (handleRequest cx x) s = (e, f.vars) := by
  have hcalm : IsCalm (handleRequest cx x) := calm_bind (calm_operation hop) fun _ => calm_pure _
  let P' : Exit Reply → Frame DialogVars DialogDeferred → Prop := fun e f => P e f ∧ Calm ⟨[], s⟩ f
  have hmeets : (handleRequest cx x).Meets ⟨[], s⟩ (fun r => P' (.returned r)) P' := h.and (hcalm ⟨[], s⟩)
  obtain ⟨e, f, ⟨he, hf⟩, hrun⟩ := run_of_meets hmeets
  refine ⟨e, f, he, hf, ?_⟩
  rw [hrun, hf.deferred, unwind_nil, Exit.after_isPanic]

end Calm

/-! ### Answering -/

/-- Two calls of other code, the second one if the first has no error. -/
def andThen (o o' : ExtCall) : ExtCall :=
  match o with
  | .returned none => o'
  | o => o

/-- The end of a request without data whose calls of other code have ended so. -/
def replyOf : ExtCall → Exit Reply
  | .returned none => .returned (.ok none)
  | .returned (some err) => .returned (.error (.external err))
  | .panicked => .panicked

theorem andThen_eq_none {o o' : ExtCall} : andThen o o' = .returned none ↔ o = .returned none ∧ o' = .returned none := by
  obtain (_ | err) | _ := o
  · simp [andThen]
  · simp [andThen]
  · simp [andThen]

section Answer

variable (cx : DialogContext) {x : Incoming}

/-- An `answer` request makes a media session and closes it. -/
theorem run_answer (hop : x.request.op = "answer") (s : DialogVars) :
    ∃ s', run dialogInterp (handleRequest cx x) s = (replyOf (andThen x.ext.answer x.ext.listenBackground), s') ∧
      s'.answeredIDs = s.answeredIDs ∧
      (x.ext.answer = .returned none → s'.dialogMedia = some s.answers ∧ s.answers ∈ s'.closed) ∧
      (x.ext.answer = .returned none → x.ext.listenBackground = .returned none → s'.stopListen = true) := by
  have hoperation : operation cx x = answer x := by
    rw [operation, hop, if_neg (by decide), if_pos rfl]
  have hhandle : handleRequest cx x = (answer x >>= fun data => pure (.ok data)) := by rw [handleRequest, hoperation]
  rw [hhandle]
  unfold answer callOther startListen
  obtain (_ | err) | _ := x.ext.answer
  · obtain (_ | err) | _ := x.ext.listenBackground
    · exact ⟨_, rfl, rfl, fun _ => ⟨rfl, List.mem_cons_self⟩, fun _ _ => rfl⟩
    · exact ⟨_, rfl, rfl, fun _ => ⟨rfl, List.mem_cons_self⟩, nofun⟩
    · exact ⟨_, rfl, rfl, fun _ => ⟨rfl, List.mem_cons_self⟩, nofun⟩
  · exact ⟨_, rfl, rfl, nofun, nofun⟩
  · exact ⟨_, rfl, rfl, nofun, nofun⟩

end Answer

/-! ### Turns -/

section Turns

variable {cx : DialogContext} {x : Incoming} {r : DialogRun}

theorem turnStep_of_ended (h : r.ended ≠ none) (t : Turn) : turnStep cx r t = r := by
  obtain ⟨e, he⟩ := Option.ne_none_iff_exists'.mp h
  simp only [turnStep, he]

theorem turnStep_returned (h : r.ended = none) {reply : Reply} {s : DialogVars}
    (hrun : run dialogInterp (handleRequest cx x) r.vars = (.returned reply, s)) :
    turnStep cx r (.request x) =
      { vars := (conclude cx x reply s).2
        ended := (conclude cx x reply s).1
        answered := r.answered || (x.request.op = "answer" && reply.isOk) } := by
  simp only [turnStep, h, hrun]

theorem turnStep_panicked (h : r.ended = none) {s : DialogVars}
    (hrun : run dialogInterp (handleRequest cx x) r.vars = (.panicked, s)) :
    turnStep cx r (.request x) = { r with vars := s, ended := some .recovered } := by
  simp only [turnStep, h, hrun]

theorem conclude_vars (reply : Reply) (s : DialogVars) :
    (conclude cx x reply s).2 = { s with responses := (conclude cx x reply s).2.responses } := by
  have hwrite : ∀ code reason data, writeResponse cx x code reason data s =
      { s with responses := (writeResponse cx x code reason data s).responses } := by
    intro code reason data
    unfold writeResponse
    split_ifs <;> rfl
  unfold conclude
  split
  · exact hwrite _ _ _
  · split_ifs
    · exact hwrite _ _ _
    · exact hwrite _ _ _
    · split <;> exact hwrite _ _ _

end Turns

end Flow
