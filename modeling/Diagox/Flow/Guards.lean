import Diagox.Flow.Responses

/-!
# Requests before the call is answered

The media session is a nil pointer until an `answer` request has made it. `read_dtmf`, `play` and `echo` ask for the
state of the dialog first, `listen` asks for nothing but a duration, and none of the four looks at the pointer. A
method of it panics, which ends the dialog.
-/

namespace Flow

open Defer Defer.Body Run

/-- The operations that work on the media session. -/
def mediaOperations : List String := ["read_dtmf", "listen", "play", "echo"]

/-- While there is no media session, a request that works on it has an error response and nothing else happens: the
loop goes on. -/
def GuardsMedia (cx : DialogContext) (r : DialogRun) : Turn → Prop
  | .request x => r.ended = none → r.vars.dialogMedia = none → x.request.op ∈ mediaOperations →
      ∃ code reason, 400 ≤ code ∧
        turnStep cx r (.request x) = { r with vars := writeResponse cx x code reason none r.vars }
  | .contextDone _ => True

/-- A request that its operation refuses before it comes to the media session. -/
def Incoming.Refused (x : Incoming) : Prop :=
  if x.request.op = "listen" then ∃ args, x.request.args = .ok args ∧ args.durationSeconds > 30
  else x.ext.confirmed = false

/-- While there is no media session, a request that works on it is refused by something else. -/
def RefusedUnanswered (r : DialogRun) : Turn → Prop
  | .request x => r.ended = none → r.vars.dialogMedia = none → x.request.op ∈ mediaOperations → x.Refused
  | .contextDone _ => True

/-- An end that the loop does not go on from. -/
def Fatal (e : Exit Reply) : Prop := e = .panicked ∨ ∃ err, e = .returned (.error (.external err))

section Guards

variable {cx : DialogContext} {x : Incoming} {r : DialogRun} {f : Frame DialogVars DialogDeferred}

theorem fatal_external (err : ExtError) : Fatal (.returned (.error (.external err))) := .inr ⟨err, rfl⟩

theorem turnStep_refused (hended : r.ended = none) {code : Nat} {reason : String}
    (h : operation cx x = fail (.response code reason)) :
    turnStep cx r (.request x) = { r with vars := writeResponse cx x code reason none r.vars } := by
  have hrun : run dialogInterp (handleRequest cx x) r.vars =
      (.returned (.error (.response code reason)), r.vars) := by
    rw [handleRequest, h]
    rfl
  rw [turnStep_returned hended hrun, hended]
  simp [conclude, FlowError.canceled, FlowError.netClosed, Except.isOk, Except.toBool]

theorem ended_of_fatal (hended : r.ended = none) {e : Exit Reply} (he : Fatal e) {s : DialogVars}
    (hrun : run dialogInterp (handleRequest cx x) r.vars = (e, s)) : (turnStep cx r (.request x)).ended ≠ none := by
  obtain rfl | ⟨err, rfl⟩ := he
  · rw [turnStep_panicked hended hrun]
    exact Option.some_ne_none _
  · rw [turnStep_returned hended hrun]
    unfold conclude
    dsimp only
    split_ifs
    · exact Option.some_ne_none _
    · exact Option.some_ne_none _
    · exact Option.some_ne_none _

theorem turnStep_fatal (hended : r.ended = none) (hop : x.request.op ≠ "answer")
    (h : (operation cx x).Meets ⟨[], r.vars⟩ (fun _ _ => False) fun e _ => Fatal e) :
    (turnStep cx r (.request x)).ended ≠ none := by
  have hmeets : (handleRequest cx x).Meets ⟨[], r.vars⟩ (fun reply _ => Fatal (.returned reply))
      fun e _ => Fatal e := by
    rw [handleRequest, meets_bind]
    exact h.mono (fun _ _ hfalse => hfalse.elim) fun _ _ he => he
  obtain ⟨e, f, he, -, hrun⟩ := run_handleRequest_calm hop (P := fun e _ => Fatal e) hmeets
  exact ended_of_fatal hended he hrun

/-! ### Statements that go on or end the dialog -/

/-- The media session is the same, and nothing has been sent but responses. -/
structure Same (f f' : Frame DialogVars DialogDeferred) : Prop where
  dialogMedia : f'.vars.dialogMedia = f.vars.dialogMedia
  recordings : f'.vars.recordings = f.vars.recordings

theorem Same.refl (f : Frame DialogVars DialogDeferred) : Same f f := ⟨rfl, rfl⟩

theorem Same.trans {f g h : Frame DialogVars DialogDeferred} (hfg : Same f g) (hgh : Same g h) : Same f h :=
  ⟨hgh.dialogMedia.trans hfg.dialogMedia, hgh.recordings.trans hfg.recordings⟩

/-- The body goes on with such values only, or ends the dialog, and neither answers nor sends a recording. -/
def Keeps {α : Type} (V : α → Prop) (b : Code α) : Prop :=
  ∀ f, b.Meets f (fun a f' => V a ∧ Same f f') fun e f' => Fatal e ∧ Same f f'

section Keeps

variable {α β : Type} {V : α → Prop}

theorem Keeps.meets_bind {b : Code α} (h : Keeps V b) {k : α → Code β} {Q : β → Frame DialogVars DialogDeferred → Prop}
    {E : Exit Reply → Frame DialogVars DialogDeferred → Prop}
    (hk : ∀ a f', V a → Same f f' → (k a).Meets f' Q E) (hE : ∀ e f', Fatal e → Same f f' → E e f') :
    (b >>= k).Meets f Q E := by
  rw [Body.meets_bind]
  apply (h f).mono
  · intro a f' ha
    exact hk a f' ha.1 ha.2
  · intro e f' he
    exact hE e f' he.1 he.2

theorem Keeps.bind {b : Code α} (h : Keeps V b) {k : α → Code β} {W : β → Prop} (hk : ∀ a, V a → Keeps W (k a)) :
    Keeps W (b >>= k) := by
  intro f
  refine h.meets_bind (fun a f' ha hsame => ?_) fun e f' he hsame => ⟨he, hsame⟩
  apply (hk a ha f').mono
  · intro c f'' hc
    exact ⟨hc.1, hsame.trans hc.2⟩
  · intro e f'' he
    exact ⟨he.1, hsame.trans he.2⟩

theorem keeps_pure {a : α} (ha : V a) : Keeps V (pure a) := fun f => ⟨ha, .refl f⟩

theorem keeps_external (err : ExtError) : Keeps V (fail (.external err)) := fun f => ⟨fatal_external err, .refl f⟩

theorem keeps_await (o : Exit α) : Keeps (fun a => o = .returned a) (await o : Code α) := by
  intro f
  cases o with
  | returned a => exact ⟨rfl, .refl f⟩
  | panicked => exact ⟨.inl rfl, .refl f⟩

theorem keeps_callOther (o : ExtCall) : Keeps (fun _ => True) (callOther o) := by
  refine (keeps_await o).bind fun err _ => ?_
  cases err with
  | none => exact keeps_pure trivial
  | some err => exact keeps_external err

theorem keeps_onMedia {method : Code α} (h : Keeps V method) : Keeps V (onMedia method) := by
  intro f
  unfold onMedia
  rw [Body.meets_bind, meets_read]
  cases f.vars.dialogMedia with
  | none => exact ⟨.inl rfl, .refl f⟩
  | some m => exact h f

theorem keeps_unmarshal : Keeps (fun args => x.request.args = .ok args) (unmarshal x) := by
  unfold unmarshal
  cases x.request.args with
  | ok args => exact keeps_pure rfl
  | error err => exact keeps_external err

theorem keeps_progress (code : Nat) (reason : String) : Keeps (fun _ => True) (progress cx x code reason) := by
  unfold progress
  cases x.ext.writeResponse code with
  | none => exact fun _ => ⟨trivial, rfl, rfl⟩
  | some err => exact keeps_external err

theorem keeps_stopListen : Keeps (fun _ => True) (stopListen x) := by
  intro f
  unfold stopListen
  rw [Body.meets_bind, meets_read]
  split_ifs
  · exact keeps_callOther _ f
  · exact ⟨trivial, .refl f⟩

theorem keeps_startListen : Keeps (fun _ => True) (startListen x) := by
  intro f
  unfold startListen
  rw [Body.meets_bind, meets_read]
  cases f.vars.dialogMedia with
  | none => exact ⟨fatal_external _, .refl f⟩
  | some m =>
      refine (keeps_callOther _).meets_bind (fun _ f' _ hsame => ?_) fun e f' he hsame => ⟨he, hsame⟩
      exact ⟨trivial, hsame.dialogMedia, hsame.recordings⟩

end Keeps

/-! ### Without a media session -/

theorem Keeps.meets_fatal {α : Type} {V : α → Prop} {b : Code α} (h : Keeps V b) (hmedia : f.vars.dialogMedia = none)
    {β : Type} {k : α → Code β}
    (hk : ∀ a f', V a → f'.vars.dialogMedia = none → (k a).Meets f' (fun _ _ => False) fun e _ => Fatal e) :
    (b >>= k).Meets f (fun _ _ => False) fun e _ => Fatal e :=
  h.meets_bind (fun a f' ha hsame => hk a f' ha (hsame.dialogMedia.trans hmedia)) fun _ _ he _ => he

theorem meets_onMedia_fatal (hmedia : f.vars.dialogMedia = none) {α β : Type} (method : Code α) (k : α → Code β) :
    (onMedia method >>= k).Meets f (fun _ _ => False) fun e _ => Fatal e := by
  have hnone : f.vars.dialogMedia.isSome = false := by
    rw [hmedia]
    rfl
  rw [meets_bind, meets_onMedia hnone, if_neg Bool.noConfusion]
  exact .inl rfl

/-- A request that works on the media session and is not refused by something else ends the dialog. -/
theorem meets_operation_fatal (hmedia : f.vars.dialogMedia = none) (hop : x.request.op ∈ mediaOperations)
    (hx : ¬ x.Refused) : (operation cx x).Meets f (fun _ _ => False) fun e _ => Fatal e := by
  unfold Incoming.Refused at hx
  simp only [mediaOperations, List.mem_cons, List.not_mem_nil, or_false] at hop
  obtain hop | hop | hop | hop := hop
  · have hoperation : operation cx x = readDTMF cx x := by simp [operation, hop]
    have hconfirmed : x.ext.confirmed = true := by simpa [hop] using hx
    rw [hoperation, readDTMF, if_pos hconfirmed]
    exact keeps_unmarshal.meets_fatal hmedia fun args f _ hmedia => meets_onMedia_fatal hmedia _ _
  · have hoperation : operation cx x = listen cx x := by simp [operation, hop]
    rw [hoperation, listen]
    refine keeps_unmarshal.meets_fatal hmedia fun args f hargs hmedia => ?_
    have hshort : ¬ args.durationSeconds > 30 := fun hlong => hx (by rw [if_pos hop]; exact ⟨args, hargs, hlong⟩)
    rw [if_neg hshort]
    exact keeps_stopListen.meets_fatal hmedia fun _ f _ hmedia => meets_onMedia_fatal hmedia _ _
  · have hoperation : operation cx x = play cx x := by simp [operation, hop]
    have hconfirmed : x.ext.confirmed = true := by simpa [hop] using hx
    rw [hoperation, play, if_pos hconfirmed]
    exact keeps_unmarshal.meets_fatal hmedia fun args f _ hmedia => meets_onMedia_fatal hmedia _ _
  · have hoperation : operation cx x = echo cx x := by simp [operation, hop]
    have hconfirmed : x.ext.confirmed = true := by simpa [hop] using hx
    rw [hoperation, echo, if_pos hconfirmed]
    exact (keeps_progress _ _).meets_fatal hmedia fun _ f _ hmedia => meets_onMedia_fatal hmedia _ _

theorem operation_refused (hop : x.request.op ∈ mediaOperations) (hx : x.Refused) :
    ∃ reason, operation cx x = fail (.response 400 reason) := by
  unfold Incoming.Refused at hx
  simp only [mediaOperations, List.mem_cons, List.not_mem_nil, or_false] at hop
  obtain hop | hop | hop | hop := hop
  · have hconfirmed : x.ext.confirmed = false := by simpa [hop] using hx
    exact ⟨"call not answered", by simp [operation, hop, readDTMF, hconfirmed]⟩
  · rw [if_pos hop] at hx
    obtain ⟨args, hargs, hlong⟩ := hx
    have hunmarshal : unmarshal x = pure args := by rw [unmarshal, hargs]
    refine ⟨"Bad Request - Duration Seconds above Max", ?_⟩
    rw [show operation cx x = listen cx x by simp [operation, hop], listen, hunmarshal]
    show (if args.durationSeconds > 30 then fail _ else _) = _
    rw [if_pos hlong]
  · have hconfirmed : x.ext.confirmed = false := by simpa [hop] using hx
    exact ⟨"call not answered", by simp [operation, hop, play, hconfirmed]⟩
  · have hconfirmed : x.ext.confirmed = false := by simpa [hop] using hx
    exact ⟨"Call Not Answered", by simp [operation, hop, echo, hconfirmed]⟩

theorem guardsMedia_iff (cx : DialogContext) (r : DialogRun) (t : Turn) :
    GuardsMedia cx r t ↔ RefusedUnanswered r t := by
  cases t with
  | contextDone err => rfl
  | request x =>
      unfold GuardsMedia RefusedUnanswered
      refine imp_congr_right fun hended => imp_congr_right fun hmedia => imp_congr_right fun hop => ?_
      constructor
      · rintro ⟨code, reason, -, hturn⟩
        by_contra hx
        have hanswer : x.request.op ≠ "answer" := by
          intro heq
          rw [heq] at hop
          exact absurd hop (by decide)
        have hfatal : (turnStep cx r (.request x)).ended ≠ none :=
          turnStep_fatal hended hanswer (meets_operation_fatal hmedia hop hx)
        apply hfatal
        rw [hturn]
        exact hended
      · intro hx
        obtain ⟨reason, hoperation⟩ : ∃ reason, operation cx x = fail (.response 400 reason) :=
          operation_refused hop hx
        exact ⟨400, reason, le_rfl, turnStep_refused hended hoperation⟩

end Guards

/-- For every sequence of turns each request that works on the media session is guarded at its turn, if and only if
each of them that comes without a session is refused by something else: `listen` by its duration, and the others by the
state of the dialog. -/
theorem guardsMedia_run_iff (cx : DialogContext) (turns : List Turn) :
    Permitted (turnStep cx) (GuardsMedia cx) {} turns ↔ Permitted (turnStep cx) RefusedUnanswered {} turns :=
  @permitted_congr DialogRun Turn (turnStep cx) (fun _ _ => True) (GuardsMedia cx) RefusedUnanswered (fun _ => True)
    (fun _ _ _ _ _ => trivial) (fun r t _ _ => guardsMedia_iff cx r t) {} turns trivial
    (permitted_of_forall (turnStep cx) fun _ _ => trivial)

/-- `listen` as the first request ends the dialog without a response. -/
theorem not_guardsMedia_run :
    ¬ ∀ (cx : DialogContext) (turns : List Turn), Permitted (turnStep cx) (GuardsMedia cx) {} turns := by
  intro h
  obtain ⟨hguards, -⟩ := h plainContext [.request (quietRequest "1" "listen")]
  obtain ⟨code, reason, -, hturn⟩ := hguards rfl rfl (by decide)
  have hended : (turnStep plainContext {} (.request (quietRequest "1" "listen"))).ended = some .recovered := by decide
  rw [hturn] at hended
  cases hended

end Flow
