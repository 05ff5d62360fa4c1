import Diagox.Flow.Operations

/-!
# The media session of a flow dialog

An `answer` request makes the media session that the requests after it work on. The deferred `Close` stands in the
function literal that handles one request, so the session is closed before the agent has its answer.
-/

namespace Flow

open Defer Defer.Body Run

/-- Until the dialog returns, the session that is made by an `answer` request which has succeeded is not closed. -/
def MediaOpen (r : DialogRun) : Prop :=
  r.ended = none → r.answered = true → ∃ m, r.vars.dialogMedia = some m ∧ m ∉ r.vars.closed

/-- An `answer` request that goes through. -/
def Incoming.Answers (x : Incoming) : Prop :=
  x.request.op = "answer" ∧ x.ext.answer = .returned none ∧ x.ext.listenBackground = .returned none

/-- The dialog is over, or the turn is no `answer` request that goes through. -/
def LeavesUnanswered (r : DialogRun) : Turn → Prop
  | .request x => r.ended = none → ¬ x.Answers
  | .contextDone _ => True

section Media

variable {cx : DialogContext} {r : DialogRun}

theorem isOk_replyOf_iff {o : ExtCall} {reply : Reply} (h : replyOf o = .returned reply) :
    reply.isOk = true ↔ o = .returned none := by
  obtain (_ | err) | _ := o
  · obtain rfl := Exit.returned.inj h
    simp [Except.isOk, Except.toBool]
  · obtain rfl := Exit.returned.inj h
    simp [Except.isOk, Except.toBool]
  · cases h

/-- The session that an `answer` request makes is closed when its turn is over. -/
theorem not_mediaOpen_of_answers {x : Incoming} (hended : r.ended = none) (hx : x.Answers) :
    ¬ MediaOpen (turnStep cx r (.request x)) := by
  obtain ⟨hop, hanswer, hlisten⟩ := hx
  obtain ⟨s', hrun, -, hmade, -⟩ := run_answer cx hop r.vars
  rw [hanswer, hlisten] at hrun
  obtain ⟨hmedia, hclosed⟩ := hmade hanswer
  rw [turnStep_returned hended hrun]
  intro hopen
  obtain ⟨m, hm, hnotClosed⟩ := hopen rfl (by simp [hop, Except.isOk, Except.toBool])
  rw [conclude_vars] at hm hnotClosed
  obtain rfl : r.vars.answers = m := Option.some.inj (hmedia.symm.trans hm)
  exact hnotClosed hclosed

theorem answered_turnStep {t : Turn} (ht : LeavesUnanswered r t) (h : r.ended = none → r.answered = false) :
    (turnStep cx r t).ended = none → (turnStep cx r t).answered = false := by
  by_cases hended : r.ended = none
  · cases t with
    | contextDone err =>
        intro hnone
        simp [turnStep, hended] at hnone
    | request x =>
        rcases hrun : run dialogInterp (handleRequest cx x) r.vars with ⟨reply | _, s⟩
        · rw [turnStep_returned hended hrun]
          intro _
          show (r.answered || (x.request.op = "answer" && reply.isOk)) = false
          rw [h hended, Bool.false_or, Bool.and_eq_false_iff]
          by_cases hop : x.request.op = "answer"
          · right
            obtain ⟨s', hrun', -⟩ := run_answer cx hop r.vars
            rw [hrun] at hrun'
            rw [← Bool.not_eq_true, isOk_replyOf_iff (Prod.mk.inj hrun').1.symm, andThen_eq_none]
            exact fun hboth => ht hended ⟨hop, hboth⟩
          · left
            exact decide_eq_false hop
        · rw [turnStep_panicked hended hrun]
          intro hnone
          cases hnone
  · rw [turnStep_of_ended hended]
    exact h

theorem mediaOpen_turnStep_iff (h : r.ended = none → r.answered = false) (t : Turn) :
    MediaOpen (turnStep cx r t) ↔ LeavesUnanswered r t := by
  constructor
  · intro hopen
    cases t with
    | contextDone err => trivial
    | request x => exact fun hended hx => not_mediaOpen_of_answers hended hx hopen
  · intro ht hended hanswered
    rw [answered_turnStep ht h hended] at hanswered
    cases hanswered

end Media

/-- For every sequence of turns the media session stays open at every moment, exactly when no request is an `answer`
that goes through: there is no session to be used. -/
theorem mediaOpen_always_iff (cx : DialogContext) (turns : List Turn) :
    Always (turnStep cx) MediaOpen {} turns ↔ Permitted (turnStep cx) LeavesUnanswered {} turns := by
  have hinitial : MediaOpen {} := fun _ hanswered => by cases hanswered
  rw [always_iff, and_iff_right hinitial]
  let Inv := fun r : DialogRun => r.ended = none → r.answered = false
  have hstep : ∀ r t, Inv r → True → LeavesUnanswered r t → Inv (turnStep cx r t) :=
    fun r t h _ ht => answered_turnStep ht h
  have hok : ∀ r t, Inv r → True → (MediaOpen (turnStep cx r t) ↔ LeavesUnanswered r t) :=
    fun r t h _ => mediaOpen_turnStep_iff h t
  exact permitted_congr (turnStep cx) hstep hok (fun _ => rfl) (permitted_of_forall (turnStep cx) fun _ _ => trivial)

/-- Once the call is answered its session is closed. -/
theorem not_mediaOpen_always :
    ¬ ∀ (cx : DialogContext) (turns : List Turn), Always (turnStep cx) MediaOpen {} turns := by
  intro h
  let turns : List Turn := [.request (quietRequest "1" "answer")]
  have hopen : MediaOpen (run (turnStep plainContext) {} turns) := h plainContext turns turns [] rfl
  have hvars : (run (turnStep plainContext) {} turns).vars.dialogMedia = some 0 := by decide
  obtain ⟨m, hm, hclosed⟩ := hopen (by decide) (by decide)
  obtain rfl : 0 = m := Option.some.inj (hvars.symm.trans hm)
  exact hclosed (by decide)

end Flow
