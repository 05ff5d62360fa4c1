import Diagox.Flow.Operations
import Diagox.Flow.ReadLoop
import Diagox.Lib.Fifo

/-!
# From the agent to the dialog

The way of a request from the connection to the dialog it is for, and that of its final response. The read loop holds
one request at a time until there is room in the channel of the dialog, and the dialog handles one request after the
other. So the requests of a dialog arrive in the order in which they were sent, and are answered in this order. The
only one that can get lost on the way is the last one, which the loop gives up after ten seconds, with the connection.
-/

namespace Flow.ReadLoop

open Run

/-! ### The way to the dialog -/

/-- The request that waits for room in the channel. -/
def ReadState.inHand (s : ReadState) (chan : Nat) : List FlowRequest :=
  match s.loop with
  | .buffering dialogRequestCh req => if dialogRequestCh.requests = chan then [req] else []
  | _ => []

section Way

variable (cx : ReadContext) (chan : Nat)

/-- The request that is read, if the dialog it is for has this channel. -/
def sentTo (s : ReadState) : ReadEvent → List FlowRequest
  | .read m _ =>
      match s.loop, receive cx m with
      | .reading, .request req =>
          match s.requestDialog req.did with
          | none => []
          | some dialogRequestCh =>
              if req.op ≠ ":requestCancel" ∧ dialogRequestCh.requests = chan then
                [{ req with cancel := some s.contexts }]
              else []
      | _, _ => []
  | _ => []

def takenFrom (s : ReadState) : ReadEvent → List FlowRequest
  | .take c => if c = chan then (s.channels chan).head?.toList else []
  | _ => []

/-- The request that is given up with the status 429. -/
def givenUp (s : ReadState) : ReadEvent → List FlowRequest
  | .timeout =>
      match s.loop with
      | .buffering dialogRequestCh _ =>
          if (s.channels dialogRequestCh.requests).length < requestsCap then [] else s.inHand chan
      | _ => []
  | _ => []

variable {cx} {chan} {s : ReadState}

theorem inHand_of_ended (h : s.ended = true) : s.inHand chan = [] := by
  unfold ReadState.ended at h
  unfold ReadState.inHand
  split at h
  · simp [*]
  · simp [*]
  · cases h
  · cases h

theorem inHand_length_le (s : ReadState) (chan : Nat) : (s.inHand chan).length ≤ 1 := by
  unfold ReadState.inHand
  split
  · split_ifs
    · exact Nat.le_refl 1
    · exact Nat.zero_le 1
  · exact Nat.zero_le 1

theorem ended_step (h : s.ended = true) (e : ReadEvent) : (readStep cx s e).ended = true := by
  have hreading : s.loop ≠ .reading := by
    intro hloop
    simp [ReadState.ended, hloop] at h
  have hbuffering : ∀ c req, s.loop ≠ .buffering c req := by
    intro c req hloop
    simp [ReadState.ended, hloop] at h
  cases e with
  | read m writeFails =>
      simp only [readStep]
      split
      · contradiction
      · exact h
  | readError =>
      simp only [readStep, if_neg hreading]
      exact h
  | send =>
      simp only [readStep]
      exact h
  | timeout =>
      simp only [readStep]
      exact h
  | store did chan => exact h
  | delete did => exact h
  | take chan => exact h

theorem serveRequest_channels (s : ReadState) (req : FlowRequest) (writeFails : Bool) :
    (serveRequest s req writeFails).channels = s.channels := by
  unfold serveRequest
  split
  · split_ifs <;> rfl
  · split_ifs
    · split <;> rfl
    · rfl
    · rfl

theorem inHand_serveRequest (hloop : s.loop = .reading) (req : FlowRequest) (writeFails : Bool) :
    (serveRequest s req writeFails).inHand chan =
      match s.requestDialog req.did with
      | none => []
      | some dialogRequestCh =>
          if req.op ≠ ":requestCancel" ∧ dialogRequestCh.requests = chan then
            [{ req with cancel := some s.contexts }]
          else [] := by
  unfold serveRequest
  cases s.requestDialog req.did with
  | none => cases writeFails <;> simp [ReadState.inHand, hloop]
  | some dialogRequestCh =>
      by_cases hop : req.op = ":requestCancel"
      · by_cases hid : dialogRequestCh.lastBufferedRequest.id = req.id
        · cases hcancel : dialogRequestCh.lastBufferedRequest.cancel with
          | none => simp [ReadState.inHand, hop, hid, hcancel]
          | some n => simp [ReadState.inHand, hop, hid, hcancel]
        · simp [ReadState.inHand, hop, hid]
      · simp [ReadState.inHand, hop]

theorem step_eq (s : ReadState) (e : ReadEvent) :
    (s.channels chan ++ s.inHand chan) ++ sentTo cx chan s e =
      takenFrom chan s e ++ ((readStep cx s e).channels chan ++ (readStep cx s e).inHand chan) ++ givenUp chan s e := by
  cases e with
  | read m writeFails =>
      simp only [readStep, sentTo, takenFrom, givenUp]
      cases hloop : s.loop with
      | reading =>
          cases receive cx m with
          | request req =>
              dsimp only
              rw [serveRequest_channels, inHand_serveRequest hloop]
              simp [ReadState.inHand, hloop]
          | _ => simp
      | _ => simp
  | readError =>
      simp only [readStep, sentTo, takenFrom, givenUp]
      split_ifs with hloop
      · simp [ReadState.inHand, hloop]
      · simp
  | send =>
      simp only [readStep, sentTo, takenFrom, givenUp]
      cases hloop : s.loop with
      | buffering dialogRequestCh req =>
          by_cases hroom : (s.channels dialogRequestCh.requests).length < requestsCap
          · by_cases hchan : dialogRequestCh.requests = chan
            · subst hchan
              simp [hroom, ReadState.inHand, hloop]
            · simp [hroom, ReadState.inHand, hloop, hchan, Function.update_of_ne (Ne.symm hchan)]
          · simp [hroom]
      | _ => simp
  | timeout =>
      simp only [readStep, sentTo, takenFrom, givenUp]
      cases hloop : s.loop with
      | buffering dialogRequestCh req =>
          by_cases hroom : (s.channels dialogRequestCh.requests).length < requestsCap
          · simp [hroom]
          · simp [hroom, ReadState.inHand, hloop]
      | _ => simp
  | store did c => simp [readStep, sentTo, takenFrom, givenUp, ReadState.inHand]
  | delete did => simp [readStep, sentTo, takenFrom, givenUp, ReadState.inHand]
  | take c =>
      simp only [readStep, sentTo, takenFrom, givenUp]
      by_cases hchan : c = chan
      · subst hchan
        cases s.channels c with
        | nil => simp [ReadState.inHand]
        | cons req queue => simp [ReadState.inHand]
      · simp [hchan, Function.update_of_ne (Ne.symm hchan), ReadState.inHand]

theorem givenUp_length_le (s : ReadState) (e : ReadEvent) : (givenUp chan s e).length ≤ 1 := by
  unfold givenUp
  split
  · split
    · split_ifs
      · exact Nat.zero_le 1
      · exact inHand_length_le s chan
    · exact Nat.zero_le 1
  · exact Nat.zero_le 1

theorem ended_of_givenUp {e : ReadEvent} (h : givenUp chan s e ≠ []) : (readStep cx s e).ended = true := by
  cases e with
  | timeout =>
      simp only [givenUp, readStep] at h ⊢
      cases hloop : s.loop with
      | buffering dialogRequestCh req =>
          simp only [hloop] at h ⊢
          split_ifs at h ⊢ with hroom
          · exact absurd rfl h
          · rfl
      | _ => simp [hloop] at h
  | _ => exact absurd rfl h

theorem requests_fifo (cx : ReadContext) (chan : Nat) :
    Fifo (readStep cx) (fun s => s.channels chan ++ s.inHand chan) (sentTo cx chan) (takenFrom chan) (givenUp chan)
      fun s => s.ended = true where
  step_eq s e := step_eq s e
  closes _ _ := ended_of_givenUp
  stays _ e h := ended_step h e
  put_of_closed s e h := by
    unfold sentTo
    split
    · split
      · simp [ReadState.ended, *] at h
      · rfl
    · rfl
  lost_of_closed s e h := by
    unfold givenUp
    split
    · split
      · split_ifs
        · rfl
        · exact inHand_of_ended h
      · rfl
    · rfl

theorem channels_step (h : (s.channels chan).length ≤ requestsCap) (e : ReadEvent) :
    ((readStep cx s e).channels chan).length ≤ requestsCap := by
  cases e with
  | read m writeFails =>
      simp only [readStep]
      split
      · rw [serveRequest_channels]
        exact h
      · exact h
  | readError =>
      simp only [readStep]
      split_ifs <;> exact h
  | send =>
      simp only [readStep]
      split
      · split_ifs with hroom
        · by_cases hchan : ‹FlowDialogChan›.requests = chan
          · subst hchan
            simp only [Function.update_self, List.length_append, List.length_singleton]
            exact hroom
          · simp only [Function.update_of_ne (Ne.symm hchan)]
            exact h
        · exact h
      · exact h
  | timeout =>
      simp only [readStep]
      split
      · split_ifs <;> exact h
      · exact h
  | store did c => exact h
  | delete did => exact h
  | take c =>
      simp only [readStep]
      by_cases hchan : c = chan
      · subst hchan
        simp only [Function.update_self, List.length_tail]
        omega
      · simp only [Function.update_of_ne (Ne.symm hchan)]
        exact h

end Way

end Flow.ReadLoop

/-! ### In the dialog -/

namespace Flow

open Defer Defer.Body

section Dialog

variable {cx : DialogContext} {x : Incoming}

theorem answeredIDs_handleRequest (cx : DialogContext) (x : Incoming) (s : DialogVars) :
    (run dialogInterp (handleRequest cx x) s).2.answeredIDs = s.answeredIDs := by
  by_cases hop : x.request.op = "answer"
  · obtain ⟨s', hrun, hIDs, -⟩ := run_answer cx hop s
    rw [hrun]
    exact hIDs
  · have hmeets : (handleRequest cx x).Meets ⟨[], s⟩ (fun _ _ => True) fun _ _ => True :=
      meets_of_forall (fun _ _ => trivial) fun _ _ => trivial
    obtain ⟨e, f, -, hcalm, hrun⟩ := run_handleRequest_calm hop (P := fun _ _ => True) hmeets
    rw [hrun]
    exact hcalm.answeredIDs

theorem answeredIDs_conclude (reply : Reply) (s : DialogVars) :
    (conclude cx x reply s).2.answeredIDs.Sublist (s.answeredIDs ++ [x.request.id]) := by
  have hwrite : ∀ code reason data,
      (writeResponse cx x code reason data s).answeredIDs.Sublist (s.answeredIDs ++ [x.request.id]) := by
    intro code reason data
    unfold writeResponse
    split_ifs
    · by_cases hcode : 200 ≤ code
      · simp [DialogVars.answeredIDs, DialogVars.respond, FlowResponse.isFinal, hcode]
      · rw [answeredIDs_respond (by omega)]
        exact List.sublist_append_left _ _
    · exact List.sublist_append_left _ _
  unfold conclude
  split
  · exact hwrite _ _ _
  · split_ifs
    · exact hwrite _ _ _
    · exact hwrite _ _ _
    · split <;> exact hwrite _ _ _

def Turn.requestID : Turn → Option String
  | .request x => some x.request.id
  | .contextDone _ => none

variable (cx) in
theorem answeredIDs_turnStep (r : DialogRun) (t : Turn) :
    (turnStep cx r t).vars.answeredIDs.Sublist (r.vars.answeredIDs ++ t.requestID.toList) := by
  cases hended : r.ended with
  | some e =>
      rw [turnStep_of_ended (by rw [hended]; exact Option.some_ne_none e)]
      exact List.sublist_append_left _ _
  | none =>
      cases t with
      | contextDone err =>
          simp only [turnStep, hended]
          exact List.sublist_append_left _ _
      | request x =>
          have hhandle := answeredIDs_handleRequest cx x r.vars
          rcases hrun : run dialogInterp (handleRequest cx x) r.vars with ⟨reply | _, s⟩
          · rw [turnStep_returned hended hrun, ← hhandle, hrun]
            exact answeredIDs_conclude reply s
          · rw [turnStep_panicked hended hrun, ← hhandle, hrun]
            exact List.sublist_append_left _ _

/-- The requests of a dialog are answered in the order in which it takes them, each of them once at most. -/
theorem answeredIDs_run (r : DialogRun) (turns : List Turn) :
    (Run.run (turnStep cx) r turns).vars.answeredIDs.Sublist
      (r.vars.answeredIDs ++ turns.filterMap Turn.requestID) := by
  induction turns generalizing r with
  | nil => simp
  | cons t turns ih =>
      rw [Run.run_cons]
      refine (ih _).trans ?_
      have hstep := (answeredIDs_turnStep cx r t).append_right (turns.filterMap Turn.requestID)
      cases hID : t.requestID with
      | none => simpa [hID] using hstep
      | some id => simpa [hID] using hstep

theorem answeredIDs_newServerDialogRun (cx : DialogContext) (invite : Exit (Except ExtError Nat)) (turns : List Turn) :
    (newServerDialogRun cx invite turns).vars.answeredIDs.Sublist (turns.filterMap Turn.requestID) := by
  unfold newServerDialogRun
  split
  · exact List.nil_sublist _
  · exact List.nil_sublist _
  · split_ifs
    · exact answeredIDs_run {} turns
    · exact List.nil_sublist _

/-- A request out of the channel, as the dialog sees it: the JSON package reads its data. -/
def FlowRequest.unmarshalled (unmarshal : String → Except ExtError FlowArgs) (req : ReadLoop.FlowRequest) :
    FlowRequest where
  id := req.id
  op := req.op
  args := unmarshal req.data

/-- A response of the dialog, as the connection writes it. -/
def FlowResponse.marshalled (marshal : FlowData → String) (res : FlowResponse) : ReadLoop.FlowResponse where
  id := res.id
  did := res.did
  code := res.code
  reason := res.reason
  data := (res.data.map marshal).getD ""

def incoming (unmarshal : String → Except ExtError FlowArgs) (req : ReadLoop.FlowRequest) (ext : Externals) :
    Incoming where
  request := .unmarshalled unmarshal req
  ext := ext

/-- The turns of a dialog that has taken these requests, until the context of the call is done. -/
def turnsOf (unmarshal : String → Except ExtError FlowArgs) (taken : List ReadLoop.FlowRequest) (exts : List Externals)
    (done : Option ExtError) : List Turn :=
  (List.zipWith (fun req ext => Turn.request (incoming unmarshal req ext)) taken exts) ++
    done.toList.map Turn.contextDone

theorem requestIDs_turnsOf (unmarshal : String → Except ExtError FlowArgs) (taken : List ReadLoop.FlowRequest)
    (exts : List Externals) (done : Option ExtError) :
    ((turnsOf unmarshal taken exts done).filterMap Turn.requestID).Sublist (taken.map (·.id)) := by
  have hdone : (done.toList.map Turn.contextDone).filterMap Turn.requestID = [] := by cases done <;> rfl
  rw [turnsOf, List.filterMap_append, hdone, List.append_nil]
  induction taken generalizing exts with
  | nil => simp
  | cons req taken ih =>
      cases exts with
      | nil => simp
      | cons ext exts => simpa [Turn.requestID, incoming, FlowRequest.unmarshalled] using ih exts

/-- The requests that are answered by the final ones of some responses. -/
def finalIDs (responses : List ReadLoop.FlowResponse) : List String :=
  (responses.filter fun res => decide (200 ≤ res.code)).map ReadLoop.FlowResponse.id

theorem finalIDs_marshalled (marshal : FlowData → String) (s : DialogVars) :
    finalIDs (s.responses.map (FlowResponse.marshalled marshal)) = s.answeredIDs := by
  have hfinal : (fun res : ReadLoop.FlowResponse => decide (200 ≤ res.code)) ∘ FlowResponse.marshalled marshal =
      FlowResponse.isFinal := by
    funext res
    simp only [Function.comp_apply, FlowResponse.marshalled, FlowResponse.isFinal]
    norm_cast
  rw [finalIDs, DialogVars.answeredIDs, List.filter_map, List.map_map, hfinal]
  rfl

/-- The final responses that an agent reads of a dialog are in the order of the requests that the dialog has taken. -/
theorem finalIDs_sublist (cx : DialogContext) (invite : Exit (Except ExtError Nat))
    (unmarshal : String → Except ExtError FlowArgs) (marshal : FlowData → String) (taken : List ReadLoop.FlowRequest)
    (exts : List Externals) (done : Option ExtError) :
    (finalIDs ((newServerDialogRun cx invite (turnsOf unmarshal taken exts done)).vars.responses.map
      (FlowResponse.marshalled marshal))).Sublist (taken.map (·.id)) := by
  rw [finalIDs_marshalled]
  exact (answeredIDs_newServerDialogRun cx invite _).trans (requestIDs_turnsOf unmarshal taken exts done)

end Dialog

/-- In every run of a connection and its dialogs, the requests that are sent to a dialog reach it in their order, and
their final responses are sent in this order. Up to ten of them wait in its channel and one more in the read loop. None
is lost but the one that the loop has no room for, and then the loop ends. -/
theorem requests_inOrder (cx : ReadLoop.ReadContext) (events : List ReadLoop.ReadEvent) (chan : Nat) :
    let s := Run.run (ReadLoop.readStep cx) {} events
    let sent := Run.emitted (ReadLoop.readStep cx) (ReadLoop.sentTo cx chan) {} events
    let taken := Run.emitted (ReadLoop.readStep cx) (ReadLoop.takenFrom chan) {} events
    ∃ lost, sent = taken ++ s.channels chan ++ s.inHand chan ++ lost ∧ (s.channels chan).length ≤ ReadLoop.requestsCap ∧
      (s.inHand chan ++ lost).length ≤ 1 ∧ (lost ≠ [] → s.ended = true) ∧
      ∀ (dx : DialogContext) invite unmarshal exts done,
        (newServerDialogRun dx invite (turnsOf unmarshal taken exts done)).vars.answeredIDs.Sublist
          (sent.map (·.id)) := by
  intro s sent taken
  have hfifo := ReadLoop.requests_fifo cx chan
  let lost := Run.emitted (ReadLoop.readStep cx) (ReadLoop.givenUp chan) {} events
  have hsent : sent = taken ++ (s.channels chan ++ s.inHand chan) ++ lost := hfifo.run_eq {} events
  let Room (s : ReadLoop.ReadState) : Prop := (s.channels chan).length ≤ ReadLoop.requestsCap
  have hroom : ∀ s e, Room s → Room (ReadLoop.readStep cx s e) := fun _ e h => ReadLoop.channels_step h e
  have hclosed : lost ≠ [] → s.ended = true := hfifo.closed_of_lost
  refine ⟨lost, ?_, ?_, ?_, hclosed, fun dx invite unmarshal exts done => ?_⟩
  · simp only [hsent, List.append_assoc]
  · exact Run.invariant (ReadLoop.readStep cx) hroom (show Room {} from Nat.zero_le _) events
  · have hlength : lost.length ≤ 1 := hfifo.lost_length_le ReadLoop.givenUp_length_le {} events
    by_cases hnone : lost = []
    · rw [hnone, List.append_nil]
      exact ReadLoop.inHand_length_le s chan
    · rw [ReadLoop.inHand_of_ended (hclosed hnone)]
      exact hlength
  · have hIDs := (answeredIDs_newServerDialogRun dx invite (turnsOf unmarshal taken exts done)).trans
      (requestIDs_turnsOf unmarshal taken exts done)
    refine hIDs.trans (List.Sublist.map _ ?_)
    show taken.Sublist sent
    rw [hsent, List.append_assoc]
    exact List.sublist_append_left _ _

end Flow
