import Diagox.Config.Types
import Diagox.Lib.Interleave
import Diagox.Lib.Strings

/-!
# The read loop of a flow connection

The goroutine of `FlowRPC.Serve` that reads the messages of one agent and hands its requests to the dialogs. The map
`requestDialog` holds a `FlowDialogChan` by value: the loop assigns the request that it has buffered to a copy, which
is gone with the iteration. So the stored value never has a request, and what is compared with the ID of a
`:requestCancel` is the empty one of the zero value, whose `cancel` is nil. The loop returns after it in any case.
-/

namespace Flow.ReadLoop

open Run Configuration

structure FlowRequest where
  id : String := ""
  did : String := ""
  op : String := ""
  data : String := ""
  /-- The context that `cancel` cancels, by its number. A nil function is `none`. -/
  cancel : Option Nat := none
  deriving DecidableEq, Repr

structure FlowResponse where
  id : String := ""
  did : String := ""
  code : Int := 0
  reason : String := ""
  data : String := ""
  deriving DecidableEq, Repr

/-! ### Messages -/

/-- What the loop knows of its connection, and the functions of the JSON package. -/
structure ReadContext where
  cliContentType : Bool
  /-- `json.Unmarshal` into the struct that tells a response from a request: its code. -/
  messageCode : String → Option Int
  unmarshalRequest : String → Option FlowRequest
  unmarshalResponse : String → Option FlowResponse
  /-- `json.Marshal` of the arguments. -/
  marshal : StringMap String → String

/-- What `ReadClientData` hands back. -/
structure Message where
  isText : Bool := true
  buf : String := ""
  uuid : String := ""
  deriving DecidableEq, Repr

/-- The arguments after the first, which are sent like flags. -/
def cliData (args : List String) : StringMap String :=
  args.foldl (fun data a =>
    match Strings.split a '=' with
    | key :: value :: _ => data.insert (.ofList (key.toList.dropWhile (· = '-'))) (Strings.trimSpace value)
    | _ => data) ∅

variable (cx : ReadContext)

def parseCli (m : Message) : Option (FlowRequest × FlowResponse) :=
  let args := Strings.split m.buf ' '
  match Strings.atoi (args.headD "") with
  | some code => args[1]?.map fun id => ({}, { id := id, code := code })
  | none =>
      some ({ id := args.getD 1 ("cli." ++ m.uuid), did := args.getD 2 "last", op := args.headD "",
              data := cx.marshal (cliData args.tail) }, {})

def parse (m : Message) : Option (FlowRequest × FlowResponse) :=
  if cx.cliContentType then parseCli cx m
  else
    match cx.messageCode m.buf with
    | none => none
    | some code =>
        if code > 0 then (cx.unmarshalResponse m.buf).map fun res => ({}, res)
        else (cx.unmarshalRequest m.buf).map fun req => (req, {})

inductive Received where
  | dropped
  | response (res : FlowResponse)
  | request (req : FlowRequest)
  deriving DecidableEq, Repr

def receive (m : Message) : Received :=
  if m.isText = false then .dropped
  else
    match parse cx m with
    | none => .dropped
    | some (req, res) =>
        if res.id ≠ "" ∧ res.code > 0 then .response res
        else if req.did = "" then .dropped
        else .request req

/-! ### The loop -/

structure FlowDialogChan where
  requests : Nat
  lastBufferedRequest : FlowRequest := {}
  deriving DecidableEq, Repr

inductive Loop where
  | reading
  /-- In the `select` that buffers a request, with the copy of the dialog's value. -/
  | buffering (dialogRequestCh : FlowDialogChan) (req : FlowRequest)
  | returned
  /-- A panic, which is recovered: the goroutine ends. -/
  | panicked
  deriving DecidableEq, Repr

structure ReadState where
  requestDialog : String → Option FlowDialogChan := fun _ => none
  channels : Nat → List FlowRequest := fun _ => []
  /-- How many contexts have been made for requests. -/
  contexts : Nat := 0
  cancelled : List Nat := []
  /-- The requests that have been buffered so far, with their channels. -/
  buffered : List (Nat × FlowRequest) := []
  loop : Loop := .reading

def ReadState.ended (s : ReadState) : Bool :=
  match s.loop with
  | .returned | .panicked => true
  | .reading | .buffering _ _ => false

/-- A context of a request is done. The deferred calls of the loop cancel the context that it comes from. -/
def ReadState.Done (s : ReadState) (n : Nat) : Prop := s.ended = true ∨ n ∈ s.cancelled

def ReadState.lastBuffered (s : ReadState) (chan : Nat) : Option FlowRequest :=
  (s.buffered.filterMap fun x => if x.1 = chan then some x.2 else none).getLast?

def serveRequest (s : ReadState) (req : FlowRequest) (writeFails : Bool) : ReadState :=
  match s.requestDialog req.did with
  | none => if writeFails then { s with loop := .returned } else s
  | some dialogRequestCh =>
      if req.op = ":requestCancel" then
        if dialogRequestCh.lastBufferedRequest.id = req.id then
          match dialogRequestCh.lastBufferedRequest.cancel with
          | none => { s with loop := .panicked }
          | some n => { s with cancelled := n :: s.cancelled, loop := .returned }
        else { s with loop := .returned }
      else
        { s with
          contexts := s.contexts + 1
          loop := .buffering dialogRequestCh { req with cancel := some s.contexts } }

inductive ReadEvent where
  /-- A message is read. The write of a 404 that may follow goes through or fails. -/
  | read (m : Message) (writeFails : Bool)
  | readError
  /-- The case of the `select` that sends to the channel. -/
  | send
  /-- The other case, after ten seconds without room. -/
  | timeout
  /-- A call of `NewServerDialog` stores its value, under its ID or as `"last"`. -/
  | store (did : String) (chan : Nat)
  | delete (did : String)
  /-- It takes a request out of its channel. -/
  | take (chan : Nat)
  deriving DecidableEq, Repr

def requestsCap : Nat := 10

def readStep (s : ReadState) : ReadEvent → ReadState
  | .read m writeFails =>
      match s.loop, receive cx m with
      | .reading, .request req => serveRequest s req writeFails
      | _, _ => s
  | .readError => if s.loop = .reading then { s with loop := .returned } else s
  | .send =>
      match s.loop with
      | .buffering dialogRequestCh req =>
          if (s.channels dialogRequestCh.requests).length < requestsCap then
            -- `lastBufferedRequest` of the copy is assigned here, and not read again
            { s with
              channels := Function.update s.channels dialogRequestCh.requests
                (s.channels dialogRequestCh.requests ++ [req])
              buffered := s.buffered ++ [(dialogRequestCh.requests, req)]
              loop := .reading }
          else s
      | _ => s
  | .timeout =>
      match s.loop with
      | .buffering dialogRequestCh _ =>
          if (s.channels dialogRequestCh.requests).length < requestsCap then s else { s with loop := .returned }
      | _ => s
  | .store did chan => { s with requestDialog := Function.update s.requestDialog did (some { requests := chan }) }
  | .delete did => { s with requestDialog := Function.update s.requestDialog did none }
  | .take chan => { s with channels := Function.update s.channels chan (s.channels chan).tail }

/-! ### Cancelling a request -/

/-- The loop reads a `:requestCancel` whose dialog is live. -/
def LiveCancel (s : ReadState) (e : ReadEvent) (req : FlowRequest) (dialogRequestCh : FlowDialogChan) : Prop :=
  s.loop = .reading ∧ (∃ m writeFails, e = .read m writeFails ∧ receive cx m = .request req) ∧
    req.op = ":requestCancel" ∧ s.requestDialog req.did = some dialogRequestCh

/-- What a `:requestCancel` is to do, from one state to the next. -/
structure CancelServed (s s' : ReadState) (chan : Nat) (id : String) : Prop where
  cancels : ∀ last ∈ s.lastBuffered chan, last.id = id → ∀ n ∈ last.cancel, s'.Done n
  unchanged : (∀ last ∈ s.lastBuffered chan, last.id ≠ id) → ∀ n < s.contexts, s'.Done n ↔ s.Done n
  reading : s'.loop = .reading

def ServesCancel (s : ReadState) (e : ReadEvent) : Prop :=
  ∀ req dialogRequestCh, LiveCancel cx s e req dialogRequestCh →
    CancelServed s (readStep cx s e) dialogRequestCh.requests req.id

def NoLiveCancel (s : ReadState) (e : ReadEvent) : Prop :=
  ∀ req dialogRequestCh, ¬ LiveCancel cx s e req dialogRequestCh

/-- The values in the map are as they were stored. -/
def Unassigned (s : ReadState) : Prop :=
  ∀ did dialogRequestCh, s.requestDialog did = some dialogRequestCh → dialogRequestCh.lastBufferedRequest = {}

section Cancel

variable {cx} {s : ReadState} {e : ReadEvent} {req : FlowRequest} {dialogRequestCh : FlowDialogChan}

theorem serveRequest_requestDialog (s : ReadState) (req : FlowRequest) (writeFails : Bool) :
    (serveRequest s req writeFails).requestDialog = s.requestDialog := by
  unfold serveRequest
  split
  · split_ifs <;> rfl
  · split_ifs
    · split <;> rfl
    · rfl
    · rfl

theorem readStep_requestDialog (s : ReadState) (e : ReadEvent) (h : ∀ did chan, e ≠ .store did chan)
    (h' : ∀ did, e ≠ .delete did) : (readStep cx s e).requestDialog = s.requestDialog := by
  cases e with
  | read m writeFails =>
      simp only [readStep]
      split
      · exact serveRequest_requestDialog s _ writeFails
      · rfl
  | readError =>
      simp only [readStep]
      split_ifs <;> rfl
  | send =>
      simp only [readStep]
      split
      · split_ifs <;> rfl
      · rfl
  | timeout =>
      simp only [readStep]
      split
      · split_ifs <;> rfl
      · rfl
  | store did chan => exact absurd rfl (h did chan)
  | delete did => exact absurd rfl (h' did)
  | take chan => rfl

theorem unassigned_step (s : ReadState) (e : ReadEvent) (h : Unassigned s) : Unassigned (readStep cx s e) := by
  intro did dialogRequestCh hdid
  cases e with
  | store did' chan =>
      obtain ⟨-, hnew⟩ | hold := of_update_eq_some hdid
      · rw [← Option.some.inj hnew]
      · exact h did dialogRequestCh hold
  | delete did' =>
      obtain ⟨-, hnew⟩ | hold := of_update_eq_some hdid
      · cases hnew
      · exact h did dialogRequestCh hold
  | _ =>
      rw [readStep_requestDialog s _ (by simp) (by simp)] at hdid
      exact h did dialogRequestCh hdid

/-- Nothing that the loop has buffered is ever seen in the map. -/
theorem unassigned_run (events : List ReadEvent) : Unassigned (run (readStep cx) {} events) :=
  invariant (readStep cx) unassigned_step (by simp [Unassigned]) events

theorem readStep_liveCancel (hs : Unassigned s) (h : LiveCancel cx s e req dialogRequestCh) :
    readStep cx s e = { s with loop := if req.id = "" then .panicked else .returned } := by
  obtain ⟨hreading, ⟨m, writeFails, rfl, hreceive⟩, hop, hdid⟩ := h
  have hlast := hs _ _ hdid
  have hserve : readStep cx s (.read m writeFails) = serveRequest s req writeFails := by
    simp only [readStep, hreading, hreceive]
  rw [hserve, serveRequest, hdid]
  simp only [hop, hlast, if_true]
  by_cases hid : req.id = ""
  · rw [if_pos hid.symm, if_pos hid]
  · rw [if_neg (Ne.symm hid), if_neg hid]

/-- Every context of a request is done with it. -/
theorem done_of_liveCancel (hs : Unassigned s) (h : LiveCancel cx s e req dialogRequestCh) (n : Nat) :
    (readStep cx s e).Done n := by
  rw [readStep_liveCancel hs h]
  refine .inl ?_
  by_cases hid : req.id = ""
  · simp [ReadState.ended, hid]
  · simp [ReadState.ended, hid]

theorem not_cancelServed (hs : Unassigned s) (h : LiveCancel cx s e req dialogRequestCh) :
    ¬ CancelServed s (readStep cx s e) dialogRequestCh.requests req.id := by
  intro hserved
  have hreading := hserved.reading
  rw [readStep_liveCancel hs h] at hreading
  by_cases hid : req.id = ""
  · simp [hid] at hreading
  · simp [hid] at hreading

end Cancel

/-- Every `:requestCancel` of a run is served as it should be exactly when no live dialog is sent one. -/
theorem servesCancel_iff (events : List ReadEvent) :
    Permitted (readStep cx) (ServesCancel cx) {} events ↔ Permitted (readStep cx) (NoLiveCancel cx) {} events := by
  refine permitted_congr (readStep cx) (fun s e hs _ _ => unassigned_step s e hs) (fun s e hs _ => ?_)
    (by simp [Unassigned]) (permitted_of_forall (readStep cx) fun _ _ => trivial)
  constructor
  · intro hserves req dialogRequestCh hlive
    exact not_cancelServed hs hlive (hserves req dialogRequestCh hlive)
  · intro hnone req dialogRequestCh hlive
    exact absurd hlive (hnone req dialogRequestCh)

/-- An agent that sends its messages like flags. -/
def cliContext : ReadContext where
  cliContentType := true
  messageCode _ := none
  unmarshalRequest _ := none
  unmarshalResponse _ := none
  marshal _ := "{}"

/-- The request that is cancelled is the one that has just been buffered. -/
def cancelEvents : List ReadEvent :=
  [.store "d" 0, .read { buf := "play 1 d" } false, .send, .read { buf := ":requestCancel 1 d" } false]

theorem not_servesCancel :
    ¬ ∀ (cx : ReadContext) (events : List ReadEvent), Permitted (readStep cx) (ServesCancel cx) {} events := by
  intro h
  have hserves := h cliContext cancelEvents
  rw [permitted_iff] at hserves
  have hreading := (hserves (cancelEvents.take 3) _ [] rfl
    { id := "1", did := "d", op := ":requestCancel", data := "{}" }
    { requests := 0 } ⟨by decide, ⟨_, _, rfl, by decide⟩, rfl, by decide⟩).reading
  exact absurd hreading (by decide)

end Flow.ReadLoop
