import Diagox.Cache.OnState
import Diagox.Lib.Defer
import Diagox.Sip

/-!
# Taking over the dialogs of another node

`ReInviteDialogs` of `pbx.go`, for the dialogs that were loaded from the file of a node that has failed. Each of them is
invited again, which stores the new dialog in the cache, and then the old one is deleted from this same cache, by its
ID. So a dialog that keeps its ID is in no cache afterwards, and the next node to fail over does not find it. The first
INVITE that fails ends it all, with its own error only.
-/

namespace Cache

open Configuration Defer Sip

/-- What is read of the INVITE of a dialog. -/
structure InviteMessage where
  recipient : Uri
  fromHDR : String
  toHDR : String
  callID : String
  cseq : String
  contact : Option ContactHeader := none
  transport : String := ""

/-- What `sip.ParseMessage` makes of a text. -/
inductive ParsedMessage where
  | request (inviteReq : InviteMessage)
  | response

/-- The dialog of a new INVITE, and the state that `registerOnStateDialog` finds it in. -/
structure Invited where
  data : DialogData
  state : DialogState

/-- A dialog to take over, and how the calls of other code end in its turn. -/
structure Takeover where
  dialog : DialogData
  parseMessage : String → Except String ParsedMessage
  invite : Uri → List Header → Except String Invited
  /-- The dump of the new dialog. -/
  storeIO : DumpIO
  /-- The dump without the old one. -/
  deleteIO : DumpIO

/-- The recipient and the headers of the new INVITE. For a dialog that the node has answered, the two sides change
places, and without a contact there is a nil pointer. -/
def reinviteArgs (direction : UInt8) (inviteReq : InviteMessage) : Option (Uri × List Header) :=
  let rest := [.other "Call-ID" inviteReq.callID, .other "CSeq" inviteReq.cseq]
  if direction = 1 then
    some (inviteReq.recipient, [.other "From" inviteReq.fromHDR, .other "To" inviteReq.toHDR] ++ rest)
  else
    inviteReq.contact.map fun cont =>
      -- the transport goes into the parameters of the header, and only its address is dialed
      let cont := { cont with params := cont.params.add "transport" inviteReq.transport }
      (cont.address, [.other "From" inviteReq.toHDR, .other "To" inviteReq.fromHDR] ++ rest)

/-- The function literal `reinvite`. -/
def Takeover.reinvite (t : Takeover) : Exit (Except String Invited) :=
  match t.parseMessage t.dialog.inviteRequestData with
  | .error err => .returned (.error err)
  | .ok .response => .panicked
  | .ok (.request inviteReq) =>
      match reinviteArgs t.dialog.direction inviteReq with
      | none => .panicked
      | some (recipient, headers) => .returned (t.invite recipient headers)

/-- How `ReInviteDialogs` ends: with the errors of the deletions, with that of an INVITE, or in a panic. -/
inductive FailoverEnd where
  | returned (errs : List DumpError)
  | failed (err : String)
  | panicked
  deriving DecidableEq, Repr

/-- What `handleStateChange` does to the cache in a state. -/
def stateOp (data : DialogData) : DialogState → Option CacheOp
  | .confirmed => some (.storeDialog data)
  | .ended => some (.deleteDialog data.id)
  | .initial | .established => none

variable (json : Json)

/-- `registerOnStateDialog` of the new dialog. An error of the cache is logged. -/
def register (s : CacheState) (i : Invited) (io : DumpIO) : CacheState :=
  match stateOp i.data i.state with
  | none => s
  | some op => (callStep json s ⟨op, io⟩).1

def reInviteDialogs (s : CacheState) (errs : List DumpError) : List Takeover → CacheState × FailoverEnd
  | [] => (s, .returned errs)
  | t :: dialogs =>
      match t.reinvite with
      | .panicked => (s, .panicked)
      | .returned (.error err) => (s, .failed err)
      | .returned (.ok i) =>
          let (s, err) := callStep json (register json s i t.storeIO)
            ⟨.deleteDialogNode t.dialog.id t.dialog.nodeID, t.deleteIO⟩
          reInviteDialogs s (errs ++ err.toList) dialogs

/-! ### What becomes of the dialogs -/

def Takeover.invited (t : Takeover) : Option Invited :=
  match t.reinvite with
  | .returned (.ok i) => some i
  | _ => none

/-- The dialogs that are taken over: those before the first one that is not invited. -/
def taken (dialogs : List Takeover) : List Takeover := dialogs.takeWhile fun t => t.invited.isSome

/-- The calls of one turn on the cache. -/
def Takeover.calls (t : Takeover) : List CacheCall :=
  (t.invited.bind fun i => stateOp i.data i.state).toList.map (fun op => ⟨op, t.storeIO⟩) ++
    [⟨.deleteDialogNode t.dialog.id t.dialog.nodeID, t.deleteIO⟩]

def takeoverCalls (dialogs : List Takeover) : List CacheCall := (taken dialogs).flatMap Takeover.calls

section Runs

variable {json} {s : CacheState} {errs : List DumpError} {dialogs : List Takeover} {t : Takeover} {i : Invited}

theorem reinvite_eq_of_invited (h : t.invited = some i) : t.reinvite = .returned (.ok i) := by
  unfold Takeover.invited at h
  split at h
  · rename_i hreinvite
    rw [hreinvite, Option.some.inj h]
  · cases h

theorem taken_cons_of_invited (h : t.invited = some i) : taken (t :: dialogs) = t :: taken dialogs :=
  List.takeWhile_cons_of_pos (by rw [h]; rfl)

theorem taken_cons_of_not_invited (h : t.invited = none) : taken (t :: dialogs) = [] :=
  List.takeWhile_cons_of_neg (by rw [h]; exact Bool.false_ne_true)

theorem run_register (s : CacheState) (h : t.invited = some i) :
    Run.run (fun s call => (callStep json s call).1) s t.calls =
      (callStep json (register json s i t.storeIO) ⟨.deleteDialogNode t.dialog.id t.dialog.nodeID, t.deleteIO⟩).1 := by
  unfold Takeover.calls register
  rw [h, Option.bind_some]
  cases stateOp i.data i.state with
  | none => rfl
  | some op => rfl

/-- What is done to the cache is what the turns of the dialogs that are taken over do. -/
theorem reInviteDialogs_state (s : CacheState) (errs : List DumpError) (dialogs : List Takeover) :
    (reInviteDialogs json s errs dialogs).1 =
      Run.run (fun s call => (callStep json s call).1) s (takeoverCalls dialogs) := by
  induction dialogs generalizing s errs with
  | nil => rfl
  | cons t dialogs ih =>
      cases h : t.invited with
      | some i =>
          rw [takeoverCalls, taken_cons_of_invited h, List.flatMap_cons, Run.run_append, run_register s h]
          simp only [reInviteDialogs, reinvite_eq_of_invited h]
          exact ih _ _
      | none =>
          rw [takeoverCalls, taken_cons_of_not_invited h]
          unfold Takeover.invited at h
          unfold reInviteDialogs
          split
          · rfl
          · rfl
          · simp_all

/-- The dialogs are all taken over, or the first one that is not invited gives the result. -/
theorem reInviteDialogs_end (s : CacheState) (errs : List DumpError) (dialogs : List Takeover) :
    (taken dialogs = dialogs ∧ ∃ errs', (reInviteDialogs json s errs dialogs).2 = .returned errs') ∨
    ∃ t rest, dialogs = taken dialogs ++ t :: rest ∧
      (t.reinvite = .panicked ∧ (reInviteDialogs json s errs dialogs).2 = .panicked ∨
        ∃ err, t.reinvite = .returned (.error err) ∧ (reInviteDialogs json s errs dialogs).2 = .failed err) := by
  induction dialogs generalizing s errs with
  | nil => exact .inl ⟨rfl, errs, rfl⟩
  | cons t dialogs ih =>
      cases h : t.invited with
      | some i =>
          rw [taken_cons_of_invited h]
          simp only [reInviteDialogs, reinvite_eq_of_invited h]
          obtain ⟨htaken, hend⟩ | ⟨u, rest, hdialogs, hend⟩ := ih _ _
          · exact .inl ⟨by rw [htaken], hend⟩
          · exact .inr ⟨u, rest, congrArg (t :: ·) hdialogs, hend⟩
      | none =>
          rw [taken_cons_of_not_invited h]
          refine .inr ⟨t, dialogs, rfl, ?_⟩
          unfold Takeover.invited at h
          unfold reInviteDialogs
          split
          · exact .inl ⟨‹_›, rfl⟩
          · exact .inr ⟨_, ‹_›, rfl⟩
          · simp_all

variable (json) in
theorem callStep_error (hfile : s.cache.file ≠ none) (call : CacheCall) (hio : call.io.fails = none) :
    (callStep json s call).2 = none ∧ (callStep json s call).1.cache.file ≠ none := by
  obtain ⟨f, hf⟩ := Option.ne_none_iff_exists'.mp hfile
  simp [callStep, CacheState.dumpDialogs, hf, hio]

theorem register_file (hfile : s.cache.file ≠ none) (i : Invited) {io : DumpIO} (hio : io.fails = none) :
    (register json s i io).cache.file ≠ none := by
  unfold register
  split
  · exact hfile
  · exact (callStep_error json hfile _ hio).2

theorem reInviteDialogs_returned_iff (hfile : s.cache.file ≠ none)
    (hio : ∀ u ∈ dialogs, u.storeIO.fails = none ∧ u.deleteIO.fails = none) :
    (reInviteDialogs json s errs dialogs).2 = .returned errs ↔ taken dialogs = dialogs := by
  induction dialogs generalizing s with
  | nil => exact iff_of_true rfl rfl
  | cons t dialogs ih =>
      cases h : t.invited with
      | some i =>
          obtain ⟨hstore, hdelete⟩ := hio t List.mem_cons_self
          let call : CacheCall := ⟨.deleteDialogNode t.dialog.id t.dialog.nodeID, t.deleteIO⟩
          obtain ⟨hnone, hfile'⟩ := callStep_error json (register_file hfile i hstore) call hdelete
          have hrest := ih hfile' fun u hu => hio u (List.mem_cons_of_mem t hu)
          rw [taken_cons_of_invited h, List.cons.injEq, and_iff_right rfl, ← hrest]
          simp only [reInviteDialogs, reinvite_eq_of_invited h]
          rw [hnone, Option.toList_none, List.append_nil]
      | none =>
          rw [taken_cons_of_not_invited h]
          refine iff_of_false (fun hend => ?_) nofun
          unfold Takeover.invited at h
          unfold reInviteDialogs at hend
          split at hend
          · cases hend
          · cases hend
          · simp_all

theorem id_stateOp {data : DialogData} {state : DialogState} {op : CacheOp} (h : stateOp data state = some op) :
    op.id = data.id := by
  cases state with
  | confirmed => exact Option.some.inj h ▸ rfl
  | ended => exact Option.some.inj h ▸ rfl
  | initial => cases h
  | established => cases h

theorem id_of_mem_calls {call : CacheCall} (h : call ∈ t.calls) :
    call.op.id = t.dialog.id ∨ ∃ i, t.invited = some i ∧ call.op.id = i.data.id := by
  obtain h | h := List.mem_append.mp h
  · obtain ⟨op, hop, rfl⟩ := List.mem_map.mp h
    obtain ⟨i, hi, hstate⟩ := Option.bind_eq_some_iff.mp (Option.mem_toList.mp hop)
    exact .inr ⟨i, hi, id_stateOp hstate⟩
  · rw [List.mem_singleton.mp h]
    exact .inl rfl

theorem io_of_mem_calls {call : CacheCall} (h : call ∈ t.calls) : call.io = t.storeIO ∨ call.io = t.deleteIO := by
  obtain h | h := List.mem_append.mp h
  · obtain ⟨op, -, rfl⟩ := List.mem_map.mp h
    exact .inl rfl
  · rw [List.mem_singleton.mp h]
    exact .inr rfl

/-- The IDs of the new dialogs. -/
def newIDs (dialogs : List Takeover) : List String := dialogs.filterMap fun t => t.invited.map (·.data.id)

theorem newID_ne {before after : List Takeover} (hnew : (newIDs (before ++ t :: after)).Nodup) (hi : t.invited = some i)
    {u : Takeover} (hu : u ∈ after) {j : Invited} (hj : u.invited = some j) : j.data.id ≠ i.data.id := by
  unfold newIDs at hnew
  rw [List.filterMap_append, List.filterMap_cons_some (by rw [hi]; rfl)] at hnew
  have hnot := (List.nodup_cons.mp (List.nodup_append.mp hnew).2.1).1
  rintro hid
  exact hnot (List.mem_filterMap.mpr ⟨u, hu, by rw [hj, Option.map_some, hid]⟩)

theorem storeDialog_notMem_calls {before after : List Takeover} (hnew : (newIDs (before ++ t :: after)).Nodup)
    (hi : t.invited = some i) : .storeDialog i.data ∉ (after.flatMap Takeover.calls).map CacheCall.op := by
  intro hmem
  obtain ⟨call, hcall, hop⟩ := List.mem_map.mp hmem
  obtain ⟨u, hu, hcall⟩ := List.mem_flatMap.mp hcall
  obtain hcall | hcall := List.mem_append.mp hcall
  · obtain ⟨op, hstore, rfl⟩ := List.mem_map.mp hcall
    obtain ⟨j, hj, hstore⟩ := Option.bind_eq_some_iff.mp (Option.mem_toList.mp hstore)
    obtain rfl : op = _ := hop
    exact newID_ne hnew hi hu hj (id_stateOp hstore).symm
  · rw [List.mem_singleton.mp hcall] at hop
    cases hop

theorem io_of_mem_takeoverCalls (hio : ∀ u ∈ dialogs, u.storeIO.fails = none ∧ u.deleteIO.fails = none)
    {call : CacheCall} (h : call ∈ takeoverCalls dialogs) : call.io.fails = none := by
  obtain ⟨u, hu, hcall⟩ := List.mem_flatMap.mp h
  obtain ⟨hstore, hdelete⟩ := hio u ((List.takeWhile_prefix _).subset hu)
  obtain hcall | hcall := io_of_mem_calls hcall
  · rw [hcall, hstore]
  · rw [hcall, hdelete]

theorem forall_later_iff {before after : List Takeover} (hnew : (newIDs (before ++ t :: after)).Nodup)
    (hi : t.invited = some i) :
    (∀ op ∈ (CacheOp.deleteDialogNode t.dialog.id t.dialog.nodeID) :: (after.flatMap Takeover.calls).map CacheCall.op,
      op.id ≠ i.data.id) ↔ ∀ u ∈ t :: after, u.dialog.id ≠ i.data.id := by
  rw [List.forall_mem_cons, List.forall_mem_cons]
  refine and_congr_right fun _ => ⟨fun h u hu => ?_, fun h op hop => ?_⟩
  · exact h _ (List.mem_map_of_mem (List.mem_flatMap.mpr ⟨u, hu, List.mem_append_right _ List.mem_cons_self⟩))
  · obtain ⟨call, hcall, rfl⟩ := List.mem_map.mp hop
    obtain ⟨u, hu, hcall⟩ := List.mem_flatMap.mp hcall
    obtain hid | ⟨j, hj, hid⟩ := id_of_mem_calls hcall
    · rw [hid]
      exact h u hu
    · rw [hid]
      exact newID_ne hnew hi hu hj

end Runs

/-- After a failover that the cache goes along with, the file of the node has a dialog that was taken over exactly when
no dialog that was taken over in its turn or later had the ID that it has got. There is no error exactly when every
dialog was taken over. -/
theorem failover_found (json : Json) (disk : Disk) (n : String) (calls : List CacheCall) (dialogs : List Takeover)
    (hjson : json.RoundTrips ((calls ++ takeoverCalls dialogs).map CacheCall.op))
    (hcalls : ∀ call ∈ calls, call.io.fails = none)
    (hio : ∀ t ∈ dialogs, t.storeIO.fails = none ∧ t.deleteIO.fails = none) (hnew : (newIDs (taken dialogs)).Nodup) :
    let failover := reInviteDialogs json (afterCalls json disk n n calls) [] dialogs
    (∀ before t after i, taken dialogs = before ++ t :: after → t.invited = some i → i.state = .confirmed →
      (i.data ∈ (loadDialogs json failover.1.disk n).2.1 ↔ ∀ u ∈ t :: after, u.dialog.id ≠ i.data.id)) ∧
    (failover.2 = .returned [] ↔ taken dialogs = dialogs) := by
  intro failover
  have hall : ∀ call ∈ calls ++ takeoverCalls dialogs, call.io.fails = none := fun call hcall =>
    (List.mem_append.mp hcall).elim (hcalls call) (io_of_mem_takeoverCalls hio)
  have hstate : failover.1 = afterCalls json disk n n (calls ++ takeoverCalls dialogs) := by
    show (reInviteDialogs json _ [] dialogs).1 = _
    rw [reInviteDialogs_state, afterCalls, afterCalls, Run.run_append]
  have hwritten : Written json disk n _ (afterCalls json disk n n (calls ++ takeoverCalls dialogs)) :=
    written_afterCalls hall
  have hbefore : Written json disk n _ (afterCalls json disk n n calls) := written_afterCalls hcalls
  obtain ⟨f, hf, -⟩ := hbefore.file
  refine ⟨fun before t after i htaken hi hconfirmed => ?_,
    reInviteDialogs_returned_iff (by rw [hf]; exact Option.some_ne_none f) hio⟩
  have hperm := (loadDialogs_own hwritten hjson).1
  rw [hstate, hperm.mem_iff, mem_values_iff]
  rw [htaken] at hnew
  rw [← forall_later_iff hnew hi]
  have hops : (calls ++ takeoverCalls dialogs).map CacheCall.op =
      ((calls ++ before.flatMap Takeover.calls).map CacheCall.op) ++ .storeDialog i.data ::
        .deleteDialogNode t.dialog.id t.dialog.nodeID :: (after.flatMap Takeover.calls).map CacheCall.op := by
    simp [takeoverCalls, htaken, Takeover.calls, hi, hconfirmed, stateOp]
  rw [hops]
  refine since_append_cons_iff fun hmem => ?_
  obtain hmem | hmem := List.mem_cons.mp hmem
  · cases hmem
  · exact storeDialog_notMem_calls hnew hi hmem

/-- A dialog of another node that becomes the dialog of alice. -/
def aliceTakeover (id : String) : Takeover where
  dialog := { id := id, nodeID := "b", direction := 1 }
  parseMessage _ := .ok (.request { recipient := {}, fromHDR := "", toHDR := "", callID := "", cseq := "" })
  invite _ _ := .ok ⟨alice, .confirmed⟩
  storeIO := plainIO
  deleteIO := plainIO

/-- A dialog that gets another ID is found by the next failover, and one that keeps its ID is not. -/
theorem failover_found_alice :
    alice ∈ (loadDialogs textJson
      (reInviteDialogs textJson (afterCalls textJson (fun _ => none) "a" "a" []) [] [aliceTakeover "0"]).1.disk
      "a").2.1 ∧
    alice ∉ (loadDialogs textJson
      (reInviteDialogs textJson (afterCalls textJson (fun _ => none) "a" "a" []) [] [aliceTakeover "1"]).1.disk
      "a").2.1 := by
  have hiff : ∀ id, _ := fun id => (failover_found textJson (fun _ => none) "a" [] [aliceTakeover id]
    (textJson_roundTrips fun d hd => .inl <| by
      simpa [takeoverCalls, taken, Takeover.invited, Takeover.calls, Takeover.reinvite, reinviteArgs, aliceTakeover,
        stateOp] using hd)
    (by simp) (by simp [aliceTakeover, plainIO])
    (by simp [newIDs, taken, Takeover.invited, Takeover.reinvite, reinviteArgs, aliceTakeover])).1 [] (aliceTakeover id)
      [] ⟨alice, .confirmed⟩ rfl rfl rfl
  refine ⟨(hiff "0").mpr (by simp [aliceTakeover, alice]), fun h => ?_⟩
  have hne := (hiff "1").mp h (aliceTakeover "1") List.mem_cons_self
  exact hne rfl

end Cache
