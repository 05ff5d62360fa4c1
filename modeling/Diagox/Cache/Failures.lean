import Diagox.Cache.File

/-!
# A dump that fails

`StoreDialog`, `DeleteDialog` and `DeleteDialogNode` change the map before they dump it, and `dumpDialogs` of
`dialog_cache_file.go` empties the file before there is anything to write into it. A step that fails is reported, and
what was done before it stays: the map has the change, and the file is cut off where the dump has come to.
-/

namespace Cache

open Configuration

/-- `Encode` puts a newline behind a value, and there is none in it. -/
def Json.Terminated (json : Json) : Prop := ∀ l, ∃ text, json.encode l = text ++ [10] ∧ 10 ∉ text

/-- The file holds the encoding of the dialogs, in some order. -/
def HoldsDialogs (json : Json) (s : CacheState) : Prop :=
  ∃ f l, s.cache.file = some f ∧ l.Perm (values s.cache.dialogs) ∧ s.disk f.name = some (json.encode l)

/-- One of the steps of a dump fails. A write that fails has stopped early. -/
def StepFails (json : Json) (s : CacheState) (call : CacheCall) : Prop :=
  call.io.fails = some .truncate ∨ call.io.fails = some .seek ∨
    ∃ written, call.io.fails = some (.encode written) ∧
      written < (json.encode (call.io.order (values (call.op.apply s.cache.dialogs)))).length

/-- The map and the files are what they were. -/
structure Unchanged (s s' : CacheState) : Prop where
  dialogs : ∀ id, s'.cache.dialogs.lookup id = s.cache.dialogs.lookup id
  content : s'.disk = s.disk

/-- The operation has nothing to do: the very data is stored, or there is no dialog to be deleted. -/
def CacheOp.Idle (dialogs : StringMap DialogData) : CacheOp → Prop
  | .storeDialog data => dialogs.lookup data.id = some data
  | .deleteDialog id => dialogs.lookup id = none
  | .deleteDialogNode id _ => dialogs.lookup id = none

section Dump

variable {json : Json} {s : CacheState} {call : CacheCall}

theorem CacheOp.idle_iff {dialogs : StringMap DialogData} {op : CacheOp} :
    op.Idle dialogs ↔ ∀ id, (op.apply dialogs).lookup id = dialogs.lookup id := by
  have hown : op.Idle dialogs ↔ (op.apply dialogs).lookup op.id = dialogs.lookup op.id := by
    cases op with
    | storeDialog data => rw [Idle, apply, CacheOp.id, AList.lookup_insert, eq_comm]
    | deleteDialog id => rw [Idle, apply, CacheOp.id, AList.lookup_erase, eq_comm]
    | deleteDialogNode id nodeID => rw [Idle, apply, CacheOp.id, AList.lookup_erase, eq_comm]
  rw [hown]
  constructor
  · intro h id
    obtain rfl | hne := eq_or_ne op.id id
    · exact h
    · exact lookup_apply_of_ne hne
  · exact fun h => h op.id

theorem dialogs_dumpDialogs (json : Json) (s : CacheState) (io : DumpIO) :
    (s.dumpDialogs json io).1.cache.dialogs = s.cache.dialogs := by
  unfold CacheState.dumpDialogs
  split
  · rfl
  · split <;> rfl

theorem dialogs_callStep (json : Json) (s : CacheState) (call : CacheCall) :
    (callStep json s call).1.cache.dialogs = call.op.apply s.cache.dialogs :=
  dialogs_dumpDialogs json _ call.io

/-- After any calls the map is what their operations make of it. -/
theorem dialogs_run (json : Json) (s : CacheState) (calls : List CacheCall) :
    (Run.run (fun s call => (callStep json s call).1) s calls).cache.dialogs =
      (calls.map CacheCall.op).foldl CacheOp.apply s.cache.dialogs := by
  induction calls generalizing s with
  | nil => rfl
  | cons call calls ih =>
      rw [Run.run_cons, ih, dialogs_callStep]
      rfl

theorem holdsDialogs_callStep (hfile : s.cache.file ≠ none) (hio : call.io.fails = none) :
    HoldsDialogs json (callStep json s call).1 := by
  obtain ⟨f, hf⟩ := Option.ne_none_iff_exists'.mp hfile
  refine ⟨{ f with offset := (json.encode (call.io.order (values (call.op.apply s.cache.dialogs)))).length }, _, ?_,
    call.io.perm _, ?_⟩
  · simp [callStep, CacheState.dumpDialogs, hf, hio, File.write]
  · simp [callStep, CacheState.dumpDialogs, hf, hio, File.write, truncate]

theorem callStep_fails (hholds : HoldsDialogs json s) (hfails : StepFails json s call) :
    (callStep json s call).2 ≠ none := by
  obtain ⟨f, -, hf, -⟩ := hholds
  obtain h | h | ⟨written, h, -⟩ := hfails <;> simp [callStep, CacheState.dumpDialogs, hf, h]

theorem disk_of_truncate (hholds : HoldsDialogs json s) (h : call.io.fails = some .truncate) :
    (callStep json s call).1.disk = s.disk := by
  obtain ⟨f, -, hf, -⟩ := hholds
  simp [callStep, CacheState.dumpDialogs, hf, h]

theorem disk_ne_of_seek (hjson : json.Terminated) (hholds : HoldsDialogs json s)
    (h : call.io.fails = some .seek) : (callStep json s call).1.disk ≠ s.disk := by
  obtain ⟨f, l, hf, -, hcontent⟩ := hholds
  obtain ⟨text, htext, -⟩ := hjson l
  have hempty : (callStep json s call).1.disk f.name = some [] := by
    simp [callStep, CacheState.dumpDialogs, hf, h, truncate]
  intro hdisk
  rw [hdisk, hcontent, htext, Option.some_inj] at hempty
  exact List.append_ne_nil_of_right_ne_nil _ (List.cons_ne_nil _ _) hempty

theorem newline_notMem_take {l : List DialogData} (hjson : json.Terminated) {n : Nat}
    (hn : n < (json.encode l).length) : 10 ∉ (json.encode l).take n := by
  obtain ⟨text, htext, hnone⟩ := hjson l
  rw [htext, List.length_append, List.length_singleton] at hn
  rw [htext, List.take_append_of_le_length (Nat.le_of_lt_succ hn)]
  exact fun hmem => hnone (List.mem_of_mem_take hmem)

theorem disk_ne_of_encode (hjson : json.Terminated) (hholds : HoldsDialogs json s) {written : Nat}
    (h : call.io.fails = some (.encode written))
    (hearly : written < (json.encode (call.io.order (values (call.op.apply s.cache.dialogs)))).length) :
    (callStep json s call).1.disk ≠ s.disk := by
  obtain ⟨f, l, hf, -, hcontent⟩ := hholds
  obtain ⟨text, htext, -⟩ := hjson l
  have hcut : (callStep json s call).1.disk f.name =
      some ((json.encode (call.io.order (values (call.op.apply s.cache.dialogs)))).take written) := by
    simp [callStep, CacheState.dumpDialogs, hf, h, File.write, truncate]
  intro hdisk
  rw [hdisk, hcontent, htext, Option.some_inj] at hcut
  -- the newline is the last byte to be written
  refine newline_notMem_take hjson hearly ?_
  rw [← hcut]
  simp

end Dump

/-- A call of which a step fails leaves the map and the file exactly when it fails to truncate the file and has nothing
to do. -/
theorem callStep_unchanged_iff {json : Json} (hjson : json.Terminated) {s : CacheState} (hholds : HoldsDialogs json s)
    {call : CacheCall} (hfails : StepFails json s call) :
    ((callStep json s call).2 ≠ none → Unchanged s (callStep json s call).1) ↔
      call.io.fails = some .truncate ∧ call.op.Idle s.cache.dialogs := by
  rw [imp_iff_right (callStep_fails hholds hfails), CacheOp.idle_iff]
  constructor
  · rintro ⟨hdialogs, hcontent⟩
    refine ⟨?_, fun id => by rw [← dialogs_callStep json, hdialogs]⟩
    obtain h | h | ⟨written, h, hearly⟩ := hfails
    · exact h
    · exact absurd hcontent (disk_ne_of_seek hjson hholds h)
    · exact absurd hcontent (disk_ne_of_encode hjson hholds h hearly)
  · rintro ⟨h, hidle⟩
    exact ⟨fun id => by rw [dialogs_callStep, hidle], disk_of_truncate hholds h⟩

/-- `json` on the dialogs below: a text of one line. -/
def lineJson : Json where
  encode l := (encodeText l).filter (· ≠ 10) ++ [10]
  decode := textJson.decode

theorem lineJson_terminated : lineJson.Terminated := fun l =>
  ⟨(encodeText l).filter (· ≠ 10), rfl, fun h => by simp at h⟩

/-- The dialog of node `"a"` in the map and in the file. -/
def aliceCached : CacheState := afterCalls lineJson (fun _ => none) "a" "a" aliceStored

theorem aliceCached_holds : HoldsDialogs lineJson aliceCached :=
  holdsDialogs_callStep nofun rfl

/-- A call that fails in one of its steps. -/
def failing (op : CacheOp) (err : DumpError) : CacheCall := ⟨op, { plainIO with fails := some err }⟩

theorem callStep_unchanged_absent :
    ((callStep lineJson aliceCached (failing (.deleteDialog "2") .truncate)).2 ≠ none →
        Unchanged aliceCached (callStep lineJson aliceCached (failing (.deleteDialog "2") .truncate)).1) ↔
      some DumpError.truncate = some .truncate ∧ CacheOp.Idle aliceCached.cache.dialogs (.deleteDialog "2") :=
  callStep_unchanged_iff lineJson_terminated aliceCached_holds (.inl rfl)

/-- When the dialog cannot be stored again, it is lost to the node that takes over, and when it cannot be deleted, it is
deleted all the same. -/
theorem not_callStep_unchanged :
    (¬ ∀ (json : Json) (s : CacheState) (call : CacheCall), json.Terminated → HoldsDialogs json s →
      StepFails json s call → (callStep json s call).2 ≠ none → Unchanged s (callStep json s call).1) ∧
    (loadDialogs lineJson aliceCached.disk "a").2.1 = [alice] ∧
    (loadDialogs lineJson (callStep lineJson aliceCached (failing (.storeDialog alice) .seek)).1.disk "a").2.1 = [] ∧
    (callStep lineJson aliceCached (failing (.deleteDialog "1") .truncate)).1.cache.dialogs.lookup "1" = none := by
  refine ⟨fun h => ?_, by decide +kernel, by decide, by decide⟩
  have hdeleted := h lineJson aliceCached (failing (.deleteDialog "1") .truncate) lineJson_terminated aliceCached_holds
    (.inl rfl) nofun
  have hlookup := hdeleted.dialogs "1"
  revert hlookup
  decide

end Cache
