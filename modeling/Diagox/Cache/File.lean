import Diagox.Config.Types
import Diagox.Lib.Bytes
import Diagox.Lib.Interleave

/-!
# The dialog cache in a file

`DialogCacheFile` of `dialog_cache_file.go`: a map of dialogs, which every change writes out as a whole, so that
another node can load them. The file is named by the global `nodeID`, and loaded by the ID that is asked for.
-/

namespace Cache

open Configuration

structure DialogData where
  id : String
  nodeID : String := ""
  /-- 0 for a server, 1 for a client. -/
  direction : UInt8 := 0
  inviteRequestData : String := ""
  dialplan : String := ""
  deriving DecidableEq, Repr

/-! ### Files -/

/-- The files of the working directory. -/
abbrev Disk := String → Option (List UInt8)

/-- An `os.File`: the file that was opened, and where the next write goes. -/
structure File where
  name : String
  offset : Nat := 0
  deriving DecidableEq, Repr

def openFile (disk : Disk) (name : String) (trunc : Bool) : Disk :=
  Function.update disk name (some (if trunc then [] else (disk name).getD []))

def truncate (disk : Disk) (name : String) : Disk := Function.update disk name (some [])

/-- A write at the offset. What lies between the end of the file and the offset reads as zero. -/
def File.write (f : File) (disk : Disk) (data : List UInt8) : Disk × File :=
  let old := (disk f.name).getD []
  (Function.update disk f.name
    (some (old.take f.offset ++ List.replicate (f.offset - old.length) 0 ++ data ++ old.drop (f.offset + data.length))),
    { f with offset := f.offset + data.length })

inductive DecodeError where
  /-- `io.EOF`: there is no value. -/
  | eof
  | malformed
  deriving DecidableEq, Repr

/-- The `json` package on slices of dialogs. The slice is what an error leaves of it. -/
structure Json where
  encode : List DialogData → List UInt8
  decode : List UInt8 → List DialogData × Option DecodeError

/-! ### The cache -/

def dialogsFileName (nodeID : String) : String := "dialogs_" ++ nodeID ++ ".json"

structure DialogCacheFile where
  file : Option File := none
  nodeID : String
  dialogs : StringMap DialogData := ∅

def newDialogCacheFile (nodeID : String) : DialogCacheFile := { nodeID := nodeID }

structure CacheState where
  disk : Disk
  cache : DialogCacheFile

def CacheState.init (s : CacheState) (nodeID : String) : CacheState where
  disk := openFile s.disk (dialogsFileName nodeID) true
  cache := { s.cache with file := some { name := dialogsFileName nodeID } }

inductive DumpError where
  /-- There is no file: the cache was not initialised. -/
  | invalid
  | truncate
  | seek
  | encode (written : Nat)
  deriving DecidableEq, Repr

/-- How a dump goes: the order in which the map is visited, and the file operation that fails. -/
structure DumpIO where
  order : List DialogData → List DialogData
  perm : ∀ l, (order l).Perm l
  fails : Option DumpError := none

def values (dialogs : StringMap DialogData) : List DialogData := dialogs.entries.map fun x => x.2

variable (json : Json)

def CacheState.dumpDialogs (s : CacheState) (io : DumpIO) : CacheState × Option DumpError :=
  match s.cache.file with
  | none => (s, some .invalid)
  | some f =>
      let dgs := json.encode (io.order (values s.cache.dialogs))
      match io.fails with
      | none =>
          let (disk, f) := { f with offset := 0 }.write (truncate s.disk f.name) dgs
          ({ disk := disk, cache := { s.cache with file := some f } }, none)
      | some (.encode written) =>
          let (disk, f) := { f with offset := 0 }.write (truncate s.disk f.name) (dgs.take written)
          ({ disk := disk, cache := { s.cache with file := some f } }, some (.encode written))
      | some .seek => ({ s with disk := truncate s.disk f.name }, some .seek)
      | some err => (s, some err)

inductive CacheOp where
  | storeDialog (data : DialogData)
  | deleteDialog (id : String)
  | deleteDialogNode (id nodeID : String)
  deriving DecidableEq, Repr

def CacheOp.apply (dialogs : StringMap DialogData) : CacheOp → StringMap DialogData
  | .storeDialog data => dialogs.insert data.id data
  | .deleteDialog id => dialogs.erase id
  | .deleteDialogNode id _ => dialogs.erase id

structure CacheCall where
  op : CacheOp
  io : DumpIO

def callStep (s : CacheState) (call : CacheCall) : CacheState × Option DumpError :=
  CacheState.dumpDialogs json { s with cache := { s.cache with dialogs := call.op.apply s.cache.dialogs } } call.io

/-- `LoadDialogs`, of any cache: it reads the file of the node, and leaves it empty. -/
def loadDialogs (disk : Disk) (nodeID : String) : Disk × List DialogData × Option DecodeError :=
  let disk := openFile disk (dialogsFileName nodeID) false
  (truncate disk (dialogsFileName nodeID), json.decode ((disk (dialogsFileName nodeID)).getD []))

/-- A cache that is made for a node and initialised, after some calls. -/
def afterCalls (disk : Disk) (n nodeID : String) (calls : List CacheCall) : CacheState :=
  Run.run (fun s call => (callStep json s call).1)
    (CacheState.init { disk := disk, cache := newDialogCacheFile n } nodeID) calls

/-! ### What is to be loaded -/

/-- An operation leaves a dialog in force: one of a node deletes it only from this node. -/
def CacheOp.Keeps (d : DialogData) : CacheOp → Prop
  | .storeDialog data => data.id ≠ d.id
  | .deleteDialog id => id ≠ d.id
  | .deleteDialogNode id nodeID => ¬ (id = d.id ∧ nodeID = d.nodeID)

/-- The latest data that was stored under its ID, and not deleted since. -/
def Latest (ops : List CacheOp) (d : DialogData) : Prop := Since (·.Keeps d) (.storeDialog d) ops

/-- A list has certain dialogs, each of them once. -/
def Exactly (l : List DialogData) (P : DialogData → Prop) : Prop := l.Nodup ∧ ∀ d, d ∈ l ↔ P d

/-- Of a dialog in force no `DeleteDialogNode` was called, for whatever node. -/
def NoForeignDelete (ops : List CacheOp) : Prop :=
  ∀ before d after, ops = before ++ .storeDialog d :: after → (∀ op ∈ after, op.Keeps d) →
    ∀ nodeID, .deleteDialogNode d.id nodeID ∉ after

/-- The package round-trips slices of the dialogs that are stored, and finds no value in an empty file. -/
structure Json.RoundTrips (ops : List CacheOp) : Prop where
  decode_encode : ∀ l : List DialogData, l.Nodup → (∀ d ∈ l, .storeDialog d ∈ ops) →
    json.decode (json.encode l) = (l, none)
  decode_nil : json.decode [] = ([], some .eof)

section Dialogs

variable {dialogs : StringMap DialogData} {ops : List CacheOp} {d : DialogData}

def CacheOp.id : CacheOp → String
  | .storeDialog data => data.id
  | .deleteDialog id => id
  | .deleteDialogNode id _ => id

def dialogsAfter (ops : List CacheOp) : StringMap DialogData := ops.foldl CacheOp.apply ∅

theorem dialogsAfter_concat (ops : List CacheOp) (op : CacheOp) :
    dialogsAfter (ops ++ [op]) = op.apply (dialogsAfter ops) := by
  rw [dialogsAfter, List.foldl_append]
  rfl

theorem lookup_apply_of_ne {op : CacheOp} {k : String} (h : op.id ≠ k) :
    (op.apply dialogs).lookup k = dialogs.lookup k := by
  cases op with
  | storeDialog data => exact AList.lookup_insert_ne (Ne.symm h)
  | deleteDialog id => exact AList.lookup_erase_ne (Ne.symm h)
  | deleteDialogNode id nodeID => exact AList.lookup_erase_ne (Ne.symm h)

theorem lookup_apply_self {op : CacheOp} : (op.apply dialogs).lookup op.id = some d ↔ op = .storeDialog d := by
  cases op with
  | storeDialog data =>
      rw [CacheOp.apply, CacheOp.id, AList.lookup_insert, Option.some.injEq, CacheOp.storeDialog.injEq]
  | deleteDialog id => simp [CacheOp.apply, CacheOp.id, AList.lookup_erase]
  | deleteDialogNode id nodeID => simp [CacheOp.apply, CacheOp.id, AList.lookup_erase]

theorem lookup_dialogsAfter_iff {k : String} :
    (dialogsAfter ops).lookup k = some d ↔ d.id = k ∧ Since (·.id ≠ k) (.storeDialog d) ops := by
  induction ops using List.reverseRecOn with
  | nil => simp [dialogsAfter, not_since_nil]
  | append_singleton ops op ih =>
      rw [dialogsAfter_concat, since_concat]
      by_cases hop : op.id = k
      · subst hop
        rw [lookup_apply_self]
        constructor
        · rintro rfl
          exact ⟨rfl, .inl rfl⟩
        · rintro ⟨-, rfl | ⟨hne, -⟩⟩
          · rfl
          · exact absurd rfl hne
      · rw [lookup_apply_of_ne hop, ih]
        refine and_congr_right fun hid => ⟨fun h => .inr ⟨hop, h⟩, ?_⟩
        rintro (rfl | ⟨-, h⟩)
        · exact absurd hid hop
        · exact h

theorem mem_values_iff : d ∈ values (dialogsAfter ops) ↔ Since (·.id ≠ d.id) (.storeDialog d) ops := by
  have hlookup : (dialogsAfter ops).lookup d.id = some d ↔ Since (·.id ≠ d.id) (.storeDialog d) ops :=
    lookup_dialogsAfter_iff.trans (and_iff_right rfl)
  rw [← hlookup, values, List.mem_map]
  constructor
  · rintro ⟨x, hx, rfl⟩
    have hk := AList.mem_lookup_iff.mpr hx
    rwa [(lookup_dialogsAfter_iff.mp hk).1]
  · intro h
    exact ⟨_, AList.mem_lookup_iff.mp h, rfl⟩

theorem nodup_values (ops : List CacheOp) : (values (dialogsAfter ops)).Nodup := by
  refine List.Nodup.of_map DialogData.id ?_
  have hkeys : (values (dialogsAfter ops)).map DialogData.id = (dialogsAfter ops).keys := by
    rw [values, List.map_map]
    refine List.map_congr_left fun x hx => ?_
    exact (lookup_dialogsAfter_iff.mp (AList.mem_lookup_iff.mpr hx)).1
  rw [hkeys]
  exact (dialogsAfter ops).nodupKeys

theorem keeps_of_id_ne {op : CacheOp} (h : op.id ≠ d.id) : op.Keeps d := by
  cases op with
  | storeDialog data => exact h
  | deleteDialog id => exact h
  | deleteDialogNode id nodeID => exact fun hsame => h hsame.1

theorem eq_deleteDialogNode_of_keeps {op : CacheOp} (h : op.Keeps d) (hid : op.id = d.id) :
    ∃ nodeID, op = .deleteDialogNode d.id nodeID := by
  cases op with
  | storeDialog data => exact absurd hid h
  | deleteDialog id => exact absurd hid h
  | deleteDialogNode id nodeID => exact ⟨nodeID, by rw [← hid]; rfl⟩

theorem eq_of_two_stores {before before' after after' : List CacheOp}
    (h : before ++ .storeDialog d :: after = before' ++ .storeDialog d :: after') (hkeeps : ∀ op ∈ after, op.Keeps d)
    (hne : ∀ op ∈ after', op.id ≠ d.id) : after = after' := by
  obtain ⟨c, -, hc⟩ | ⟨c, -, hc⟩ := List.append_eq_append_iff.mp h
  · cases c with
    | nil => exact (List.cons.inj hc).2
    | cons x c =>
        have hmem : .storeDialog d ∈ after := by rw [(List.cons.inj hc).2]; simp
        exact absurd rfl (hkeeps _ hmem)
  · cases c with
    | nil => exact (List.cons.inj hc).2.symm
    | cons x c =>
        have hmem : .storeDialog d ∈ after' := by rw [(List.cons.inj hc).2]; simp
        exact absurd rfl (hne _ hmem)

/-- The map has what is to be loaded exactly when no dialog in force was deleted for another node. -/
theorem exactly_values_iff : Exactly (values (dialogsAfter ops)) (Latest ops) ↔ NoForeignDelete ops := by
  constructor
  · rintro ⟨-, hmem⟩ before d after rfl hkeeps nodeID hdelete
    obtain ⟨before', after', hops, hne⟩ := mem_values_iff.mp ((hmem d).mpr ⟨before, after, rfl, hkeeps⟩)
    exact hne _ (eq_of_two_stores hops hkeeps hne ▸ hdelete) rfl
  · refine fun hno => ⟨nodup_values ops, fun d => ?_⟩
    rw [mem_values_iff]
    constructor
    · rintro ⟨before, after, hops, hne⟩
      exact ⟨before, after, hops, fun op hop => keeps_of_id_ne (hne op hop)⟩
    · rintro ⟨before, after, hops, hkeeps⟩
      refine ⟨before, after, hops, fun op hop hid => ?_⟩
      obtain ⟨nodeID, rfl⟩ := eq_deleteDialogNode_of_keeps (hkeeps op hop) hid
      exact hno before d after hops hkeeps nodeID hop

theorem exactly_congr {l l' : List DialogData} (h : l.Perm l') (P : DialogData → Prop) :
    Exactly l P ↔ Exactly l' P := by
  rw [Exactly, Exactly, h.nodup_iff]
  exact and_congr_right fun _ => forall_congr' fun d => by rw [h.mem_iff]

end Dialogs

section File

variable {json : Json} {disk : Disk} {n nodeID : String} {calls : List CacheCall}

theorem dialogsFileName_inj {n m : String} (h : dialogsFileName n = dialogsFileName m) : n = m := by
  have hlist := congrArg String.toList h
  simp only [dialogsFileName, String.toList_append] at hlist
  exact String.toList_inj.mp (List.append_cancel_left (List.append_cancel_right hlist))

structure Written (json : Json) (disk : Disk) (nodeID : String) (ops : List CacheOp) (s : CacheState) : Prop where
  file : ∃ f, s.cache.file = some f ∧ f.name = dialogsFileName nodeID
  dialogs : s.cache.dialogs = dialogsAfter ops
  content : ops = [] ∧ s.disk (dialogsFileName nodeID) = some [] ∨
    ops ≠ [] ∧ ∃ l, l.Perm (values (dialogsAfter ops)) ∧ s.disk (dialogsFileName nodeID) = some (json.encode l)
  others : ∀ name, name ≠ dialogsFileName nodeID → s.disk name = disk name

theorem written_init (disk : Disk) (n nodeID : String) :
    Written json disk nodeID [] (CacheState.init { disk := disk, cache := newDialogCacheFile n } nodeID) where
  file := ⟨_, rfl, rfl⟩
  dialogs := rfl
  content := .inl ⟨rfl, Function.update_self ..⟩
  others _ hname := Function.update_of_ne hname _ _

theorem written_step {ops : List CacheOp} {s : CacheState} (h : Written json disk nodeID ops s) (call : CacheCall)
    (hio : call.io.fails = none) : Written json disk nodeID (ops ++ [call.op]) (callStep json s call).1 := by
  obtain ⟨f, hf, hname⟩ := h.file
  have hmap : call.op.apply s.cache.dialogs = dialogsAfter (ops ++ [call.op]) := by
    rw [dialogsAfter_concat, h.dialogs]
  simp only [callStep, CacheState.dumpDialogs, hf, hio, hmap, File.write, truncate, hname]
  refine ⟨⟨_, rfl, rfl⟩, rfl, .inr ⟨by simp, _, call.io.perm _, ?_⟩, fun name hne => ?_⟩
  · simp
  · show Function.update (Function.update _ _ _) _ _ name = _
    rw [Function.update_of_ne hne, Function.update_of_ne hne]
    exact h.others name hne

theorem written_afterCalls (hio : ∀ call ∈ calls, call.io.fails = none) :
    Written json disk nodeID (calls.map CacheCall.op) (afterCalls json disk n nodeID calls) := by
  induction calls using List.reverseRecOn with
  | nil => exact written_init disk n nodeID
  | append_singleton calls call ih =>
      have hcalls := ih fun c hc => hio c (List.mem_append_left _ hc)
      rw [afterCalls, Run.run_append, List.map_append]
      exact written_step hcalls call (hio call (by simp))

theorem loadDialogs_eq (json : Json) (disk : Disk) (n : String) :
    (loadDialogs json disk n).2 = json.decode ((disk (dialogsFileName n)).getD []) := by
  simp [loadDialogs, openFile]

theorem loadDialogs_own {ops : List CacheOp} {s : CacheState} (h : Written json disk nodeID ops s)
    (hjson : json.RoundTrips ops) :
    (loadDialogs json s.disk nodeID).2.1.Perm (values (dialogsAfter ops)) ∧
      ((loadDialogs json s.disk nodeID).2.2 = none ↔ ops ≠ []) := by
  rw [loadDialogs_eq]
  obtain ⟨rfl, hdisk⟩ | ⟨hne, l, hl, hdisk⟩ := h.content
  · rw [hdisk, Option.getD_some, hjson.decode_nil]
    simp [dialogsAfter, values]
  · have hstored : ∀ d ∈ l, .storeDialog d ∈ ops := by
      intro d hd
      obtain ⟨before, after, rfl, -⟩ := mem_values_iff.mp (hl.mem_iff.mp hd)
      simp
    rw [hdisk, Option.getD_some, hjson.decode_encode l (hl.nodup_iff.mpr (nodup_values ops)) hstored]
    exact ⟨hl, iff_of_true rfl hne⟩

end File

/-- A load for the node has what it should exactly when the cache was initialised by this very node, and of the
dialogs in force none was deleted for another node: the file of another node is as it was before. The first load
without any call finds no value. -/
theorem loadDialogs_iff (json : Json) (disk : Disk) (n nodeID : String) (calls : List CacheCall)
    (hjson : json.RoundTrips (calls.map CacheCall.op)) (hio : ∀ call ∈ calls, call.io.fails = none) :
    (Exactly (loadDialogs json (afterCalls json disk n nodeID calls).disk n).2.1 (Latest (calls.map CacheCall.op)) ↔
      n = nodeID ∧ NoForeignDelete (calls.map CacheCall.op) ∨
      n ≠ nodeID ∧ Exactly (json.decode ((disk (dialogsFileName n)).getD [])).1 (Latest (calls.map CacheCall.op))) ∧
    (n = nodeID → ((loadDialogs json (afterCalls json disk n nodeID calls).disk n).2.2 = none ↔ calls ≠ [])) := by
  have hwritten : Written json disk nodeID (calls.map CacheCall.op) (afterCalls json disk n nodeID calls) :=
    written_afterCalls hio
  by_cases hn : n = nodeID
  · subst hn
    obtain ⟨hperm, herr⟩ := loadDialogs_own hwritten hjson
    refine ⟨?_, fun _ => by rw [herr, ne_eq, List.map_eq_nil_iff]⟩
    rw [exactly_congr hperm, exactly_values_iff]
    simp
  · refine ⟨?_, fun hsame => absurd hsame hn⟩
    rw [loadDialogs_eq, hwritten.others _ fun hname => hn (dialogsFileName_inj hname)]
    simp [hn]

def alice : DialogData := { id := "1", nodeID := "a", dialplan := "playback" }

def jsonText (d : DialogData) : String :=
  "\x7b\"ID\":\"" ++ d.id ++ "\",\"NodeID\":\"" ++ d.nodeID ++ "\",\"Direction\":" ++ toString d.direction.toNat ++
    ",\"InviteRequestData\":\"" ++ d.inviteRequestData ++ "\",\"Dialplan\":\"" ++ d.dialplan ++ "\"\x7d"

def encodeText (l : List DialogData) : List UInt8 :=
  Bytes.ofString ("[" ++ ",".intercalate (l.map jsonText) ++ "]\n")

def bob : DialogData := { id := "2", nodeID := "a", dialplan := "echo" }

/-- The slices of alice's and bob's dialogs. -/
def aliceBobSlices : List (List DialogData) := [[], [alice], [bob], [alice, bob], [bob, alice]]

def textJson : Json where
  encode := encodeText
  decode bytes :=
    if bytes = [] then ([], some .eof)
    else
      match aliceBobSlices.find? fun l => encodeText l = bytes with
      | some l => (l, none)
      | none => ([], some .malformed)

theorem mem_aliceBobSlices {l : List DialogData} (hnodup : l.Nodup) (h : ∀ d ∈ l, d = alice ∨ d = bob) :
    l ∈ aliceBobSlices := by
  match l with
  | [] => decide
  | [d] => obtain rfl | rfl := h d (by simp) <;> decide
  | [d, d'] =>
      obtain rfl | rfl := h d (by simp) <;> obtain rfl | rfl := h d' (by simp) <;> revert hnodup <;> decide
  | d :: d' :: d'' :: l =>
      have hle : (d :: d' :: d'' :: l).length ≤ [alice, bob].length :=
        (List.subperm_of_subset hnodup fun d hd => by simpa using h d hd).length_le
      simp at hle

theorem textJson_roundTrips {ops : List CacheOp} (h : ∀ d, .storeDialog d ∈ ops → d = alice ∨ d = bob) :
    textJson.RoundTrips ops where
  decode_encode l hnodup hl := by
    have hslices : ∀ l ∈ aliceBobSlices, textJson.decode (textJson.encode l) = (l, none) := by decide +kernel
    exact hslices l (mem_aliceBobSlices hnodup fun d hd => h d (hl d hd))
  decode_nil := rfl

def plainIO : DumpIO where
  order l := l
  perm l := .refl l

def aliceStored : List CacheCall := [⟨.storeDialog alice, plainIO⟩]

/-- The dialogs of alice and bob are stored, and bob's is deleted. -/
def bobDeleted : List CacheCall :=
  aliceStored ++ [⟨.storeDialog bob, plainIO⟩, ⟨.deleteDialogNode "2" "a", plainIO⟩]

theorem loadDialogs_bobDeleted :
    (Exactly (loadDialogs textJson (afterCalls textJson (fun _ => none) "a" "a" bobDeleted).disk "a").2.1
        (Latest (bobDeleted.map CacheCall.op)) ↔
      "a" = "a" ∧ NoForeignDelete (bobDeleted.map CacheCall.op) ∨
      "a" ≠ "a" ∧ Exactly (textJson.decode []).1 (Latest (bobDeleted.map CacheCall.op))) ∧
    ("a" = "a" → ((loadDialogs textJson (afterCalls textJson (fun _ => none) "a" "a" bobDeleted).disk "a").2.2 = none ↔
      bobDeleted ≠ [])) :=
  loadDialogs_iff textJson (fun _ => none) "a" "a" bobDeleted
    (textJson_roundTrips fun d hd => by simpa [bobDeleted, aliceStored] using hd)
    (by simp [bobDeleted, aliceStored, plainIO])

/-- The dialog of node `"a"` is not in its file when the global ID is another one, and when it was deleted for `"b"`. -/
theorem not_loadDialogs :
    (¬ ∀ (json : Json) (disk : Disk) (n nodeID : String) (calls : List CacheCall),
      json.RoundTrips (calls.map CacheCall.op) → (∀ call ∈ calls, call.io.fails = none) →
      Exactly (loadDialogs json (afterCalls json disk n nodeID calls).disk n).2.1 (Latest (calls.map CacheCall.op))) ∧
    ¬ ∀ (json : Json) (disk : Disk) (n : String) (calls : List CacheCall),
      json.RoundTrips (calls.map CacheCall.op) → (∀ call ∈ calls, call.io.fails = none) →
      Exactly (loadDialogs json (afterCalls json disk n n calls).disk n).2.1 (Latest (calls.map CacheCall.op)) := by
  have hstored : Latest [.storeDialog alice] alice := ⟨[], [], rfl, by simp⟩
  have hdeleted : Latest [.storeDialog alice, .deleteDialogNode "1" "b"] alice :=
    ⟨[], [.deleteDialogNode "1" "b"], rfl, by simp [CacheOp.Keeps, alice]⟩
  constructor
  · intro h
    have hexactly := h textJson (fun _ => none) "a" "b" aliceStored
      (textJson_roundTrips fun d hd => .inl (by simpa [aliceStored] using hd)) (by simp [aliceStored, plainIO])
    have hmem := (hexactly.2 alice).mpr hstored
    have hnil :
        (loadDialogs textJson (afterCalls textJson (fun _ => none) "a" "b" aliceStored).disk "a").2.1 = [] := by
      decide
    rw [hnil] at hmem
    cases hmem
  · intro h
    have hexactly := h textJson (fun _ => none) "a" (aliceStored ++ [⟨.deleteDialogNode "1" "b", plainIO⟩])
      (textJson_roundTrips fun d hd => .inl (by simpa [aliceStored] using hd)) (by simp [aliceStored, plainIO])
    have hmem := (hexactly.2 alice).mpr hdeleted
    have hnil : (loadDialogs textJson
        (afterCalls textJson (fun _ => none) "a" "a" (aliceStored ++ [⟨.deleteDialogNode "1" "b", plainIO⟩])).disk
        "a").2.1 = [] := by decide
    rw [hnil] at hmem
    cases hmem

end Cache
