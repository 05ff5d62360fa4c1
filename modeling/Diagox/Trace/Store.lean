import Diagox.Lib.Lists
import Diagox.Trace.Parse

/-!
# The store of traces

`SipTracerMemoryStorage` of `cdr_storage.go`: a ring that is written round and round and searched from slot 0
upwards. Once the ring has started over, the traces written since then stand in front of the older ones.
-/

namespace Trace

abbrev SipTracerMemoryStorage := RingStore SIPTrace

/-- `NewSipTracerMemoryStorage`, which makes room for 10000 traces, for any capacity. -/
def newSipTracerMemoryStorage (capacity : Nat) : SipTracerMemoryStorage := .new {} capacity

/-- `writeTrace`. The result is `none` where the source panics on an index out of range. -/
def writeTrace (s : SipTracerMemoryStorage) (trace : SIPTrace) : Option SipTracerMemoryStorage := s.write trace

def writeTraceAll (s : SipTracerMemoryStorage) : List SIPTrace → Option SipTracerMemoryStorage
  | [] => some s
  | trace :: traces => (writeTrace s trace).bind (writeTraceAll · traces)

/-- The trace is found by this Call-ID. -/
def Concerns (callID : List UInt8) (v : SIPTrace) : Prop := v.callID = callID ∨ v.originatorCallID = callID

instance (callID : List UInt8) : DecidablePred (Concerns callID) := fun _ => inferInstanceAs (Decidable (_ ∨ _))

/-- `SIPTraceFind`: the traces that `f` is called with, one after the other. -/
def sipTraceFind (s : SipTracerMemoryStorage) (callID : List UInt8) : List SIPTrace :=
  s.data.filter fun v => Concerns callID v

theorem writeTraceAll_eq (s : SipTracerMemoryStorage) (traces : List SIPTrace) :
    writeTraceAll s traces = s.writeAll traces := by
  induction traces generalizing s with
  | nil => rfl
  | cons trace traces ih => simp only [writeTraceAll, RingStore.writeAll, writeTrace, ih]

/-! ### What is found -/

/-- The last `N` traces recorded, in order. -/
def lastTraces (N : Nat) (traces : List SIPTrace) : List SIPTrace := traces.drop (traces.length - N)

/-- The traces recorded since the ring has started over. -/
def sinceRound (N : Nat) (traces : List SIPTrace) : List SIPTrace := traces.drop (traces.length - traces.length % N)

/-- Those of the last `N` that were recorded before. -/
def beforeRound (N : Nat) (traces : List SIPTrace) : List SIPTrace :=
  (traces.take (traces.length - traces.length % N)).drop (traces.length - N)

theorem lastTraces_eq {N : Nat} (hN : 0 < N) (traces : List SIPTrace) :
    lastTraces N traces = beforeRound N traces ++ sinceRound N traces := by
  have hlt := Nat.mod_lt traces.length hN
  have hle := Nat.mod_le traces.length N
  exact RingStore.drop_sub_eq_append traces (by omega) (by omega)

section Find

variable {N : Nat} {traces : List SIPTrace} {s : SipTracerMemoryStorage} {callID : List UInt8}

/-- A search finds the traces since the ring has started over first. -/
theorem sipTraceFind_eq (hN : 0 < N) (hs : writeTraceAll (newSipTracerMemoryStorage N) traces = some s)
    (hcallID : callID ≠ []) :
    sipTraceFind s callID =
      (sinceRound N traces).filter (fun v => Concerns callID v) ++
        (beforeRound N traces).filter fun v => Concerns callID v := by
  obtain ⟨s', hwrite, hholds⟩ := RingStore.writeAll_new hN ({} : SIPTrace) traces
  obtain rfl : s' = s := by
    rw [writeTraceAll_eq, newSipTracerMemoryStorage, hwrite] at hs
    exact Option.some.inj hs
  -- a slot that is not written yet has no Call-ID
  have hfresh : ¬ Concerns callID ({} : SIPTrace) := by
    rintro (h | h)
    · exact hcallID h.symm
    · exact hcallID h.symm
  rw [sipTraceFind, hholds.data_eq hN, List.filter_append, List.filter_append,
    List.filter_replicate_of_neg (by simpa using hfresh), List.append_nil]
  rfl

/-- A search finds the last `N` traces recorded in their order exactly when the traces found since the ring
has started over, and those found before, repeat one sequence, as they do when there are none in one part. -/
theorem sipTraceFind_lastTraces_iff (hN : 0 < N)
    (hs : writeTraceAll (newSipTracerMemoryStorage N) traces = some s) (hcallID : callID ≠ []) :
    sipTraceFind s callID = (lastTraces N traces).filter (fun v => Concerns callID v) ↔
      List.SameRepeated ((sinceRound N traces).filter fun v => Concerns callID v)
        ((beforeRound N traces).filter fun v => Concerns callID v) := by
  rw [sipTraceFind_eq hN hs hcallID, lastTraces_eq hN, List.filter_append]
  exact List.append_comm_iff_sameRepeated

theorem mem_sipTraceFind_of_write {trace : SIPTrace} {s' : SipTracerMemoryStorage} (h : writeTrace s trace = some s')
    (hconcerns : Concerns callID trace) : trace ∈ sipTraceFind s' callID := by
  rw [sipTraceFind, List.mem_filter]
  exact ⟨RingStore.mem_of_write h, by simpa using hconcerns⟩

end Find

/-- Two messages of one call. -/
def twoTraces : List SIPTrace := [{ created := 1, callID := [97] }, { created := 2, callID := [97] }]

theorem sipTraceFind_within_round :
    ∃ s, writeTraceAll (newSipTracerMemoryStorage 3) twoTraces = some s ∧
      sipTraceFind s [97] = (lastTraces 3 twoTraces).filter fun v => Concerns [97] v := by
  obtain ⟨s, hs⟩ : ∃ s, writeTraceAll (newSipTracerMemoryStorage 3) twoTraces = some s := ⟨_, rfl⟩
  refine ⟨s, hs, (sipTraceFind_lastTraces_iff (by decide) hs (by decide)).mpr ?_⟩
  have hnone : (beforeRound 3 twoTraces).filter (fun v => Concerns [97] v) = [] := by decide
  rw [hnone]
  exact List.sameRepeated_nil_right _

/-- Three messages in a store of two: the third is found before the second. -/
theorem not_sipTraceFind_lastTraces :
    ¬ ∀ (N : Nat) (traces : List SIPTrace) (s : SipTracerMemoryStorage) (callID : List UInt8), 0 < N →
      writeTraceAll (newSipTracerMemoryStorage N) traces = some s → callID ≠ [] →
      sipTraceFind s callID = (lastTraces N traces).filter fun v => Concerns callID v := by
  intro h
  have hfind := h 2 (twoTraces ++ [{ created := 3, callID := [97] }]) _ [97] (by decide) rfl (by decide)
  revert hfind
  decide

end Trace
