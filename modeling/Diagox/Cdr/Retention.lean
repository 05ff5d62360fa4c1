import Diagox.Cdr.Storage
import Diagox.Trace.Store

/-!
# What the memory stores retain

`CDRWrite` and `writeTrace` of `cdr_storage.go` are two copies of one ring: the position is set back before a write,
so it may stand behind the last slot between two of them. Both stores have room for 10000, and any capacity but 0
would do.
-/

namespace Cdr

open Trace

/-- No write to the two stores is out of range, and what they have afterwards are the last records and traces. -/
theorem writes_retained {N : Nat} (hN : 0 < N) (formatRFC3339 : Time → String) (cdrs : List CDR)
    (traces : List SIPTrace) :
    (∃ s, cdrWriteAll formatRFC3339 (newCDRMemoryStorage N) cdrs = some s ∧
        s.Retains {} N (cdrs.map (fillStartTime formatRFC3339))) ∧
      ∃ s, writeTraceAll (newSipTracerMemoryStorage N) traces = some s ∧ s.Retains {} N traces := by
  constructor
  · obtain ⟨s, hwrite, hholds⟩ := RingStore.writeAll_new hN ({} : CDR) (cdrs.map (fillStartTime formatRFC3339))
    refine ⟨s, ?_, hholds.retains hN⟩
    rw [cdrWriteAll_eq]
    exact hwrite
  · obtain ⟨s, hwrite, hholds⟩ := RingStore.writeAll_new hN ({} : SIPTrace) traces
    refine ⟨s, ?_, hholds.retains hN⟩
    rw [writeTraceAll_eq]
    exact hwrite

/-- Three records of calls. -/
def threeRecords : List CDR := [{ callID := "a" }, { callID := "b" }, { callID := "c" }]

theorem writes_retained_two_slots :
    (∃ s, cdrWriteAll (fun _ => "now") (newCDRMemoryStorage 2) threeRecords = some s ∧
        s.Retains {} 2 [{ callID := "a", startTimeFormated := "now" }, { callID := "b", startTimeFormated := "now" },
          { callID := "c", startTimeFormated := "now" }]) ∧
      ∃ s, writeTraceAll (newSipTracerMemoryStorage 2) twoTraces = some s ∧ s.Retains {} 2 twoTraces :=
  writes_retained (by decide) (fun _ => "now") threeRecords twoTraces

end Cdr
