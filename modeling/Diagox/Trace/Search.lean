import Diagox.Lib.Interleave
import Diagox.Lib.RingScan
import Diagox.Trace.Store

/-!
# Searching traces while they are written

`SIPTraceFind` of `cdr_storage.go` beside other searches and the writers. A search holds the lock while it looks at
slots, and gives it up for each call of `f`. The loop ranges over the slots themselves, so what is written meanwhile
is found in the slots that are still to come, and not in those it has passed.
-/

namespace Trace

open Run

/-- Where a search stands. -/
inductive SearchPhase where
  | entered
  /-- It has the lock. -/
  | scanning
  /-- It is in `f`, without the lock. -/
  | calling
  | returned
  deriving DecidableEq, Repr

structure Search where
  callID : List UInt8
  phase : SearchPhase := .entered
  /-- The slot it comes to next. -/
  next : Nat := 0
  /-- What `f` was called with. -/
  found : List SIPTrace := []
  /-- How many traces were written when it began. Nothing in the code reads this. -/
  since : Nat := 0
  deriving DecidableEq, Repr

structure Tracer where
  store : SipTracerMemoryStorage
  locked : Bool := false
  /-- All traces written so far. Nothing in the code reads this. -/
  log : List SIPTrace := []
  deriving DecidableEq, Repr

/-- The next step of a search: to take the lock or wait for it, to look at one slot, or to return. -/
def searchStep (t : Tracer) (s : Search) : Tracer × Search :=
  match s.phase with
  | .entered =>
      if t.locked then (t, s)
      else ({ t with locked := true }, { s with phase := .scanning, since := t.log.length })
  | .scanning => match t.store.data[s.next]? with
      | none => ({ t with locked := false }, { s with phase := .returned })
      | some v =>
          if Concerns s.callID v then
            ({ t with locked := false }, { s with phase := .calling, next := s.next + 1, found := s.found ++ [v] })
          else (t, { s with next := s.next + 1 })
  | .calling => if t.locked then (t, s) else ({ t with locked := true }, { s with phase := .scanning })
  | .returned => (t, s)

/-- `writeTrace`, when it gets the lock. -/
def Tracer.writeTrace (t : Tracer) (trace : SIPTrace) : Tracer :=
  if t.locked then t
  else match Trace.writeTrace t.store trace with
    | none => t
    | some store => { t with store := store, log := t.log ++ [trace] }

inductive TraceEvent where
  | write (trace : SIPTrace)
  | search (callID : List UInt8)
  /-- Search `i` takes its next step. -/
  | step (i : Nat)
  deriving DecidableEq, Repr

abbrev Searches := Pool Tracer Search

def traceStep (p : Searches) : TraceEvent → Searches
  | .write trace => ⟨p.shared.writeTrace trace, p.threads⟩
  | .search callID => p.spawn { callID := callID }
  | .step i => p.advance searchStep i

/-- A tracer that nobody uses yet. -/
def noSearches (N : Nat) : Searches := ⟨{ store := newSipTracerMemoryStorage N }, []⟩

/-! ### A search that is not disturbed -/

/-- The steps of a search with nothing between them. -/
def searchSteps (n : Nat) (t : Tracer) (s : Search) : Tracer × Search := (fun x => searchStep x.1 x.2)^[n] (t, s)

theorem searchSteps_succ (n : Nat) (t : Tracer) (s : Search) :
    searchSteps (n + 1) t s = searchSteps n (searchStep t s).1 (searchStep t s).2 := rfl

/-- From the slot it has come to, a search finds what is there and above. -/
theorem exists_searchSteps_returned {t : Tracer} {s : Search} (hlocked : t.locked = true) (hphase : s.phase = .scanning)
    {slots : List SIPTrace} (hslots : t.store.data.drop s.next = slots) :
    ∃ n s', searchSteps n t s = ({ t with locked := false }, s') ∧ s'.phase = .returned ∧
      s'.found = s.found ++ slots.filter fun v => Concerns s.callID v := by
  induction slots generalizing t s with
  | nil =>
      have hslot : t.store.data[s.next]? = none := by
        rw [← List.head?_drop, hslots]
        rfl
      refine ⟨1, { s with phase := .returned }, ?_, rfl, by simp⟩
      rw [searchSteps_succ, searchStep, hphase]
      simp only [hslot]
      rfl
  | cons v slots ih =>
      have hslot : t.store.data[s.next]? = some v := by
        rw [← List.head?_drop, hslots]
        rfl
      have hnext : t.store.data.drop (s.next + 1) = slots := by rw [← List.tail_drop, hslots, List.tail_cons]
      by_cases hv : Concerns s.callID v
      · -- the lock is given up for the call, and taken again after it
        obtain ⟨n, s', hrun, hreturned, hfound⟩ := ih (t := { t with locked := true })
          (s := { s with phase := .scanning, next := s.next + 1, found := s.found ++ [v] }) rfl rfl hnext
        refine ⟨n + 2, s', ?_, hreturned, ?_⟩
        · have hcalled : searchStep t s = ({ t with locked := false },
              { s with phase := .calling, next := s.next + 1, found := s.found ++ [v] }) := by
            rw [searchStep, hphase]
            simp only [hslot, if_pos hv]
          rw [searchSteps_succ, hcalled]
          exact hrun
        · simp [hfound, hv]
      · obtain ⟨n, s', hrun, hreturned, hfound⟩ := ih (s := { s with next := s.next + 1 }) hlocked hphase hnext
        refine ⟨n + 1, s', ?_, hreturned, ?_⟩
        · rw [← hrun, searchSteps_succ, searchStep, hphase]
          simp only [hslot, if_neg hv]
        · simp [hfound, hv]

/-- Without writes in between, a search finds what `sipTraceFind` finds. -/
theorem searchSteps_alone (t : Tracer) (hlocked : t.locked = false) (callID : List UInt8) :
    ∃ n s, searchSteps n t { callID := callID } = (t, s) ∧ s.phase = .returned ∧
      s.found = sipTraceFind t.store callID := by
  have hdrop : t.store.data = t.store.data.drop 0 := rfl
  obtain ⟨n, s, hrun, hreturned, hfound⟩ := exists_searchSteps_returned (t := { t with locked := true })
    (s := { callID := callID, phase := .scanning, since := t.log.length }) rfl rfl hdrop.symm
  refine ⟨n + 1, s, ?_, hreturned, by simpa [sipTraceFind] using hfound⟩
  rw [searchSteps_succ, searchStep]
  simp only [hlocked]
  have hfree : { t with locked := false } = t := by rw [← hlocked]
  rw [if_neg Bool.false_ne_true]
  exact hrun.trans (by rw [← hfree])

/-! ### The invariant -/

/-- What a search has found up to now. -/
structure Search.Sound (N : Nat) (log : List SIPTrace) (s : Search) : Prop where
  callID : s.callID ≠ []
  entered : s.phase = .entered → s.next = 0 ∧ s.found = []
  returned : s.phase = .returned → N ≤ s.next
  scanned : s.phase ≠ .entered → ∃ js, RingStore.Scanned (Concerns s.callID) N s.since s.next log s.found js

def isScanning (s : Search) : Bool := decide (s.phase = .scanning)

/-- The lock is taken exactly while one search looks at slots. -/
structure SearchInv (N : Nat) (p : Searches) : Prop where
  holds : p.shared.store.Holds {} N p.shared.log
  lock : p.threads.countP isScanning = p.shared.locked.toNat
  sound : ∀ s ∈ p.threads, s.Sound N p.shared.log

theorem searchInv_noSearches (N : Nat) : SearchInv N (noSearches N) where
  holds := RingStore.holds_new _ N
  lock := rfl
  sound _ hs := absurd hs List.not_mem_nil

section Step

variable {N : Nat} {p : Searches}

theorem not_concerns_default {callID : List UInt8} (h : callID ≠ []) : ¬ Concerns callID ({} : SIPTrace) := by
  rintro (hsame | hsame)
  · exact h hsame.symm
  · exact h hsame.symm

theorem Search.Sound.write {log : List SIPTrace} {s : Search} (h : s.Sound N log) (trace : SIPTrace) :
    s.Sound N (log ++ [trace]) where
  callID := h.callID
  entered := h.entered
  returned := h.returned
  scanned hphase := by
    obtain ⟨js, hjs⟩ := h.scanned hphase
    exact ⟨js, hjs.write trace⟩

theorem SearchInv.moved {s s' : Search} {i : Nat} {locked : Bool} (hp : SearchInv N p) (hs : p.threads[i]? = some s)
    (hlock : (isScanning s').toNat + p.shared.locked.toNat = (isScanning s).toNat + locked.toNat)
    (hsound : s'.Sound N p.shared.log) :
    SearchInv N ⟨{ p.shared with locked := locked }, p.threads.set i s'⟩ where
  holds := hp.holds
  lock := by
    have hcount := Pool.countP_set isScanning hs s'
    have hlocked := hp.lock
    simp only
    omega
  sound t ht := by
    obtain ht | rfl := List.mem_or_eq_of_mem_set ht
    · exact hp.sound t ht
    · exact hsound

theorem SearchInv.locked_of_scanning (hp : SearchInv N p) {s : Search} (hs : s ∈ p.threads)
    (hphase : s.phase = .scanning) : p.shared.locked = true := by
  have hpos : 0 < p.threads.countP isScanning := List.countP_pos_iff.mpr ⟨s, hs, by simp [isScanning, hphase]⟩
  rw [hp.lock] at hpos
  cases hlocked : p.shared.locked with
  | true => rfl
  | false => simp [hlocked] at hpos

theorem searchInv_searchStep (hp : SearchInv N p) {i : Nat} {s : Search} (hs : p.threads[i]? = some s) :
    SearchInv N ⟨(searchStep p.shared s).1, p.threads.set i (searchStep p.shared s).2⟩ := by
  have hmem := List.mem_of_getElem? hs
  have hsound := hp.sound s hmem
  -- a search that waits or has returned stays as it is
  have hstay : SearchInv N ⟨p.shared, p.threads.set i s⟩ := hp.moved hs rfl hsound
  unfold searchStep
  cases hphase : s.phase with
  | entered =>
      cases hlocked : p.shared.locked with
      | true => exact hstay
      | false =>
          obtain ⟨hnext, hfound⟩ := hsound.entered hphase
          refine hp.moved hs (by simp [isScanning, hphase, hlocked]) ⟨hsound.callID, nofun, nofun, fun _ => ⟨[], ?_⟩⟩
          simp only [hnext, hfound]
          exact RingStore.scanned_start _ N p.shared.log
  | scanning =>
      have hlocked := hp.locked_of_scanning hmem hphase
      obtain ⟨js, hjs⟩ := hsound.scanned (by rw [hphase]; exact nofun)
      cases hslot : p.shared.store.data[s.next]? with
      | none =>
          have hend : N ≤ s.next := by
            rw [← hp.holds.size]
            exact List.getElem?_eq_none_iff.mp hslot
          dsimp only
          exact hp.moved hs (by simp [isScanning, hphase, hlocked])
            ⟨hsound.callID, nofun, fun _ => hend, fun _ => ⟨js, hjs⟩⟩
      | some v =>
          have hlt : s.next < N := by
            rw [← hp.holds.size]
            exact (List.getElem?_eq_some_iff.mp hslot).1
          dsimp only
          by_cases hv : Concerns s.callID v
          · rw [if_pos hv]
            obtain ⟨j, hj⟩ := hjs.hit hp.holds hlt (not_concerns_default hsound.callID) hslot hv
            exact hp.moved hs (by simp [isScanning, hphase, hlocked]) ⟨hsound.callID, nofun, nofun, fun _ => ⟨_, hj⟩⟩
          · rw [if_neg hv]
            refine hp.moved hs (by simp [isScanning, hphase]) ?_
            exact ⟨hsound.callID, nofun, nofun, fun _ => ⟨js, hjs.miss hp.holds hslot hv⟩⟩
  | calling =>
      cases hlocked : p.shared.locked with
      | true => exact hstay
      | false =>
          have hscanned := hsound.scanned (by rw [hphase]; exact nofun)
          exact hp.moved hs (by simp [isScanning, hphase, hlocked]) ⟨hsound.callID, nofun, nofun, fun _ => hscanned⟩
  | returned => exact hstay

theorem searchInv_writeTrace (hN : 0 < N) (hp : SearchInv N p) (trace : SIPTrace) :
    SearchInv N ⟨p.shared.writeTrace trace, p.threads⟩ := by
  obtain ⟨store, hwrite, hholds⟩ := hp.holds.write hN trace
  have hstore : Trace.writeTrace p.shared.store trace = some store := hwrite
  unfold Tracer.writeTrace
  split_ifs with hlocked
  · exact hp
  · rw [hstore]
    exact ⟨hholds, hp.lock, fun s hs => (hp.sound s hs).write trace⟩

end Step

/-- A search is for a Call-ID, as `pageHistorySipTrace` sees to. -/
def TraceEvent.HasCallID : TraceEvent → Prop
  | .search callID => callID ≠ []
  | _ => True

instance : DecidablePred TraceEvent.HasCallID
  | .search callID => inferInstanceAs (Decidable (callID ≠ []))
  | .write _ => .isTrue trivial
  | .step _ => .isTrue trivial

theorem searchInv_step {N : Nat} (hN : 0 < N) (p : Searches) (e : TraceEvent) (hp : SearchInv N p)
    (he : e.HasCallID) : SearchInv N (traceStep p e) := by
  cases e with
  | write trace => exact searchInv_writeTrace hN hp trace
  | search callID =>
      refine ⟨hp.holds, (Pool.countP_spawn isScanning p _).trans hp.lock, fun s hs => ?_⟩
      obtain hs | hs := List.mem_append.mp hs
      · exact hp.sound s hs
      · rw [List.mem_singleton.mp hs]
        exact ⟨he, fun _ => ⟨rfl, rfl⟩, nofun, fun h => absurd rfl h⟩
  | step i => exact Pool.advance_induction i hp fun s hs => searchInv_searchStep hp hs

/-! ### What a search finds -/

/-- What a search that has returned has found, of all traces written: the traces with the numbers `js`. Each of them
is found once and was there when the search began or was written since; none is missed that was there when the search
began and has not been replaced. -/
structure Search.Reports (N : Nat) (log : List SIPTrace) (s : Search) (js : List Nat) : Prop where
  values : List.Forall₂ (fun v j => log[j]? = some v ∧ Concerns s.callID v) s.found js
  once : js.Nodup
  there : ∀ j ∈ js, s.since ≤ j + N
  complete : ∀ j v, j < s.since → log.length ≤ j + N → log[j]? = some v → Concerns s.callID v → j ∈ js

/-- In every interleaving of searches and writes, at most one search has the lock, and a search that has returned has
found every trace that stayed in the ring all the while, and no trace twice. -/
theorem sipTraceFind_interleaved {N : Nat} (hN : 0 < N) (schedule : List TraceEvent)
    (hcallID : ∀ e ∈ schedule, e.HasCallID) :
    (run traceStep (noSearches N) schedule).threads.countP isScanning ≤ 1 ∧
      ∀ s ∈ (run traceStep (noSearches N) schedule).threads, s.phase = .returned →
        ∃ js, s.Reports N (run traceStep (noSearches N) schedule).shared.log js := by
  have hinv : SearchInv N (run traceStep (noSearches N) schedule) :=
    invariant_of_permitted traceStep (searchInv_step hN) (searchInv_noSearches N)
      (permitted_of_forall traceStep hcallID)
  refine ⟨?_, fun s hs hreturned => ?_⟩
  · rw [hinv.lock]
    exact Bool.toNat_le _
  · have hsound := hinv.sound s hs
    obtain ⟨js, hjs⟩ := hsound.scanned (by rw [hreturned]; exact nofun)
    refine ⟨js, hjs.values, hjs.nodup, fun j hj => (hjs.within j hj).1, fun j v hj hkept hv hconcerns => ?_⟩
    exact hjs.complete j v hj hkept ((Nat.mod_lt j hN).trans_le (hsound.returned hreturned)) hv hconcerns

/-- A search during which its first slot is written over. -/
def writtenOver : List TraceEvent :=
  [.write { created := 1, callID := [97] }, .search [97], .step 0, .step 0, .write { created := 2, callID := [97] },
    .write { created := 3, callID := [97] }, .step 0, .step 0, .step 0, .step 0]

theorem sipTraceFind_interleaved_writtenOver :
    (run traceStep (noSearches 2) writtenOver).threads.countP isScanning ≤ 1 ∧
      ∀ s ∈ (run traceStep (noSearches 2) writtenOver).threads, s.phase = .returned →
        ∃ js, s.Reports 2 (run traceStep (noSearches 2) writtenOver).shared.log js :=
  sipTraceFind_interleaved (by decide) writtenOver (by decide)

/-- The trace that has replaced the first one is not found. -/
example : (run traceStep (noSearches 2) writtenOver).threads.map (fun s => s.found.map (·.created)) = [[1, 2]] := by
  decide

end Trace
