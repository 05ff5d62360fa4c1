import Diagox.Lib.Refine
import Diagox.Limiter.Active

/-!
# The metrics of the dialogs

`PBX.handler` counts the dialogs of `metrics.go` inside of what the limiter counts: it starts to when it is admitted,
and is done with it before the deferred `DialogActiveDec`. So the handlers with their metrics are the handlers of the
limiter with some steps in between, and the gauge of the active dialogs stays below the maximum as these do.
-/

namespace Limiter.Gauge

open Run

/-- The limiter, and the metrics of the dialogs. -/
structure Metered where
  limiter : RateLimiterAtomic
  metricDialogsStarted : Int := 0
  metricDialogsActive : Int := 0
  metricDialogsEnded : Int := 0
  deriving DecidableEq, Repr

/-- Where a handler stands with its metrics. -/
inductive Phase where
  /-- Next is `metricDialogsStarted.Inc`, once it is admitted. -/
  | starting
  | raising
  | handling
  /-- Next is `metricDialogsActive.Dec` of the deferred call. -/
  | lowering (panicked : Bool)
  | ending (panicked : Bool)
  | ended
  deriving DecidableEq, Repr

structure Thread where
  handler : Handler := .rate .entered
  phase : Phase := .starting
  deriving DecidableEq, Repr

/-- One atomic step of a handler: one on its metrics while it is admitted, and otherwise one on the limiter. -/
def threadStep (m : Metered) (t : Thread) : Metered × Thread :=
  match t.handler, t.phase with
  | .running, .starting => ({ m with metricDialogsStarted := m.metricDialogsStarted + 1 }, { t with phase := .raising })
  | .running, .raising => ({ m with metricDialogsActive := m.metricDialogsActive + 1 }, { t with phase := .handling })
  | .running, .handling => (m, t)
  | .running, .lowering panicked =>
      ({ m with metricDialogsActive := m.metricDialogsActive - 1 }, { t with phase := .ending panicked })
  | .running, .ending panicked =>
      ({ m with metricDialogsEnded := m.metricDialogsEnded + 1 }, { handler := .unwinding panicked, phase := .ended })
  | h, phase => ({ m with limiter := (handlerStep m.limiter h).1 }, { handler := (handlerStep m.limiter h).2, phase })

/-- The body of a handler ends, by a return or by a panic. -/
def bodyEnd (panicked : Bool) (m : Metered) (t : Thread) : Metered × Thread :=
  match t.phase with
  | .handling => (m, { t with phase := .lowering panicked })
  | _ => (m, t)

abbrev Handlers := Pool Metered Thread

def step (p : Handlers) : Active.Event → Handlers
  | .tick d => { p with shared := { p.shared with limiter := p.shared.limiter.tick d } }
  | .arrive => p.spawn {}
  | .step i => p.advance threadStep i
  | .bodyEnds i panicked => p.advance (bodyEnd panicked) i

def initial (max rps now : Int) : Handlers := ⟨{ limiter := .fresh max rps now }, []⟩

/-! ### The handlers of the limiter -/

/-- Without their metrics. -/
def unmetered (p : Handlers) : Active.Handlers := p.map Metered.limiter Thread.handler

theorem threadStep_unmetered (m : Metered) (t : Thread) :
    ((threadStep m t).1.limiter, (threadStep m t).2.handler) = (m.limiter, t.handler) ∨
      (∃ panicked, ((threadStep m t).1.limiter, (threadStep m t).2.handler) =
        Limiter.bodyEnd panicked m.limiter t.handler) ∨
      ((threadStep m t).1.limiter, (threadStep m t).2.handler) = handlerStep m.limiter t.handler := by
  obtain ⟨h, phase⟩ := t
  cases h with
  | running =>
      cases phase with
      | ending panicked => exact .inr (.inl ⟨panicked, rfl⟩)
      | ended => exact .inr (.inr rfl)
      | starting | raising | handling | lowering => exact .inl rfl
  | rate | limiting | comparing | compensating | unwinding | finished => exact .inr (.inr rfl)

theorem bodyEnd_unmetered (panicked : Bool) (m : Metered) (t : Thread) :
    ((bodyEnd panicked m t).1.limiter, (bodyEnd panicked m t).2.handler) = (m.limiter, t.handler) := by
  obtain ⟨h, phase⟩ := t
  cases phase <;> rfl

/-- With the metrics the handlers do what they do without. -/
theorem unmetered_step (p : Handlers) (e : Active.Event) :
    ∃ es, unmetered (step p e) = run Active.step (unmetered p) es := by
  cases e with
  | tick d => exact ⟨[.tick d], rfl⟩
  | arrive => exact ⟨[.arrive], Pool.map_spawn _ _ p _⟩
  | step i =>
      cases ht : p.threads[i]? with
      | none => exact ⟨[], by rw [step, Pool.advance_of_none ht]; rfl⟩
      | some t =>
          obtain heq | ⟨panicked, heq⟩ | heq := threadStep_unmetered p.shared t
          · exact ⟨[], Pool.map_advance_eq_self ht heq⟩
          · exact ⟨[.bodyEnds i panicked], Pool.map_advance ht heq⟩
          · exact ⟨[.step i], Pool.map_advance ht heq⟩
  | bodyEnds i panicked =>
      refine ⟨[], ?_⟩
      cases ht : p.threads[i]? with
      | none => rw [step, Pool.advance_of_none ht, run_nil]
      | some t => exact Pool.map_advance_eq_self ht (bodyEnd_unmetered panicked p.shared t)

theorem inv_unmetered {max : Int} (hmax : 0 < max) (rps now : Int) (schedule : List Active.Event) :
    Active.Inv max (unmetered (run step (initial max rps now) schedule)) := by
  obtain ⟨es, hes⟩ := Refine.exists_run_of_steps unmetered_step (initial max rps now) schedule
  rw [hes]
  exact invariant Active.step (Active.inv_step hmax) (Active.inv_initial hmax rps now) es

/-! ### What the metrics count -/

def hasStarted (t : Thread) : Bool := decide (t.phase ≠ .starting)

def hasEnded (t : Thread) : Bool := decide (t.phase = .ended)

/-- Between the two ends of the gauge. -/
def isActive (t : Thread) : Bool :=
  match t.phase with
  | .handling | .lowering _ => true
  | _ => false

/-- Only an admitted handler that is not over is at its metrics. -/
def Coherent (t : Thread) : Prop := t.phase = .starting ∨ t.phase = .ended ∨ t.handler = .running

/-- Each metric is the number of the handlers that have been there. -/
structure Inv (p : Handlers) : Prop where
  started_eq : p.shared.metricDialogsStarted = p.threads.countP hasStarted
  active_eq : p.shared.metricDialogsActive = p.threads.countP isActive
  ended_eq : p.shared.metricDialogsEnded = p.threads.countP hasEnded
  coherent : ∀ t ∈ p.threads, Coherent t

/-- A step changes a metric by what it changes of the handler that takes it. -/
structure Counted (m : Metered) (t : Thread) (m' : Metered) (t' : Thread) : Prop where
  started : m'.metricDialogsStarted + (hasStarted t).toNat = m.metricDialogsStarted + (hasStarted t').toNat
  active : m'.metricDialogsActive + (isActive t).toNat = m.metricDialogsActive + (isActive t').toNat
  ended : m'.metricDialogsEnded + (hasEnded t).toNat = m.metricDialogsEnded + (hasEnded t').toNat
  coherent : Coherent t'

theorem counted_threadStep (m : Metered) {t : Thread} (ht : Coherent t) :
    Counted m t (threadStep m t).1 (threadStep m t).2 := by
  obtain ⟨h, phase⟩ := t
  cases h with
  | running =>
      cases phase with
      | starting | raising | handling | lowering =>
          exact ⟨by simp [threadStep, hasStarted], by simp [threadStep, isActive], by simp [threadStep, hasEnded],
            .inr (.inr rfl)⟩
      | ending | ended =>
          exact ⟨by simp [threadStep, hasStarted], by simp [threadStep, isActive], by simp [threadStep, hasEnded],
            .inr (.inl rfl)⟩
  | rate | limiting | comparing | compensating | unwinding | finished =>
      refine ⟨rfl, rfl, rfl, ?_⟩
      obtain hphase | hphase | hrunning := ht
      · exact .inl hphase
      · exact .inr (.inl hphase)
      · cases hrunning

theorem counted_bodyEnd (panicked : Bool) (m : Metered) {t : Thread} (ht : Coherent t) :
    Counted m t (bodyEnd panicked m t).1 (bodyEnd panicked m t).2 := by
  obtain ⟨h, phase⟩ := t
  cases phase with
  | handling =>
      obtain hphase | hphase | hrunning := ht
      · cases hphase
      · cases hphase
      · exact ⟨rfl, rfl, rfl, .inr (.inr hrunning)⟩
  | starting | raising | lowering | ending | ended => exact ⟨rfl, rfl, rfl, ht⟩

theorem inv_set {p : Handlers} {i : Nat} {t : Thread} {m' : Metered} {t' : Thread} (hp : Inv p)
    (ht : p.threads[i]? = some t) (hc : Counted p.shared t m' t') : Inv ⟨m', p.threads.set i t'⟩ := by
  have hstarted := Pool.countP_set hasStarted ht t'
  have hactive := Pool.countP_set isActive ht t'
  have hended := Pool.countP_set hasEnded ht t'
  obtain ⟨hp₁, hp₂, hp₃, hcoherent⟩ := hp
  obtain ⟨hc₁, hc₂, hc₃, hcoherent'⟩ := hc
  refine ⟨?_, ?_, ?_, fun u hu => ?_⟩
  · show m'.metricDialogsStarted = ((p.threads.set i t').countP hasStarted : Int)
    omega
  · show m'.metricDialogsActive = ((p.threads.set i t').countP isActive : Int)
    omega
  · show m'.metricDialogsEnded = ((p.threads.set i t').countP hasEnded : Int)
    omega
  · obtain hu | rfl := List.mem_or_eq_of_mem_set hu
    · exact hcoherent u hu
    · exact hcoherent'

theorem inv_step (p : Handlers) (e : Active.Event) (hp : Inv p) : Inv (step p e) := by
  cases e with
  | tick d => exact ⟨hp.started_eq, hp.active_eq, hp.ended_eq, hp.coherent⟩
  | arrive =>
      refine ⟨?_, ?_, ?_, fun t ht => ?_⟩
      · rw [step, Pool.countP_spawn]
        exact hp.started_eq
      · rw [step, Pool.countP_spawn]
        exact hp.active_eq
      · rw [step, Pool.countP_spawn]
        exact hp.ended_eq
      · obtain ht | ht := List.mem_append.mp ht
        · exact hp.coherent t ht
        · rw [List.mem_singleton.mp ht]
          exact .inl rfl
  | step i =>
      exact Pool.advance_induction i hp fun t ht =>
        inv_set hp ht (counted_threadStep p.shared (hp.coherent t (List.mem_of_getElem? ht)))
  | bodyEnds i panicked =>
      exact Pool.advance_induction i hp fun t ht =>
        inv_set hp ht (counted_bodyEnd panicked p.shared (hp.coherent t (List.mem_of_getElem? ht)))

theorem inv_run (max rps now : Int) (schedule : List Active.Event) :
    Inv (run step (initial max rps now) schedule) :=
  invariant step inv_step ⟨rfl, rfl, rfl, fun t ht => by cases ht⟩ schedule

theorem isAdmitted_of_isActive {t : Thread} (ht : Coherent t) (hactive : isActive t = true) :
    Active.isAdmitted t.handler = true := by
  obtain hphase | hphase | hrunning := ht
  · rw [isActive, hphase] at hactive
    cases hactive
  · rw [isActive, hphase] at hactive
    cases hactive
  · rw [hrunning]
    rfl

theorem countP_isActive_le {p : Handlers} (hp : Inv p) :
    p.threads.countP isActive ≤ Active.admitted (unmetered p) := by
  rw [Active.admitted, unmetered, Pool.map, List.countP_map]
  exact List.countP_mono_left fun t ht => isAdmitted_of_isActive (hp.coherent t ht)

theorem countP_isActive_add_le (ts : List Thread) :
    ts.countP isActive + ts.countP hasEnded ≤ ts.countP hasStarted := by
  induction ts with
  | nil => exact Nat.le_refl 0
  | cons t ts ih =>
      have hhead : (if isActive t then 1 else 0) + (if hasEnded t then 1 else 0) ≤ if hasStarted t then 1 else 0 := by
        obtain ⟨h, phase⟩ := t
        cases phase <;> exact Nat.le_of_ble_eq_true rfl
      rw [List.countP_cons, List.countP_cons, List.countP_cons]
      omega

theorem metrics_of_finished {p : Handlers} (hp : Inv p) (hfinished : ∀ t ∈ p.threads, t.handler = .finished) :
    p.shared.metricDialogsActive = 0 ∧ p.shared.metricDialogsStarted = p.shared.metricDialogsEnded := by
  have hphase : ∀ t ∈ p.threads, t.phase = .starting ∨ t.phase = .ended := by
    intro t ht
    obtain hphase | hphase | hrunning := hp.coherent t ht
    · exact .inl hphase
    · exact .inr hphase
    · rw [hfinished t ht] at hrunning
      cases hrunning
  rw [hp.active_eq, hp.started_eq, hp.ended_eq]
  constructor
  · refine congrArg Nat.cast (List.countP_eq_zero.mpr fun t ht => ?_)
    obtain h | h := hphase t ht <;> simp [isActive, h]
  · refine congrArg Nat.cast (List.countP_congr fun t ht => ?_)
    obtain h | h := hphase t ht <;> simp [hasStarted, hasEnded, h]

/-- In every state of every run the gauge is not negative, with the ended dialogs no more than the started ones, and
below the maximum and the count of the limiter where there is a maximum; and when all handlers are over, it is 0 and
every dialog that was started has ended. -/
theorem metricDialogsActive_le (max rps now : Int) (schedule : List Active.Event) :
    let p := run step (initial max rps now) schedule
    0 ≤ p.shared.metricDialogsActive ∧
      p.shared.metricDialogsActive + p.shared.metricDialogsEnded ≤ p.shared.metricDialogsStarted ∧
      (0 < max → p.shared.metricDialogsActive < max ∧ p.shared.metricDialogsActive ≤ p.shared.limiter.activeCount) ∧
      ((∀ t ∈ p.threads, t.handler = .finished) →
        p.shared.metricDialogsActive = 0 ∧ p.shared.metricDialogsStarted = p.shared.metricDialogsEnded) := by
  intro p
  have hp : Inv p := inv_run max rps now schedule
  have hle := countP_isActive_le hp
  have hadd := countP_isActive_add_le p.threads
  refine ⟨?_, ?_, fun hmax => ?_, metrics_of_finished hp⟩
  · rw [hp.active_eq]
    exact Int.natCast_nonneg _
  · rw [hp.active_eq, hp.ended_eq, hp.started_eq]
    exact_mod_cast hadd
  · have hinv : Active.Inv max (unmetered p) := inv_unmetered hmax rps now schedule
    have hbounded := hinv.bounded
    have haccounted : p.shared.limiter.activeCount = _ := hinv.accounted
    rw [hp.active_eq]
    omega

/-- Two handlers under a maximum of 2: the second is refused while the first is counted, which then panics. -/
theorem metricDialogsActive_le_refused :
    let p := run step (initial 2 0 7)
      [.arrive, .step 0, .step 0, .step 0, .step 0, .step 0, .step 0, .arrive, .step 1, .step 1, .step 1, .step 1,
        .step 1, .bodyEnds 0 true, .step 0, .step 0, .step 0]
    p.shared.metricDialogsStarted = 1 ∧ (∀ t ∈ p.threads, t.handler = .finished) ∧ p.shared.metricDialogsActive = 0 ∧
      p.shared.metricDialogsActive < 2 := by
  intro p
  have h := metricDialogsActive_le 2 0 7
    [.arrive, .step 0, .step 0, .step 0, .step 0, .step 0, .step 0, .arrive, .step 1, .step 1, .step 1, .step 1,
      .step 1, .bodyEnds 0 true, .step 0, .step 0, .step 0]
  have hfinished : ∀ t ∈ p.threads, t.handler = .finished := by decide
  exact ⟨by decide, hfinished, (h.2.2.2 hfinished).1, (h.2.2.1 (by decide)).1⟩

end Limiter.Gauge
