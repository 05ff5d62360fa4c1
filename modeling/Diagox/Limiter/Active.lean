import Diagox.Limiter.Atomic

/-!
# Counting active dialogs under interleaving

Handlers that overlap in any way, each with one call of `DialogActiveLimit` and, once it is admitted, one
deferred `DialogActiveDec`. A refused handler has incremented the counter too and takes that back in a step
of its own, so the counter runs ahead of the admitted handlers while others decide on it. `Inv` accounts
for every increment by the handler that still owes its decrement, and bounds the handlers that are admitted
or already sure to be.
-/

namespace Limiter.Active

open Run

/-- What can happen next. The body of an admitted handler ends by a return or by a panic. -/
inductive Event where
  | tick (d : Nat)
  | arrive
  | step (i : Nat)
  | bodyEnds (i : Nat) (panicked : Bool)
  deriving DecidableEq, Repr

abbrev Handlers := Pool RateLimiterAtomic Handler

def step (p : Handlers) : Event → Handlers
  | .tick d => { p with shared := p.shared.tick d }
  | .arrive => p.spawn (.rate .entered)
  | .step i => p.advance handlerStep i
  | .bodyEnds i panicked => p.advance (bodyEnd panicked) i

/-- A fresh limiter and no handler. -/
def initial (max rps now : Int) : Handlers := ⟨.fresh max rps now, []⟩

/-! ### What the handlers are doing -/

/-- Admitted, and its decrement is still to come. -/
def isAdmitted : Handler → Bool
  | .running => true
  | .unwinding _ => true
  | _ => false

/-- In `DialogActiveLimit`, between its increment and its verdict or the decrement that undoes it. -/
def isDeciding : Handler → Bool
  | .comparing _ => true
  | .compensating => true
  | _ => false

/-- In `DialogActiveLimit` with a count that will be found small enough. -/
def willPass (max : Int) : Handler → Bool
  | .comparing current => decide (current < max)
  | _ => false

/-- The handler has not entered the limiter yet or is over: it holds no increment. -/
def isOutside (h : Handler) : Bool := !isAdmitted h && !isDeciding h

def admitted (p : Handlers) : Nat := p.threads.countP isAdmitted

def deciding (p : Handlers) : Nat := p.threads.countP isDeciding

def passing (p : Handlers) : Nat := p.threads.countP (willPass p.shared.max)

/-- Every increment of the counter belongs to one handler, and fewer than `max` handlers are admitted or
about to be. -/
structure Inv (max : Int) (p : Handlers) : Prop where
  max_eq : p.shared.max = max
  accounted : p.shared.activeCount = admitted p + deciding p
  bounded : (admitted p : Int) + passing p < max

theorem inv_initial {max : Int} (hmax : 0 < max) (rps now : Int) : Inv max (initial max rps now) where
  max_eq := rfl
  accounted := rfl
  bounded := by simpa [initial, admitted, passing] using hmax

theorem passing_le_deciding (p : Handlers) : passing p ≤ deciding p := by
  refine List.countP_mono_left fun h _ hpass => ?_
  cases h <;> simp_all [willPass, isDeciding]

section Step

variable {max : Int} {p : Handlers} {i : Nat} {h : Handler}

/-- What one step of one handler has to pay for: the change of the counter is the change of what the
handler holds, and it joins those about to be admitted only below `max`. -/
structure Balanced (r : RateLimiterAtomic) (held : Nat) (h : Handler) (r' : RateLimiterAtomic) (h' : Handler) :
    Prop where
  max_eq : r'.max = r.max
  paid : r'.activeCount + (isAdmitted h).toNat + (isDeciding h).toNat =
    r.activeCount + (isAdmitted h').toNat + (isDeciding h').toNat
  joins : (isAdmitted h').toNat + (willPass r.max h').toNat ≤ (isAdmitted h).toNat + (willPass r.max h).toNat ∨
    isAdmitted h' = false ∧ (held : Int) + 1 < r.max

theorem inv_set {r : RateLimiterAtomic} {h' : Handler} (hp : Inv max p) (hh : p.threads[i]? = some h)
    (hb : Balanced p.shared (admitted p + deciding p) h r h') : Inv max ⟨r, p.threads.set i h'⟩ := by
  have hcount := Pool.countP_set isAdmitted hh h'
  have hdeciding := Pool.countP_set isDeciding hh h'
  have hpassing := Pool.countP_set (willPass p.shared.max) hh h'
  have haccounted := hp.accounted
  have hbounded := hp.bounded
  have hle := passing_le_deciding p
  obtain ⟨hmax, hpaid, hjoins⟩ := hb
  have hmax' : r.max = max := hmax.trans hp.max_eq
  simp only [admitted, deciding, passing, hp.max_eq] at *
  refine ⟨hmax', ?_, ?_⟩
  · simp only [admitted, deciding]
    omega
  · simp only [admitted, passing, hmax']
    obtain hjoins | ⟨hout, hjoins⟩ := hjoins
    · omega
    · have hone := Bool.toNat_le (willPass max h')
      simp only [hout, Bool.toNat_false] at hcount
      omega

theorem balanced_of_outside {r r' : RateLimiterAtomic} {held : Nat} {h h' : Handler}
    (hmax : r'.max = r.max) (hcount : r'.activeCount = r.activeCount) (hh : isOutside h = true)
    (hh' : isOutside h' = true) (hpass : willPass r.max h' = false) : Balanced r held h r' h' := by
  simp only [isOutside, Bool.and_eq_true, Bool.not_eq_true'] at hh hh'
  refine ⟨hmax, ?_, .inl ?_⟩
  · simp [hcount, hh, hh']
  · simp [hh', hpass]

theorem balanced_handlerStep {r : RateLimiterAtomic} {held : Nat} (hmax : 0 < r.max)
    (hheld : r.activeCount = held) (h : Handler) :
    Balanced r held h (handlerStep r h).1 (handlerStep r h).2 := by
  cases h with
  | rate c =>
      cases c with
      | returned cur allowed =>
          cases allowed <;> exact balanced_of_outside rfl rfl rfl rfl rfl
      | entered => exact balanced_of_outside (rpsStep_max _ _) (rpsStep_activeCount _ _) rfl rfl rfl
      | timed cur => exact balanced_of_outside (rpsStep_max _ _) (rpsStep_activeCount _ _) rfl rfl rfl
      | swapping cur last =>
          exact balanced_of_outside (rpsStep_max _ _) (rpsStep_activeCount _ _) rfl rfl rfl
      | resetting cur => exact balanced_of_outside (rpsStep_max _ _) (rpsStep_activeCount _ _) rfl rfl rfl
      | counting cur => exact balanced_of_outside (rpsStep_max _ _) (rpsStep_activeCount _ _) rfl rfl rfl
  | limiting =>
      simp only [handlerStep, if_neg hmax.ne']
      refine ⟨rfl, by simp [isAdmitted, isDeciding], ?_⟩
      by_cases hlt : r.activeCount + 1 < r.max
      · exact .inr ⟨rfl, by omega⟩
      · exact .inl (by simp [isAdmitted, willPass, hlt])
  | comparing current =>
      simp only [handlerStep]
      split_ifs with hlt
      · exact ⟨rfl, by simp [isAdmitted, isDeciding], .inl (by simp [isAdmitted, willPass, hlt])⟩
      · exact ⟨rfl, by simp [isAdmitted, isDeciding], .inl (by simp [isAdmitted, willPass, hlt])⟩
  | compensating =>
      simp only [handlerStep, dialogActiveDec, if_neg hmax.ne']
      exact ⟨rfl, by simp [isAdmitted, isDeciding], .inl (by simp [isAdmitted, willPass])⟩
  | running => exact ⟨rfl, rfl, .inl le_rfl⟩
  | unwinding panicked =>
      simp only [handlerStep, dialogActiveDec, if_neg hmax.ne']
      exact ⟨rfl, by simp [isAdmitted, isDeciding], .inl (by simp [isAdmitted, willPass])⟩
  | finished => exact ⟨rfl, rfl, .inl le_rfl⟩

theorem balanced_bodyEnd (panicked : Bool) (r : RateLimiterAtomic) (held : Nat) (h : Handler) :
    Balanced r held h (bodyEnd panicked r h).1 (bodyEnd panicked r h).2 := by
  cases h <;> exact ⟨rfl, rfl, .inl le_rfl⟩

end Step

theorem inv_step {max : Int} (hmax : 0 < max) (p : Handlers) (e : Event) (hp : Inv max p) :
    Inv max (step p e) := by
  cases e with
  | tick d => exact ⟨hp.max_eq, hp.accounted, hp.bounded⟩
  | arrive =>
      refine ⟨hp.max_eq, ?_, ?_⟩
      · simpa [step, Pool.spawn, admitted, deciding, isAdmitted, isDeciding] using hp.accounted
      · simpa [step, Pool.spawn, admitted, passing, isAdmitted, willPass] using hp.bounded
  | step i =>
      exact Pool.advance_induction i hp fun h hh =>
        inv_set hp hh (balanced_handlerStep (hp.max_eq ▸ hmax) (by exact_mod_cast hp.accounted) h)
  | bodyEnds i panicked =>
      exact Pool.advance_induction i hp fun h hh => inv_set hp hh (balanced_bodyEnd panicked _ _ h)

/-- In every reachable state the counter is the number of admitted, unfinished handlers plus that of limit
calls that are still to decide or to compensate, at most `max` handlers are admitted, and with every handler
outside the limiter the counter is 0. -/
theorem activeCount_accounted {max : Int} (hmax : 0 < max) (rps now : Int) (schedule : List Event) :
    let p := run step (initial max rps now) schedule
    p.shared.activeCount = admitted p + deciding p ∧ (admitted p : Int) ≤ max ∧
      ((∀ h ∈ p.threads, isOutside h = true) → p.shared.activeCount = 0) := by
  intro p
  have hp : Inv max p := invariant step (inv_step hmax) (inv_initial hmax rps now) schedule
  have hbounded := hp.bounded
  refine ⟨hp.accounted, by omega, fun hout => ?_⟩
  have hcount : admitted p = 0 := List.countP_eq_zero.mpr fun h hh => by
    have := hout h hh
    simp_all [isOutside]
  have hdeciding : deciding p = 0 := List.countP_eq_zero.mpr fun h hh => by
    have := hout h hh
    simp_all [isOutside]
  rw [hp.accounted, hcount, hdeciding]
  rfl

/-- Three overlapping handlers under a maximum of 3: two are admitted, of which one panics. -/
theorem activeCount_three_handlers :
    let p := run step (initial 3 0 7)
      [.arrive, .arrive, .arrive, .step 0, .step 1, .step 2, .step 0, .step 1, .step 2, .step 0, .step 1, .step 2,
        .step 2, .step 1, .step 0, .bodyEnds 0 true]
    p.shared.activeCount = admitted p + deciding p ∧ (admitted p : Int) ≤ 3 ∧
      ((∀ h ∈ p.threads, isOutside h = true) → p.shared.activeCount = 0) :=
  activeCount_accounted (by decide) 0 7 _

end Limiter.Active
