import Diagox.Lib.Interleave
import Mathlib.Tactic.Linarith

/-!
# The atomic rate limiter

`RateLimiterAtomic` of `rate_limiter.go`, one Lean step for each operation on shared memory. A call that is
under way is a value: the program point it is at, with the locals it still reads. `rpsStep` runs a
`DialogRPSLimit` call from one atomic operation to the next and `handlerStep` does the same for the part of
`PBX.handler` that talks to the limiter.

The counters are `int64` in the source and integers here: they count calls and live dialogs, so they do not
come near `2^63`.
-/

namespace Limiter

/-- The fields of `RateLimiterAtomic`, and the wall clock in Unix seconds. -/
structure RateLimiterAtomic where
  max : Int
  rps : Int
  rateCount : Int
  rateTimestamp : Int
  activeCount : Int
  now : Int
  deriving DecidableEq, Repr

namespace RateLimiterAtomic

/-- The limiter as `NewDialogRateLimiterIncoming` makes it, at a time `now`. -/
def fresh (max rps now : Int) : RateLimiterAtomic :=
  { max, rps, rateCount := 0, rateTimestamp := 0, activeCount := 0, now }

/-- The clock moves on by `d` seconds. It never goes back. -/
def tick (r : RateLimiterAtomic) (d : Nat) : RateLimiterAtomic := { r with now := r.now + d }

end RateLimiterAtomic

/-! ### DialogRPSLimit -/

/-- Where a `DialogRPSLimit` call stands. -/
inductive RPSCall where
  | entered
  /-- The clock was read as `currentSecond`. -/
  | timed (currentSecond : Int)
  /-- `lastSecond` was loaded and is another second: next is the compare-and-swap. -/
  | swapping (currentSecond lastSecond : Int)
  /-- The swap succeeded: next is the store of 0. -/
  | resetting (currentSecond : Int)
  /-- Next is the increment and its comparison. -/
  | counting (currentSecond : Int)
  /-- Returned. A limiter without a limit answers before it reads the clock. -/
  | returned (currentSecond : Option Int) (allowed : Bool)
  deriving DecidableEq, Repr

/-- One atomic step of `DialogRPSLimit`. -/
def rpsStep (r : RateLimiterAtomic) : RPSCall → RateLimiterAtomic × RPSCall
  | .entered => if r.rps = 0 then (r, .returned none true) else (r, .timed r.now)
  | .timed cur =>
      if r.rateTimestamp ≠ cur then (r, .swapping cur r.rateTimestamp) else (r, .counting cur)
  | .swapping cur last =>
      if r.rateTimestamp = last then ({ r with rateTimestamp := cur }, .resetting cur)
      else (r, .counting cur)
  | .resetting cur => ({ r with rateCount := 0 }, .counting cur)
  | .counting cur =>
      ({ r with rateCount := r.rateCount + 1 }, .returned (some cur) (decide (r.rateCount + 1 ≤ r.rps)))
  | .returned cur allowed => (r, .returned cur allowed)

@[simp] theorem rpsStep_max (r : RateLimiterAtomic) (c : RPSCall) : (rpsStep r c).1.max = r.max := by
  cases c <;> simp only [rpsStep] <;> split_ifs <;> rfl

@[simp] theorem rpsStep_activeCount (r : RateLimiterAtomic) (c : RPSCall) :
    (rpsStep r c).1.activeCount = r.activeCount := by
  cases c <;> simp only [rpsStep] <;> split_ifs <;> rfl

/-! ### The limiter in PBX.handler -/

/-- Where a `PBX.handler` call stands with respect to the limiter. -/
inductive Handler where
  /-- Inside `DialogRPSLimit`. -/
  | rate (c : RPSCall)
  /-- Entering `DialogActiveLimit`. -/
  | limiting
  /-- `DialogActiveLimit` has incremented the counter to `current` and has not compared yet. -/
  | comparing (current : Int)
  /-- `DialogActiveLimit` found `current` too large: next is its own `DialogActiveDec`. -/
  | compensating
  /-- Admitted: the decrement is deferred and the body of the handler runs. -/
  | running
  /-- The body returned or panicked: next is the deferred `DialogActiveDec`. -/
  | unwinding (panicked : Bool)
  | finished
  deriving DecidableEq, Repr

/-- `DialogActiveDec`, which both the handler and `DialogActiveLimit` call. -/
def dialogActiveDec (r : RateLimiterAtomic) : RateLimiterAtomic :=
  if r.max = 0 then r else { r with activeCount := r.activeCount - 1 }

/-- One atomic step of a handler. The body itself is not a step: it ends by `Event.bodyEnds`. -/
def handlerStep (r : RateLimiterAtomic) : Handler → RateLimiterAtomic × Handler
  | .rate (.returned _ true) => (r, .limiting)
  | .rate (.returned _ false) => (r, .finished)
  | .rate c => ((rpsStep r c).1, .rate (rpsStep r c).2)
  | .limiting =>
      if r.max = 0 then (r, .running)
      else ({ r with activeCount := r.activeCount + 1 }, .comparing (r.activeCount + 1))
  | .comparing current => if current < r.max then (r, .running) else (r, .compensating)
  | .compensating => (dialogActiveDec r, .finished)
  | .running => (r, .running)
  | .unwinding _ => (dialogActiveDec r, .finished)
  | .finished => (r, .finished)

/-- The body of an admitted handler ends, by a return or by a panic. -/
def bodyEnd (panicked : Bool) (r : RateLimiterAtomic) : Handler → RateLimiterAtomic × Handler
  | .running => (r, .unwinding panicked)
  | h => (r, h)

end Limiter
