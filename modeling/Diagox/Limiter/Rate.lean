import Diagox.Limiter.Atomic

/-!
# The rate limit under interleaving

Calls of `DialogRPSLimit` that overlap in any way. The swap of the timestamp and the store of zero are two
steps, and the clock is read before both, so calls let through can be forgotten: an increment that falls
between a swap and its store is wiped, a late call of an old second swaps the timestamp back, and a call
that is counted under another second leaves its own uncounted. `Orderly` excludes these three, and then no
second lets through more than `rps` calls.
-/

namespace Limiter.Rate

open Run

/-- What can happen next: time passes, a caller arrives, or caller `i` takes its next atomic step. -/
inductive Event where
  | tick (d : Nat)
  | call
  | step (i : Nat)
  deriving DecidableEq, Repr

abbrev Calls := Pool RateLimiterAtomic RPSCall

def step (p : Calls) : Event → Calls
  | .tick d => { p with shared := p.shared.tick d }
  | .call => p.spawn .entered
  | .step i => p.advance rpsStep i

/-- A fresh limiter that nobody calls yet. -/
def initial (rps now : Int) : Calls := ⟨.fresh 0 rps now, []⟩

/-- The call read the clock as `T` and returned true. -/
def passed (T : Int) : RPSCall → Bool
  | .returned (some cur) true => decide (cur = T)
  | _ => false

@[simp] theorem passed_returned (T cur : Int) (allowed : Bool) :
    passed T (.returned (some cur) allowed) = (allowed && decide (cur = T)) := by
  cases allowed <;> rfl

@[simp] theorem passed_counting (T cur : Int) : passed T (.counting cur) = false := rfl

/-- The call is between its swap and its store of zero. -/
def isResetting : RPSCall → Bool
  | .resetting _ => true
  | _ => false

/-- How many calls of second `T` were let through. -/
def passedCount (p : Calls) (T : Int) : Nat := p.threads.countP (passed T)

/-- The limit that `DialogRPSLimit` is there for. -/
def WithinLimit (p : Calls) : Prop := ∀ T, (passedCount p T : Int) ≤ p.shared.rps

/-- No step goes wrong here: a swap that succeeds moves the timestamp forward, and a call is counted in its
own second and while no other call is between its swap and its store. -/
def Orderly (p : Calls) : Event → Prop
  | .step i => match p.threads[i]? with
    | some (.swapping cur last) => p.shared.rateTimestamp = last → last < cur
    | some (.counting cur) => p.shared.rateTimestamp = cur ∧ p.threads.countP isResetting = 0
    | _ => True
  | _ => True

instance (p : Calls) (e : Event) : Decidable (Orderly p e) := by
  unfold Orderly
  split
  · split <;> infer_instance
  · infer_instance

/-! ### The invariant -/

/-- Every second is within the limit, seconds to come have nobody, and the counter covers the calls let
through in the current second. While a reset is under way the current second has let nobody through. -/
structure Inv (p : Calls) : Prop where
  limit : ∀ T, (passedCount p T : Int) ≤ p.shared.rps
  future : ∀ T, p.shared.rateTimestamp < T → passedCount p T = 0
  covered : p.threads.countP isResetting = 0 → (passedCount p p.shared.rateTimestamp : Int) ≤ p.shared.rateCount
  quiet : 0 < p.threads.countP isResetting → passedCount p p.shared.rateTimestamp = 0

theorem inv_initial {rps : Int} (hrps : 0 < rps) (now : Int) : Inv (initial rps now) where
  limit T := by simpa [initial, passedCount, RateLimiterAtomic.fresh] using hrps.le
  future T _ := rfl
  covered _ := by simp [initial, passedCount, RateLimiterAtomic.fresh]
  quiet h := by simp [initial] at h

theorem inv_congr {p q : Calls} (hp : Inv p) (hrps : q.shared.rps = p.shared.rps)
    (hts : q.shared.rateTimestamp = p.shared.rateTimestamp) (hcount : q.shared.rateCount = p.shared.rateCount)
    (hpassed : ∀ T, passedCount q T = passedCount p T)
    (hreset : q.threads.countP isResetting = p.threads.countP isResetting) : Inv q where
  limit T := by rw [hpassed, hrps]; exact hp.limit T
  future T hT := by rw [hpassed]; exact hp.future T (hts ▸ hT)
  covered h := by rw [hpassed, hts, hcount]; exact hp.covered (hreset ▸ h)
  quiet h := by rw [hpassed, hts]; exact hp.quiet (hreset ▸ h)

section Step

variable {p : Calls} {i : Nat}

theorem passedCount_set {c : RPSCall} (hc : p.threads[i]? = some c) (r : RateLimiterAtomic) (c' : RPSCall)
    (T : Int) :
    passedCount ⟨r, p.threads.set i c'⟩ T + (passed T c).toNat = passedCount p T + (passed T c').toNat :=
  Pool.countP_set (passed T) hc c'

theorem inv_local {c c' : RPSCall} (hp : Inv p) (hc : p.threads[i]? = some c)
    (hpass : ∀ T, passed T c = passed T c') (hreset : isResetting c = isResetting c') :
    Inv ⟨p.shared, p.threads.set i c'⟩ := by
  refine inv_congr hp rfl rfl rfl (fun T => ?_) ?_
  · have h := passedCount_set hc p.shared c' T
    rw [hpass T] at h
    exact Nat.add_right_cancel h
  · have h := Pool.countP_set isResetting hc c'
    rw [hreset] at h
    exact Nat.add_right_cancel h

theorem inv_swap {cur last : Int} (hp : Inv p) (hc : p.threads[i]? = some (.swapping cur last))
    (hts : p.shared.rateTimestamp = last) (hlt : last < cur) :
    Inv ⟨{ p.shared with rateTimestamp := cur }, p.threads.set i (.resetting cur)⟩ := by
  have hpassed : ∀ T, passedCount ⟨{ p.shared with rateTimestamp := cur }, p.threads.set i (.resetting cur)⟩ T
      = passedCount p T := fun T => by simpa [passed] using passedCount_set hc _ (.resetting cur) T
  have hreset := Pool.countP_set isResetting hc (.resetting cur)
  simp only [isResetting, Bool.toNat_false, Bool.toNat_true] at hreset
  constructor
  · intro T
    rw [hpassed]
    exact hp.limit T
  · intro T hT
    rw [hpassed]
    exact hp.future T (by simp only at hT; omega)
  · intro h
    simp only at h
    omega
  · intro _
    rw [hpassed]
    exact hp.future cur (by omega)

theorem inv_store {cur : Int} (hp : Inv p) (hc : p.threads[i]? = some (.resetting cur)) :
    Inv ⟨{ p.shared with rateCount := 0 }, p.threads.set i (.counting cur)⟩ := by
  have hpassed : ∀ T, passedCount ⟨{ p.shared with rateCount := 0 }, p.threads.set i (.counting cur)⟩ T
      = passedCount p T := fun T => by simpa [passed] using passedCount_set hc _ (.counting cur) T
  have hsome : 0 < p.threads.countP isResetting :=
    List.countP_pos_iff.mpr ⟨_, List.mem_of_getElem? hc, rfl⟩
  have hquiet := hp.quiet hsome
  constructor
  · intro T
    rw [hpassed]
    exact hp.limit T
  · intro T hT
    rw [hpassed]
    exact hp.future T hT
  · intro _
    rw [hpassed, hquiet]
    simp
  · intro _
    rw [hpassed, hquiet]

theorem inv_count {cur : Int} {allowed : Bool} (hp : Inv p) (hc : p.threads[i]? = some (.counting cur))
    (hts : p.shared.rateTimestamp = cur) (hnone : p.threads.countP isResetting = 0)
    (hallowed : allowed = true → p.shared.rateCount + 1 ≤ p.shared.rps) :
    Inv ⟨{ p.shared with rateCount := p.shared.rateCount + 1 },
      p.threads.set i (.returned (some cur) allowed)⟩ := by
  have hpassed : ∀ T, passedCount ⟨{ p.shared with rateCount := p.shared.rateCount + 1 },
      p.threads.set i (.returned (some cur) allowed)⟩ T =
        passedCount p T + (allowed && decide (cur = T)).toNat := fun T => by
    simpa only [passed_returned, passed_counting, Bool.toNat_false, Nat.add_zero]
      using passedCount_set hc { p.shared with rateCount := p.shared.rateCount + 1 }
        (.returned (some cur) allowed) T
  have hreset := Pool.countP_set isResetting hc (.returned (some cur) allowed)
  simp only [isResetting, Bool.toNat_false, hnone] at hreset
  have hcovered := hp.covered hnone
  rw [hts] at hcovered
  constructor
  · intro T
    have hT := hp.limit T
    rw [hpassed]
    cases allowed with
    | false => simpa using hT
    | true =>
        by_cases hcur : cur = T
        · have := hallowed rfl
          subst hcur
          simp only [decide_true, Bool.and_self, Bool.toNat_true, Nat.cast_add, Nat.cast_one]
          omega
        · simpa [hcur] using hT
  · intro T hT
    have hne : cur ≠ T := by
      simp only at hT
      omega
    rw [hpassed, hp.future T hT]
    simp [hne]
  · intro _
    rw [hpassed]
    simp only [hts, decide_true, Bool.and_true]
    cases allowed with
    | false =>
        simp only [Bool.toNat_false, Nat.add_zero]
        omega
    | true =>
        simp only [Bool.toNat_true, Nat.cast_add, Nat.cast_one]
        omega
  · intro h
    simp only at h
    omega

end Step

theorem inv_step (p : Calls) (e : Event) (hp : Inv p) (hok : Orderly p e) : Inv (step p e) := by
  cases e with
  | tick d => exact inv_congr hp rfl rfl rfl (fun _ => rfl) rfl
  | call =>
      refine inv_congr hp rfl rfl rfl (fun T => ?_) ?_
      · exact (Pool.countP_spawn (passed T) p .entered).trans (by simp [passed, passedCount])
      · exact (Pool.countP_spawn isResetting p .entered).trans (by simp [isResetting])
  | step i =>
      refine Pool.advance_induction i hp fun c hc => ?_
      cases c with
      | entered =>
          simp only [rpsStep]
          split_ifs
          · exact inv_local hp hc (fun T => rfl) rfl
          · exact inv_local hp hc (fun T => rfl) rfl
      | timed cur =>
          simp only [rpsStep]
          split_ifs
          · exact inv_local hp hc (fun T => rfl) rfl
          · exact inv_local hp hc (fun T => rfl) rfl
      | swapping cur last =>
          simp only [Orderly, hc] at hok
          simp only [rpsStep]
          split_ifs with hts
          · exact inv_swap hp hc hts (hok hts)
          · exact inv_local hp hc (fun T => rfl) rfl
      | resetting cur => exact inv_store hp hc
      | counting cur =>
          simp only [Orderly, hc] at hok
          exact inv_count hp hc hok.1 hok.2 of_decide_eq_true
      | returned cur allowed => exact inv_local hp hc (fun T => rfl) rfl

/-- In a schedule whose every step is orderly, no second ever lets through more than `rps` calls. -/
theorem withinLimit_of_orderly {rps : Int} (hrps : 0 < rps) (now : Int) (schedule : List Event)
    (horderly : Permitted step Orderly (initial rps now) schedule) :
    WithinLimit (run step (initial rps now) schedule) :=
  (invariant_of_permitted step inv_step (inv_initial hrps now) horderly).limit

theorem withinLimit_sequential :
    WithinLimit (run step (initial 1 7)
      [.call, .step 0, .step 0, .step 0, .step 0, .step 0, .step 0, .call, .step 1, .step 1, .step 1, .step 1]) :=
  withinLimit_of_orderly (by decide) 7 _ (by decide)

/-- A swap, two calls counted by it and the late store between them: two calls of second 7 pass a limit
of 1. -/
def lateReset : List Event :=
  [.call, .call, .step 0, .step 1, .step 0, .step 0, .step 1, .step 1, .step 0, .step 0]

theorem not_withinLimit :
    ¬ ∀ (rps now : Int) (schedule : List Event), 0 < rps →
      WithinLimit (run step (initial rps now) schedule) := by
  intro h
  have h2 := h 1 7 lateReset (by decide) 7
  revert h2
  decide

end Limiter.Rate
