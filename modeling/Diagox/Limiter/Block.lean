import Diagox.Limiter.Sequential
import Mathlib.Data.List.Perm.Subperm

/-!
# Waiting for the rate limit

`Block` of `rate_limiter.go`, which the outgoing calls go through: it asks `DialogRPSLimit` again every second until it
is let through or the call is given up. The calls of `DialogRPSLimit` are those of `Limiter.Rate`, one atomic operation
after another, so every run of `Block` calls is for the limiter a run of theirs, and they may overlap. No `Block` call
is refused twice in one second. As long as calls of `DialogRPSLimit` do not overlap, a second in which somebody is
refused has let through as many as it can, so nobody is refused more often than the others can fill seconds.
-/

namespace Limiter

namespace Rate

/-! ### Calls in a row, and their clocks -/

/-- The second that a call has read, or reads now. -/
def clock (now : Int) : RPSCall → Int
  | .entered | .returned none _ => now
  | .timed cur | .swapping cur _ | .resetting cur | .counting cur | .returned (some cur) _ => cur

def isRefused : RPSCall → Bool
  | .returned _ false => true
  | _ => false

theorem clock_rpsStep (r : RateLimiterAtomic) (c : RPSCall) : clock r.now (rpsStep r c).2 = clock r.now c := by
  cases c with
  | entered =>
      rw [rpsStep]
      split_ifs
      · rfl
      · rfl
  | timed cur =>
      rw [rpsStep]
      split_ifs
      · rfl
      · rfl
  | swapping cur last =>
      rw [rpsStep]
      split_ifs
      · rfl
      · rfl
  | resetting cur => rfl
  | counting cur => rfl
  | returned cur allowed => rfl

theorem now_rpsStep (r : RateLimiterAtomic) (c : RPSCall) : (rpsStep r c).1.now = r.now := by
  cases c <;> simp only [rpsStep] <;> split_ifs <;> rfl

theorem clock_mono {now now' : Int} (h : now ≤ now') (c : RPSCall) : clock now c ≤ clock now' c := by
  cases c with
  | entered => exact h
  | returned cur allowed =>
      cases cur with
      | none => exact h
      | some cur => exact le_refl _
  | _ => exact le_refl _

theorem now_le_step (p : Calls) (e : Event) : p.shared.now ≤ (step p e).shared.now := by
  cases e with
  | tick d =>
      show p.shared.now ≤ p.shared.now + d
      omega
  | call => exact le_refl _
  | step i =>
      let Later (q : Calls) : Prop := p.shared.now ≤ q.shared.now
      exact Pool.advance_induction i (show Later p from le_refl _) fun c _ => (now_rpsStep p.shared c).ge

theorem getElem?_step {p : Calls} (e : Event) {j : Nat} {c : RPSCall} (hc : p.threads[j]? = some c) :
    ∃ c', (step p e).threads[j]? = some c' ∧ clock p.shared.now c ≤ clock (step p e).shared.now c' ∧
      (isReturned c = true → c' = c) := by
  have hj := (List.getElem?_eq_some_iff.mp hc).1
  cases e with
  | tick d => exact ⟨c, hc, clock_mono (now_le_step p (.tick d)) c, fun _ => rfl⟩
  | call => exact ⟨c, (List.getElem?_append_left hj).trans hc, le_refl _, fun _ => rfl⟩
  | step i =>
      by_cases hi : i = j
      · subst hi
        rw [step, Pool.advance_of_some hc]
        refine ⟨_, List.getElem?_set_self hj, ?_, ?_⟩
        · rw [now_rpsStep, clock_rpsStep]
        · cases c with
          | returned cur allowed => exact fun _ => rfl
          | _ => exact fun hreturned => absurd hreturned Bool.false_ne_true
      · -- another call takes the step
        let Kept (q : Calls) : Prop := ∃ c', q.threads[j]? = some c' ∧
          clock p.shared.now c ≤ clock q.shared.now c' ∧ (isReturned c = true → c' = c)
        refine Pool.advance_induction i (show Kept p from ⟨c, hc, le_refl _, fun _ => rfl⟩) fun t _ => ?_
        exact ⟨c, (List.getElem?_set_ne hi).trans hc, by rw [now_rpsStep], fun _ => rfl⟩

theorem getElem?_step_ne {p : Calls} {i j : Nat} (h : i ≠ j) : (step p (.step i)).threads[j]? = p.threads[j]? := by
  let Kept (q : Calls) : Prop := q.threads[j]? = p.threads[j]?
  exact Pool.advance_induction i (show Kept p from rfl) fun _ _ => List.getElem?_set_ne h

/-- No call is ahead of the clock. -/
def OnTime (p : Calls) : Prop := ∀ c ∈ p.threads, clock p.shared.now c ≤ p.shared.now

theorem onTime_step (p : Calls) (e : Event) (hp : OnTime p) : OnTime (step p e) := by
  cases e with
  | tick d =>
      intro c hc
      have hle := now_le_step p (.tick d)
      have hold : clock p.shared.now c ≤ p.shared.now := hp c hc
      cases c with
      | entered => exact le_refl _
      | returned cur allowed =>
          cases cur with
          | none => exact le_refl _
          | some cur => exact hold.trans hle
      | _ => exact hold.trans hle
  | call =>
      intro c hc
      obtain hc | hc := List.mem_append.mp hc
      · exact hp c hc
      · rw [List.mem_singleton.mp hc]
        exact le_refl _
  | step i =>
      refine Pool.advance_induction i hp fun t ht c hc => ?_
      show clock (rpsStep p.shared t).1.now c ≤ (rpsStep p.shared t).1.now
      rw [now_rpsStep]
      obtain hc | rfl := List.mem_or_eq_of_mem_set hc
      · exact hp c hc
      · rw [clock_rpsStep]
        exact hp t (List.mem_of_getElem? ht)

section Full

variable {rps : Int} {r : RateLimiterAtomic} {done : List RPSCall}

theorem Answered.init {c : RPSCall} (h : Answered r (done ++ [c])) : Answered r done := by
  intro i c' hc'
  have hi := (List.getElem?_eq_some_iff.mp hc').1
  obtain ⟨T, allowed, rfl, hT, hallowed⟩ := h i c' ((List.getElem?_append_left hi).trans hc')
  rw [List.take_append_of_le_length hi.le] at hallowed
  exact ⟨T, allowed, rfl, hT, hallowed⟩

theorem countP_passed (h : Answered r done) (hrps : 0 ≤ r.rps) (T : Int) :
    (done.countP (passed T) : Int) = min (done.countP (calledIn T) : Int) r.rps := by
  induction done using List.reverseRecOn with
  | nil => simpa using hrps
  | append_singleton done c ih =>
      obtain ⟨cur, allowed, rfl, -, hallowed⟩ := h done.length c (by simp)
      have hbefore := ih h.init
      rw [List.take_left] at hallowed
      rw [List.countP_append, List.countP_append, List.countP_singleton, List.countP_singleton, passed_returned]
      by_cases hT : cur = T
      · subst hT
        cases allowed with
        | true =>
            have hlt := hallowed.mp rfl
            simp only [calledIn, decide_true, Bool.and_self, if_true, Nat.cast_add, Nat.cast_one]
            omega
        | false =>
            have hge : ¬ (done.countP (calledIn cur) : Int) < r.rps := fun hlt => Bool.false_ne_true (hallowed.mpr hlt)
            simp only [calledIn, decide_true, Bool.and_true, if_true, Bool.false_eq_true, if_false, Nat.cast_add,
              Nat.cast_one, Nat.add_zero]
            omega
      · simpa [calledIn, hT] using hbefore

theorem passed_of_phase {c : RPSCall} (hc : Phase r done c) (T : Int) : passed T c = false := by
  cases c with
  | returned cur allowed => exact hc.elim
  | _ => rfl

theorem Exact.passedCount {p : Calls} (hp : Exact rps p) (hrps : 0 ≤ rps) (T : Int) :
    ∃ done, Answered p.shared done ∧ (∀ c ∈ p.threads, isReturned c = true → c ∈ done) ∧
      (passedCount p T : Int) = min (done.countP (calledIn T) : Int) rps := by
  obtain ⟨hr, done, hdone, hphase⟩ := hp
  have hcount := countP_passed hdone (hr ▸ hrps) T
  rw [hr] at hcount
  refine ⟨done, hdone, ?_⟩
  obtain ⟨hthreads, -⟩ | ⟨c', hthreads, hc'⟩ := hphase
  · exact ⟨fun c hc _ => hthreads ▸ hc, by rw [Rate.passedCount, hthreads, hcount]⟩
  · refine ⟨fun c hc hreturned => ?_, ?_⟩
    · rw [hthreads] at hc
      obtain hc | hc := List.mem_append.mp hc
      · exact hc
      · rw [List.mem_singleton.mp hc, isReturned_of_phase hc'] at hreturned
        cases hreturned
    · rw [Rate.passedCount, hthreads, List.countP_append, List.countP_singleton, passed_of_phase hc', ← hcount]
      rfl

theorem Exact.passedCount_le {p : Calls} (hp : Exact rps p) (hrps : 0 ≤ rps) (T : Int) :
    (Rate.passedCount p T : Int) ≤ rps := by
  obtain ⟨done, -, -, hcount⟩ := hp.passedCount hrps T
  exact hcount.trans_le (min_le_right _ _)

theorem Exact.full_of_refused {p : Calls} (hp : Exact rps p) (hrps : 0 ≤ rps) {T : Int}
    (hrefused : .returned (some T) false ∈ p.threads) : (Rate.passedCount p T : Int) = rps := by
  obtain ⟨done, hdone, hmem, hcount⟩ := hp.passedCount hrps T
  obtain ⟨i, hi⟩ := List.mem_iff_getElem?.mp (hmem _ hrefused rfl)
  obtain ⟨T', allowed, heq, -, hallowed⟩ := hdone i _ hi
  cases heq
  have hge : ¬ ((done.take i).countP (calledIn T) : Int) < p.shared.rps := fun hlt => Bool.false_ne_true (hallowed.mpr hlt)
  have hle : (done.take i).countP (calledIn T) ≤ done.countP (calledIn T) := (List.take_sublist i done).countP_le
  rw [hp.1] at hge
  rw [hcount]
  omega

end Full

end Rate

namespace Blocking

open Run

/-- Where a `Block` call stands. -/
inductive BlockPhase where
  /-- Next is a call of `DialogRPSLimit`. -/
  | trying
  /-- Inside the `j`th call of `DialogRPSLimit`. -/
  | asking (j : Nat)
  /-- Refused: the timer runs out in this second. -/
  | waiting (wake : Int)
  /-- Returned without an error, let through by the `j`th call. -/
  | passed (j : Nat)
  /-- Returned with the error of the context. -/
  | cancelled
  deriving DecidableEq, Repr

structure BlockCall where
  phase : BlockPhase := .trying
  /-- The seconds it was refused in. Nothing in the code reads this. -/
  refused : List Int := []
  deriving DecidableEq, Repr

/-- The next step of a `Block` call: one operation of its call of `DialogRPSLimit`, or what it does with the answer. -/
def blockStep (rate : Rate.Calls) (b : BlockCall) : Rate.Calls × BlockCall :=
  match b.phase with
  | .trying => (Rate.step rate .call, { b with phase := .asking rate.threads.length })
  | .asking j =>
      match rate.threads[j]? with
      | some (.returned _ true) => (rate, { b with phase := .passed j })
      | some (.returned second false) =>
          (rate, { phase := .waiting (rate.shared.now + 1), refused := b.refused ++ second.toList })
      | _ => (Rate.step rate (.step j), b)
  | .waiting wake => if wake ≤ rate.shared.now then (rate, { b with phase := .trying }) else (rate, b)
  | .passed _ | .cancelled => (rate, b)

/-- The context is done: a call that waits gives up. -/
def cancelStep (rate : Rate.Calls) (b : BlockCall) : Rate.Calls × BlockCall :=
  match b.phase with
  | .waiting _ => (rate, { b with phase := .cancelled })
  | _ => (rate, b)

inductive BlockEvent where
  | tick (d : Nat)
  | block
  | step (i : Nat)
  | cancel (i : Nat)
  deriving DecidableEq, Repr

abbrev Blocked := Pool Rate.Calls BlockCall

def step (p : Blocked) : BlockEvent → Blocked
  | .tick d => { p with shared := Rate.step p.shared (.tick d) }
  | .block => p.spawn {}
  | .step i => p.advance blockStep i
  | .cancel i => p.advance cancelStep i

def initial (rps now : Int) : Blocked := ⟨Rate.initial rps now, []⟩

/-- No call of `DialogRPSLimit` starts while another one is under way. -/
def Apart (p : Blocked) : BlockEvent → Prop
  | .step i => p.threads[i]?.map (·.phase) = some .trying → ∀ c ∈ p.shared.threads, Rate.isReturned c = true
  | _ => True

instance (p : Blocked) : ∀ e, Decidable (Apart p e)
  | .step i => inferInstanceAs
      (Decidable (p.threads[i]?.map (·.phase) = some .trying → ∀ c ∈ p.shared.threads, Rate.isReturned c = true))
  | .tick _ | .block | .cancel _ => .isTrue trivial

/-! ### What the limiter sees -/

section Limiter

variable {rate : Rate.Calls} {b : BlockCall}

theorem blockStep_rate (rate : Rate.Calls) (b : BlockCall) :
    (blockStep rate b).1 = rate ∨ b.phase = .trying ∧ (blockStep rate b).1 = Rate.step rate .call ∨
      ∃ j, b.phase = .asking j ∧ (blockStep rate b).1 = Rate.step rate (.step j) := by
  unfold blockStep
  cases hphase : b.phase with
  | trying => exact .inr (.inl ⟨rfl, rfl⟩)
  | asking j =>
      simp only
      split
      · exact .inl rfl
      · exact .inl rfl
      · exact .inr (.inr ⟨j, rfl, rfl⟩)
  | waiting wake =>
      simp only
      split_ifs
      · exact .inl rfl
      · exact .inl rfl
  | passed j => exact .inl rfl
  | cancelled => exact .inl rfl

theorem cancelStep_rate (rate : Rate.Calls) (b : BlockCall) : (cancelStep rate b).1 = rate := by
  unfold cancelStep
  split <;> rfl

/-- The calls of `DialogRPSLimit` are made in a row when they do not overlap. -/
theorem exact_step {rps : Int} (hrps : 0 < rps) (p : Blocked) (e : BlockEvent) (hp : Rate.Exact rps p.shared)
    (hok : Apart p e) : Rate.Exact rps (step p e).shared := by
  let Kept (q : Blocked) : Prop := Rate.Exact rps q.shared
  cases e with
  | tick d => exact Rate.exact_step hrps p.shared (.tick d) hp trivial
  | block => exact hp
  | step i =>
      refine Pool.advance_induction i (show Kept p from hp) fun b hb => ?_
      show Rate.Exact rps (blockStep p.shared b).1
      obtain h | ⟨hphase, h⟩ | ⟨j, -, h⟩ := blockStep_rate p.shared b
      · rwa [h]
      · rw [h]
        exact Rate.exact_step hrps p.shared .call hp (hok (by rw [hb, Option.map_some, hphase]))
      · rw [h]
        exact Rate.exact_step hrps p.shared (.step j) hp trivial
  | cancel i =>
      refine Pool.advance_induction i (show Kept p from hp) fun b _ => ?_
      show Rate.Exact rps (cancelStep p.shared b).1
      rwa [cancelStep_rate]

end Limiter

/-! ### The invariant -/

/-- The call of `DialogRPSLimit` that a `Block` call is in, or that has let it through. -/
def BlockCall.held (b : BlockCall) : Option Nat :=
  match b.phase with
  | .asking j | .passed j => some j
  | _ => none

/-- The seconds a `Block` call was refused in are over for it, and in each of them `DialogRPSLimit` has refused. -/
structure Refusals (rate : Rate.Calls) (b : BlockCall) : Prop where
  nodup : b.refused.Nodup
  answered : ∀ T ∈ b.refused, .returned (some T) false ∈ rate.threads
  trying : b.phase = .trying → ∀ T ∈ b.refused, T < rate.shared.now
  waiting : ∀ wake, b.phase = .waiting wake → ∀ T ∈ b.refused, T < wake
  held : ∀ j, b.held = some j →
    ∃ c, rate.threads[j]? = some c ∧ ∀ T ∈ b.refused, T < Rate.clock rate.shared.now c

/-- Every call of `DialogRPSLimit` that has not refused is there for a `Block` call. -/
structure Inv (p : Blocked) : Prop where
  onTime : Rate.OnTime p.shared
  refusals : ∀ b ∈ p.threads, Refusals p.shared b
  held : ∀ j c, p.shared.threads[j]? = some c → Rate.isRefused c = false → ∃ b ∈ p.threads, b.held = some j

theorem inv_initial (rps now : Int) : Inv (initial rps now) where
  onTime _ hc := absurd hc List.not_mem_nil
  refusals _ hb := absurd hb List.not_mem_nil
  held _ _ hc := absurd (List.mem_of_getElem? hc) List.not_mem_nil

section Step

variable {rate : Rate.Calls} {b : BlockCall} {p : Blocked} {i : Nat}

theorem refusals_fresh (rate : Rate.Calls) : Refusals rate {} where
  nodup := List.nodup_nil
  answered _ hT := absurd hT List.not_mem_nil
  trying _ _ hT := absurd hT List.not_mem_nil
  waiting _ _ _ hT := absurd hT List.not_mem_nil
  held _ hj := nomatch hj

theorem Refusals.rate_step (h : Refusals rate b) (e : Rate.Event) : Refusals (Rate.step rate e) b where
  nodup := h.nodup
  answered T hT := by
    obtain ⟨j, hj⟩ := List.mem_iff_getElem?.mp (h.answered T hT)
    obtain ⟨c', hc', -, hsame⟩ := Rate.getElem?_step e hj
    exact hsame rfl ▸ List.mem_of_getElem? hc'
  trying hphase T hT := (h.trying hphase T hT).trans_le (Rate.now_le_step rate e)
  waiting := h.waiting
  held j hj := by
    obtain ⟨c, hc, hlt⟩ := h.held j hj
    obtain ⟨c', hc', hle, -⟩ := Rate.getElem?_step e hc
    exact ⟨c', hc', fun T hT => (hlt T hT).trans_le hle⟩

theorem Refusals.ask (h : Refusals rate b) (hphase : b.phase = .trying) :
    Refusals (Rate.step rate .call) { b with phase := .asking rate.threads.length } where
  nodup := h.nodup
  answered := (h.rate_step .call).answered
  trying := nofun
  waiting := nofun
  held j hj := by
    obtain rfl : rate.threads.length = j := Option.some.inj hj
    exact ⟨.entered, List.getElem?_concat_length, h.trying hphase⟩

theorem Refusals.pass {j : Nat} (h : Refusals rate b) (hphase : b.phase = .asking j) :
    Refusals rate { b with phase := .passed j } where
  nodup := h.nodup
  answered := h.answered
  trying := nofun
  waiting := nofun
  held k hk := h.held k (by rw [← hk, BlockCall.held, BlockCall.held, hphase])

/-- It is refused in a later second than before, and tries again in a later one still. -/
theorem Refusals.refuse {j : Nat} {second : Option Int} (h : Refusals rate b) (htime : Rate.OnTime rate)
    (hphase : b.phase = .asking j) (hj : rate.threads[j]? = some (.returned second false)) :
    Refusals rate ⟨.waiting (rate.shared.now + 1), b.refused ++ second.toList⟩ := by
  obtain ⟨c, hc, hlt⟩ := h.held j (by rw [BlockCall.held, hphase])
  obtain rfl : .returned second false = c := Option.some.inj (hj.symm.trans hc)
  have hmem := List.mem_of_getElem? hj
  have hle := htime _ hmem
  cases second with
  | none =>
      rw [Option.toList_none, List.append_nil]
      refine ⟨h.nodup, h.answered, nofun, fun wake hwake T hT => ?_, nofun⟩
      obtain rfl := BlockPhase.waiting.inj hwake
      have : T < rate.shared.now := hlt T hT
      omega
  | some cur =>
      rw [Option.toList_some]
      refine ⟨?_, fun T hT => ?_, nofun, fun wake hwake T hT => ?_, nofun⟩
      · rw [List.nodup_append]
        refine ⟨h.nodup, List.pairwise_singleton _ _, fun T hT U hU => ?_⟩
        rw [List.mem_singleton.mp hU]
        exact (hlt T hT).ne
      · obtain hT | hT := List.mem_append.mp hT
        · exact h.answered T hT
        · rwa [List.mem_singleton.mp hT]
      · obtain rfl := BlockPhase.waiting.inj hwake
        have hcur : cur ≤ rate.shared.now := hle
        obtain hT | hT := List.mem_append.mp hT
        · have : T < cur := hlt T hT
          omega
        · rw [List.mem_singleton.mp hT]
          omega

theorem Refusals.retry {wake : Int} (h : Refusals rate b) (hphase : b.phase = .waiting wake)
    (hwake : wake ≤ rate.shared.now) : Refusals rate { b with phase := .trying } where
  nodup := h.nodup
  answered := h.answered
  trying _ T hT := (h.waiting wake hphase T hT).trans_le hwake
  waiting := nofun
  held := nofun

theorem Refusals.cancelled (h : Refusals rate b) : Refusals rate { b with phase := .cancelled } where
  nodup := h.nodup
  answered := h.answered
  trying := nofun
  waiting := nofun
  held := nofun

/-- A `Block` call moves on, and the limiter with it: every call of `DialogRPSLimit` that the `Block` call lets go has
refused. -/
theorem inv_moved {rate' : Rate.Calls} {b' : BlockCall} (hp : Inv p) (hb : p.threads[i]? = some b)
    (htime : Rate.OnTime rate') (hothers : ∀ d ∈ p.threads, Refusals rate' d) (hthis : Refusals rate' b')
    (hheld : ∀ j c, rate'.threads[j]? = some c → Rate.isRefused c = false →
      b'.held = some j ∨ b.held ≠ some j ∧ ∃ c', p.shared.threads[j]? = some c' ∧ Rate.isRefused c' = false) :
    Inv ⟨rate', p.threads.set i b'⟩ where
  onTime := htime
  refusals d hd := by
    obtain hd | rfl := List.mem_or_eq_of_mem_set hd
    · exact hothers d hd
    · exact hthis
  held j c hc hnot := by
    obtain hj | ⟨hne, c', hc', hnot'⟩ := hheld j c hc hnot
    · exact ⟨b', List.mem_set (List.getElem?_eq_some_iff.mp hb).1 b', hj⟩
    · obtain ⟨d, hd, hdj⟩ := hp.held j c' hc' hnot'
      obtain rfl | hd := Pool.eq_or_mem_set hb b' hd
      · exact absurd hdj hne
      · exact ⟨d, hd, hdj⟩

theorem inv_kept {b' : BlockCall} (hp : Inv p) (hb : p.threads[i]? = some b)
    (hthis : Refusals p.shared b → Refusals p.shared b') (hheld : b.held = none ∨ b'.held = b.held) :
    Inv ⟨p.shared, p.threads.set i b'⟩ := by
  refine inv_moved hp hb hp.onTime hp.refusals (hthis (hp.refusals b (List.mem_of_getElem? hb))) fun j c hc hnot => ?_
  by_cases hj : b'.held = some j
  · exact .inl hj
  · refine .inr ⟨?_, c, hc, hnot⟩
    obtain hnone | hsame := hheld
    · rw [hnone]
      exact nofun
    · rwa [← hsame]

theorem inv_trying (hp : Inv p) (hb : p.threads[i]? = some b) (hphase : b.phase = .trying) :
    Inv ⟨(blockStep p.shared b).1, p.threads.set i (blockStep p.shared b).2⟩ := by
  rw [blockStep, hphase]
  refine inv_moved hp hb (Rate.onTime_step p.shared .call hp.onTime) (fun d hd => (hp.refusals d hd).rate_step .call)
    ((hp.refusals b (List.mem_of_getElem? hb)).ask hphase) fun j c hc hnot => ?_
  have hc' : (p.shared.threads ++ [.entered])[j]? = some c := hc
  rw [List.getElem?_append] at hc'
  split_ifs at hc' with hj
  · refine .inr ⟨?_, c, hc', hnot⟩
    rw [BlockCall.held, hphase]
    exact nofun
  · have hlast := (List.getElem?_eq_some_iff.mp hc').1
    rw [List.length_singleton] at hlast
    have heq : p.shared.threads.length = j := by omega
    exact .inl (by rw [← heq]; rfl)

theorem inv_asking {j : Nat} (hp : Inv p) (hb : p.threads[i]? = some b) (hphase : b.phase = .asking j) :
    Inv ⟨(blockStep p.shared b).1, p.threads.set i (blockStep p.shared b).2⟩ := by
  have hheld : b.held = some j := by rw [BlockCall.held, hphase]
  have hthis := hp.refusals b (List.mem_of_getElem? hb)
  rw [blockStep, hphase]
  simp only
  split
  · exact inv_kept hp hb (fun h => h.pass hphase) (.inr hheld.symm)
  · rename_i second hrefused
    refine inv_moved hp hb hp.onTime hp.refusals (hthis.refuse hp.onTime hphase hrefused) fun k c hc hnot => ?_
    refine .inr ⟨fun hk => ?_, c, hc, hnot⟩
    obtain rfl : j = k := Option.some.inj (hheld.symm.trans hk)
    obtain rfl : .returned second false = c := Option.some.inj (hrefused.symm.trans hc)
    cases hnot
  · refine inv_moved hp hb (Rate.onTime_step p.shared (.step j) hp.onTime)
      (fun d hd => (hp.refusals d hd).rate_step (.step j)) (hthis.rate_step (.step j)) fun k c hc hnot => ?_
    by_cases hk : j = k
    · exact .inl (hk ▸ hheld)
    · rw [Rate.getElem?_step_ne hk] at hc
      exact .inr ⟨fun h => hk (Option.some.inj (hheld.symm.trans h)), c, hc, hnot⟩

theorem inv_step (p : Blocked) (e : BlockEvent) (hp : Inv p) : Inv (step p e) := by
  cases e with
  | tick d =>
      exact ⟨Rate.onTime_step p.shared (.tick d) hp.onTime, fun b hb => (hp.refusals b hb).rate_step (.tick d), hp.held⟩
  | block =>
      refine ⟨hp.onTime, fun b hb => ?_, fun j c hc hnot => ?_⟩
      · obtain hb | hb := List.mem_append.mp hb
        · exact hp.refusals b hb
        · rw [List.mem_singleton.mp hb]
          exact refusals_fresh p.shared
      · obtain ⟨b, hb, hj⟩ := hp.held j c hc hnot
        exact ⟨b, List.mem_append_left _ hb, hj⟩
  | step i =>
      refine Pool.advance_induction i hp fun b hb => ?_
      cases hphase : b.phase with
      | trying => exact inv_trying hp hb hphase
      | asking j => exact inv_asking hp hb hphase
      | waiting wake =>
          have hnone : b.held = none := by rw [BlockCall.held, hphase]
          rw [blockStep, hphase]
          by_cases hwake : wake ≤ p.shared.shared.now
          · simp only [if_pos hwake]
            exact inv_kept hp hb (fun h => h.retry hphase hwake) (.inl hnone)
          · simp only [if_neg hwake]
            exact inv_kept hp hb id (.inl hnone)
      | passed j =>
          rw [blockStep, hphase]
          exact inv_kept hp hb id (.inr rfl)
      | cancelled =>
          rw [blockStep, hphase]
          exact inv_kept hp hb id (.inr rfl)
  | cancel i =>
      refine Pool.advance_induction i hp fun b hb => ?_
      unfold cancelStep
      cases hphase : b.phase with
      | waiting wake => exact inv_kept hp hb Refusals.cancelled (.inl (by rw [BlockCall.held, hphase]))
      | _ => exact inv_kept hp hb id (.inr rfl)

end Step

/-! ### Who waits for whom -/

/-- The call of `DialogRPSLimit` has let its caller through in one of these seconds. -/
def passedAmong (Ts : List Int) (c : RPSCall) : Bool := Ts.any (Rate.passed · c)

theorem passedAmong_iff {Ts : List Int} {c : RPSCall} :
    passedAmong Ts c = true ↔ ∃ T ∈ Ts, c = .returned (some T) true := by
  rw [passedAmong, List.any_eq_true]
  refine exists_congr fun T => and_congr_right fun _ => ?_
  cases c with
  | returned cur allowed =>
      cases cur with
      | none => exact iff_of_false nofun nofun
      | some cur => cases allowed <;> simp
  | _ => exact iff_of_false nofun nofun

theorem countP_passedAmong {T : Int} {Ts : List Int} (hT : T ∉ Ts) (calls : List RPSCall) :
    calls.countP (passedAmong (T :: Ts)) = calls.countP (Rate.passed T) + calls.countP (passedAmong Ts) := by
  induction calls with
  | nil => rfl
  | cons c calls ih =>
      have hor : passedAmong (T :: Ts) c = (Rate.passed T c || passedAmong Ts c) := rfl
      rw [List.countP_cons, List.countP_cons, List.countP_cons, ih, hor]
      cases hc : Rate.passed T c with
      | false =>
          rw [Bool.false_or, if_neg Bool.false_ne_true]
          omega
      | true =>
          have hthis : c = .returned (some T) true := by
            have hone : passedAmong [T] c = true := by rw [passedAmong, List.any_cons, hc, Bool.true_or]
            obtain ⟨U, hU, hreturned⟩ := passedAmong_iff.mp hone
            rwa [List.mem_singleton.mp hU] at hreturned
          have hnone : ¬ passedAmong Ts c = true := by
            rw [passedAmong_iff]
            rintro ⟨U, hU, hreturned⟩
            rw [hthis, RPSCall.returned.injEq, Option.some.injEq] at hreturned
            exact hT (hreturned.1 ▸ hU)
          rw [Bool.true_or, if_pos rfl, if_neg hnone]
          omega

theorem length_mul_le_countP {rate : Rate.Calls} {rps : Int} {Ts : List Int} (hnodup : Ts.Nodup)
    (hfull : ∀ T ∈ Ts, (Rate.passedCount rate T : Int) = rps) :
    (Ts.length : Int) * rps = rate.threads.countP (passedAmong Ts) := by
  induction Ts with
  | nil =>
      have hnone : rate.threads.countP (passedAmong []) = 0 := List.countP_eq_zero.mpr fun c _ => Bool.false_ne_true
      rw [hnone, List.length_nil, Nat.cast_zero, Int.zero_mul]
  | cons T Ts ih =>
      obtain ⟨hT, hnodup⟩ := List.nodup_cons.mp hnodup
      have hfirst := hfull T List.mem_cons_self
      have hrest := ih hnodup fun U hU => hfull U (List.mem_cons_of_mem _ hU)
      rw [countP_passedAmong hT, List.length_cons]
      rw [Rate.passedCount] at hfirst
      push_cast
      rw [Int.add_mul, Int.one_mul, hrest, hfirst, Int.add_comm]

/-- Whoever was let through in a second in which a `Block` call was refused is another one. -/
theorem countP_lt_length {p : Blocked} (hp : Inv p) {b : BlockCall} (hb : b ∈ p.threads) :
    p.shared.threads.countP (passedAmong b.refused) < p.threads.length := by
  let js := (p.shared.threads.zipIdx.filter fun x => passedAmong b.refused x.1).map Prod.snd
  have hlength : js.length = p.shared.threads.countP (passedAmong b.refused) := by
    have hfst : (p.shared.threads.zipIdx.map Prod.fst).countP (passedAmong b.refused) =
        p.shared.threads.zipIdx.countP fun x => passedAmong b.refused x.1 := List.countP_map
    rw [List.length_map, ← List.countP_eq_length_filter, ← hfst, List.zipIdx_map_fst]
  have hnodup : js.Nodup := by
    have hall : (p.shared.threads.zipIdx.map Prod.snd).Nodup := by
      rw [List.zipIdx_map_snd]
      exact List.nodup_range'
    exact hall.sublist (List.filter_sublist.map _)
  have hsub : js ⊆ (p.threads.filter fun d => d ≠ b).filterMap BlockCall.held := by
    intro j hj
    obtain ⟨⟨c, j'⟩, hmem, rfl⟩ := List.mem_map.mp hj
    obtain ⟨hc, hpassed⟩ := List.mem_filter.mp hmem
    rw [List.mem_zipIdx_iff_getElem?] at hc
    obtain ⟨T, hT, rfl⟩ := passedAmong_iff.mp hpassed
    obtain ⟨d, hd, hheld⟩ := hp.held _ _ hc rfl
    refine List.mem_filterMap.mpr ⟨d, List.mem_filter.mpr ⟨hd, decide_eq_true ?_⟩, hheld⟩
    rintro rfl
    -- its own call reads a clock after all its refusals
    obtain ⟨c', hc', hlt⟩ := (hp.refusals d hd).held _ hheld
    obtain rfl := Option.some.inj (hc.symm.trans hc')
    exact lt_irrefl T (hlt T hT)
  have hother : (p.threads.filter fun d => d ≠ b).length < p.threads.length :=
    List.length_filter_lt_length_iff_exists.mpr ⟨b, hb, by simp⟩
  rw [← hlength]
  exact ((List.subperm_of_subset hnodup hsub).length_le.trans (List.length_filterMap_le _ _)).trans_lt hother

/-- However the calls overlap, none is refused twice in a second. As long as calls of `DialogRPSLimit` do not overlap,
no second lets through more than it may, and a call is refused in full seconds only. So with `n` calls nobody is refused
`n / rps` times. -/
theorem block_refused_lt {rps : Int} (hrps : 0 < rps) (now : Int) (schedule : List BlockEvent) :
    let p := run step (initial rps now) schedule
    (∀ b ∈ p.threads, b.refused.Nodup) ∧
      (Permitted step Apart (initial rps now) schedule →
        (∀ T, (Rate.passedCount p.shared T : Int) ≤ rps) ∧
          ∀ b ∈ p.threads, (∀ T ∈ b.refused, (Rate.passedCount p.shared T : Int) = rps) ∧
            (b.refused.length : Int) * rps < p.threads.length) := by
  intro p
  have hinv : Inv p := invariant step inv_step (inv_initial rps now) schedule
  refine ⟨fun b hb => (hinv.refusals b hb).nodup, fun hapart => ?_⟩
  let InARow (q : Blocked) : Prop := Rate.Exact rps q.shared
  have hexact : Rate.Exact rps p.shared :=
    invariant_of_permitted step (exact_step hrps) (show InARow (initial rps now) from Rate.exact_initial rps now) hapart
  refine ⟨hexact.passedCount_le hrps.le, fun b hb => ?_⟩
  have hrefusals := hinv.refusals b hb
  have hfull : ∀ T ∈ b.refused, (Rate.passedCount p.shared T : Int) = rps :=
    fun T hT => hexact.full_of_refused hrps.le (hrefusals.answered T hT)
  refine ⟨hfull, ?_⟩
  rw [length_mul_le_countP hrefusals.nodup hfull, Nat.cast_lt]
  exact countP_lt_length hinv hb

/-- Two calls for one place in a second: the second one passes when the next second has begun. -/
def twoBlocks : List BlockEvent :=
  [.block, .block] ++ List.replicate 7 (.step 0) ++ List.replicate 5 (.step 1) ++ [.tick 1] ++ List.replicate 8 (.step 1)

theorem block_refused_lt_twoBlocks :
    let p := run step (initial 1 7) twoBlocks
    (∀ b ∈ p.threads, b.refused.Nodup) ∧ (∀ T, (Rate.passedCount p.shared T : Int) ≤ 1) ∧
      ∀ b ∈ p.threads, (∀ T ∈ b.refused, (Rate.passedCount p.shared T : Int) = 1) ∧
        (b.refused.length : Int) * 1 < p.threads.length :=
  have h := block_refused_lt (by decide) 7 twoBlocks
  ⟨h.1, h.2 (by decide)⟩

example : (run step (initial 1 7) twoBlocks).threads.map (fun b => (b.phase, b.refused)) =
    [(.passed 0, []), (.passed 2, [7])] := by decide

end Blocking

end Limiter
