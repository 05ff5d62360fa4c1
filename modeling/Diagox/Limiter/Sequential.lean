import Diagox.Limiter.Rate

/-!
# The rate limit without overlap

Calls of `DialogRPSLimit` that are made one after another. Time may pass anywhere, within a call too, but a
call starts only when the one before it has returned. Then the one timestamp and the one counter are enough:
the counter has the calls of the latest second, let through or not, and a call is let through exactly when
its second has seen fewer than `rps` calls before it.
-/

namespace Limiter.Rate

open Run

/-- The call has read the clock as `T`, and has returned. -/
def calledIn (T : Int) : RPSCall → Bool
  | .returned (some cur) _ => decide (cur = T)
  | _ => false

def isReturned : RPSCall → Bool
  | .returned _ _ => true
  | _ => false

/-- Nobody calls while a call is under way. -/
def Sequential (p : Calls) : Event → Prop
  | .call => ∀ c ∈ p.threads, isReturned c = true
  | _ => True

instance (p : Calls) (e : Event) : Decidable (Sequential p e) := by
  unfold Sequential
  split <;> infer_instance

/-! ### The invariant -/

/-- The calls that have returned, each with the answer that the calls before it ask for. -/
def Answered (r : RateLimiterAtomic) (done : List RPSCall) : Prop :=
  ∀ i c, done[i]? = some c → ∃ T allowed, c = .returned (some T) allowed ∧ T ≤ r.now ∧
    (allowed = true ↔ ((done.take i).countP (calledIn T) : Int) < r.rps)

/-- Between two calls: the counter has the calls of the latest second. -/
structure Tallied (r : RateLimiterAtomic) (done : List RPSCall) : Prop where
  count : r.rateCount = done.countP (calledIn r.rateTimestamp)
  latest : ∀ T, done.countP (calledIn T) ≠ 0 → T ≤ r.rateTimestamp
  reached : done ≠ [] → done.countP (calledIn r.rateTimestamp) ≠ 0

/-- No returned call has read a later clock. -/
def NotBefore (cur : Int) (r : RateLimiterAtomic) (done : List RPSCall) : Prop :=
  cur ≤ r.now ∧ ∀ T, done.countP (calledIn T) ≠ 0 → T ≤ cur

/-- What holds while one call is under way. -/
def Phase (r : RateLimiterAtomic) (done : List RPSCall) : RPSCall → Prop
  | .entered => Tallied r done
  | .timed cur => Tallied r done ∧ NotBefore cur r done
  | .swapping cur last => Tallied r done ∧ NotBefore cur r done ∧ last = r.rateTimestamp ∧ last ≠ cur
  | .resetting cur => NotBefore cur r done ∧ r.rateTimestamp = cur ∧ done.countP (calledIn cur) = 0
  | .counting cur =>
      NotBefore cur r done ∧ r.rateTimestamp = cur ∧ r.rateCount = done.countP (calledIn cur)
  | .returned _ _ => False

/-- All calls have returned, or all but the last. -/
def Exact (rps : Int) (p : Calls) : Prop :=
  p.shared.rps = rps ∧ ∃ done, Answered p.shared done ∧
    (p.threads = done ∧ Tallied p.shared done ∨ ∃ c, p.threads = done ++ [c] ∧ Phase p.shared done c)

theorem exact_initial (rps now : Int) : Exact rps (initial rps now) := by
  refine ⟨rfl, [], ?_, .inl ⟨rfl, rfl, fun T hT => absurd rfl hT, fun h => absurd rfl h⟩⟩
  intro i c h
  cases h

section Step

variable {rps : Int} {r : RateLimiterAtomic} {done : List RPSCall}

theorem Answered.now_le (h : Answered r done) {T : Int} (hT : done.countP (calledIn T) ≠ 0) : T ≤ r.now := by
  obtain ⟨c, hc, hcalled⟩ := List.countP_pos_iff.mp (Nat.pos_of_ne_zero hT)
  obtain ⟨i, hi⟩ := List.mem_iff_getElem?.mp hc
  obtain ⟨T', allowed, rfl, hle, -⟩ := h i c hi
  obtain rfl : T' = T := by simpa [calledIn] using hcalled
  exact hle

theorem Tallied.fresh (h : Tallied r done) {cur : Int} (hcur : NotBefore cur r done) (hne : r.rateTimestamp ≠ cur) :
    done.countP (calledIn cur) = 0 := by
  by_contra hsome
  have hdone : done ≠ [] := by
    rintro rfl
    exact hsome rfl
  have hle := h.latest cur hsome
  have hge := hcur.2 _ (h.reached hdone)
  omega

theorem Answered.concat (h : Answered r done) {r' : RateLimiterAtomic} {T : Int} {allowed : Bool}
    (hrps : r'.rps = r.rps) (hnow : r'.now = r.now) (hT : T ≤ r.now)
    (hallowed : allowed = true ↔ (done.countP (calledIn T) : Int) < r.rps) :
    Answered r' (done ++ [.returned (some T) allowed]) := by
  intro i c hc
  rw [hrps, hnow]
  rw [List.getElem?_append] at hc
  split_ifs at hc with hi
  · rw [List.take_append_of_le_length hi.le]
    exact h i c hc
  · obtain hi : i = done.length := by
      have := (List.getElem?_eq_some_iff.mp hc).1
      simp only [List.length_singleton] at this
      omega
    subst hi
    obtain rfl : RPSCall.returned (some T) allowed = c := by simpa using hc
    exact ⟨T, allowed, rfl, hT, by rwa [List.take_left]⟩

theorem tallied_concat {cur : Int} {allowed : Bool} (hcur : NotBefore cur r done) (hts : r.rateTimestamp = cur)
    (hcount : r.rateCount = done.countP (calledIn cur)) :
    Tallied { r with rateCount := r.rateCount + 1 } (done ++ [.returned (some cur) allowed]) := by
  have hconcat : ∀ T, (done ++ [RPSCall.returned (some cur) allowed]).countP (calledIn T) =
      done.countP (calledIn T) + (decide (cur = T)).toNat := by
    intro T
    rw [List.countP_append]
    by_cases hT : cur = T
    · simp [calledIn, hT]
    · simp [calledIn, hT]
  subst hts
  constructor
  · rw [hconcat]
    simp [hcount]
  · intro T hT
    rw [hconcat] at hT
    by_cases heq : r.rateTimestamp = T
    · exact heq.ge
    · exact hcur.2 T (by simpa [heq] using hT)
  · intro _
    rw [hconcat]
    simp

theorem isReturned_of_phase {c : RPSCall} (hc : Phase r done c) : isReturned c = false := by
  cases c with
  | returned cur allowed => exact hc.elim
  | _ => rfl

/-- A call under way takes its next step. -/
theorem exact_rpsStep {c : RPSCall} (hrps : 0 < rps) (hr : r.rps = rps) (hdone : Answered r done)
    (hc : Phase r done c) : Exact rps ⟨(rpsStep r c).1, done ++ [(rpsStep r c).2]⟩ := by
  cases c with
  | entered =>
      rw [rpsStep, if_neg (by omega)]
      exact ⟨hr, done, hdone, .inr ⟨_, rfl, hc, le_refl _, fun T hT => hdone.now_le hT⟩⟩
  | timed cur =>
      obtain ⟨htallied, hcur⟩ := hc
      rw [rpsStep]
      split_ifs with hne
      · exact ⟨hr, done, hdone, .inr ⟨_, rfl, htallied, hcur, rfl, hne⟩⟩
      · have hts : r.rateTimestamp = cur := not_not.mp hne
        exact ⟨hr, done, hdone, .inr ⟨_, rfl, hcur, hts, hts ▸ htallied.count⟩⟩
  | swapping cur last =>
      obtain ⟨htallied, hcur, rfl, hne⟩ := hc
      rw [rpsStep, if_pos rfl]
      exact ⟨hr, done, hdone, .inr ⟨_, rfl, hcur, rfl, htallied.fresh hcur hne⟩⟩
  | resetting cur =>
      obtain ⟨hcur, hts, hnone⟩ := hc
      exact ⟨hr, done, hdone, .inr ⟨_, rfl, hcur, hts, by simp [rpsStep, hnone]⟩⟩
  | counting cur =>
      obtain ⟨hcur, hts, hcount⟩ := hc
      refine ⟨hr, _, hdone.concat rfl rfl hcur.1 ?_, .inl ⟨rfl, tallied_concat hcur hts hcount⟩⟩
      rw [decide_eq_true_iff, hcount]
      omega
  | returned cur allowed => exact hc.elim

end Step

theorem exact_step {rps : Int} (hrps : 0 < rps) (p : Calls) (e : Event) (hp : Exact rps p) (hok : Sequential p e) :
    Exact rps (step p e) := by
  obtain ⟨hr, done, hdone, hphase⟩ := hp
  cases e with
  | tick d =>
      have hle : p.shared.now ≤ (p.shared.tick d).now := by simp [RateLimiterAtomic.tick]
      have hbefore : ∀ cur, NotBefore cur p.shared done → NotBefore cur (p.shared.tick d) done :=
        fun cur hcur => ⟨hcur.1.trans hle, hcur.2⟩
      have htallied : Tallied p.shared done → Tallied (p.shared.tick d) done := fun h => ⟨h.count, h.latest, h.reached⟩
      refine ⟨hr, done, ?_, hphase.imp (fun h => ⟨h.1, htallied h.2⟩) ?_⟩
      · intro i c hc
        obtain ⟨T, allowed, rfl, hT, hallowed⟩ := hdone i c hc
        exact ⟨T, allowed, rfl, hT.trans hle, hallowed⟩
      · rintro ⟨c, hthreads, hc⟩
        refine ⟨c, hthreads, ?_⟩
        cases c with
        | entered => exact htallied hc
        | timed cur => exact ⟨htallied hc.1, hbefore cur hc.2⟩
        | swapping cur last => exact ⟨htallied hc.1, hbefore cur hc.2.1, hc.2.2⟩
        | resetting cur => exact ⟨hbefore cur hc.1, hc.2⟩
        | counting cur => exact ⟨hbefore cur hc.1, hc.2⟩
        | returned cur allowed => exact hc
  | call =>
      obtain ⟨hthreads, htallied⟩ | ⟨c, hthreads, hc⟩ := hphase
      · exact ⟨hr, done, hdone, .inr ⟨.entered, by simp [step, Pool.spawn, hthreads], htallied⟩⟩
      · have hreturned := hok c (by simp [hthreads])
        rw [isReturned_of_phase hc] at hreturned
        cases hreturned
  | step i =>
      refine Pool.advance_induction i ⟨hr, done, hdone, hphase⟩ fun c hc => ?_
      -- a call that has returned does not move
      have hstay : done[i]? = some c → Exact rps ⟨(rpsStep p.shared c).1, p.threads.set i (rpsStep p.shared c).2⟩ := by
        intro hi
        obtain ⟨T, allowed, rfl, -⟩ := hdone i c hi
        obtain ⟨hlt, hget⟩ := List.getElem?_eq_some_iff.mp hc
        have hset : p.threads.set i (.returned (some T) allowed) = p.threads := by
          rw [← hget, List.set_getElem_self]
        simp only [rpsStep, hset]
        exact ⟨hr, done, hdone, hphase⟩
      obtain ⟨hthreads, htallied⟩ | ⟨c', hthreads, hc'⟩ := id hphase
      · exact hstay (hthreads ▸ hc)
      · rw [hthreads, List.getElem?_append] at hc
        split_ifs at hc with hi
        · exact hstay hc
        · obtain rfl : i = done.length := by
            have := (List.getElem?_eq_some_iff.mp hc).1
            simp only [List.length_singleton] at this
            omega
          obtain rfl : c' = c := by simpa using hc
          rw [hthreads, List.set_append_right _ _ (le_refl _)]
          simpa using exact_rpsStep hrps hr hdone hc'

/-! ### Every call returns -/

/-- How many steps a call has still to take, at most. -/
def stepsLeft : RPSCall → Nat
  | .entered => 5
  | .timed _ => 4
  | .swapping _ _ => 3
  | .resetting _ => 2
  | .counting _ => 1
  | .returned _ _ => 0

theorem stepsLeft_rpsStep (r : RateLimiterAtomic) (c : RPSCall) : stepsLeft (rpsStep r c).2 ≤ stepsLeft c - 1 := by
  cases c with
  | entered =>
      rw [rpsStep]
      split_ifs <;> simp [stepsLeft]
  | timed cur =>
      rw [rpsStep]
      split_ifs <;> simp [stepsLeft]
  | swapping cur last =>
      rw [rpsStep]
      split_ifs <;> simp [stepsLeft]
  | resetting cur => exact le_refl _
  | counting cur => exact le_refl _
  | returned cur allowed => exact le_refl _

theorem stepsLeft_run {p : Calls} {i : Nat} {c : RPSCall} (hc : p.threads[i]? = some c) (n : Nat) :
    ∃ c', (run step p (List.replicate n (.step i))).threads[i]? = some c' ∧ stepsLeft c' ≤ stepsLeft c - n := by
  induction n generalizing p c with
  | zero => exact ⟨c, hc, le_refl _⟩
  | succ n ih =>
      have hnext : (step p (.step i)).threads[i]? = some (rpsStep p.shared c).2 := by
        have hi := (List.getElem?_eq_some_iff.mp hc).1
        simp [step, Pool.advance_of_some hc, List.getElem?_set_self hi]
      obtain ⟨c', hc', hle⟩ := ih hnext
      have hfirst := stepsLeft_rpsStep p.shared c
      exact ⟨c', hc', by omega⟩

/-! ### The limit -/

/-- The answers of a schedule: every call that is there returns in five more steps, and says whether fewer
than `rps` of the calls before it were made in its second. -/
def AnswersExactly (p : Calls) : Prop :=
  (∀ i T allowed, p.threads[i]? = some (.returned (some T) allowed) →
    (allowed = true ↔ ((p.threads.take i).countP (calledIn T) : Int) < p.shared.rps)) ∧
  ∀ i, i < p.threads.length → ∃ T allowed,
    (run step p (List.replicate 5 (.step i))).threads[i]? = some (.returned (some T) allowed)

theorem answersExactly_of_exact {rps : Int} (hrps : 0 < rps) {p : Calls} (hp : Exact rps p) : AnswersExactly p := by
  have hreturned : ∀ (q : Calls) (i : Nat) (c : RPSCall), Exact rps q → q.threads[i]? = some c → stepsLeft c = 0 →
      ∃ T allowed, c = .returned (some T) allowed ∧
        (allowed = true ↔ ((q.threads.take i).countP (calledIn T) : Int) < q.shared.rps) := by
    rintro q i c ⟨-, done, hdone, hphase⟩ hc hzero
    obtain ⟨hthreads, -⟩ | ⟨c', hthreads, hc'⟩ := hphase
    · obtain ⟨T, allowed, rfl, -, hallowed⟩ := hdone i c (hthreads ▸ hc)
      exact ⟨T, allowed, rfl, hthreads ▸ hallowed⟩
    · rw [hthreads, List.getElem?_append] at hc
      split_ifs at hc with hi
      · obtain ⟨T, allowed, rfl, -, hallowed⟩ := hdone i c hc
        rw [hthreads, List.take_append_of_le_length hi.le]
        exact ⟨T, allowed, rfl, hallowed⟩
      · obtain rfl : c' = c := List.mem_singleton.mp (List.mem_of_getElem? hc) |>.symm
        cases c' with
        | returned cur allowed => exact hc'.elim
        | _ => cases hzero
  refine ⟨fun i T allowed hi => ?_, fun i hi => ?_⟩
  · obtain ⟨T', allowed', heq, hallowed⟩ := hreturned p i _ hp hi rfl
    cases heq
    exact hallowed
  · obtain ⟨c, hc, hle⟩ := stepsLeft_run (List.getElem?_eq_getElem hi) 5
    have hfive : stepsLeft p.threads[i] ≤ 5 := by
      cases p.threads[i] <;> simp [stepsLeft]
    have hexact : Exact rps (run step p (List.replicate 5 (.step i))) :=
      invariant_of_permitted step (exact_step hrps) hp
        (permitted_iff step |>.mpr fun before e after hes => by
          obtain rfl : e = .step i := List.eq_of_mem_replicate (by rw [hes]; simp)
          trivial)
    obtain ⟨T, allowed, rfl, -⟩ := hreturned _ i c hexact hc (by omega)
    exact ⟨T, allowed, hc⟩

/-- Calls that are made one after another are let through exactly while their second has seen fewer than
`rps` calls. -/
theorem answers_of_sequential {rps : Int} (hrps : 0 < rps) (now : Int) (schedule : List Event)
    (hseq : Permitted step Sequential (initial rps now) schedule) :
    AnswersExactly (run step (initial rps now) schedule) :=
  answersExactly_of_exact hrps (invariant_of_permitted step (exact_step hrps) (exact_initial rps now) hseq)

/-- Three calls with a limit of 2, the last one in a new second. -/
theorem answers_in_two_seconds :
    AnswersExactly (run step (initial 2 7)
      ([.call] ++ List.replicate 5 (.step 0) ++ [.call] ++ List.replicate 3 (.step 1) ++
        [.tick 1, .call] ++ List.replicate 5 (.step 2))) :=
  answers_of_sequential (by decide) 7 _ (by decide)

end Limiter.Rate
