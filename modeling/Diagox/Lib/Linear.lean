import Diagox.Lib.Refine
import Mathlib.Data.List.Basic
import Mathlib.Data.List.Nodup

/-!
# Operations that overlap

Threads that each carry out one operation on a shared state, with one atomic step somewhere between their arrival and
their end. In the order of these steps the operations could have been carried out one after the other, with the same
results: `linearizes_run`. As time goes on the order only grows at its end, so an operation that is over stands before
each one that arrives later.
-/

universe u v w

namespace Linear

variable {σ : Type u} {ι : Type v} {ω : Type w}

inductive Phase (ω : Type w) where
  | pending
  | done (result : ω)
  | returned (result : ω)
  deriving DecidableEq, Repr

def Phase.result : Phase ω → Option ω
  | .pending => none
  | .done r | .returned r => some r

structure Thread (ι : Type v) (ω : Type w) where
  arg : ι
  phase : Phase ω
  deriving DecidableEq, Repr

abbrev System (σ : Type u) (ι : Type v) (ω : Type w) := Pool σ (Thread ι ω)

inductive Event (ι : Type v) where
  | arrive (arg : ι)
  | act (i : Nat)
  | finish (i : Nat)

section Step

-- what an operation does to the state, and its result
variable (seq : σ → ι → σ × ω)

def act (s : σ) (t : Thread ι ω) : σ × Thread ι ω :=
  match t.phase with
  | .pending => ((seq s t.arg).1, { t with phase := .done (seq s t.arg).2 })
  | .done _ | .returned _ => (s, t)

def finish (s : σ) (t : Thread ι ω) : σ × Thread ι ω :=
  match t.phase with
  | .done r => (s, { t with phase := .returned r })
  | .pending | .returned _ => (s, t)

def step (p : System σ ι ω) : Event ι → System σ ι ω
  | .arrive arg => p.spawn ⟨arg, .pending⟩
  | .act i => p.advance (act seq) i
  | .finish i => p.advance finish i

/-! ### One after the other -/

/-- The state after one operation. -/
def next (s : σ) (arg : ι) : σ := (seq s arg).1

/-- The operations of some threads, and their results. -/
def args (p : System σ ι ω) (order : List Nat) : List ι := order.filterMap fun i => p.threads[i]?.map Thread.arg

def answers (p : System σ ι ω) (order : List Nat) : List ω :=
  order.filterMap fun i => p.threads[i]?.bind fun t => t.phase.result

/-- The threads that have acted, in an order in which their operations, one after the other, have these results and
lead to this state. -/
structure Linearizes (s : σ) (p : System σ ι ω) (order : List Nat) : Prop where
  nodup : order.Nodup
  mem_iff : ∀ i, i ∈ order ↔ ∃ t, p.threads[i]? = some t ∧ t.phase ≠ .pending
  shared_eq : p.shared = Run.run (next seq) s (args p order)
  answers_eq : answers p order = Refine.results seq s (args p order)

end Step

section Linearizes

variable {seq : σ → ι → σ × ω} {s : σ} {p p' : System σ ι ω} {order : List Nat} {i : Nat} {t : Thread ι ω}

theorem results_concat (s : σ) (xs : List ι) (x : ι) :
    Refine.results seq s (xs ++ [x]) = Refine.results seq s xs ++ [(seq (Run.run (next seq) s xs) x).2] := by
  induction xs generalizing s with
  | nil => rfl
  | cons y xs ih => exact congrArg ((seq s y).2 :: ·) (ih (seq s y).1)

theorem length_results (s : σ) (xs : List ι) : (Refine.results seq s xs).length = xs.length := by
  induction xs generalizing s with
  | nil => rfl
  | cons y xs ih => exact congrArg (· + 1) (ih (seq s y).1)

theorem linearizes_initial : Linearizes seq s ⟨s, []⟩ [] where
  nodup := List.nodup_nil
  mem_iff _ := by simp
  shared_eq := rfl
  answers_eq := rfl

theorem args_congr (h : ∀ i ∈ order, p'.threads[i]?.map Thread.arg = p.threads[i]?.map Thread.arg) :
    args p' order = args p order := List.filterMap_congr h

theorem answers_congr (h : ∀ i ∈ order,
    (p'.threads[i]?.bind fun t => t.phase.result) = p.threads[i]?.bind fun t => t.phase.result) :
    answers p' order = answers p order := List.filterMap_congr h

theorem Linearizes.of_same (h : Linearizes seq s p order) (hshared : p'.shared = p.shared)
    (hmem : ∀ i : Nat, (∃ t : Thread ι ω, p'.threads[i]? = some t ∧ t.phase ≠ .pending) ↔
      ∃ t : Thread ι ω, p.threads[i]? = some t ∧ t.phase ≠ .pending)
    (hargs : ∀ i ∈ order, p'.threads[i]?.map Thread.arg = p.threads[i]?.map Thread.arg)
    (hanswers : ∀ i ∈ order,
      (p'.threads[i]?.bind fun t => t.phase.result) = p.threads[i]?.bind fun t => t.phase.result) :
    Linearizes seq s p' order where
  nodup := h.nodup
  mem_iff i := (h.mem_iff i).trans (hmem i).symm
  shared_eq := by rw [hshared, args_congr hargs, h.shared_eq]
  answers_eq := by rw [answers_congr hanswers, args_congr hargs, h.answers_eq]

theorem Linearizes.lt_length (h : Linearizes seq s p order) (hi : i ∈ order) : i < p.threads.length := by
  obtain ⟨t, ht, -⟩ := (h.mem_iff i).mp hi
  exact (List.getElem?_eq_some_iff.mp ht).1

theorem Linearizes.arrive (h : Linearizes seq s p order) (arg : ι) :
    Linearizes seq s (step seq p (.arrive arg)) order := by
  have hold : ∀ i, i < p.threads.length →
      (p.threads ++ [(⟨arg, .pending⟩ : Thread ι ω)])[i]? = p.threads[i]? := fun i hi => List.getElem?_append_left hi
  refine h.of_same rfl (fun i => ?_) (fun i hi => congrArg _ (hold i (h.lt_length hi)))
    fun i hi => congrArg (Option.bind · _) (hold i (h.lt_length hi))
  show (∃ t : Thread ι ω, (p.threads ++ [⟨arg, .pending⟩])[i]? = some t ∧ t.phase ≠ .pending) ↔ _
  obtain hi | hi | hi := lt_trichotomy i p.threads.length
  · rw [hold i hi]
  · rw [hi]
    simp
  · rw [List.getElem?_eq_none_iff.mpr (by simp; omega), List.getElem?_eq_none_iff.mpr hi.le]

theorem Linearizes.act (h : Linearizes seq s p order) (ht : p.threads[i]? = some t)
    (hpending : t.phase = .pending) :
    Linearizes seq s ⟨(seq p.shared t.arg).1, p.threads.set i { t with phase := .done (seq p.shared t.arg).2 }⟩
      (order ++ [i]) := by
  have hlt : i < p.threads.length := (List.getElem?_eq_some_iff.mp ht).1
  have hfresh : i ∉ order := by
    intro hi
    obtain ⟨t', ht', hphase⟩ := (h.mem_iff i).mp hi
    rw [ht] at ht'
    exact hphase (Option.some.inj ht' ▸ hpending)
  have hself : (p.threads.set i { t with phase := .done (seq p.shared t.arg).2 })[i]? =
      some { t with phase := .done (seq p.shared t.arg).2 } := List.getElem?_set_self hlt
  have hother : ∀ j, j ≠ i →
      (p.threads.set i { t with phase := .done (seq p.shared t.arg).2 })[j]? = p.threads[j]? := fun j hj =>
    List.getElem?_set_ne hj.symm
  have hne : ∀ j ∈ order, j ≠ i := fun j hj hji => hfresh (hji ▸ hj)
  have hargs : args ⟨(seq p.shared t.arg).1, p.threads.set i { t with phase := .done (seq p.shared t.arg).2 }⟩
      (order ++ [i]) = args p order ++ [t.arg] := by
    rw [args, List.filterMap_append]
    refine congrArg₂ _ (List.filterMap_congr fun j hj => by rw [hother j (hne j hj)]) ?_
    rw [List.filterMap_cons_some (b := t.arg) (by rw [hself]; rfl)]
    rfl
  have hanswers : answers ⟨(seq p.shared t.arg).1, p.threads.set i { t with phase := .done (seq p.shared t.arg).2 }⟩
      (order ++ [i]) = answers p order ++ [(seq p.shared t.arg).2] := by
    rw [answers, List.filterMap_append]
    refine congrArg₂ _ (List.filterMap_congr fun j hj => by rw [hother j (hne j hj)]) ?_
    rw [List.filterMap_cons_some (b := (seq p.shared t.arg).2) (by rw [hself]; rfl)]
    rfl
  constructor
  · exact List.nodup_append.mpr ⟨h.nodup, List.nodup_singleton i, fun j hj k hk => by
      rw [List.mem_singleton.mp hk]
      exact hne j hj⟩
  · intro j
    rw [List.mem_append, List.mem_singleton]
    by_cases hj : j = i
    · subst hj
      exact iff_of_true (.inr rfl) ⟨_, hself, nofun⟩
    · rw [or_iff_left hj, h.mem_iff, hother j hj]
  · rw [hargs, Run.run_append, ← h.shared_eq]
    rfl
  · rw [hargs, hanswers, results_concat, ← h.answers_eq, ← h.shared_eq]

theorem Linearizes.finish (h : Linearizes seq s p order) (ht : p.threads[i]? = some t) {r : ω}
    (hdone : t.phase = .done r) :
    Linearizes seq s ⟨p.shared, p.threads.set i { t with phase := .returned r }⟩ order := by
  have hlt : i < p.threads.length := (List.getElem?_eq_some_iff.mp ht).1
  have hself : (p.threads.set i { t with phase := .returned r })[i]? = some { t with phase := .returned r } :=
    List.getElem?_set_self hlt
  refine h.of_same rfl (fun j => ?_) (fun j _ => ?_) fun j _ => ?_
  · by_cases hj : i = j
    · subst hj
      exact iff_of_true ⟨_, hself, nofun⟩ ⟨t, ht, by rw [hdone]; nofun⟩
    · rw [List.getElem?_set_ne hj]
  · by_cases hj : i = j
    · subst hj
      rw [hself, ht]
      rfl
    · rw [List.getElem?_set_ne hj]
  · by_cases hj : i = j
    · subst hj
      rw [hself, ht, Option.bind_some, Option.bind_some, hdone]
      rfl
    · rw [List.getElem?_set_ne hj]

theorem linearizes_step (h : Linearizes seq s p order) (e : Event ι) :
    ∃ rest, Linearizes seq s (step seq p e) (order ++ rest) := by
  cases e with
  | arrive arg => exact ⟨[], (List.append_nil order).symm ▸ h.arrive arg⟩
  | act i =>
      show ∃ rest, Linearizes seq s (p.advance (Linear.act seq) i) (order ++ rest)
      cases ht : p.threads[i]? with
      | none => exact ⟨[], by rwa [Pool.advance_of_none ht, List.append_nil]⟩
      | some t =>
          rw [Pool.advance_of_some ht, Linear.act]
          cases hphase : t.phase with
          | pending => exact ⟨[i], h.act ht hphase⟩
          | done r | returned r =>
              obtain ⟨hi, hself⟩ := List.getElem?_eq_some_iff.mp ht
              exact ⟨[], by simpa [← hself] using h⟩
  | finish i =>
      show ∃ rest, Linearizes seq s (p.advance Linear.finish i) (order ++ rest)
      cases ht : p.threads[i]? with
      | none => exact ⟨[], by rwa [Pool.advance_of_none ht, List.append_nil]⟩
      | some t =>
          rw [Pool.advance_of_some ht, Linear.finish]
          cases hphase : t.phase with
          | done r => exact ⟨[], (List.append_nil order).symm ▸ h.finish ht hphase⟩
          | pending | returned r =>
              obtain ⟨hi, hself⟩ := List.getElem?_eq_some_iff.mp ht
              exact ⟨[], by simpa [← hself] using h⟩

/-- Whatever happens next, the order goes on. -/
theorem linearizes_run (h : Linearizes seq s p order) (es : List (Event ι)) :
    ∃ rest, Linearizes seq s (Run.run (step seq) p es) (order ++ rest) := by
  induction es generalizing p order with
  | nil => exact ⟨[], (List.append_nil order).symm ▸ h⟩
  | cons e es ih =>
      obtain ⟨first, hfirst⟩ := linearizes_step h e
      obtain ⟨rest, hrest⟩ := ih hfirst
      exact ⟨first ++ rest, List.append_assoc order first rest ▸ hrest⟩

end Linearizes

end Linear
