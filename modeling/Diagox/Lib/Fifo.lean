import Diagox.Lib.Interleave

/-!
# Queues

A queue within a system. A step may put something in at the end, take something out in front, or throw away what is at
the end, and the last of these closes the queue for good. Then what has been put in is what has been taken out, what is
there, and what was thrown away, in this order.
-/

universe u v w

namespace Run

variable {σ : Type u} {ε : Type v} {α : Type w}

/-- What the steps of a run give off, one after the other. -/
def emitted (step : σ → ε → σ) (out : σ → ε → List α) : σ → List ε → List α
  | _, [] => []
  | s, e :: es => out s e ++ emitted step out (step s e) es

structure Fifo (step : σ → ε → σ) (queue : σ → List α) (put taken lost : σ → ε → List α) (Closed : σ → Prop) :
    Prop where
  step_eq : ∀ s e, queue s ++ put s e = taken s e ++ queue (step s e) ++ lost s e
  closes : ∀ s e, lost s e ≠ [] → Closed (step s e)
  stays : ∀ s e, Closed s → Closed (step s e)
  put_of_closed : ∀ s e, Closed s → put s e = []
  lost_of_closed : ∀ s e, Closed s → lost s e = []

namespace Fifo

variable {step : σ → ε → σ} {queue : σ → List α} {put taken lost : σ → ε → List α} {Closed : σ → Prop}

theorem emitted_of_closed (h : Fifo step queue put taken lost Closed) {s : σ} (hs : Closed s) (es : List ε) :
    emitted step put s es = [] ∧ emitted step lost s es = [] := by
  induction es generalizing s with
  | nil => exact ⟨rfl, rfl⟩
  | cons e es ih =>
      obtain ⟨hput, hlost⟩ := ih (h.stays s e hs)
      rw [emitted, emitted, hput, hlost, h.put_of_closed s e hs, h.lost_of_closed s e hs]
      exact ⟨rfl, rfl⟩

/-- Nothing is lost but what was thrown away, nothing comes twice, and the order is kept. -/
theorem run_eq (h : Fifo step queue put taken lost Closed) (s : σ) (es : List ε) :
    queue s ++ emitted step put s es = emitted step taken s es ++ queue (run step s es) ++ emitted step lost s es := by
  induction es generalizing s with
  | nil => simp [emitted]
  | cons e es ih =>
      have hrest := ih (step s e)
      rw [emitted, emitted, emitted, run_cons, ← List.append_assoc, h.step_eq]
      by_cases hlost : lost s e = []
      · rw [hlost, List.append_nil, List.append_assoc, hrest]
        simp
      · -- the queue is closed by this step
        obtain ⟨hput, hnone⟩ := h.emitted_of_closed (h.closes s e hlost) es
        rw [hput, hnone, List.append_nil, List.append_nil] at hrest
        rw [hput, hnone, hrest]
        simp

theorem lost_length_le (h : Fifo step queue put taken lost Closed) {n : ℕ} (hn : ∀ s e, (lost s e).length ≤ n) (s : σ)
    (es : List ε) : (emitted step lost s es).length ≤ n := by
  induction es generalizing s with
  | nil => exact Nat.zero_le n
  | cons e es ih =>
      rw [emitted]
      by_cases hlost : lost s e = []
      · rw [hlost, List.nil_append]
        exact ih (step s e)
      · rw [(h.emitted_of_closed (h.closes s e hlost) es).2, List.append_nil]
        exact hn s e

theorem closed_of_lost (h : Fifo step queue put taken lost Closed) {s : σ} {es : List ε}
    (hlost : emitted step lost s es ≠ []) : Closed (run step s es) := by
  induction es generalizing s with
  | nil => exact absurd rfl hlost
  | cons e es ih =>
      rw [run_cons]
      by_cases hnone : lost s e = []
      · rw [emitted, hnone, List.nil_append] at hlost
        exact ih hlost
      · exact invariant step h.stays (h.closes s e hnone) es

end Fifo

end Run
