import Diagox.Lib.Interleave

/-!
# Machines with results, and when one agrees with another

A machine answers each operation with a result. Two machines agree on a sequence of operations when they
give the same results, also to a probe that is asked after any part of the sequence. `agrees_iff` turns a
simulation that holds only while the operations are harmless into an exact statement: if every operation
that is not harmless is betrayed by some probe, then the machines agree on a sequence exactly when all of
its operations are harmless.
-/

universe u v w x

namespace Refine

variable {σ : Type u} {τ : Type v} {ι : Type w} {ω : Type x}

/-- The results of a sequence of operations. -/
def results (step : σ → ι → σ × ω) : σ → List ι → List ω
  | _, [] => []
  | s, i :: is => (step s i).2 :: results step (step s i).1 is

/-- The same results, also to every probe asked after a part of the sequence. -/
def Agree (step₁ : σ → ι → σ × ω) (step₂ : τ → ι → τ × ω) (probe : ι → Prop) (s : σ) (t : τ) (is : List ι) :
    Prop :=
  ∀ done, done <+: is → ∀ q, probe q → results step₁ s (done ++ [q]) = results step₂ t (done ++ [q])

/-- Every operation of the sequence is harmless in the state of the second machine it meets. -/
def Harmless (step₂ : τ → ι → τ × ω) (ok : τ → ι → Prop) : τ → List ι → Prop :=
  Run.Permitted (fun t i => (step₂ t i).1) ok

variable {step₁ : σ → ι → σ × ω} {step₂ : τ → ι → τ × ω}

theorem Agree.tail {probe : ι → Prop} {s : σ} {t : τ} {i : ι} {is : List ι}
    (h : Agree step₁ step₂ probe s t (i :: is)) : Agree step₁ step₂ probe (step₁ s i).1 (step₂ t i).1 is := by
  intro done hdone q hq
  have := h (i :: done) ((List.cons_prefix_cons).mpr ⟨rfl, hdone⟩) q hq
  exact (List.cons.inj this).2

section Simulation

variable {R : σ → τ → Prop} {ok : τ → ι → Prop} {probe : ι → Prop}

theorem results_eq_of_harmless
    (hgood : ∀ s t i, R s t → ok t i → (step₁ s i).2 = (step₂ t i).2 ∧ R (step₁ s i).1 (step₂ t i).1)
    {s : σ} {t : τ} {is : List ι} (hR : R s t) (his : Harmless step₂ ok t is) :
    results step₁ s is = results step₂ t is := by
  induction is generalizing s t with
  | nil => rfl
  | cons i is ih =>
      obtain ⟨hout, hnext⟩ := hgood s t i hR his.1
      exact congrArg₂ List.cons hout (ih hnext his.2)

theorem harmless_append_probe (hprobe : ∀ t q, probe q → ok t q) {t : τ} {done is : List ι}
    (hdone : done <+: is) (his : Harmless step₂ ok t is) {q : ι} (hq : probe q) :
    Harmless step₂ ok t (done ++ [q]) := by
  induction done generalizing t is with
  | nil => exact ⟨hprobe t q hq, trivial⟩
  | cons i done ih =>
      obtain ⟨rest, rfl⟩ := hdone
      exact ⟨his.1, ih (List.prefix_append done rest) his.2⟩

/-- Two machines agree exactly on the sequences of harmless operations. -/
theorem agrees_iff
    (hgood : ∀ s t i, R s t → ok t i → (step₁ s i).2 = (step₂ t i).2 ∧ R (step₁ s i).1 (step₂ t i).1)
    (hbad : ∀ s t i, R s t → ¬ ok t i →
      ∃ q, probe q ∧ (step₁ (step₁ s i).1 q).2 ≠ (step₂ (step₂ t i).1 q).2)
    (hprobe : ∀ t q, probe q → ok t q) {s : σ} {t : τ} (hR : R s t) (is : List ι) :
    Agree step₁ step₂ probe s t is ↔ Harmless step₂ ok t is := by
  constructor
  · intro h
    induction is generalizing s t with
    | nil => trivial
    | cons i is ih =>
        have hok : ok t i := by
          by_contra hnot
          obtain ⟨q, hq, hne⟩ := hbad s t i hR hnot
          have hresults := h [i] (by simp) q hq
          exact hne (List.cons.inj (List.cons.inj hresults).2).1
        exact ⟨hok, ih (hgood s t i hR hok).2 h.tail⟩
  · intro h done hdone q hq
    exact results_eq_of_harmless hgood hR (harmless_append_probe hprobe hdone h hq)

end Simulation

/-! ### Machines without results -/

/-- Where every step of one machine is some steps of another, every state of the first stands for one that the second
reaches. -/
theorem exists_run_of_steps {ε : Type v} {ε' : Type w} {step₁ : σ → ε → σ} {step₂ : τ → ε' → τ} {abstract : σ → τ}
    (hstep : ∀ s e, ∃ es', abstract (step₁ s e) = Run.run step₂ (abstract s) es') (s : σ) (es : List ε) :
    ∃ es', abstract (Run.run step₁ s es) = Run.run step₂ (abstract s) es' := by
  induction es generalizing s with
  | nil => exact ⟨[], rfl⟩
  | cons e es ih =>
      obtain ⟨first, hfirst⟩ := hstep s e
      obtain ⟨rest, hrest⟩ := ih (step₁ s e)
      refine ⟨first ++ rest, ?_⟩
      rw [Run.run_cons, hrest, hfirst, Run.run_append]

end Refine
