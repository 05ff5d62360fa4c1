import Mathlib.Logic.Basic
import Mathlib.Tactic.Common

/-!
# Bodies with deferred calls

The body of a function that may return early, panic, and defer calls to its end. The variables are a `σ`, a
deferred call is named by a `δ`, and `Interp` says what it does when its turn comes, with the panic it finds
or without one. A body runs on a frame, which has the variables and the calls deferred so far, the last one
in front; `run` runs it and then the deferred calls, also when it has panicked.

`Meets` is the weakest precondition of a body for two postconditions: one for going on, one for leaving by a
return or a panic. The rules that follow it are enough to walk through a body statement by statement.
-/

universe u v w x

namespace Defer

/-- How a call ends. -/
inductive Exit (α : Type u) where
  | returned (a : α)
  | panicked
  deriving DecidableEq, Repr

def Exit.isPanic {α : Type u} : Exit α → Bool
  | .returned _ => false
  | .panicked => true

/-- The end of a call once its deferred calls are done, with a panic or without one. What a recovered panic
returns is the zero value. -/
def Exit.after {α : Type u} [Inhabited α] : Exit α → Bool → Exit α
  | _, true => .panicked
  | .returned a, false => .returned a
  | .panicked, false => .returned default

@[simp] theorem Exit.after_isPanic {α : Type u} [Inhabited α] (e : Exit α) : e.after e.isPanic = e := by
  cases e with
  | returned a => rfl
  | panicked => rfl

/-- Where a statement leads: to the next one, out of the body with a result, or into a panic. -/
inductive Step (ρ : Type u) (α : Type v) where
  | next (a : α)
  | done (r : ρ)
  | panicked

structure Frame (σ : Type u) (δ : Type v) where
  deferred : List δ
  vars : σ

def Body (σ : Type u) (δ : Type v) (ρ : Type w) (α : Type x) := Frame σ δ → Step ρ α × Frame σ δ

/-- What a deferred call does to the variables. It is told whether there is a panic and says whether there
is one afterwards. -/
abbrev Interp (σ : Type u) (δ : Type v) := δ → Bool → σ → Bool × σ

variable {σ : Type u} {δ : Type v} {ρ : Type w} {α β : Type x}

namespace Body

/-! ### Statements -/

protected def pure (a : α) : Body σ δ ρ α := fun f => (.next a, f)

protected def bind (b : Body σ δ ρ α) (k : α → Body σ δ ρ β) : Body σ δ ρ β := fun f =>
  match b f with
  | (.next a, f') => k a f'
  | (.done r, f') => (.done r, f')
  | (.panicked, f') => (.panicked, f')

instance : Monad (Body σ δ ρ) where
  pure := Body.pure
  bind := Body.bind

def ret (r : ρ) : Body σ δ ρ α := fun f => (.done r, f)

def panic : Body σ δ ρ α := fun f => (.panicked, f)

def read (g : σ → α) : Body σ δ ρ α := fun f => (.next (g f.vars), f)

def update (g : σ → σ) : Body σ δ ρ PUnit := fun f => (.next ⟨⟩, { f with vars := g f.vars })

def defer_ (d : δ) : Body σ δ ρ PUnit := fun f => (.next ⟨⟩, { f with deferred := d :: f.deferred })

/-- A call of other code that ends in a given way. -/
def await (o : Exit α) : Body σ δ ρ α := fun f =>
  match o with
  | .returned a => (.next a, f)
  | .panicked => (.panicked, f)

/-- A call that reports an error or not, and a return on an error. -/
def attempt (o : Exit Bool) (r : ρ) : Body σ δ ρ PUnit := fun f =>
  match o with
  | .returned true => (.next ⟨⟩, f)
  | .returned false => (.done r, f)
  | .panicked => (.panicked, f)

/-! ### Running a body -/

/-- The deferred calls, one after the other. -/
def unwind (interp : Interp σ δ) : List δ → Bool → σ → Bool × σ
  | [], panicking, s => (panicking, s)
  | d :: ds, panicking, s => unwind interp ds (interp d panicking s).1 (interp d panicking s).2

/-- Where a body has come to when its last statement is done. -/
def Step.toExit : Step ρ ρ → Exit ρ
  | .next r => .returned r
  | .done r => .returned r
  | .panicked => .panicked

def run [Inhabited ρ] (interp : Interp σ δ) (b : Body σ δ ρ ρ) (s : σ) : Exit ρ × σ :=
  let (step, f) := b ⟨[], s⟩
  let (panicking, s) := unwind interp f.deferred (Step.toExit step).isPanic f.vars
  ((Step.toExit step).after panicking, s)

/-- A call of a function of the same variables. -/
def call {ρ' : Type x} [Inhabited ρ'] (interp : Interp σ δ) (b : Body σ δ ρ' ρ') : Body σ δ ρ ρ' := fun f =>
  await (run interp b f.vars).1 { f with vars := (run interp b f.vars).2 }

@[simp] theorem unwind_nil {interp : Interp σ δ} {panicking : Bool} {s : σ} :
    unwind interp [] panicking s = (panicking, s) := rfl

theorem unwind_cons {interp : Interp σ δ} {d : δ} {ds : List δ} {panicking : Bool} {s : σ} :
    unwind interp (d :: ds) panicking s = unwind interp ds (interp d panicking s).1 (interp d panicking s).2 := rfl

theorem unwind_append {interp : Interp σ δ} {ds ds' : List δ} {panicking : Bool} {s : σ} :
    unwind interp (ds ++ ds') panicking s =
      unwind interp ds' (unwind interp ds panicking s).1 (unwind interp ds panicking s).2 := by
  induction ds generalizing panicking s with
  | nil => rfl
  | cons d ds ih => exact ih

/-- A property of the variables that no deferred call breaks is there when all of them are done. -/
theorem unwind_invariant {interp : Interp σ δ} {I : σ → Prop} {ds : List δ} {panicking : Bool} {s : σ}
    (hstep : ∀ d ∈ ds, ∀ p s, I s → I (interp d p s).2) (hs : I s) : I (unwind interp ds panicking s).2 := by
  induction ds generalizing panicking s with
  | nil => exact hs
  | cons d ds ih =>
      rw [unwind_cons]
      apply ih
      · intro d' hd'
        exact hstep d' (List.mem_cons_of_mem d hd')
      · exact hstep d List.mem_cons_self panicking s hs

/-! ### Preconditions -/

/-- From the frame the body goes on with `Q` or leaves with `E`. -/
def Meets (b : Body σ δ ρ α) (f : Frame σ δ) (Q : α → Frame σ δ → Prop) (E : Exit ρ → Frame σ δ → Prop) : Prop :=
  match b f with
  | (.next a, f') => Q a f'
  | (.done r, f') => E (.returned r) f'
  | (.panicked, f') => E .panicked f'

section Rules

variable {f : Frame σ δ} {Q : α → Frame σ δ → Prop} {E : Exit ρ → Frame σ δ → Prop}

theorem meets_pure {a : α} : (pure a : Body σ δ ρ α).Meets f Q E ↔ Q a f := Iff.rfl

theorem meets_bind {b : Body σ δ ρ α} {k : α → Body σ δ ρ β} {Q : β → Frame σ δ → Prop} :
    (b >>= k).Meets f Q E ↔ b.Meets f (fun a f' => (k a).Meets f' Q E) E := by
  show (Body.bind b k).Meets f Q E ↔ _
  unfold Meets Body.bind
  obtain ⟨step, f'⟩ := b f
  cases step <;> rfl

theorem meets_read {g : σ → α} : (read g : Body σ δ ρ α).Meets f Q E ↔ Q (g f.vars) f := Iff.rfl

theorem meets_read_of_eq {g : σ → α} {a : α} (h : g f.vars = a) (hQ : Q a f) :
    (read g : Body σ δ ρ α).Meets f Q E := by
  rw [meets_read, h]
  exact hQ

theorem meets_update {g : σ → σ} {Q : PUnit → Frame σ δ → Prop} :
    (update g : Body σ δ ρ PUnit).Meets f Q E ↔ Q ⟨⟩ { f with vars := g f.vars } := Iff.rfl

theorem meets_defer {d : δ} {Q : PUnit → Frame σ δ → Prop} :
    (defer_ d : Body σ δ ρ PUnit).Meets f Q E ↔ Q ⟨⟩ { f with deferred := d :: f.deferred } := Iff.rfl

theorem meets_await {o : Exit α} (hnext : ∀ a, o = .returned a → Q a f) (hpanic : o = .panicked → E .panicked f) :
    (await o : Body σ δ ρ α).Meets f Q E := by
  cases o with
  | returned a => exact hnext a rfl
  | panicked => exact hpanic rfl

theorem meets_await_returned {a : α} : (await (.returned a) : Body σ δ ρ α).Meets f Q E ↔ Q a f := Iff.rfl

theorem meets_attempt {o : Exit Bool} {r : ρ} {Q : PUnit → Frame σ δ → Prop} (hok : o = .returned true → Q ⟨⟩ f)
    (herr : o = .returned false → E (.returned r) f) (hpanic : o = .panicked → E .panicked f) :
    (attempt o r : Body σ δ ρ PUnit).Meets f Q E := by
  cases o with
  | returned ok =>
      cases ok with
      | true => exact hok rfl
      | false => exact herr rfl
  | panicked => exact hpanic rfl

theorem meets_attempt_or {o : Exit Bool} {r : ρ} {Q : PUnit → Frame σ δ → Prop} (hok : o = .returned true → Q ⟨⟩ f)
    (hfail : o ≠ .returned true → ∀ e, E e f) : (attempt o r : Body σ δ ρ PUnit).Meets f Q E := by
  apply meets_attempt hok
  · intro h
    exact hfail (by rw [h]; decide) _
  · intro h
    exact hfail (by rw [h]; decide) _

theorem meets_ite {c : Prop} [Decidable c] {b b' : Body σ δ ρ α} (hpos : c → b.Meets f Q E)
    (hneg : ¬ c → b'.Meets f Q E) : (if c then b else b').Meets f Q E := by
  split_ifs with h
  · exact hpos h
  · exact hneg h

theorem Meets.mono {b : Body σ δ ρ α} {Q' : α → Frame σ δ → Prop} {E' : Exit ρ → Frame σ δ → Prop}
    (h : b.Meets f Q E) (hQ : ∀ a f', Q a f' → Q' a f') (hE : ∀ e f', E e f' → E' e f') : b.Meets f Q' E' := by
  unfold Meets at h ⊢
  rcases hb : b f with ⟨step, f'⟩
  rw [hb] at h
  cases step with
  | next a => exact hQ a f' h
  | done r => exact hE (.returned r) f' h
  | panicked => exact hE .panicked f' h

theorem Meets.and {b : Body σ δ ρ α} {Q' : α → Frame σ δ → Prop} {E' : Exit ρ → Frame σ δ → Prop}
    (h : b.Meets f Q E) (h' : b.Meets f Q' E') :
    b.Meets f (fun a f' => Q a f' ∧ Q' a f') fun e f' => E e f' ∧ E' e f' := by
  unfold Meets at h h' ⊢
  rcases hb : b f with ⟨step, f'⟩
  rw [hb] at h h'
  cases step with
  | next a => exact ⟨h, h'⟩
  | done r => exact ⟨h, h'⟩
  | panicked => exact ⟨h, h'⟩

theorem meets_of_forall {b : Body σ δ ρ α} (hQ : ∀ a f', Q a f') (hE : ∀ e f', E e f') : b.Meets f Q E := by
  unfold Meets
  split
  · exact hQ _ _
  · exact hE _ _
  · exact hE _ _

/-- What a body leaves, its deferred calls find. -/
theorem run_of_meets [Inhabited ρ] {interp : Interp σ δ} {b : Body σ δ ρ ρ} {s : σ} {P : Exit ρ → Frame σ δ → Prop}
    (h : b.Meets ⟨[], s⟩ (fun r => P (.returned r)) P) :
    ∃ e f', P e f' ∧ run interp b s =
      (e.after (unwind interp f'.deferred e.isPanic f'.vars).1, (unwind interp f'.deferred e.isPanic f'.vars).2) := by
  unfold Meets at h
  unfold run
  rcases hb : b ⟨[], s⟩ with ⟨step, f'⟩
  rw [hb] at h
  refine ⟨Step.toExit step, f', ?_, rfl⟩
  cases step with
  | next r => exact h
  | done r => exact h
  | panicked => exact h

theorem run_congr [Inhabited ρ] {interp interp' : Interp σ δ} {b : Body σ δ ρ ρ} {s : σ}
    (h : b.Meets ⟨[], s⟩ (fun _ f' => ∀ p, unwind interp f'.deferred p f'.vars = unwind interp' f'.deferred p f'.vars)
      fun _ f' => ∀ p, unwind interp f'.deferred p f'.vars = unwind interp' f'.deferred p f'.vars) :
    run interp b s = run interp' b s := by
  unfold Meets at h
  unfold run
  rcases hb : b ⟨[], s⟩ with ⟨step, f'⟩
  rw [hb] at h
  cases step with
  | next r => simp only [h]
  | done r => simp only [h]
  | panicked => simp only [h]

/-- The end of a body, seen by a caller with frame `f` that goes on with `Q` or leaves with `E`. -/
def Resumes {ρ' : Type x} [Inhabited ρ'] (interp : Interp σ δ) (f : Frame σ δ) (Q : ρ' → Frame σ δ → Prop)
    (E : Exit ρ → Frame σ δ → Prop) (e : Exit ρ') (f' : Frame σ δ) : Prop :=
  (await (e.after (unwind interp f'.deferred e.isPanic f'.vars).1) : Body σ δ ρ ρ').Meets
    { f with vars := (unwind interp f'.deferred e.isPanic f'.vars).2 } Q E

theorem meets_call {ρ' : Type x} [Inhabited ρ'] {interp : Interp σ δ} {b : Body σ δ ρ' ρ'}
    {Q : ρ' → Frame σ δ → Prop} : (call interp b : Body σ δ ρ ρ').Meets f Q E ↔
      b.Meets ⟨[], f.vars⟩ (fun r => Resumes interp f Q E (.returned r)) (Resumes interp f Q E) := by
  unfold Meets call run
  obtain ⟨step, f'⟩ := b ⟨[], f.vars⟩
  cases step with
  | next r => rfl
  | done r => rfl
  | panicked => rfl

end Rules

/-! ### Relations that every statement keeps -/

/-- Wherever the body leads, the frame it leaves is related to the one it found. -/
def Preserves (R : Frame σ δ → Frame σ δ → Prop) (b : Body σ δ ρ α) : Prop :=
  ∀ f, b.Meets f (fun _ f' => R f f') fun _ f' => R f f'

section Preserves

variable {R : Frame σ δ → Frame σ δ → Prop}

theorem preserves_pure (hrefl : ∀ f, R f f) (a : α) : Preserves R (pure a : Body σ δ ρ α) := fun f => hrefl f

theorem preserves_ret (hrefl : ∀ f, R f f) (r : ρ) : Preserves R (ret r : Body σ δ ρ α) := fun f => hrefl f

theorem preserves_panic (hrefl : ∀ f, R f f) : Preserves R (panic : Body σ δ ρ α) := fun f => hrefl f

theorem preserves_read (hrefl : ∀ f, R f f) (g : σ → α) : Preserves R (read g : Body σ δ ρ α) := fun f => hrefl f

theorem preserves_await (hrefl : ∀ f, R f f) (o : Exit α) : Preserves R (await o : Body σ δ ρ α) :=
  fun f => meets_await (fun _ _ => hrefl f) fun _ => hrefl f

theorem preserves_update {g : σ → σ} (h : ∀ f : Frame σ δ, R f { f with vars := g f.vars }) :
    Preserves R (update g : Body σ δ ρ PUnit) := h

theorem preserves_ite {c : Prop} [Decidable c] {b b' : Body σ δ ρ α} (hpos : Preserves R b) (hneg : Preserves R b') :
    Preserves R (if c then b else b') := by
  split_ifs
  · exact hpos
  · exact hneg

theorem preserves_bind (htrans : ∀ f g h, R f g → R g h → R f h) {b : Body σ δ ρ α} {k : α → Body σ δ ρ β}
    (hb : Preserves R b) (hk : ∀ a, Preserves R (k a)) : Preserves R (b >>= k) := by
  intro f
  rw [meets_bind]
  apply (hb f).mono
  · intro a f' hf
    exact (hk a f').mono (fun _ _ h => htrans _ _ _ hf h) fun _ _ h => htrans _ _ _ hf h
  · exact fun _ _ h => h

end Preserves

end Body

end Defer
