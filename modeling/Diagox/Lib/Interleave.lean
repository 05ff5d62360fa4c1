import Mathlib.Data.List.Induction
import Mathlib.Algebra.Order.Ring.Int
import Mathlib.Tactic.Common

/-!
# Interleaved threads over a shared state

A pool is a shared state and the private states of its threads, in order of arrival. One event lets one
thread take one atomic step, so a schedule is a list of events and every interleaving is some schedule.
What a proof needs of a pool is how many threads are in a given phase before and after one step, and that
is `countP_set`: the step removes one thread from the count of its old phase and adds it to that of
its new one.
-/

universe u v w x

/-! ### Runs -/

namespace Run

variable {σ : Type u} {ε : Type v} (step : σ → ε → σ)

/-- The state a schedule leads to. -/
def run (s : σ) (schedule : List ε) : σ := schedule.foldl step s

@[simp] theorem run_nil (s : σ) : run step s [] = s := rfl

@[simp] theorem run_cons (s : σ) (e : ε) (es : List ε) : run step s (e :: es) = run step (step s e) es := rfl

@[simp] theorem run_append (s : σ) (es fs : List ε) : run step s (es ++ fs) = run step (run step s es) fs :=
  List.foldl_append

/-- Every event of the schedule is permitted in the state it is issued in. -/
def Permitted (ok : σ → ε → Prop) : σ → List ε → Prop
  | _, [] => True
  | s, e :: es => ok s e ∧ Permitted ok (step s e) es

instance Permitted.decidable (ok : σ → ε → Prop) [∀ s e, Decidable (ok s e)] :
    ∀ (s : σ) (es : List ε), Decidable (Permitted step ok s es)
  | _, [] => .isTrue trivial
  | s, e :: es =>
      have := Permitted.decidable ok (step s e) es
      inferInstanceAs (Decidable (_ ∧ _))

/-- What one permitted event preserves, a permitted schedule preserves. -/
theorem invariant_of_permitted {ok : σ → ε → Prop} {Inv : σ → Prop}
    (hstep : ∀ s e, Inv s → ok s e → Inv (step s e)) {s : σ} {es : List ε}
    (hs : Inv s) (hes : Permitted step ok s es) : Inv (run step s es) := by
  induction es generalizing s with
  | nil => exact hs
  | cons e es ih => exact ih (hstep s e hs hes.1) hes.2

theorem invariant {Inv : σ → Prop} (hstep : ∀ s e, Inv s → Inv (step s e)) {s : σ} (hs : Inv s)
    (es : List ε) : Inv (run step s es) := by
  induction es generalizing s with
  | nil => exact hs
  | cons e es ih => exact ih (hstep s e hs)

theorem permitted_of_forall {ok : ε → Prop} {s : σ} {es : List ε} (h : ∀ e ∈ es, ok e) :
    Permitted step (fun _ e => ok e) s es := by
  induction es generalizing s with
  | nil => trivial
  | cons e es ih => exact ⟨h e List.mem_cons_self, ih fun f hf => h f (List.mem_cons_of_mem e hf)⟩

theorem permitted_iff {ok : σ → ε → Prop} {s : σ} {es : List ε} :
    Permitted step ok s es ↔ ∀ before e after, es = before ++ e :: after → ok (run step s before) e := by
  induction es generalizing s with
  | nil => simp [Permitted]
  | cons e es ih =>
      rw [Permitted, ih]
      constructor
      · rintro ⟨he, hes⟩ before e' after h
        cases before with
        | nil =>
            obtain ⟨rfl, rfl⟩ := List.cons.inj h
            exact he
        | cons b before =>
            obtain ⟨rfl, htail⟩ := List.cons.inj h
            exact hes before e' after htail
      · intro h
        exact ⟨h [] e es rfl, fun before e' after hes => h (e :: before) e' after (by rw [hes]; rfl)⟩

/-- Two conditions that agree in the states that are reached permit the same schedules. -/
theorem permitted_congr {pre ok ok' : σ → ε → Prop} {Inv : σ → Prop}
    (hstep : ∀ s e, Inv s → pre s e → ok' s e → Inv (step s e))
    (hok : ∀ s e, Inv s → pre s e → (ok s e ↔ ok' s e)) {s : σ} {es : List ε} (hs : Inv s)
    (hes : Permitted step pre s es) : Permitted step ok s es ↔ Permitted step ok' s es := by
  induction es generalizing s with
  | nil => rfl
  | cons e es ih =>
      rw [Permitted, Permitted, hok s e hs hes.1]
      exact and_congr_right fun he => ih (hstep s e hs hes.1 he) hes.2

/-- A schedule is permitted and keeps the invariant, or breaks the rule and leaves what cannot be undone. -/
theorem permitted_or {ok : σ → ε → Prop} {Inv Bad : σ → Prop} (hstep : ∀ s e, Inv s → ok s e → Inv (step s e))
    (hbad : ∀ s e, Inv s → ¬ ok s e → Bad (step s e)) (hkeep : ∀ s e, Bad s → Bad (step s e)) {s : σ} (hs : Inv s)
    (es : List ε) : Permitted step ok s es ∧ Inv (run step s es) ∨ ¬ Permitted step ok s es ∧ Bad (run step s es) := by
  induction es generalizing s with
  | nil => exact .inl ⟨trivial, hs⟩
  | cons e es ih =>
      by_cases he : ok s e
      · rw [Permitted, run_cons]
        exact (ih (hstep s e hs he)).imp (fun h => ⟨⟨he, h.1⟩, h.2⟩) fun h => ⟨fun hes => h.1 hes.2, h.2⟩
      · exact .inr ⟨fun hes => he hes.1, invariant step hkeep (hbad s e hs he) es⟩

/-- At every moment of the schedule. -/
def Always (P : σ → Prop) (s : σ) (es : List ε) : Prop := ∀ before after, es = before ++ after → P (run step s before)

theorem always_iff {P : σ → Prop} {s : σ} {es : List ε} :
    Always step P s es ↔ P s ∧ Permitted step (fun s e => P (step s e)) s es := by
  rw [permitted_iff]
  constructor
  · intro h
    refine ⟨h [] es rfl, fun before e after hes => ?_⟩
    have hprefix := h (before ++ [e]) after (by rw [hes, List.append_assoc]; rfl)
    rwa [run_append] at hprefix
  · rintro ⟨hs, h⟩ before after hes
    induction before using List.reverseRecOn with
    | nil => exact hs
    | append_singleton before e _ =>
        rw [run_append]
        exact h before e after (by rw [hes, List.append_assoc]; rfl)

end Run

/-! ### Maps and logs -/

/-- An entry of a log, after which all entries satisfy `P`. -/
def Since {α : Type u} (P : α → Prop) (x : α) (log : List α) : Prop :=
  ∃ before after, log = before ++ x :: after ∧ ∀ y ∈ after, P y

theorem not_since_nil {α : Type u} {P : α → Prop} {x : α} : ¬ Since P x [] := by
  rintro ⟨before, after, hlog, -⟩
  exact List.append_ne_nil_of_right_ne_nil _ (List.cons_ne_nil _ _) hlog.symm

theorem since_append_cons_iff {α : Type u} {P : α → Prop} {x : α} {before after : List α} (h : x ∉ after) :
    Since P x (before ++ x :: after) ↔ ∀ y ∈ after, P y := by
  constructor
  · rintro ⟨before', after', hlog, hP⟩ y hy
    obtain ⟨c, -, hc⟩ | ⟨c, -, hc⟩ := List.append_eq_append_iff.mp hlog
    · cases c with
      | nil => exact hP y ((List.cons.inj hc).2 ▸ hy)
      | cons z c => exact absurd ((List.cons.inj hc).2 ▸ List.mem_append_right c List.mem_cons_self) h
    · cases c with
      | nil => exact hP y ((List.cons.inj hc).2.symm ▸ hy)
      | cons z c => exact hP y ((List.cons.inj hc).2 ▸ List.mem_append_right c (List.mem_cons_of_mem x hy))
  · exact fun hP => ⟨before, after, rfl, hP⟩

theorem since_concat {α : Type u} {P : α → Prop} {x y : α} {log : List α} :
    Since P x (log ++ [y]) ↔ y = x ∨ P y ∧ Since P x log := by
  constructor
  · rintro ⟨before, after, hlog, hafter⟩
    induction after using List.reverseRecOn with
    | nil => exact .inl (List.singleton_inj.mp (List.append_inj' hlog rfl).2)
    | append_singleton after z _ =>
        rw [← List.cons_append, ← List.append_assoc] at hlog
        obtain ⟨hinit, hlast⟩ := List.append_inj' hlog rfl
        obtain rfl := List.singleton_inj.mp hlast
        exact .inr ⟨hafter y (by simp), before, after, hinit, fun w hw => hafter w (by simp [hw])⟩
  · rintro (rfl | ⟨hy, before, after, rfl, hafter⟩)
    · exact ⟨log, [], rfl, fun _ hw => by cases hw⟩
    · refine ⟨before, after ++ [y], by simp, fun w hw => ?_⟩
      obtain hw | hw := List.mem_append.mp hw
      · exact hafter w hw
      · rwa [List.mem_singleton.mp hw]

theorem of_update_eq_some {α : Type u} {β : Type v} [DecidableEq α] {f : α → Option β} {a b : α} {v : Option β} {w : β}
    (h : Function.update f a v b = some w) : b = a ∧ v = some w ∨ f b = some w := by
  by_cases hb : b = a
  · rw [hb, Function.update_self] at h
    exact .inl ⟨hb, h⟩
  · rw [Function.update_of_ne hb] at h
    exact .inr h

theorem getElem?_mono_of_append {α : Type u} {log log' : List α} (h : log <+: log') {n : Nat} {a : α}
    (ha : log[n]? = some a) : log'[n]? = some a := by
  obtain ⟨rest, rfl⟩ := h
  rwa [List.getElem?_append_left (List.getElem?_eq_some_iff.mp ha).1]

/-! ### Pools -/

/-- A shared state and the private states of the threads that work on it. -/
structure Pool (σ : Type u) (τ : Type v) where
  shared : σ
  threads : List τ

namespace Pool

variable {σ : Type u} {τ : Type v}

/-- A new thread joins in its first private state. -/
def spawn (p : Pool σ τ) (t : τ) : Pool σ τ := ⟨p.shared, p.threads ++ [t]⟩

/-- Thread `i` takes one atomic step. An index without a thread changes nothing. -/
def advance (atomic : σ → τ → σ × τ) (p : Pool σ τ) (i : Nat) : Pool σ τ :=
  match p.threads[i]? with
  | none => p
  | some t => ⟨(atomic p.shared t).1, p.threads.set i (atomic p.shared t).2⟩

theorem countP_spawn (q : τ → Bool) (p : Pool σ τ) (t : τ) :
    (p.spawn t).threads.countP q = p.threads.countP q + (q t).toNat := by
  cases h : q t <;> simp [spawn, h]

/-- A step moves one thread and no other. -/
theorem countP_set (q : τ → Bool) {ts : List τ} {i : Nat} {t : τ} (ht : ts[i]? = some t) (t' : τ) :
    (ts.set i t').countP q + (q t).toNat = ts.countP q + (q t').toNat := by
  obtain ⟨hi, rfl⟩ := List.getElem?_eq_some_iff.mp ht
  rw [List.countP_set hi]
  cases hq : q ts[i] with
  | false => cases q t' <;> simp
  | true =>
      have hpos : 0 < ts.countP q := List.countP_pos_iff.mpr ⟨_, List.getElem_mem hi, hq⟩
      cases q t' <;> simp <;> omega

theorem advance_of_none {atomic : σ → τ → σ × τ} {p : Pool σ τ} {i : Nat} (h : p.threads[i]? = none) :
    p.advance atomic i = p := by
  simp only [advance, h]

theorem advance_of_some {atomic : σ → τ → σ × τ} {p : Pool σ τ} {i : Nat} {t : τ}
    (h : p.threads[i]? = some t) :
    p.advance atomic i = ⟨(atomic p.shared t).1, p.threads.set i (atomic p.shared t).2⟩ := by
  simp only [advance, h]

/-- Where the threads have distinct keys, taking one out takes out no other, -/
theorem mem_eraseIdx_iff {κ : Type w} {key : τ → κ} {ts : List τ} (h : (ts.map key).Nodup) {i : Nat} {t : τ}
    (ht : ts[i]? = some t) (u : τ) : u ∈ ts.eraseIdx i ↔ u ∈ ts ∧ key u ≠ key t := by
  induction ts generalizing i with
  | nil => simp at ht
  | cons a ts ih =>
      rw [List.map_cons, List.nodup_cons] at h
      cases i with
      | zero =>
          obtain rfl : a = t := by simpa using ht
          rw [List.eraseIdx_cons_zero, List.mem_cons]
          constructor
          · intro hu
            exact ⟨.inr hu, fun heq => h.1 (heq ▸ List.mem_map_of_mem hu)⟩
          · rintro ⟨rfl | hu, hne⟩
            · exact absurd rfl hne
            · exact hu
      | succ i =>
          have ht' : ts[i]? = some t := by simpa using ht
          have hkey : key t ∈ ts.map key := List.mem_map_of_mem (List.mem_of_getElem? ht')
          rw [List.eraseIdx_cons_succ, List.mem_cons, List.mem_cons, ih h.2 ht', or_and_right]
          refine or_congr_left ⟨fun hu => ⟨hu, ?_⟩, And.left⟩
          rw [hu]
          exact fun heq => h.1 (heq ▸ hkey)

/-- and replacing one replaces no other. -/
theorem mem_set_iff {κ : Type w} {key : τ → κ} {ts : List τ} (h : (ts.map key).Nodup) {i : Nat} {t : τ}
    (ht : ts[i]? = some t) (t' u : τ) : u ∈ ts.set i t' ↔ u = t' ∨ u ∈ ts ∧ key u ≠ key t := by
  obtain ⟨hi, -⟩ := List.getElem?_eq_some_iff.mp ht
  rw [← mem_eraseIdx_iff h ht, List.set_eq_take_append_cons_drop, if_pos hi, List.eraseIdx_eq_take_drop_succ,
    List.mem_append, List.mem_cons, List.mem_append, or_left_comm]

theorem eq_or_mem_set {ts : List τ} {i : Nat} {t u : τ} (ht : ts[i]? = some t) (t' : τ) (hu : u ∈ ts) :
    u = t ∨ u ∈ ts.set i t' := by
  obtain ⟨j, hj⟩ := List.mem_iff_getElem?.mp hu
  by_cases hi : i = j
  · subst hi
    exact .inl (Option.some.inj (hj.symm.trans ht))
  · exact .inr (List.mem_of_getElem? ((List.getElem?_set_ne hi).trans hj))

/-- An invariant of the pool survives a step as soon as it survives the step of any one of its threads. -/
theorem advance_induction {Inv : Pool σ τ → Prop} {atomic : σ → τ → σ × τ} {p : Pool σ τ} (i : Nat)
    (hp : Inv p)
    (hstep : ∀ t, p.threads[i]? = some t →
      Inv ⟨(atomic p.shared t).1, p.threads.set i (atomic p.shared t).2⟩) :
    Inv (p.advance atomic i) := by
  cases h : p.threads[i]? with
  | none => rw [advance_of_none h]; exact hp
  | some t => rw [advance_of_some h]; exact hstep t h

/-! #### A pool seen through its states -/

section Map

variable {σ' : Type w} {τ' : Type x} {f : σ → σ'} {g : τ → τ'} {atomic : σ → τ → σ × τ} {p : Pool σ τ} {i : Nat} {t : τ}

def map (f : σ → σ') (g : τ → τ') (p : Pool σ τ) : Pool σ' τ' := ⟨f p.shared, p.threads.map g⟩

theorem map_spawn (f : σ → σ') (g : τ → τ') (p : Pool σ τ) (t : τ) : (p.spawn t).map f g = (p.map f g).spawn (g t) := by
  rw [map, spawn, List.map_append]
  rfl

theorem getElem?_map (ht : p.threads[i]? = some t) : (p.map f g).threads[i]? = some (g t) := by
  rw [map, List.getElem?_map, ht]
  rfl

theorem map_advance {atomic' : σ' → τ' → σ' × τ'} (ht : p.threads[i]? = some t)
    (h : (f (atomic p.shared t).1, g (atomic p.shared t).2) = atomic' (f p.shared) (g t)) :
    (p.advance atomic i).map f g = (p.map f g).advance atomic' i := by
  rw [advance_of_some ht, advance_of_some (getElem?_map ht), map, List.map_set]
  show (⟨_, _⟩ : Pool σ' τ') =
    ⟨(atomic' (f p.shared) (g t)).1, (p.threads.map g).set i (atomic' (f p.shared) (g t)).2⟩
  rw [← h]

theorem map_advance_eq_self (ht : p.threads[i]? = some t)
    (h : (f (atomic p.shared t).1, g (atomic p.shared t).2) = (f p.shared, g t)) :
    (p.advance atomic i).map f g = p.map f g := by
  obtain ⟨hshared, hthread⟩ := Prod.mk.inj h
  obtain ⟨hi, hself⟩ := List.getElem?_eq_some_iff.mp (getElem?_map (f := f) (g := g) ht)
  rw [advance_of_some ht, map, List.map_set, hshared, hthread, ← hself]
  exact congrArg (Pool.mk (f p.shared)) (List.set_getElem_self hi)

end Map

end Pool
