import Diagox.Lib.Interleave
import Mathlib.Algebra.BigOperators.Group.List.Basic

/-!
# Maps with timers

A map whose entries are deleted by timers. Every entry that is put starts a timer of its own, and a timer that fires
deletes what is there under its key then: the entry it was started for, or one that was put over it later. Timers may
fire late, and in any order.
-/

universe u v

structure ExpiringMap (κ : Type u) (ν : Type v) where
  entries : κ → Option ν := fun _ => none
  /-- The timers that have not fired, with the moment each of them is due. -/
  timers : List (κ × ℕ) := []
  now : ℕ := 0

namespace ExpiringMap

open Run

variable {κ : Type u} {ν : Type v}

inductive Op (κ : Type u) (ν : Type v) where
  | put (k : κ) (v : ν)
  | tick (d : ℕ)
  | fire (k : κ) (due : ℕ)

def step [DecidableEq κ] (ttl : ℕ) (m : ExpiringMap κ ν) : Op κ ν → ExpiringMap κ ν
  | .put k v => { m with entries := Function.update m.entries k (some v), timers := m.timers ++ [(k, m.now + ttl)] }
  | .tick d => { m with now := m.now + d }
  | .fire k due => { m with entries := Function.update m.entries k none, timers := m.timers.erase (k, due) }

/-- Only a timer that is due fires. -/
def Possible (m : ExpiringMap κ ν) : Op κ ν → Prop
  | .fire k due => (k, due) ∈ m.timers ∧ due ≤ m.now
  | _ => True

/-- Every timer that is due has fired. -/
def Prompt (m : ExpiringMap κ ν) : Prop := ∀ t ∈ m.timers, m.now < t.2

def Op.elapsed : Op κ ν → ℕ
  | .tick d => d
  | _ => 0

/-- The time that passes. -/
def elapsed (ops : List (Op κ ν)) : ℕ := (ops.map Op.elapsed).sum

theorem elapsed_append (ops ops' : List (Op κ ν)) : elapsed (ops ++ ops') = elapsed ops + elapsed ops' := by
  rw [elapsed, List.map_append, List.sum_append]
  rfl

theorem elapsed_cons (op : Op κ ν) (ops : List (Op κ ν)) : elapsed (op :: ops) = op.elapsed + elapsed ops := by
  rw [elapsed, List.map_cons, List.sum_cons]
  rfl

/-- An entry is put under the key, or a timer of it fires. -/
def Touches (k : κ) : Op κ ν → Prop
  | .put k' _ => k' = k
  | .fire k' _ => k' = k
  | .tick _ => False

/-- The entry is put, and the key is not touched afterwards. -/
def PutBefore (ops : List (Op κ ν)) (k : κ) (v : ν) (after : List (Op κ ν)) : Prop :=
  ∃ before, ops = before ++ .put k v :: after ∧ ∀ op ∈ after, ¬ Touches k op

section Run

variable [DecidableEq κ] {ttl : ℕ} {m : ExpiringMap κ ν} {ops after : List (Op κ ν)} {k : κ} {v : ν}

theorem step_now (m : ExpiringMap κ ν) (op : Op κ ν) : (step ttl m op).now = m.now + op.elapsed := by
  cases op with
  | put k v => rfl
  | tick d => rfl
  | fire k due => rfl

theorem run_now (m : ExpiringMap κ ν) (ops : List (Op κ ν)) : (run (step ttl) m ops).now = m.now + elapsed ops := by
  induction ops generalizing m with
  | nil => rfl
  | cons op ops ih => rw [run_cons, ih, step_now, elapsed_cons, Nat.add_assoc]

theorem step_entries_of_not_touches (m : ExpiringMap κ ν) {op : Op κ ν} (h : ¬ Touches k op) :
    (step ttl m op).entries k = m.entries k := by
  cases op with
  | put k' v => exact Function.update_of_ne (Ne.symm h) _ _
  | tick d => rfl
  | fire k' due => exact Function.update_of_ne (Ne.symm h) _ _

theorem run_entries_of_not_touches (m : ExpiringMap κ ν) (h : ∀ op ∈ ops, ¬ Touches k op) :
    (run (step ttl) m ops).entries k = m.entries k := by
  induction ops generalizing m with
  | nil => rfl
  | cons op ops ih =>
      rw [run_cons, ih _ fun x hx => h x (List.mem_cons_of_mem _ hx)]
      exact step_entries_of_not_touches m (h op List.mem_cons_self)

/-- What is under a key is what was put there last, unless a timer of the key has fired since. -/
theorem run_entries_iff : (run (step ttl) ({} : ExpiringMap κ ν) ops).entries k = some v ↔
    ∃ after, PutBefore ops k v after := by
  constructor
  · intro h
    induction ops using List.reverseRecOn with
    | nil => exact absurd h nofun
    | append_singleton ops op ih =>
        rw [run_append, run_cons, run_nil] at h
        by_cases htouches : Touches k op
        · cases op with
          | put k' v' =>
              obtain rfl : k' = k := htouches
              obtain rfl : v' = v := by simpa [step] using h
              exact ⟨[], ops, rfl, by simp⟩
          | tick d => exact absurd htouches id
          | fire k' due =>
              obtain rfl : k' = k := htouches
              simp [step] at h
        · rw [step_entries_of_not_touches _ htouches] at h
          obtain ⟨after, before, rfl, hafter⟩ := ih h
          refine ⟨after ++ [op], before, by simp, fun x hx => ?_⟩
          obtain hx | hx := List.mem_append.mp hx
          · exact hafter x hx
          · rw [List.mem_singleton.mp hx]
            exact htouches
  · rintro ⟨after, before, rfl, hafter⟩
    rw [run_append, run_cons, run_entries_of_not_touches _ hafter]
    simp [step]

/-! ### Lifetimes -/

theorem mem_timers_step {t : κ × ℕ} (h : t ∈ m.timers) {op : Op κ ν} (hop : ¬ Touches t.1 op) :
    t ∈ (step ttl m op).timers := by
  cases op with
  | put k' v => exact List.mem_append_left _ h
  | tick d => exact h
  | fire k' due =>
      refine (List.mem_erase_of_ne ?_).mpr h
      rintro rfl
      exact hop rfl

theorem mem_timers_run {t : κ × ℕ} (h : t ∈ m.timers) (hops : ∀ op ∈ ops, ¬ Touches t.1 op) :
    t ∈ (run (step ttl) m ops).timers := by
  induction ops generalizing m with
  | nil => exact h
  | cons op ops ih =>
      rw [run_cons]
      exact ih (mem_timers_step h (hops op List.mem_cons_self)) fun x hx => hops x (List.mem_cons_of_mem _ hx)

theorem elapsed_lt_of_prompt (h : PutBefore ops k v after)
    (hprompt : Prompt (run (step ttl) ({} : ExpiringMap κ ν) ops)) :
    elapsed after < ttl := by
  obtain ⟨before, rfl, hafter⟩ := h
  rw [run_append, run_cons] at hprompt
  have hstarted : (k, elapsed before + ttl) ∈
      (step ttl (run (step ttl) ({} : ExpiringMap κ ν) before) (.put k v)).timers := by
    refine List.mem_append_right _ (List.mem_singleton.mpr (Prod.ext rfl ?_))
    rw [run_now]
    simp
  have hdue := hprompt _ (mem_timers_run hstarted hafter)
  rw [run_now, step_now, run_now] at hdue
  simp only [Op.elapsed] at hdue
  omega

/-- Every pending timer was started by an entry. -/
def Started (ttl : ℕ) (ops : List (Op κ ν)) (t : κ × ℕ) : Prop :=
  ∃ before v after, ops = before ++ .put t.1 v :: after ∧ t.2 = elapsed before + ttl

theorem started_of_mem_timers {t : κ × ℕ} (h : t ∈ (run (step ttl) ({} : ExpiringMap κ ν) ops).timers) :
    Started ttl ops t := by
  induction ops using List.reverseRecOn with
  | nil => exact absurd h List.not_mem_nil
  | append_singleton ops op ih =>
      rw [run_append, run_cons, run_nil] at h
      have hold : t ∈ (run (step ttl) ({} : ExpiringMap κ ν) ops).timers → Started ttl (ops ++ [op]) t := by
        intro hmem
        obtain ⟨before, v, after, hops, hdue⟩ := ih hmem
        exact ⟨before, v, after ++ [op], by rw [hops]; simp, hdue⟩
      cases op with
      | put k v =>
          obtain hmem | hnew := List.mem_append.mp h
          · exact hold hmem
          · obtain rfl := List.mem_singleton.mp hnew
            refine ⟨ops, v, [], rfl, ?_⟩
            show (run (step ttl) ({} : ExpiringMap κ ν) ops).now + ttl = _
            rw [run_now]
            simp
      | tick d => exact hold h
      | fire k due => exact hold (List.mem_of_mem_erase h)

/-- An entry is there as long as nothing that was put under its key is older than the timers allow. -/
theorem putBefore_of_recent {before : List (Op κ ν)}
    (hpossible : Permitted (step ttl) Possible {} (before ++ .put k v :: after))
    (hlast : ∀ v', .put k v' ∉ after)
    (hrecent : ∀ before' v' after', before ++ .put k v :: after = before' ++ .put k v' :: after' →
      elapsed after' < ttl) :
    PutBefore (before ++ .put k v :: after) k v after := by
  refine ⟨before, rfl, fun op hop htouches => ?_⟩
  cases op with
  | put k' v' =>
      obtain rfl : k' = k := htouches
      exact hlast v' hop
  | tick d => exact htouches
  | fire k' due =>
      obtain rfl : k' = k := htouches
      obtain ⟨first, rest, rfl⟩ := List.append_of_mem hop
      have hsplit : before ++ .put k' v :: (first ++ .fire k' due :: rest) =
          (before ++ .put k' v :: first) ++ .fire k' due :: rest := by simp
      obtain ⟨hpending, hdue⟩ := (permitted_iff (step ttl)).mp (hsplit ▸ hpossible) _ _ _ rfl
      obtain ⟨before', v', after', hops, rfl⟩ := started_of_mem_timers hpending
      -- the timer was started so long ago that its entry is too old
      have hold := hrecent before' v' (after' ++ .fire k' _ :: rest) (by
        rw [hsplit, hops, List.append_assoc, List.cons_append])
      rw [hops, run_now, elapsed_append, elapsed_cons] at hdue
      rw [elapsed_append] at hold
      simp only [Op.elapsed] at hdue
      omega

end Run

end ExpiringMap
