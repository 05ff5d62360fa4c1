import Mathlib.Algebra.BigOperators.Group.Finset.Basic
import Mathlib.Algebra.BigOperators.Group.List.Basic
import Mathlib.Data.List.Dedup
import Mathlib.Tactic.Abel
import Mathlib.Tactic.Common

/-!
# The last value under a key

A log of values under keys, in which a later value of a key replaces the one before it. The sum over the whole log is
the sum of the last values and that of all the values that were replaced.
-/

universe u v

namespace LastValues

variable {κ : Type u} {M : Type v} [DecidableEq κ]

def lastOf (k : κ) (log : List (κ × M)) : Option M := (log.filter fun x => x.1 = k).getLast?.map Prod.snd

/-- The values that a later one replaces. -/
def replaced : List (κ × M) → List M
  | [] => []
  | (k, x) :: log => if k ∈ log.map Prod.fst then x :: replaced log else replaced log

section Last

variable {log : List (κ × M)} {k k' : κ} {x : M}

theorem lastOf_eq_none (h : k ∉ log.map Prod.fst) : lastOf k log = none := by
  have hnil : (log.filter fun x => x.1 = k) = [] := by
    refine List.filter_eq_nil_iff.mpr fun x hx hk => h ?_
    rw [← of_decide_eq_true hk]
    exact List.mem_map_of_mem hx
  rw [lastOf, hnil]
  rfl

theorem lastOf_cons_of_mem (h : k' ∈ log.map Prod.fst) : lastOf k' ((k, x) :: log) = lastOf k' log := by
  obtain ⟨y, hy, rfl⟩ := List.mem_map.mp h
  have hne : (log.filter fun x => x.1 = y.1) ≠ [] := List.ne_nil_of_mem (List.mem_filter.mpr ⟨hy, by simp⟩)
  unfold lastOf
  rw [List.filter_cons]
  split_ifs with hk
  · rw [List.getLast?_cons_of_ne_nil hne]
  · rfl

theorem lastOf_cons_self (h : k ∉ log.map Prod.fst) : lastOf k ((k, x) :: log) = some x := by
  have hnil := lastOf_eq_none h
  rw [lastOf, Option.map_eq_none_iff, List.getLast?_eq_none_iff] at hnil
  rw [lastOf, List.filter_cons_of_pos (by simp), hnil]
  rfl

theorem lastOf_concat (k : κ) (log : List (κ × M)) (x : κ × M) :
    lastOf k (log ++ [x]) = if x.1 = k then some x.2 else lastOf k log := by
  rw [lastOf, List.filter_append]
  split_ifs with h
  · simp [h]
  · simp [h, lastOf]

theorem mem_replaced_iff :
    x ∈ replaced log ↔ ∃ before k after, log = before ++ (k, x) :: after ∧ k ∈ after.map Prod.fst := by
  induction log with
  | nil => simp [replaced]
  | cons y log ih =>
      obtain ⟨l, y⟩ := y
      have hcons : (∃ before k after, (l, y) :: log = before ++ (k, x) :: after ∧ k ∈ after.map Prod.fst) ↔
          (y = x ∧ l ∈ log.map Prod.fst) ∨
            ∃ before k after, log = before ++ (k, x) :: after ∧ k ∈ after.map Prod.fst := by
        constructor
        · rintro ⟨before, k, after, hlog, hk⟩
          cases before with
          | nil =>
              obtain ⟨hhead, rfl⟩ := List.cons.inj hlog
              obtain ⟨rfl, rfl⟩ := Prod.mk.inj hhead
              exact .inl ⟨rfl, hk⟩
          | cons b before => exact .inr ⟨before, k, after, (List.cons.inj hlog).2, hk⟩
        · rintro (⟨rfl, hl⟩ | ⟨before, k, after, rfl, hk⟩)
          · exact ⟨[], l, log, rfl, hl⟩
          · exact ⟨(l, y) :: before, k, after, rfl, hk⟩
      rw [hcons, replaced]
      split_ifs with hl
      · rw [List.mem_cons, ih, eq_comm]
        simp [hl]
      · rw [ih]
        simp [hl]

end Last

variable [AddCommMonoid M]

/-- The sum over the keys of the last value of each. -/
def sumLast (log : List (κ × M)) : M := ∑ k ∈ (log.map Prod.fst).toFinset, (lastOf k log).getD 0

theorem sumLast_cons (k : κ) (x : M) (log : List (κ × M)) :
    sumLast ((k, x) :: log) = if k ∈ log.map Prod.fst then sumLast log else x + sumLast log := by
  have hrest : ∑ l ∈ (log.map Prod.fst).toFinset, (lastOf l ((k, x) :: log)).getD 0 = sumLast log := by
    refine Finset.sum_congr rfl fun l hl => ?_
    rw [lastOf_cons_of_mem (List.mem_toFinset.mp hl)]
  rw [sumLast, List.map_cons, List.toFinset_cons]
  split_ifs with hk
  · rw [Finset.insert_eq_of_mem (List.mem_toFinset.mpr hk), hrest]
  · rw [Finset.sum_insert (mt List.mem_toFinset.mp hk), hrest, lastOf_cons_self hk]
    rfl

theorem sum_eq (log : List (κ × M)) : (log.map Prod.snd).sum = sumLast log + (replaced log).sum := by
  induction log with
  | nil => simp [sumLast, replaced]
  | cons y log ih =>
      obtain ⟨k, x⟩ := y
      rw [List.map_cons, List.sum_cons, ih, sumLast_cons, replaced]
      split_ifs
      · rw [List.sum_cons]
        abel
      · abel

/-- The whole log sums up to the last values exactly when all that were replaced are zero. -/
theorem sum_eq_sumLast_iff (log : List (κ × ℕ)) :
    (log.map Prod.snd).sum = sumLast log ↔
      ∀ before k n after, log = before ++ (k, n) :: after → k ∈ after.map Prod.fst → n = 0 := by
  rw [sum_eq, Nat.add_eq_left, List.sum_eq_zero_iff_forall_eq_nat]
  constructor
  · intro h before k n after hlog hk
    exact h n (mem_replaced_iff.mpr ⟨before, k, after, hlog, hk⟩)
  · intro h n hn
    obtain ⟨before, k, after, hlog, hk⟩ := mem_replaced_iff.mp hn
    exact h before k n after hlog hk

end LastValues
