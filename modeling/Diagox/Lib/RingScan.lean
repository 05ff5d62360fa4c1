import Diagox.Lib.RingStore
import Mathlib.Data.List.Forall2

/-!
# Scanning a ring that is written

A scan that visits the slots of a ring upwards, with writes between two visits. `Scanned` says what it has found so
far, by the numbers of the writes: a write is found in its slot only, so at most once, and a write that stays in its
slot for the whole scan is not missed.
-/

universe u

namespace RingStore

variable {α : Type u}

/-- What is in a slot: the latest write that belongs to it, or the zero value while there is none. -/
theorem Holds.slot_cases {z : α} {N : Nat} {xs : List α} {r : RingStore α} (h : Holds z N xs r) {i : Nat} (hi : i < N) :
    (∃ j, j < xs.length ∧ xs.length ≤ j + N ∧ j % N = i ∧ r.data[i]? = xs[j]?) ∨
      xs.length ≤ i ∧ r.data[i]? = some z := by
  by_cases hwritten : i < xs.length
  · obtain ⟨j, hlow, hhigh, rfl⟩ := exists_mod_eq hi hwritten
    exact .inl ⟨j, hhigh, by omega, rfl, h.kept j hhigh (by omega)⟩
  · exact .inr ⟨by omega, h.fresh i (by omega) hi⟩

theorem eq_of_mod_eq {N n j k : Nat} (hj : j < n) (hj' : n ≤ j + N) (hk : k < n) (hk' : n ≤ k + N)
    (h : j % N = k % N) : j = k := by
  obtain hlt | heq | hlt := Nat.lt_trichotomy j k
  · exact absurd h (mod_ne_of_lt hlt (by omega))
  · exact heq
  · exact absurd h.symm (mod_ne_of_lt hlt (by omega))

/-- A scan for `P` that has started after `since` writes and visited the slots below `i` has found the values `found`,
which are the writes with the numbers `js`. -/
structure Scanned (P : α → Prop) (N since i : Nat) (xs : List α) (found : List α) (js : List Nat) : Prop where
  values : List.Forall₂ (fun v j => xs[j]? = some v ∧ P v) found js
  upwards : js.Pairwise fun j k => j % N < k % N
  within : ∀ j ∈ js, since ≤ j + N ∧ j % N < i
  complete : ∀ j v, j < since → xs.length ≤ j + N → j % N < i → xs[j]? = some v → P v → j ∈ js
  started : since ≤ xs.length

section Scanned

variable {P : α → Prop} {z : α} {N since i : Nat} {xs found : List α} {js : List Nat} {r : RingStore α}

theorem scanned_start (P : α → Prop) (N : Nat) (xs : List α) : Scanned P N xs.length 0 xs [] [] where
  values := .nil
  upwards := .nil
  within _ hj := absurd hj List.not_mem_nil
  complete _ _ _ _ hvisited := absurd hvisited (Nat.not_lt_zero _)
  started := le_refl _

theorem Scanned.write (h : Scanned P N since i xs found js) (x : α) : Scanned P N since i (xs ++ [x]) found js where
  values := h.values.imp fun v j hv => ⟨by
    rw [List.getElem?_append_left (List.getElem?_eq_some_iff.mp hv.1).1]
    exact hv.1, hv.2⟩
  upwards := h.upwards
  within := h.within
  complete j v hj hkept hvisited hv hP := by
    rw [List.length_append, List.length_singleton] at hkept
    rw [List.getElem?_append_left (lt_of_lt_of_le hj h.started)] at hv
    exact h.complete j v hj (by omega) hvisited hv hP
  started := h.started.trans (by simp)

theorem Scanned.hit (h : Scanned P N since i xs found js) (hr : Holds z N xs r) (hi : i < N) (hz : ¬ P z) {v : α}
    (hv : r.data[i]? = some v) (hP : P v) : ∃ j, Scanned P N since (i + 1) xs (found ++ [v]) (js ++ [j]) := by
  obtain ⟨j, hj, hkept, rfl, hslot⟩ | ⟨-, hslot⟩ := hr.slot_cases hi
  · have hxs : xs[j]? = some v := hslot ▸ hv
    refine ⟨j, ⟨List.rel_append h.values (.cons ⟨hxs, hP⟩ .nil), ?_, ?_, ?_, h.started⟩⟩
    · rw [List.pairwise_append]
      refine ⟨h.upwards, List.pairwise_singleton _ _, fun k hk l hl => ?_⟩
      rw [List.mem_singleton.mp hl]
      exact (h.within k hk).2
    · intro k hk
      obtain hk | hk := List.mem_append.mp hk
      · exact ⟨(h.within k hk).1, (h.within k hk).2.trans (Nat.lt_succ_self _)⟩
      · rw [List.mem_singleton.mp hk]
        exact ⟨h.started.trans hkept, Nat.lt_succ_self _⟩
    · intro k w hk hkkept hvisited hw hPw
      obtain hvisited | heq := Nat.lt_succ_iff_lt_or_eq.mp hvisited
      · exact List.mem_append_left _ (h.complete k w hk hkkept hvisited hw hPw)
      · obtain rfl := eq_of_mod_eq (lt_of_lt_of_le hk h.started) hkkept hj hkept heq
        exact List.mem_append_right _ (List.mem_singleton_self _)
  · rw [hslot] at hv
    exact absurd (Option.some.inj hv ▸ hP) hz

theorem Scanned.miss (h : Scanned P N since i xs found js) (hr : Holds z N xs r) {v : α} (hv : r.data[i]? = some v)
    (hP : ¬ P v) : Scanned P N since (i + 1) xs found js where
  values := h.values
  upwards := h.upwards
  within j hj := ⟨(h.within j hj).1, (h.within j hj).2.trans (Nat.lt_succ_self _)⟩
  complete j w hj hkept hvisited hw hPw := by
    obtain hvisited | heq := Nat.lt_succ_iff_lt_or_eq.mp hvisited
    · exact h.complete j w hj hkept hvisited hw hPw
    · have hslot := hr.kept j (lt_of_lt_of_le hj h.started) hkept
      rw [heq, hv, hw] at hslot
      exact absurd (Option.some.inj hslot ▸ hPw) hP
  started := h.started

theorem Scanned.nodup (h : Scanned P N since i xs found js) : js.Nodup := by
  refine h.upwards.imp fun hlt heq => ?_
  rw [heq] at hlt
  exact lt_irrefl _ hlt

end Scanned

end RingStore
