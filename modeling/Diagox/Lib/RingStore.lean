import Mathlib.Data.List.Basic
import Mathlib.Data.Nat.ModEq
import Mathlib.Tactic.Common

/-!
# Ring stores

A fixed number of slots that are written round and round, with the position of the next write and that of
the latest one. `Holds` says what a ring contains after a sequence of writes: write `j` is in slot `j % N`
until write `j + N` replaces it, and slots not written yet have the zero value.
-/

universe u

structure RingStore (α : Type u) where
  data : List α
  ind : Nat
  last : Nat
  deriving DecidableEq, Repr

namespace RingStore

variable {α : Type u}

/-- `n` slots with the zero value `z`. -/
def new (z : α) (n : Nat) : RingStore α := ⟨List.replicate n z, 0, 0⟩

/-- Write to the next slot, from the first one again after the last. A ring without slots has no place to
write to, and the result is `none`. -/
def write (r : RingStore α) (x : α) : Option (RingStore α) :=
  let slot := if r.ind = r.data.length then 0 else r.ind
  if slot < r.data.length then some ⟨r.data.set slot x, slot + 1, slot⟩ else none

/-- Write a sequence. -/
def writeAll (r : RingStore α) : List α → Option (RingStore α)
  | [] => some r
  | x :: xs => (r.write x).bind (writeAll · xs)

theorem mem_of_write {r r' : RingStore α} {x : α} (h : r.write x = some r') : x ∈ r'.data := by
  simp only [write, Option.ite_none_right_eq_some, Option.some.injEq] at h
  obtain ⟨hslot, rfl⟩ := h
  exact List.mem_set hslot x

/-- What a ring of `N` slots contains after the writes `xs`. -/
structure Holds (z : α) (N : Nat) (xs : List α) (r : RingStore α) : Prop where
  size : r.data.length = N
  next : r.ind = if xs.length = 0 then 0 else (xs.length - 1) % N + 1
  newest : r.last = (xs.length - 1) % N
  kept : ∀ j, j < xs.length → xs.length ≤ j + N → r.data[j % N]? = xs[j]?
  fresh : ∀ i, xs.length ≤ i → i < N → r.data[i]? = some z

theorem holds_new (z : α) (N : Nat) : Holds z N [] (new z N) where
  size := List.length_replicate
  next := rfl
  newest := (Nat.zero_mod N).symm
  kept j hj := absurd hj (Nat.not_lt_zero j)
  fresh i _ hi := by simp [new, hi]

theorem succ_mod (m : Nat) {N : Nat} (hN : 0 < N) : (m + 1) % N = if m % N + 1 = N then 0 else m % N + 1 := by
  have hlt := Nat.mod_lt m hN
  rw [← Nat.mod_add_mod]
  split_ifs with h
  · rw [h, Nat.mod_self]
  · exact Nat.mod_eq_of_lt (by omega)

theorem Holds.slot {z : α} {N : Nat} {xs : List α} {r : RingStore α} (hN : 0 < N) (h : Holds z N xs r) :
    (if r.ind = r.data.length then 0 else r.ind) = xs.length % N := by
  rw [h.size, h.next]
  cases hk : xs.length with
  | zero => simp
  | succ m => simpa using (succ_mod m hN).symm

theorem mod_ne_of_lt {N j k : Nat} (hjk : j < k) (hk : k < j + N) : j % N ≠ k % N := by
  intro h
  have hdvd : N ∣ k - j := (Nat.modEq_iff_dvd' hjk.le).mp h
  have := Nat.le_of_dvd (by omega) hdvd
  omega

theorem Holds.write {z : α} {N : Nat} {xs : List α} {r : RingStore α} (hN : 0 < N) (h : Holds z N xs r) (x : α) :
    ∃ r', r.write x = some r' ∧ Holds z N (xs ++ [x]) r' := by
  have hlt : xs.length % N < N := Nat.mod_lt _ hN
  refine ⟨⟨r.data.set (xs.length % N) x, xs.length % N + 1, xs.length % N⟩, ?_, ?_⟩
  · simp only [RingStore.write, h.slot hN]
    rw [if_pos (h.size.symm ▸ hlt)]
  · constructor
    · simpa using h.size
    · simp
    · simp
    · intro j hj hround
      rw [List.length_append, List.length_singleton] at hj hround
      by_cases hlast : j = xs.length
      · subst hlast
        simp [h.size, hlt]
      · have hjlt : j < xs.length := by omega
        rw [List.getElem?_set_ne (mod_ne_of_lt hjlt (by omega)).symm, List.getElem?_append_left hjlt]
        exact h.kept j hjlt (by omega)
    · intro i hi hiN
      rw [List.length_append, List.length_singleton] at hi
      have hslot : xs.length % N ≠ i := by
        rw [Nat.mod_eq_of_lt (by omega)]
        omega
      rw [List.getElem?_set_ne hslot]
      exact h.fresh i (by omega) hiN

theorem Holds.writeAll {z : α} {N : Nat} (hN : 0 < N) {xs : List α} {r : RingStore α} (h : Holds z N xs r)
    (ys : List α) : ∃ r', r.writeAll ys = some r' ∧ Holds z N (xs ++ ys) r' := by
  induction ys generalizing xs r with
  | nil => exact ⟨r, rfl, by simpa using h⟩
  | cons y ys ih =>
      obtain ⟨r₁, hwrite, h₁⟩ := h.write hN y
      obtain ⟨r₂, hrest, h₂⟩ := ih h₁
      exact ⟨r₂, by simp [RingStore.writeAll, hwrite, hrest], by simpa using h₂⟩

/-- Any sequence of writes to a ring with at least one slot succeeds. -/
theorem writeAll_new {N : Nat} (hN : 0 < N) (z : α) (xs : List α) :
    ∃ r, (new z N).writeAll xs = some r ∧ Holds z N xs r := by
  simpa using (holds_new z N).writeAll hN xs

/-- From the latest write down to the first slot, the ring has the latest writes, newest first. -/
theorem Holds.reverse_take {z : α} {N : Nat} {xs : List α} {r : RingStore α} (hN : 0 < N) (h : Holds z N xs r)
    (hne : 0 < xs.length) :
    (r.data.take (r.last + 1)).reverse = xs.reverse.take (r.last + 1) := by
  have hlt : r.last < N := h.newest ▸ Nat.mod_lt _ hN
  have hle : r.last ≤ xs.length - 1 := h.newest ▸ Nat.mod_le _ _
  refine List.ext_getElem? fun i => ?_
  by_cases hi : i < r.last + 1
  · -- write `k - 1 - i` is in the slot `i` places before that of the latest write `k - 1`
    have hslot : (xs.length - 1 - i) % N = r.last - i := by
      have hdiv := Nat.div_add_mod (xs.length - 1) N
      rw [← h.newest] at hdiv
      have hsub : xs.length - 1 - i = r.last - i + N * ((xs.length - 1) / N) := by omega
      rw [hsub, Nat.add_mul_mod_self_left, Nat.mod_eq_of_lt (by omega)]
    have hkept := h.kept (xs.length - 1 - i) (by omega) (by omega)
    rw [hslot] at hkept
    have hlen : (r.data.take (r.last + 1)).length = r.last + 1 := by
      rw [List.length_take, h.size]
      omega
    rw [List.getElem?_reverse (by omega), hlen, List.getElem?_take_of_lt (by omega),
      List.getElem?_take_of_lt hi, List.getElem?_reverse (by omega)]
    simpa using hkept
  · rw [List.getElem?_eq_none (by simp; omega), List.getElem?_eq_none (by simp; omega)]

/-- The slots in order: what was written since the first slot was last written to, then the writes before it
that are not replaced yet, then slots not written yet. -/
theorem Holds.data_eq {z : α} {N : Nat} {xs : List α} {r : RingStore α} (hN : 0 < N) (h : Holds z N xs r) :
    r.data = xs.drop (xs.length - xs.length % N) ++
      ((xs.take (xs.length - xs.length % N)).drop (xs.length - N) ++ List.replicate (N - xs.length) z) := by
  have hdiv := Nat.div_add_mod xs.length N
  have hlt := Nat.mod_lt xs.length hN
  have hle := Nat.mod_le xs.length N
  -- write `j` of the current round or the one before it is in slot `i`
  have hkept : ∀ i j m, i < N → j = i + N * m → j < xs.length → xs.length ≤ j + N → r.data[i]? = xs[j]? := by
    intro i j m hi hj hlast hround
    have hslot : j % N = i := by rw [hj, Nat.add_mul_mod_self_left, Nat.mod_eq_of_lt hi]
    rw [← hslot]
    exact h.kept j hlast hround
  have hsince : (xs.drop (xs.length - xs.length % N)).length = xs.length % N := by
    rw [List.length_drop]
    omega
  refine List.ext_getElem? fun i => ?_
  rw [List.getElem?_append, hsince]
  by_cases hi : i < N
  · split_ifs with hnew
    · rw [List.getElem?_drop]
      exact hkept i _ (xs.length / N) hi (by omega) (by omega) (by omega)
    · by_cases hfull : N ≤ xs.length
      · have hquot : 1 ≤ xs.length / N := (Nat.one_le_div_iff hN).mpr hfull
        obtain ⟨q, hq⟩ := Nat.exists_eq_add_of_le hquot
        have hround : N * (xs.length / N) = N + N * q := by rw [hq, Nat.mul_add, Nat.mul_one]
        have hold : i - xs.length % N < ((xs.take (xs.length - xs.length % N)).drop (xs.length - N)).length := by
          rw [List.length_drop, List.length_take]
          omega
        rw [List.getElem?_append_left hold, List.getElem?_drop, List.getElem?_take_of_lt (by omega)]
        exact hkept i _ q hi (by omega) (by omega) (by omega)
      · have hmod : xs.length % N = xs.length := Nat.mod_eq_of_lt (by omega)
        have hnone : (xs.take (xs.length - xs.length % N)).drop (xs.length - N) = [] := by
          rw [hmod, Nat.sub_self]
          simp
        rw [hnone, List.nil_append, List.getElem?_replicate, if_pos (by omega)]
        exact h.fresh i (by omega) hi
  · rw [List.getElem?_eq_none (by rw [h.size]; omega), if_neg (by omega), List.getElem?_eq_none]
    simp only [List.length_append, List.length_drop, List.length_take, List.length_replicate]
    omega

/-! ### What a ring retains -/

theorem drop_sub_eq_append (xs : List α) {n m : Nat} (hn : xs.length - n ≤ m) (hm : m ≤ xs.length) :
    xs.drop (xs.length - n) = (xs.take m).drop (xs.length - n) ++ xs.drop m := by
  rw [← List.drop_append_of_le_length, List.take_append_drop]
  rw [List.length_take, Nat.min_eq_left hm]
  exact hn

theorem exists_mod_eq {N i k : Nat} (hi : i < N) (hk : i < k) : ∃ j, k - N ≤ j ∧ j < k ∧ j % N = i := by
  have hdiv := Nat.div_add_mod (k - 1 - i) N
  have hlt := Nat.mod_lt (k - 1 - i) (Nat.zero_lt_of_lt hi)
  refine ⟨i + N * ((k - 1 - i) / N), by omega, by omega, ?_⟩
  rw [Nat.add_mul_mod_self_left, Nat.mod_eq_of_lt hi]

/-- A ring of `N` slots has the last `N` of the writes `xs`, each of them once, write `j` in slot `j % N`. Every other
slot has the zero value, and the next position is the one behind the latest write. -/
structure Retains (z : α) (N : Nat) (xs : List α) (r : RingStore α) : Prop where
  exactly : r.data.Perm (xs.drop (xs.length - N) ++ List.replicate (N - xs.length) z)
  slot : ∀ j, xs.length - N ≤ j → j < xs.length → r.data[j % N]? = xs[j]?
  other : ∀ i, i < N → (∀ j, xs.length - N ≤ j → j < xs.length → j % N ≠ i) → r.data[i]? = some z
  position : xs ≠ [] → r.last = (xs.length - 1) % N ∧ r.ind = r.last + 1

theorem Holds.retains {z : α} {N : Nat} {xs : List α} {r : RingStore α} (hN : 0 < N) (h : Holds z N xs r) :
    Retains z N xs r where
  exactly := by
    have hround := Nat.mod_lt xs.length hN
    have hle := Nat.mod_le xs.length N
    have hlast : xs.drop (xs.length - N) =
        (xs.take (xs.length - xs.length % N)).drop (xs.length - N) ++ xs.drop (xs.length - xs.length % N) :=
      drop_sub_eq_append xs (by omega) (by omega)
    rw [h.data_eq hN, hlast, ← List.append_assoc]
    exact List.perm_append_comm.append_right _
  slot j hlow hhigh := h.kept j hhigh (by omega)
  other i hi hfree := by
    apply h.fresh i _ hi
    by_contra hwritten
    obtain ⟨j, hlow, hhigh, hj⟩ := exists_mod_eq hi (not_le.mp hwritten)
    exact hfree j hlow hhigh hj
  position hne := by
    have hlength : xs.length ≠ 0 := fun h0 => hne (List.length_eq_zero_iff.mp h0)
    refine ⟨h.newest, ?_⟩
    rw [h.next, if_neg hlength, h.newest]

end RingStore
