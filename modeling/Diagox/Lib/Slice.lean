import Mathlib.Data.List.Basic
import Mathlib.Tactic.Common

/-!
# Slices over shared arrays

A slice is a window on an array that other slices may share, so writing through one of them shows in the
others. The idiom that removes element `i` of a slice, `append(s[:i], s[i+1:]...)`, moves the later
elements down in the array itself and returns a shorter window. Whoever keeps the old window still sees as
many elements as before, the last one twice.
-/

universe u

/-- The arrays in memory. -/
abbrev Heap (α : Type u) := List (List α)

/-- `len` elements of array `array` from position `off`. -/
structure Slice where
  array : Nat
  off : Nat
  len : Nat
  deriving DecidableEq, Repr

namespace Heap

variable {α : Type u}

/-- A new array with the given elements, and the slice over all of it. -/
def alloc (h : Heap α) (xs : List α) : Heap α × Slice := (h ++ [xs], ⟨h.length, 0, xs.length⟩)

/-- The elements of an array. -/
def array (h : Heap α) (i : Nat) : List α := h[i]?.getD []

/-- The elements a slice shows. -/
def read (h : Heap α) (s : Slice) : List α := ((h.array s.array).drop s.off).take s.len

/-- The slice lies within its array. -/
def Valid (h : Heap α) (s : Slice) : Prop := s.array < h.length ∧ s.off + s.len ≤ (h.array s.array).length

/-- `append(s[:i], s[i+1:]...)` for an `i` within the slice: the elements after `i` move one place down and
the place of the last one keeps its value. -/
def removeAt (h : Heap α) (s : Slice) (i : Nat) : Heap α × Slice :=
  let xs := h.array s.array
  let p := s.off + i
  let e := s.off + s.len
  (h.set s.array (xs.take p ++ (xs.take e).drop (p + 1) ++ xs.drop (e - 1)), { s with len := s.len - 1 })

/-- `make([]T, 0, n)`: an array of zero values, and a slice of no elements at its start. -/
def make (h : Heap α) (zero : α) (n : Nat) : Heap α × Slice := (h ++ [List.replicate n zero], ⟨h.length, 0, 0⟩)

/-- The elements of the array from the start of a slice on. -/
def cap (h : Heap α) (s : Slice) : Nat := (h.array s.array).length - s.off

/-- `append(s, x)`: in the array itself while there is room, else in a new one, whose room to spare is left out. -/
def push (h : Heap α) (s : Slice) (x : α) : Heap α × Slice :=
  if s.len < h.cap s then
    (h.set s.array ((h.array s.array).set (s.off + s.len) x), { s with len := s.len + 1 })
  else h.alloc (h.read s ++ [x])

theorem length_read {h : Heap α} {s : Slice} (hs : h.Valid s) : (h.read s).length = s.len := by
  have := hs.2
  simp only [read, List.length_take, List.length_drop]
  omega

@[simp] theorem read_alloc (h : Heap α) (xs : List α) : (h.alloc xs).1.read (h.alloc xs).2 = xs := by
  simp [alloc, read, array]

theorem valid_alloc (h : Heap α) (xs : List α) : (h.alloc xs).1.Valid (h.alloc xs).2 := by
  simp [alloc, Valid, array]

theorem array_alloc_of_lt {h : Heap α} {i : Nat} (hi : i < h.length) (xs : List α) :
    (h.alloc xs).1.array i = h.array i := by
  simp [alloc, array, List.getElem?_append_left hi]

theorem read_alloc_of_valid {h : Heap α} {s : Slice} (hs : h.Valid s) (xs : List α) :
    (h.alloc xs).1.read s = h.read s := by
  rw [read, read, array_alloc_of_lt hs.1]

theorem valid_alloc_of_valid {h : Heap α} {s : Slice} (hs : h.Valid s) (xs : List α) :
    (h.alloc xs).1.Valid s := by
  refine ⟨?_, ?_⟩
  · have := hs.1
    simp only [alloc, List.length_append, List.length_singleton]
    omega
  · rw [array_alloc_of_lt hs.1]
    exact hs.2

theorem valid_removeAt {h : Heap α} {s : Slice} {i : Nat} (hs : h.Valid s) (hi : i < s.len) :
    (h.removeAt s i).1.Valid s := by
  obtain ⟨harray, hlen⟩ := hs
  refine ⟨by simpa [removeAt] using harray, ?_⟩
  simp only [removeAt, array, List.getElem?_set_self harray, Option.getD_some, List.length_append,
    List.length_take, List.length_drop] at hlen ⊢
  omega

theorem array_set_self {h : Heap α} {i : Nat} (hi : i < h.length) (xs : List α) : array (h.set i xs) i = xs := by
  rw [array, List.getElem?_set_self hi, Option.getD_some]

theorem array_set_ne {h : Heap α} {i j : Nat} (hij : i ≠ j) (xs : List α) : array (h.set i xs) j = h.array j := by
  rw [array, List.getElem?_set_ne hij, array]

theorem array_append {h : Heap α} {i : Nat} (hi : i < h.length) (xs : List α) : array (h ++ [xs]) i = h.array i :=
  array_alloc_of_lt hi xs

theorem array_append_self (h : Heap α) (xs : List α) : array (h ++ [xs]) h.length = xs := by
  rw [array, List.getElem?_concat_length, Option.getD_some]

theorem push_of_room {h : Heap α} {s : Slice} (hroom : s.len < h.cap s) (x : α) :
    h.push s x =
      (h.set s.array ((h.array s.array).set (s.off + s.len) x), { s with len := s.len + 1 }) := if_pos hroom

theorem read_push {h : Heap α} {s : Slice} (hs : h.Valid s) (hroom : s.len < h.cap s) (x : α) :
    (h.push s x).1.read (h.push s x).2 = h.read s ++ [x] := by
  rw [push_of_room hroom]
  have hlt : s.off + s.len < (h.array s.array).length := by
    unfold cap at hroom
    omega
  simp only [read, array_set_self hs.1]
  rw [List.take_add_one, List.drop_set, if_neg (by omega), Nat.add_sub_cancel_left, List.take_set_of_le (Nat.le_refl _),
    List.getElem?_set_self (by rw [List.length_drop]; omega), Option.toList_some]

/-- The window of the removal shows what is left. -/
theorem read_removeAt {h : Heap α} {s : Slice} {i : Nat} (hs : h.Valid s) (hi : i < s.len) :
    (h.removeAt s i).1.read (h.removeAt s i).2 = (h.read s).eraseIdx i := by
  obtain ⟨harray, hlen⟩ := hs
  refine List.ext_getElem? fun j => ?_
  simp only [removeAt, read, array_set_self harray, List.getElem?_take, List.getElem?_drop, List.getElem?_append,
    List.getElem?_eraseIdx, List.length_take, List.length_append, List.length_drop]
  grind

/-- The old window shows the later elements one place down, and the last one twice. -/
theorem read_removeAt_old {h : Heap α} {s : Slice} {i j : Nat} (hs : h.Valid s) (hij : i < j) (hj : j < s.len) :
    ∃ m, i < m ∧ ((h.removeAt s i).1.read s)[j]? = (h.read s)[m]? := by
  obtain ⟨harray, hlen⟩ := hs
  refine ⟨if j + 1 < s.len then j + 1 else j, by split_ifs <;> omega, ?_⟩
  simp only [removeAt, read, array_set_self harray, List.getElem?_take, List.getElem?_drop, List.getElem?_append,
    List.length_take, List.length_append, List.length_drop]
  grind

end Heap
