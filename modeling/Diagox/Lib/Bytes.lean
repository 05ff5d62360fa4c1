import Diagox.Lib.Lists
import Mathlib.Algebra.Ring.Nat
import Mathlib.Data.List.Infix
import Mathlib.Tactic.Common

/-!
# Byte strings

The functions of Go's `bytes` and `strings` packages on texts that need not be UTF-8, and the slice expressions on
them. A search that finds nothing has the index `-1`, and a slice expression out of range panics.
-/

universe u

namespace Bytes

/-- The bytes of a string. -/
def ofString (s : String) : List UInt8 := s.toUTF8.data.toList

section Search

variable {α : Type u} [DecidableEq α]

/-- The position of the first occurrence of `sep`. -/
def find? (sep : List α) : List α → Option Nat
  | [] => if sep = [] then some 0 else none
  | x :: xs => if sep.isPrefixOf (x :: xs) then some 0 else (find? sep xs).map (· + 1)

/-- `bytes.Index`. -/
def index (s sep : List α) : Int := (find? sep s).elim (-1) Int.ofNat

/-- `s[low:high]`, or `none` where it is out of range. -/
def slice (s : List α) (low high : Int) : Option (List α) :=
  if 0 ≤ low ∧ low ≤ high ∧ high ≤ s.length then some ((s.take high.toNat).drop low.toNat) else none

theorem find?_eq_none_iff {sep s : List α} : find? sep s = none ↔ ¬ sep <:+: s := by
  induction s with
  | nil =>
      rw [find?, List.infix_nil]
      by_cases h : sep = []
      · simp [h]
      · simp [h]
  | cons x xs ih =>
      rw [find?, List.infix_cons_iff, ← List.isPrefixOf_iff_prefix]
      by_cases h : sep.isPrefixOf (x :: xs) = true
      · simp [h]
      · simp [h, ih]

theorem exists_of_find? {sep s : List α} {n : Nat} (h : find? sep s = some n) :
    ∃ before after, s = before ++ (sep ++ after) ∧ before.length = n := by
  induction s generalizing n with
  | nil =>
      rw [find?] at h
      split_ifs at h with hsep
      exact ⟨[], [], by simp [hsep], Option.some.inj h⟩
  | cons x xs ih =>
      rw [find?] at h
      split_ifs at h with hprefix
      · obtain ⟨after, hafter⟩ := List.isPrefixOf_iff_prefix.mp hprefix
        exact ⟨[], after, hafter.symm, Option.some.inj h⟩
      · obtain ⟨m, hm, rfl⟩ := Option.map_eq_some_iff.mp h
        obtain ⟨before, after, rfl, hlength⟩ := ih hm
        exact ⟨x :: before, after, rfl, by rw [List.length_cons, hlength]⟩

theorem find?_le {sep s before after : List α} {n : Nat} (h : find? sep s = some n)
    (hs : s = before ++ (sep ++ after)) : n ≤ before.length := by
  induction before generalizing s n with
  | nil =>
      have hprefix : sep.isPrefixOf s = true := List.isPrefixOf_iff_prefix.mpr ⟨after, by simp [hs]⟩
      cases s with
      | nil =>
          rw [find?] at h
          split_ifs at h
          exact (Option.some.inj h).ge
      | cons x xs =>
          rw [find?, if_pos hprefix] at h
          exact (Option.some.inj h).ge
  | cons b before ih =>
      subst hs
      rw [List.cons_append, find?] at h
      split_ifs at h with hprefix
      · obtain rfl : 0 = n := Option.some.inj h
        exact Nat.zero_le _
      · obtain ⟨m, hm, rfl⟩ := Option.map_eq_some_iff.mp h
        exact Nat.succ_le_succ (ih hm rfl)

theorem index_nonneg_iff {s sep : List α} : 0 ≤ index s sep ↔ sep <:+: s := by
  rw [← not_iff_not, ← find?_eq_none_iff, index]
  cases find? sep s with
  | none => simp
  | some n => simp

/-- A slice expression up to an index: out of range exactly when nothing was found. -/
theorem slice_index_isSome_iff {s sep : List α} {n : Nat} (hn : n ≤ s.length) :
    (slice s n (n + index (s.drop n) sep)).isSome = true ↔ sep <:+: s.drop n := by
  rw [← index_nonneg_iff, slice]
  have hfound : index (s.drop n) sep ≤ (s.length - n : Nat) := by
    rw [index]
    cases hfind : find? sep (s.drop n) with
    | none =>
        show (-1 : Int) ≤ _
        omega
    | some m =>
        obtain ⟨before, after, hs, rfl⟩ := exists_of_find? hfind
        have hlength := congrArg List.length hs
        rw [List.length_drop, List.length_append] at hlength
        exact Int.ofNat_le.mpr (by omega)
  split_ifs with hrange
  · exact iff_of_true rfl (by omega)
  · refine iff_of_false (by simp) fun hnonneg => hrange ⟨?_, ?_, ?_⟩
    · omega
    · omega
    · omega

theorem slice_index_of_find? {s sep before value after : List α} (hs : s = before ++ (value ++ (sep ++ after)))
    (h : find? sep (value ++ (sep ++ after)) = some value.length) :
    slice s before.length (before.length + index (s.drop before.length) sep) = some value := by
  subst hs
  rw [List.drop_left, index, h, slice, if_pos]
  · show some (((before ++ (value ++ (sep ++ after))).take (before.length + value.length)).drop before.length) = _
    rw [List.take_length_add_append, List.drop_left, List.take_left]
  · refine ⟨Int.natCast_nonneg _, ?_, ?_⟩
    · exact Int.le_add_of_nonneg_right (Int.natCast_nonneg _)
    · show ((before.length : Int) + value.length) ≤ _
      simp only [List.length_append, Int.natCast_add]
      omega

theorem find?_singleton_of_notMem {x : α} {value : List α} (h : x ∉ value) (after : List α) :
    find? [x] (value ++ ([x] ++ after)) = some value.length := by
  induction value with
  | nil => simp [find?, List.isPrefixOf]
  | cons y value ih =>
      rw [List.mem_cons, not_or] at h
      have hnot : ¬ [x].isPrefixOf (y :: (value ++ ([x] ++ after))) = true := by simp [List.isPrefixOf, h.1]
      rw [List.cons_append, find?, if_neg hnot, ih h.2]
      rfl

theorem find?_append_self (sep after : List α) : find? sep (sep ++ after) = some 0 := by
  cases hs : sep ++ after with
  | nil => simp [find?, (List.append_eq_nil_iff.mp hs).1]
  | cons x xs => rw [find?, if_pos (List.isPrefixOf_iff_prefix.mpr ⟨after, hs⟩)]

theorem find?_append_cons {sep a b : List α} {c : α} (hc : c ∉ sep) (ha : ¬ sep <:+: a) :
    find? sep (a ++ c :: b) = (find? sep b).map (· + (a.length + 1)) := by
  induction a with
  | nil =>
      have hnot : ¬ sep.isPrefixOf (c :: b) = true := by
        rw [List.isPrefixOf_iff_prefix]
        intro h
        exact ha ((List.prefix_append_cons_iff (a := []) hc).mp h).isInfix
      rw [List.nil_append, find?, if_neg hnot]
      rfl
  | cons x a ih =>
      have hnot : ¬ sep.isPrefixOf (x :: (a ++ c :: b)) = true := by
        rw [List.isPrefixOf_iff_prefix]
        intro h
        exact ha ((List.prefix_append_cons_iff (a := x :: a) hc).mp h).isInfix
      rw [List.cons_append, find?, if_neg hnot, ih fun h => ha (List.infix_cons h), Option.map_map]
      rfl

end Search

/-! ### Trimming -/

/-- `strings.TrimLeft` for a set of ASCII characters. -/
def trimLeft (s cutset : List UInt8) : List UInt8 := s.dropWhile (cutset.contains ·)

/-- The encodings of the characters that `unicode.IsSpace` counts as space. -/
def spaces : List (List UInt8) :=
  [[0x09], [0x0a], [0x0b], [0x0c], [0x0d], [0x20], [0xc2, 0x85], [0xc2, 0xa0], [0xe1, 0x9a, 0x80], [0xe2, 0x80, 0x80],
    [0xe2, 0x80, 0x81], [0xe2, 0x80, 0x82], [0xe2, 0x80, 0x83], [0xe2, 0x80, 0x84], [0xe2, 0x80, 0x85],
    [0xe2, 0x80, 0x86], [0xe2, 0x80, 0x87], [0xe2, 0x80, 0x88], [0xe2, 0x80, 0x89], [0xe2, 0x80, 0x8a],
    [0xe2, 0x80, 0xa8], [0xe2, 0x80, 0xa9], [0xe2, 0x80, 0xaf], [0xe2, 0x81, 0x9f], [0xe3, 0x80, 0x80]]

/-- The text without the pieces of `cuts` in front. At most `n` pieces are taken off. -/
def trimPieces (cuts : List (List UInt8)) : Nat → List UInt8 → List UInt8
  | 0, s => s
  | n + 1, s => match cuts.find? (·.isPrefixOf s) with
    | none => s
    | some cut => trimPieces cuts n (s.drop cut.length)

/-- `strings.TrimSpace`. A piece has a byte at least, so the length bounds their number. -/
def trimSpace (s : List UInt8) : List UInt8 :=
  let s := trimPieces spaces s.length s
  (trimPieces (spaces.map List.reverse) s.length s.reverse).reverse

theorem countP_trimPieces {cuts : List (List UInt8)} {p : UInt8 → Bool} (h : ∀ cut ∈ cuts, ∀ b ∈ cut, p b = false)
    (n : Nat) (s : List UInt8) : (trimPieces cuts n s).countP p = s.countP p := by
  induction n generalizing s with
  | zero => rfl
  | succ n ih =>
      rw [trimPieces]
      split
      next => rfl
      next cut hcut =>
        have hprefix : cut.isPrefixOf s = true := by simpa using List.find?_some hcut
        obtain ⟨rest, rfl⟩ := List.isPrefixOf_iff_prefix.mp hprefix
        have hnone : cut.countP p = 0 :=
          List.countP_eq_zero.mpr fun b hb => by simp [h cut (List.mem_of_find?_eq_some hcut) b hb]
        rw [ih, List.drop_left, List.countP_append, hnone, Nat.zero_add]

/-- The byte is part of no space. -/
def isSolid (b : UInt8) : Bool := spaces.all fun cut => !cut.contains b

theorem countP_trimSpace (s : List UInt8) : (trimSpace s).countP isSolid = s.countP isSolid := by
  have hall : (spaces.all fun cut => cut.all fun b => !isSolid b) = true := by decide
  have hspaces : ∀ cut ∈ spaces, ∀ b ∈ cut, isSolid b = false := by simpa using hall
  have hreverse : ∀ cut ∈ spaces.map List.reverse, ∀ b ∈ cut, isSolid b = false := by
    intro cut hcut b hb
    obtain ⟨cut, hmem, rfl⟩ := List.mem_map.mp hcut
    exact hspaces cut hmem b (List.mem_reverse.mp hb)
  rw [trimSpace, List.countP_reverse, countP_trimPieces hreverse, List.countP_reverse, countP_trimPieces hspaces]

theorem trimSpace_space (s : List UInt8) : trimSpace (0x20 :: s) = trimSpace s := by
  have hcut : spaces.find? (·.isPrefixOf (0x20 :: s)) = some [0x20] := by
    simp [spaces, List.find?, List.isPrefixOf]
  have hfirst : trimPieces spaces (0x20 :: s).length (0x20 :: s) = trimPieces spaces s.length s := by
    rw [List.length_cons, trimPieces, hcut]
    rfl
  rw [trimSpace, trimSpace, hfirst]

theorem trimSpace_spaces (k : Nat) (s : List UInt8) : trimSpace (List.replicate k 0x20 ++ s) = trimSpace s := by
  induction k with
  | zero => rfl
  | succ k ih => rw [List.replicate_succ, List.cons_append, trimSpace_space, ih]

example : trimSpace (ofString " a\u00a0b \u2003\r\n") = ofString "a\u00a0b" := by decide

/-- A number in a fixed count of bytes, the most significant one first. -/
def bigEndian : Nat → Nat → List UInt8
  | 0, _ => []
  | count + 1, v => bigEndian count (v / 256) ++ [.ofNat v]

@[simp] theorem length_bigEndian (count v : Nat) : (bigEndian count v).length = count := by
  induction count generalizing v with
  | zero => rfl
  | succ count ih => simp [bigEndian, ih]

theorem bigEndian_inj {count v v' : Nat} (hv : v < 256 ^ count) (hv' : v' < 256 ^ count)
    (h : bigEndian count v = bigEndian count v') : v = v' := by
  induction count generalizing v v' with
  | zero => omega
  | succ count ih =>
      obtain ⟨hinit, hlast⟩ := List.append_inj' h rfl
      have hdiv : v / 256 = v' / 256 :=
        ih (Nat.div_lt_of_lt_mul (by rwa [pow_succ'] at hv)) (Nat.div_lt_of_lt_mul (by rwa [pow_succ'] at hv')) hinit
      have hmod := congrArg UInt8.toNat (List.singleton_inj.mp hlast)
      rw [UInt8.toNat_ofNat', UInt8.toNat_ofNat'] at hmod
      omega

end Bytes
