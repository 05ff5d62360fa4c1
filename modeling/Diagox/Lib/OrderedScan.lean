import Mathlib.Data.List.Pairwise
import Mathlib.Data.List.Sort
import Mathlib.Tactic.Common

/-!
# Scanning a list in parts

The entries of a list are numbered in order and sorted away into classes. To scan two classes in the order
of the list again, their entries are put together and sorted by number. What comes out is the list without
the entries of other classes, so a search in it is a search in the list. The last lemma is the rule for the
loop that sorts the entries away.
-/

universe u v

namespace OrderedScan

variable {α : Type u} {β : Type v}

theorem perm_filter_append (xs : List α) (p q : α → Bool) (hpq : ∀ x ∈ xs, ¬ (p x ∧ q x)) :
    (xs.filter p ++ xs.filter q).Perm (xs.filter fun x => p x || q x) := by
  induction xs with
  | nil => exact List.Perm.nil
  | cons x xs ih =>
      have ih := ih fun y hy => hpq y (List.mem_cons_of_mem x hy)
      have hx := hpq x List.mem_cons_self
      cases hp : p x with
      | true =>
          have hq : q x = false := by simpa [hp] using hx
          simpa [List.filter_cons, hp, hq] using ih
      | false =>
          cases hq : q x with
          | true => simpa [List.filter_cons, hp, hq] using List.perm_middle.trans (ih.cons x)
          | false => simpa [List.filter_cons, hp, hq] using ih

/-- Two classes put together and sorted by number are the entries of both, in the order of the list. -/
theorem insertionSort_filter_append (f : α → β) (num : β → Nat) {xs : List α}
    (hxs : xs.Pairwise fun x y => num (f x) < num (f y)) {p q : α → Bool} (hpq : ∀ x ∈ xs, ¬ (p x ∧ q x)) :
    ((xs.filter p).map f ++ (xs.filter q).map f).insertionSort (fun a b => num a ≤ num b) =
      (xs.filter fun x => p x || q x).map f := by
  have : IsTrans β fun a b => num a ≤ num b := ⟨fun _ _ _ => Nat.le_trans⟩
  have : Std.Total fun a b : β => num a ≤ num b := ⟨fun _ _ => Nat.le_total _ _⟩
  have hsorted : ((xs.filter fun x => p x || q x).map f).Pairwise fun a b => num a < num b :=
    List.pairwise_map.mpr (hxs.sublist List.filter_sublist)
  have hperm := List.map_append ▸ (perm_filter_append xs p q hpq).map f
  have hmerged := List.perm_insertionSort (fun a b => num a ≤ num b) ((xs.filter p).map f ++ (xs.filter q).map f)
  refine List.Perm.eq_of_pairwise (fun a b ha hb hab hba => ?_) (List.pairwise_insertionSort _ _)
    (hsorted.imp Nat.le_of_lt) (hmerged.trans hperm)
  -- numbers tell the entries apart
  have ha' : a ∈ (xs.filter fun x => p x || q x).map f := (hmerged.trans hperm).mem_iff.mp ha
  have heq : num a = num b := Nat.le_antisymm hab hba
  by_contra hne
  have hdistinct : ((xs.filter fun x => p x || q x).map f).Pairwise fun a b => num a ≠ num b :=
    hsorted.imp fun h => Nat.ne_of_lt h
  have : Std.Symm fun a b : β => num a ≠ num b := ⟨fun _ _ h => h.symm⟩
  exact hdistinct.forall ha' hb hne heq

theorem find?_zipIdx (xs : List α) (p : α → Bool) (k : Nat) :
    ((xs.zipIdx k).find? fun x => p x.1).map Prod.fst = xs.find? p := by
  induction xs generalizing k with
  | nil => rfl
  | cons x xs ih =>
      cases h : p x with
      | true => simp [List.zipIdx_cons, h]
      | false => simpa [List.zipIdx_cons, List.find?_cons, h] using ih (k + 1)

theorem pairwise_zipIdx (xs : List α) (k : Nat) : (xs.zipIdx k).Pairwise fun x y => x.2 < y.2 := by
  induction xs generalizing k with
  | nil => exact List.Pairwise.nil
  | cons x xs ih =>
      rw [List.zipIdx_cons, List.pairwise_cons]
      refine ⟨fun y hy => ?_, ih (k + 1)⟩
      have := List.le_snd_of_mem_zipIdx hy
      omega

/-- What one step of a fold that may fail builds from the elements done, the fold builds from all. -/
theorem foldlM_invariant {σ : Type u} {ε : Type v} {f : σ → α → Except ε σ} {Inv : List α → σ → Prop}
    (hstep : ∀ done s x s', Inv done s → f s x = .ok s' → Inv (done ++ [x]) s') {xs done : List α} {s s' : σ}
    (hs : Inv done s) (hfold : xs.foldlM f s = .ok s') : Inv (done ++ xs) s' := by
  induction xs generalizing done s with
  | nil =>
      obtain rfl : s = s' := by simpa [pure, Except.pure] using hfold
      simpa using hs
  | cons x xs ih =>
      rw [List.foldlM_cons] at hfold
      cases hx : f s x with
      | error err => simp [hx, bind, Except.bind] at hfold
      | ok next =>
          rw [hx] at hfold
          simpa using ih (hstep done s x next hs hx) hfold

end OrderedScan
