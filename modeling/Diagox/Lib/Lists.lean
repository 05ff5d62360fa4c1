import Mathlib.Data.List.Infix
import Mathlib.Tactic.Common

/-!
# Lists cut and filtered

When two filters find the same first entries of a list, where the pieces of a list can be, when two lists can be put
together in either order, and the parts of a list between its separators.
-/

universe u

namespace List

variable {α : Type u}

/-- Two filters find the same first `n` entries exactly when they agree on every entry that one of them comes
to with fewer than `n` found. -/
theorem take_filter_eq_iff {p q : α → Bool} {xs : List α} {n : Nat} :
    (xs.filter p).take n = (xs.filter q).take n ↔
      ∀ before x after, xs = before ++ x :: after → (before.filter q).length < n → p x = q x := by
  induction xs generalizing n with
  | nil => simp
  | cons y ys ih =>
      cases n with
      | zero => simp
      | succ n =>
          have hcons : (∀ before x after, y :: ys = before ++ x :: after →
                (before.filter q).length < n + 1 → p x = q x) ↔
              p y = q y ∧ ∀ before x after, ys = before ++ x :: after →
                (before.filter q).length < (if q y then n else n + 1) → p x = q x := by
            constructor
            · intro h
              refine ⟨h [] y ys rfl (Nat.succ_pos n), fun before x after hys hroom => ?_⟩
              refine h (y :: before) x after (by rw [hys]; rfl) ?_
              cases hy : q y with
              | true => simpa [hy] using hroom
              | false => simpa [hy] using hroom
            · rintro ⟨hy, h⟩ before x after hys hroom
              cases before with
              | nil =>
                  obtain ⟨rfl, -⟩ := List.cons.inj hys
                  exact hy
              | cons b before =>
                  obtain ⟨rfl, hrest⟩ := List.cons.inj hys
                  refine h before x after hrest ?_
                  cases hy : q y with
                  | true => simpa [hy] using hroom
                  | false => simpa [hy] using hroom
          rw [hcons]
          cases hp : p y with
          | true =>
              cases hq : q y with
              | true => simpa [hp, hq] using ih
              | false =>
                  -- the first entry found is one that the other filter drops
                  simp only [List.filter_cons, hp, hq, if_true, Bool.true_eq_false, false_and, iff_false]
                  intro h
                  have hmem : y ∈ (ys.filter q).take (n + 1) := h ▸ List.mem_cons_self
                  exact absurd (List.mem_filter.mp (List.mem_of_mem_take hmem)).2 (by simp [hq])
          | false =>
              cases hq : q y with
              | true =>
                  simp only [List.filter_cons, hp, hq, if_true, Bool.false_eq_true, false_and, iff_false]
                  intro h
                  have hmem : y ∈ (ys.filter p).take (n + 1) := h.symm ▸ List.mem_cons_self
                  exact absurd (List.mem_filter.mp (List.mem_of_mem_take hmem)).2 (by simp [hp])
              | false =>
                  rw [List.filter_cons_of_neg (by simp [hp]), List.filter_cons_of_neg (by simp [hq]), ih]
                  simp

/-! ### Pieces -/

theorem prefix_append_cons_iff {sep a b : List α} {c : α} (hc : c ∉ sep) : sep <+: a ++ c :: b ↔ sep <+: a := by
  refine ⟨fun h => ?_, fun h => h.trans (List.prefix_append a (c :: b))⟩
  obtain h | ⟨rest, rfl⟩ := List.prefix_or_prefix_of_prefix h (List.prefix_append a (c :: b))
  · exact h
  · rw [List.prefix_append_right_inj] at h
    cases rest with
    | nil => simp
    | cons d rest =>
        obtain ⟨rfl, -⟩ := List.cons_prefix_cons.mp h
        exact absurd (by simp) hc

theorem infix_append_cons_iff {sep a b : List α} {c : α} (hc : c ∉ sep) :
    sep <:+: a ++ c :: b ↔ sep <:+: a ∨ sep <:+: b := by
  induction a with
  | nil =>
      have hprefix : sep <+: c :: b ↔ sep = [] := by
        rw [← List.prefix_nil]
        exact prefix_append_cons_iff (a := []) hc
      rw [List.nil_append, List.infix_cons_iff, hprefix, List.infix_nil]
  | cons x a ih =>
      have hprefix : sep <+: x :: (a ++ c :: b) ↔ sep <+: x :: a := prefix_append_cons_iff (a := x :: a) hc
      rw [List.cons_append, List.infix_cons_iff, List.infix_cons_iff, hprefix, ih, or_assoc]

theorem eq_of_append_cons_eq {c : α} {a a' b b' : List α} (ha : c ∉ a) (ha' : c ∉ a')
    (h : a ++ c :: b = a' ++ c :: b') : a = a' := by
  induction a generalizing a' with
  | nil =>
      cases a' with
      | nil => rfl
      | cons x a' =>
          obtain ⟨rfl, -⟩ := cons.inj h
          exact absurd mem_cons_self ha'
  | cons x a ih =>
      cases a' with
      | nil =>
          obtain ⟨rfl, -⟩ := cons.inj h
          exact absurd mem_cons_self ha
      | cons x' a' =>
          obtain ⟨rfl, htail⟩ := cons.inj h
          rw [ih (fun hc => ha (mem_cons_of_mem _ hc)) (fun hc => ha' (mem_cons_of_mem _ hc)) htail]

theorem concat_infix_append_cons_iff {c : α} {piece a b : List α} (hpiece : c ∉ piece) (ha : c ∉ a) :
    piece ++ [c] <:+: a ++ c :: b ↔ piece <:+ a ∨ piece ++ [c] <:+: b := by
  have hprefix : ∀ a', c ∉ a' → (piece ++ [c] <+: a' ++ c :: b ↔ piece = a') := by
    intro a' ha'
    constructor
    · rintro ⟨rest, hrest⟩
      rw [append_assoc] at hrest
      exact eq_of_append_cons_eq hpiece ha' hrest
    · rintro rfl
      exact ⟨b, by simp⟩
  induction a with
  | nil => rw [nil_append, infix_cons_iff, ← nil_append (c :: b), hprefix [] not_mem_nil, suffix_nil]
  | cons x a ih =>
      have hrest := ih fun hc => ha (mem_cons_of_mem _ hc)
      have hfirst := hprefix _ ha
      rw [cons_append] at hfirst
      rw [cons_append, infix_cons_iff, hfirst, suffix_cons_iff, or_assoc]
      exact or_congr_right hrest

/-! ### Words that commute -/

/-- Both lists are the same one, some number of times each. -/
def SameRepeated (xs ys : List α) : Prop :=
  ∃ (word : List α) (m n : Nat), xs = (replicate m word).flatten ∧ ys = (replicate n word).flatten

theorem sameRepeated_nil_left (ys : List α) : SameRepeated [] ys := ⟨ys, 0, 1, rfl, by simp⟩

theorem sameRepeated_nil_right (xs : List α) : SameRepeated xs [] := ⟨xs, 1, 0, by simp, rfl⟩

theorem flatten_replicate_add (word : List α) (m n : Nat) :
    (replicate (m + n) word).flatten = (replicate m word).flatten ++ (replicate n word).flatten := by
  rw [replicate_add, flatten_append]

theorem SameRepeated.append_comm {xs ys : List α} (h : SameRepeated xs ys) : xs ++ ys = ys ++ xs := by
  obtain ⟨word, m, n, rfl, rfl⟩ := h
  rw [← flatten_replicate_add, ← flatten_replicate_add, Nat.add_comm]

/-- Two lists give the same list in either order exactly when both repeat one list. -/
theorem append_comm_iff_sameRepeated {xs ys : List α} : xs ++ ys = ys ++ xs ↔ SameRepeated xs ys := by
  refine ⟨fun h => ?_, SameRepeated.append_comm⟩
  -- the shorter one is taken off the longer one
  have hshort : ∀ total (xs ys : List α), xs.length + ys.length ≤ total → xs ++ ys = ys ++ xs → SameRepeated xs ys := by
    intro total
    induction total with
    | zero =>
        intro xs ys hlen _
        obtain rfl : xs = [] := length_eq_zero_iff.mp (by omega)
        exact sameRepeated_nil_left ys
    | succ total ih =>
        intro xs ys hlen h
        by_cases hxs : xs = []
        · subst hxs
          exact sameRepeated_nil_left ys
        by_cases hys : ys = []
        · subst hys
          exact sameRepeated_nil_right xs
        have hposx := length_pos_iff.mpr hxs
        have hposy := length_pos_iff.mpr hys
        obtain ⟨zs, rfl, hzs⟩ | ⟨zs, rfl, hzs⟩ := append_eq_append_iff.mp h
        · rw [append_assoc, append_cancel_left_eq] at h
          obtain ⟨word, m, n, hx, hz⟩ := ih xs zs (by simp only [length_append] at hlen; omega) h
          exact ⟨word, m, m + n, hx, by rw [flatten_replicate_add, ← hx, ← hz]⟩
        · rw [append_assoc, append_cancel_left_eq] at h
          obtain ⟨word, m, n, hz, hy⟩ := ih zs ys (by simp only [length_append] at hlen; omega) h
          exact ⟨word, n + m, n, by rw [flatten_replicate_add, ← hz, ← hy], hy⟩
  exact hshort _ xs ys (Nat.le_refl _) h

/-! ### Parts between separators -/

section Split

variable [BEq α] [LawfulBEq α]

theorem notMem_of_mem_splitOn {a : α} {l part : List α} (h : part ∈ l.splitOn a) : a ∉ part := by
  induction l generalizing part with
  | nil =>
      obtain rfl : part = [] := by simpa using h
      exact not_mem_nil
  | cons x l ih =>
      unfold splitOn at h ih
      rw [splitOnP_cons_eq_if_modifyHead] at h
      split_ifs at h with hx
      · obtain rfl | h := mem_cons.mp h
        · exact not_mem_nil
        · exact ih h
      · obtain ⟨first, rest, hsplit⟩ := exists_cons_of_ne_nil (splitOnP_ne_nil (· == a) l)
        rw [hsplit, modifyHead_cons] at h
        obtain rfl | h := mem_cons.mp h
        · have hfirst : a ∉ first := ih (hsplit ▸ mem_cons_self)
          have hne : a ≠ x := fun heq => hx (by simp [heq])
          simp [hne, hfirst]
        · exact ih (hsplit ▸ mem_cons_of_mem _ h)

theorem flatMap_splitOn (a : α) (l : List α) : (l.splitOn a).flatMap (a :: ·) = a :: l := by
  have hjoin : ∀ parts : List (List α), parts ≠ [] → parts.flatMap (a :: ·) = a :: [a].intercalate parts := by
    intro parts hparts
    induction parts with
    | nil => exact absurd rfl hparts
    | cons part parts ih =>
        obtain rfl | hne := eq_or_ne parts []
        · simp
        · rw [flatMap_cons, ih hne, intercalate_cons_of_ne_nil hne]
          simp
  rw [hjoin _ (splitOn_ne_nil a l), intercalate_splitOn]

end Split

end List
