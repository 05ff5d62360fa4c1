import Mathlib.Data.List.Infix
import Mathlib.Data.List.TakeWhile
import Mathlib.Data.String.Basic

/-!
# The strings package

The functions of Go's `strings` package, on the characters of a string. `equalFold` and `toLower` fold the
letters whose folded form is in ASCII, which decides every comparison with an ASCII text.
-/

namespace Strings

/-- `unicode.IsSpace`. -/
def isSpace (c : Char) : Bool :=
  let n := c.toNat
  (9 ≤ n && n ≤ 13) || n = 32 || n = 0x85 || n = 0xA0 || n = 0x1680 || (0x2000 ≤ n && n ≤ 0x200A) ||
    n = 0x2028 || n = 0x2029 || n = 0x202F || n = 0x205F || n = 0x3000

def trimSpace (s : String) : String :=
  .ofList ((s.toList.dropWhile isSpace).reverse.dropWhile isSpace).reverse

def hasPrefix (s pre : String) : Bool := pre.toList.isPrefixOf s.toList

def hasSuffix (s suf : String) : Bool := suf.toList.isSuffixOf s.toList

def trimPrefix (s pre : String) : String := if hasPrefix s pre then .ofList (s.toList.drop pre.length) else s

def contains (s sub : String) : Bool := decide (sub.toList <:+: s.toList)

/-- `strings.Cut` at one character: the text before and after its first occurrence. -/
def cut (s : String) (sep : Char) : Option (String × String) :=
  if sep ∈ s.toList then
    some (.ofList (s.toList.takeWhile (· != sep)), .ofList ((s.toList.dropWhile (· != sep)).drop 1))
  else none

/-- `strings.Split` at one character. -/
def split (s : String) (sep : Char) : List String := (s.toList.splitOn sep).map .ofList

/-- The number that decimal digits denote. -/
def decimal (digits : List Char) : Option Nat :=
  if digits ≠ [] ∧ digits.all Char.isDigit = true then
    some (digits.foldl (fun n d => 10 * n + (d.toNat - '0'.toNat)) 0)
  else none

/-- `strconv.Atoi`, for an `int` of 64 bits. -/
def atoi (s : String) : Option Int :=
  match s.toList with
  | '-' :: digits => ((decimal digits).filter (· ≤ 9223372036854775808)).map fun n => -(n : Int)
  | '+' :: digits => ((decimal digits).filter (· < 9223372036854775808)).map Int.ofNat
  | digits => ((decimal digits).filter (· < 9223372036854775808)).map Int.ofNat

/-- `unicode.ToLower`, for the characters whose lower case is an ASCII letter: the dotted capital I and the
Kelvin sign are the two outside ASCII. -/
def lowerChar (c : Char) : Char :=
  if c = '\u0130' then 'i' else if c = '\u212a' then 'k' else c.toLower

def toLower (s : String) : String := .ofList (s.toList.map lowerChar)

/-- Simple case folding onto ASCII: as `lowerChar`, but the dotted capital I folds to itself only, and the
long s folds to s. -/
def foldChar (c : Char) : Char :=
  if c = '\u212a' then 'k' else if c = '\u017f' then 's' else c.toLower

def equalFold (s t : String) : Bool := s.toList.map foldChar == t.toList.map foldChar

/-! ### White space -/

theorem trimSpace_trimSpace (s : String) : trimSpace (trimSpace s) = trimSpace s := by
  have hdrop : ∀ l : List Char, (l.dropWhile isSpace).dropWhile isSpace = l.dropWhile isSpace := fun l =>
    List.dropWhile_eq_self_iff.mpr (List.dropWhile_get_zero_not isSpace l)
  let front := s.toList.dropWhile isSpace
  let kept := (front.reverse.dropWhile isSpace).reverse
  have hprefix : kept <+: front := by
    rw [← List.reverse_suffix, List.reverse_reverse]
    exact List.dropWhile_suffix isSpace
  have hfront : kept.dropWhile isSpace = kept := by
    cases hkept : kept with
    | nil => rfl
    | cons c rest =>
        rw [hkept] at hprefix
        obtain ⟨tail, htail⟩ := hprefix
        have hhead := List.head?_dropWhile_not isSpace s.toList
        rw [show s.toList.dropWhile isSpace = c :: (rest ++ tail) from htail.symm] at hhead
        exact List.dropWhile_cons_of_neg (by simpa using hhead)
  have hback : (kept.reverse.dropWhile isSpace).reverse = kept := by rw [List.reverse_reverse, hdrop]
  show String.ofList (((String.ofList kept).toList.dropWhile isSpace).reverse.dropWhile isSpace).reverse = .ofList kept
  rw [String.toList_ofList, hfront, hback]

/-- A text stays as it is exactly when neither end of it is white space. -/
theorem trimSpace_eq_self_iff {s : String} : trimSpace s = s ↔
    (∀ c, s.toList.head? = some c → isSpace c = false) ∧ ∀ c, s.toList.getLast? = some c → isSpace c = false := by
  have hdrop : ∀ l : List Char, l.dropWhile isSpace = l ↔ ∀ c, l.head? = some c → isSpace c = false := by
    intro l
    cases l with
    | nil => simp
    | cons a l =>
        by_cases ha : isSpace a = true
        · refine iff_of_false (fun h => ?_) fun h => ?_
          · rw [List.dropWhile_cons_of_pos ha] at h
            have hlen := (List.dropWhile_sublist (p := isSpace) (l := l)).length_le
            rw [h, List.length_cons] at hlen
            omega
          · rw [h a rfl] at ha
            cases ha
        · rw [List.dropWhile_cons_of_neg ha]
          simpa using ha
  have hfront : ∀ l : List Char, (l.dropWhile isSpace).reverse.dropWhile isSpace = l.reverse ↔
      l.dropWhile isSpace = l ∧ l.reverse.dropWhile isSpace = l.reverse := by
    intro l
    constructor
    · intro h
      have hlen := (List.dropWhile_sublist (p := isSpace) (l := (l.dropWhile isSpace).reverse)).length_le
      rw [h, List.length_reverse, List.length_reverse] at hlen
      have hself := (List.dropWhile_suffix (p := isSpace) (l := l)).eq_of_length_le hlen
      rw [hself] at h
      exact ⟨hself, h⟩
    · rintro ⟨hself, h⟩
      rw [hself, h]
  rw [← String.toList_inj, trimSpace, String.toList_ofList, ← List.reverse_inj, List.reverse_reverse, hfront, hdrop,
    hdrop, List.head?_reverse]

theorem trimSpace_cons {c : Char} (hc : isSpace c = true) (s : String) :
    trimSpace (String.singleton c ++ s) = trimSpace s := by
  unfold trimSpace
  rw [String.toList_append, String.toList_singleton, List.singleton_append, List.dropWhile_cons_of_pos hc]

example : trimSpace " Bearer  t0ken\n" = "Bearer  t0ken" := by decide

example : atoi "-12" = some (-12) ∧ atoi "play" = none := by decide

example : cut "Bearer a b" ' ' = some ("Bearer", "a b") := by decide

end Strings
