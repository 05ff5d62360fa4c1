import Diagox.Lib.Lists
import Mathlib.Data.List.Basic
import Mathlib.Logic.Function.Iterate
import Mathlib.Tactic.Common

/-!
# The path package

`Clean` and `Join` of Go's `path` package, on the elements between the slashes of a path. Where the elements of a path
lead is the same from everywhere: some steps up, and from there some steps down. So a name that is joined to a directory
stays in it unless it goes up from it, or comes back the same way.
-/

namespace Path

/-- One element of a path, with the elements before it as they are kept, the last one in front. -/
def cleanStep (rooted : Bool) (kept : List (List Char)) (element : List Char) : List (List Char) :=
  if element = [] ∨ element = ['.'] then kept
  else if element = ['.', '.'] then
    match kept with
    | [] => if rooted then [] else [element]
    | last :: before => if last = ['.', '.'] then element :: kept else before
  else element :: kept

def clean (path : String) : String :=
  let rooted := path.toList.head? == some '/'
  let kept := ((path.toList.splitOn '/').foldl (cleanStep rooted) []).reverse
  let body := ['/'].intercalate kept
  if rooted then .ofList ('/' :: body) else if kept = [] then "." else .ofList body

def join (elements : List String) : String :=
  match elements.filter (· ≠ "") with
  | [] => ""
  | elements => clean (.intercalate "/" elements)

example : clean "/srv/../recordings//./a.wav" = "/recordings/a.wav" := by decide

example : join ["/srv", "", "../../a"] = "/a" := by decide

abbrev dotdot : List Char := ['.', '.']

/-! ### One element -/

section Step

variable {rooted : Bool} {kept before : List (List Char)} {element last : List Char}

theorem cleanStep_blank (h : element = [] ∨ element = ['.']) : cleanStep rooted kept element = kept := if_pos h

/-- An element that is not a way of the path but a place. -/
structure Ordinary (element : List Char) : Prop where
  ne_nil : element ≠ []
  ne_dot : element ≠ ['.']
  ne_dotdot : element ≠ dotdot

theorem cleanStep_ordinary (h : Ordinary element) : cleanStep rooted kept element = element :: kept := by
  unfold cleanStep
  rw [if_neg (not_or.mpr ⟨h.ne_nil, h.ne_dot⟩), if_neg h.ne_dotdot]

theorem cleanStep_dotdot_cons (h : last ≠ dotdot) : cleanStep rooted (last :: before) dotdot = before := by
  unfold cleanStep
  rw [if_neg (by decide), if_pos rfl]
  exact if_neg h

theorem cleanStep_dotdot_replicate (k : Nat) :
    cleanStep false (List.replicate k dotdot) dotdot = List.replicate (k + 1) dotdot := by
  cases k <;> rfl

theorem element_cases (element : List Char) :
    (element = [] ∨ element = ['.']) ∨ element = dotdot ∨ Ordinary element := by
  by_cases hblank : element = [] ∨ element = ['.']
  · exact .inl hblank
  by_cases hdotdot : element = dotdot
  · exact .inr (.inl hdotdot)
  · exact .inr (.inr ⟨fun h => hblank (.inl h), fun h => hblank (.inr h), hdotdot⟩)

end Step

/-! ### Many elements -/

/-- So many elements up from what is kept. -/
def climb (rooted : Bool) (up : Nat) (kept : List (List Char)) : List (List Char) :=
  (cleanStep rooted · dotdot)^[up] kept

theorem foldl_cleanStep (elements : List (List Char)) :
    ∃ up rest, (∀ e ∈ rest, Ordinary e ∧ e ∈ elements) ∧
      elements.foldl (cleanStep false) [] = rest ++ List.replicate up dotdot ∧
      ∀ rooted kept, elements.foldl (cleanStep rooted) kept = rest ++ climb rooted up kept := by
  induction elements using List.reverseRecOn with
  | nil => exact ⟨0, [], nofun, rfl, fun _ _ => rfl⟩
  | append_singleton elements element ih =>
      obtain ⟨up, rest, hrest, hfree, hkept⟩ := ih
      have hmem : ∀ e ∈ rest, Ordinary e ∧ e ∈ elements ++ [element] := fun e he =>
        ⟨(hrest e he).1, List.mem_append_left _ (hrest e he).2⟩
      simp only [List.foldl_append, List.foldl_cons, List.foldl_nil, hfree, hkept]
      obtain hblank | rfl | hordinary := element_cases element
      · refine ⟨up, rest, hmem, cleanStep_blank hblank, fun rooted kept => cleanStep_blank hblank⟩
      · cases rest with
        | nil =>
            refine ⟨up + 1, [], nofun, cleanStep_dotdot_replicate up, fun rooted kept => ?_⟩
            exact (Function.iterate_succ_apply' (cleanStep rooted · dotdot) up kept).symm
        | cons last before =>
            have hlast : last ≠ dotdot := (hrest last List.mem_cons_self).1.ne_dotdot
            refine ⟨up, before, fun e he => hmem e (List.mem_cons_of_mem _ he), cleanStep_dotdot_cons hlast, ?_⟩
            exact fun rooted kept => cleanStep_dotdot_cons hlast
      · refine ⟨up, element :: rest, ?_, cleanStep_ordinary hordinary, fun rooted kept => cleanStep_ordinary hordinary⟩
        intro e he
        obtain rfl | he := List.mem_cons.mp he
        · exact ⟨hordinary, List.mem_append_right _ List.mem_cons_self⟩
        · exact hmem e he

section Climb

variable {rooted : Bool} {places : List (List Char)} {up ups : Nat}

theorem climb_succ (rooted : Bool) (up : Nat) (kept : List (List Char)) :
    climb rooted (up + 1) kept = climb rooted up (cleanStep rooted kept dotdot) := rfl

theorem climb_places (hplaces : dotdot ∉ places) (rooted : Bool) (up : Nat) (below : List (List Char))
    (h : up ≤ places.length) : climb rooted up (places ++ below) = places.drop up ++ below := by
  induction up generalizing places with
  | zero => rfl
  | succ up ih =>
      cases places with
      | nil => exact absurd h (Nat.not_succ_le_zero up)
      | cons last before =>
          obtain ⟨hlast, hbefore⟩ := not_or.mp (List.mem_cons.not.mp hplaces)
          rw [climb_succ, List.cons_append, cleanStep_dotdot_cons (Ne.symm hlast),
            ih hbefore (Nat.le_of_succ_le_succ h), List.drop_succ_cons]

theorem climb_root (up : Nat) : climb true up [] = [] := by
  induction up with
  | zero => rfl
  | succ up ih => exact ih

theorem climb_replicate (up ups : Nat) :
    climb false up (List.replicate ups dotdot) = List.replicate (up + ups) dotdot := by
  induction up generalizing ups with
  | zero => rw [Nat.zero_add]; rfl
  | succ up ih => rw [climb_succ, cleanStep_dotdot_replicate, ih, Nat.add_right_comm, Nat.add_assoc]

theorem climb_add (rooted : Bool) (up up' : Nat) (kept : List (List Char)) :
    climb rooted (up + up') kept = climb rooted up (climb rooted up' kept) :=
  Function.iterate_add_apply _ up up' kept

theorem climb_rooted (hplaces : dotdot ∉ places) (up : Nat) : climb true up places = places.drop up := by
  by_cases hup : up ≤ places.length
  · have h := climb_places hplaces true up [] hup
    rwa [List.append_nil, List.append_nil] at h
  · obtain ⟨more, rfl⟩ := Nat.exists_eq_add_of_le' (Nat.le_of_not_le hup)
    have h := climb_places hplaces true places.length [] le_rfl
    rw [List.append_nil, List.append_nil, List.drop_length] at h
    rw [climb_add, h, climb_root, List.drop_of_length_le (Nat.le_add_left _ _)]

theorem climb_relative (hplaces : dotdot ∉ places) (hup : places.length ≤ up) :
    climb false up (places ++ List.replicate ups dotdot) = List.replicate (up - places.length + ups) dotdot := by
  obtain ⟨more, rfl⟩ := Nat.exists_eq_add_of_le' hup
  rw [climb_add, climb_places hplaces false _ _ le_rfl, List.drop_length, List.nil_append, climb_replicate,
    Nat.add_sub_cancel]

end Climb

/-! ### Below a directory -/

section Below

variable {rooted : Bool} {places rest : List (List Char)} {up ups : Nat}

/-- From what is kept of a directory, elements lead to a place below it if and only if they do not go up from it, or
only so far up as there are places, and back the same way. -/
theorem below_iff (hplaces : dotdot ∉ places) (hroot : rooted = true → ups = 0) (hrest : dotdot ∉ rest) :
    (∃ top, rest ++ climb rooted up (places ++ List.replicate ups dotdot) =
        top ++ (places ++ List.replicate ups dotdot) ∧ top.getLast? ≠ some dotdot) ↔
      (rooted = true ∨ up ≤ places.length) ∧ places.take up <:+ rest := by
  have hback : ∀ below, (∃ top, rest ++ (places.drop up ++ below) = top ++ (places ++ below) ∧
      top.getLast? ≠ some dotdot) ↔ places.take up <:+ rest := by
    intro below
    have hsplit : ∀ top : List (List Char),
        top ++ (places ++ below) = top ++ places.take up ++ (places.drop up ++ below) := by
      intro top
      rw [List.append_assoc, ← List.append_assoc (places.take up), List.take_append_drop]
    constructor
    · rintro ⟨top, htop, -⟩
      rw [hsplit] at htop
      exact ⟨top, (List.append_cancel_right htop).symm⟩
    · rintro ⟨top, rfl⟩
      refine ⟨top, (hsplit top).symm, fun hlast => hrest ?_⟩
      exact List.mem_append_left _ (List.mem_of_getLast? hlast)
  cases rooted with
  | true =>
      have hups := hroot rfl
      subst hups
      rw [List.replicate_zero, List.append_nil, climb_rooted hplaces]
      simpa using hback []
  | false =>
      by_cases hup : up ≤ places.length
      · rw [climb_places hplaces false up _ hup, hback]
        simp [hup]
      · obtain ⟨more, rfl⟩ := Nat.exists_eq_add_of_lt (Nat.lt_of_not_le hup)
        simp only [hup, Bool.false_eq_true, or_self, false_and, iff_false]
        rintro ⟨top, htop, hlast⟩
        rw [climb_relative hplaces (by omega), ← List.append_assoc, List.replicate_add, ← List.append_assoc] at htop
        have hends := congrArg List.getLast? (List.append_cancel_right htop)
        rw [show places.length + more + 1 - places.length = more + 1 by omega, List.replicate_succ',
          ← List.append_assoc, List.getLast?_concat] at hends
        obtain rfl | hne := eq_or_ne places []
        · rw [List.append_nil] at hends
          exact hlast hends.symm
        · rw [List.getLast?_append_of_ne_nil _ hne] at hends
          exact hplaces (List.mem_of_getLast? hends.symm)

end Below

/-! ### Paths -/

def rooted (path : String) : Bool := path.toList.head? == some '/'

/-- What `clean` keeps of a path, the last element in front. -/
def stack (path : String) : List (List Char) := (path.toList.splitOn '/').foldl (cleanStep (rooted path)) []

/-- The names between the slashes of a path. -/
def elements (path : String) : List (List Char) :=
  (path.toList.splitOn '/').filter fun e => decide (e ≠ [] ∧ e ≠ ['.'])

/-- The places of a name by itself, as far as they are below where it is taken from, and the ways up before them. -/
def relative (name : String) : List (List Char) := ((name.toList.splitOn '/').foldl (cleanStep false) []).reverse

/-- A path is below a directory: relative to it, it does not start by going up. -/
def Within (dir path : String) : Prop :=
  rooted path = rooted dir ∧ ∃ rest, elements path = elements dir ++ rest ∧ rest.head? ≠ some dotdot

/-- How often a name goes up from where it is taken. -/
def ups (name : String) : Nat := ((relative name).takeWhile (· == dotdot)).length

/-- A name goes up from a directory only so far as there are places, and back the same way. -/
def StaysIn (dir name : String) : Prop :=
  (rooted dir = true ∨ ups name ≤ ((elements dir).filter (· != dotdot)).length) ∧
    (elements dir).drop ((elements dir).length - ups name) <+: (relative name).drop (ups name)

instance (dir name : String) : Decidable (StaysIn dir name) := inferInstanceAs (Decidable (_ ∧ _))

section Clean

variable {path dir name : String}

theorem stack_spec (path : String) : ∃ places up, stack path = places ++ List.replicate up dotdot ∧
    (rooted path = true → up = 0) ∧ ∀ e ∈ places, Ordinary e ∧ '/' ∉ e := by
  obtain ⟨up, rest, hrest, -, hkept⟩ := foldl_cleanStep (path.toList.splitOn '/')
  have hplaces : ∀ e ∈ rest, Ordinary e ∧ '/' ∉ e := fun e he =>
    ⟨(hrest e he).1, List.notMem_of_mem_splitOn (hrest e he).2⟩
  unfold stack
  rw [hkept]
  cases rooted path with
  | true => exact ⟨rest, 0, by rw [climb_root]; rfl, fun _ => rfl, hplaces⟩
  | false => exact ⟨rest, up, by rw [← List.replicate_zero, climb_replicate]; rfl, nofun, hplaces⟩

theorem mem_stack {e : List Char} (he : e ∈ stack path) : e ≠ [] ∧ e ≠ ['.'] ∧ '/' ∉ e := by
  obtain ⟨places, up, hstack, -, hplaces⟩ := stack_spec path
  rw [hstack] at he
  obtain he | he := List.mem_append.mp he
  · exact ⟨(hplaces e he).1.ne_nil, (hplaces e he).1.ne_dot, (hplaces e he).2⟩
  · rw [List.eq_of_mem_replicate he]
    decide

theorem clean_eq (path : String) : clean path =
    if rooted path then .ofList ('/' :: ['/'].intercalate (stack path).reverse)
    else if (stack path).reverse = [] then "." else .ofList (['/'].intercalate (stack path).reverse) := rfl

/-- A clean path is made of what is kept. -/
theorem clean_spec (path : String) : rooted (clean path) = rooted path ∧
    ∃ blank : List (List Char), (∀ e ∈ blank, e = [] ∨ e = ['.']) ∧
      (clean path).toList.splitOn '/' = blank ++ (stack path).reverse := by
  have hslash : ∀ e ∈ (stack path).reverse, '/' ∉ e := fun e he => (mem_stack (List.mem_reverse.mp he)).2.2
  have hsplit : (stack path).reverse ≠ [] →
      (['/'].intercalate (stack path).reverse).splitOn '/' = (stack path).reverse :=
    fun hne => List.splitOn_intercalate '/' hslash hne
  have hcons : ∀ l : List Char, ('/' :: l).splitOn '/' = [] :: l.splitOn '/' := fun l =>
    List.splitOn_append_cons_self_of_not_mem List.not_mem_nil l
  rw [clean_eq]
  cases hrooted : rooted path with
  | true =>
      rw [if_pos rfl]
      refine ⟨?_, ?_⟩
      · rw [rooted, String.toList_ofList]
        rfl
      rw [String.toList_ofList, hcons]
      by_cases hempty : (stack path).reverse = []
      · rw [hempty]
        exact ⟨[[], []], by simp, rfl⟩
      · rw [hsplit hempty]
        exact ⟨[[]], by simp, rfl⟩
  | false =>
      rw [if_neg Bool.false_ne_true]
      by_cases hempty : (stack path).reverse = []
      · rw [if_pos hempty, hempty]
        exact ⟨by decide, [['.']], by simp, by decide⟩
      · rw [if_neg hempty, String.toList_ofList, hsplit hempty]
        refine ⟨?_, [], nofun, rfl⟩
        rw [rooted, String.toList_ofList]
        obtain ⟨first, tail, hkept⟩ := List.exists_cons_of_ne_nil hempty
        have hfirst : first ∈ stack path := List.mem_reverse.mp (hkept ▸ List.mem_cons_self)
        obtain ⟨c, cs, rfl⟩ := List.exists_cons_of_ne_nil (mem_stack hfirst).1
        have hc : c ≠ '/' := by
          rintro rfl
          exact (mem_stack hfirst).2.2 List.mem_cons_self
        rw [hkept]
        cases tail <;> simp [List.intercalate_cons_cons, hc]

theorem foldl_blank {blank : List (List Char)} (hblank : ∀ e ∈ blank, e = [] ∨ e = ['.']) (rooted : Bool)
    (kept : List (List Char)) : blank.foldl (cleanStep rooted) kept = kept := by
  induction blank with
  | nil => rfl
  | cons e blank ih =>
      rw [List.foldl_cons, cleanStep_blank (hblank e List.mem_cons_self)]
      exact ih fun e he => hblank e (List.mem_cons_of_mem _ he)

theorem elements_clean (path : String) : elements (clean path) = (stack path).reverse := by
  obtain ⟨-, blank, hblank, hsplit⟩ := clean_spec path
  have hkept : ∀ e ∈ (stack path).reverse, decide (e ≠ [] ∧ e ≠ ['.']) = true := fun e he =>
    decide_eq_true ⟨(mem_stack (List.mem_reverse.mp he)).1, (mem_stack (List.mem_reverse.mp he)).2.1⟩
  have hdropped : blank.filter (fun e => decide (e ≠ [] ∧ e ≠ ['.'])) = [] := by
    rw [List.filter_eq_nil_iff]
    intro e he
    obtain rfl | rfl := hblank e he
    · decide
    · decide
  rw [elements, hsplit, List.filter_append, hdropped, List.filter_eq_self.mpr hkept]
  rfl

theorem stack_clean (path : String) : stack (clean path) = stack path := by
  obtain ⟨hrooted, blank, hblank, hsplit⟩ := clean_spec path
  obtain ⟨places, up, hstack, hroot, hplaces⟩ := stack_spec path
  have hpush : ∀ kept : List (List Char), places.reverse.foldl (cleanStep (rooted path)) kept = places ++ kept := by
    intro kept
    rw [List.foldl_reverse]
    clear hstack
    induction places with
    | nil => rfl
    | cons e places ih =>
        rw [List.foldr_cons, ih fun e he => hplaces e (List.mem_cons_of_mem _ he)]
        exact cleanStep_ordinary (hplaces e List.mem_cons_self).1
  have hups : (List.replicate up dotdot).foldl (cleanStep (rooted path)) [] = List.replicate up dotdot := by
    cases hrooted' : rooted path with
    | true => rw [hroot hrooted']; rfl
    | false =>
        clear hstack hroot
        induction up with
        | zero => rfl
        | succ up ih =>
            rw [List.replicate_succ', List.foldl_append, ih, List.foldl_cons, cleanStep_dotdot_replicate,
              List.replicate_succ']
            rfl
  rw [stack, hsplit, hrooted, List.foldl_append, foldl_blank hblank, hstack, List.reverse_append,
    List.reverse_replicate, List.foldl_append, hups, hpush]

theorem clean_clean (path : String) : clean (clean path) = clean path := by
  rw [clean_eq (clean path), stack_clean, (clean_spec path).1, clean_eq path]

/-! ### Names in a directory -/

theorem join_spec (hdir : clean dir = dir) (name : String) : clean (join [dir, name]) = join [dir, name] ∧
    rooted (join [dir, name]) = rooted dir ∧
    elements (join [dir, name]) = ((name.toList.splitOn '/').foldl (cleanStep (rooted dir)) (stack dir)).reverse := by
  have hne : dir ≠ "" := by
    rintro rfl
    exact absurd hdir (by decide)
  by_cases hname : name = ""
  · subst hname
    have hjoin : join [dir, ""] = clean dir := by simp [join, hne]
    rw [hjoin, clean_clean, elements_clean, hdir]
    exact ⟨rfl, rfl, rfl⟩
  · have hjoin : join [dir, name] = clean (dir ++ "/" ++ name) := by
      simp [join, hne, hname, String.append_assoc]
    have hchars : (dir ++ "/" ++ name).toList = dir.toList ++ '/' :: name.toList := by simp
    have hrooted : rooted (dir ++ "/" ++ name) = rooted dir := by
      rw [rooted, hchars, rooted, List.head?_append_of_ne_nil _ fun h => hne (String.toList_inj.mp h)]
    have hstack : stack (dir ++ "/" ++ name) =
        (name.toList.splitOn '/').foldl (cleanStep (rooted dir)) (stack dir) := by
      rw [stack, hrooted, hchars, List.splitOn_append_cons_self, List.foldl_append]
      rfl
    rw [hjoin, clean_clean, (clean_spec _).1, hrooted, elements_clean, hstack]
    exact ⟨rfl, rfl, rfl⟩

theorem relative_spec {up : Nat} {rest : List (List Char)} (hrest : dotdot ∉ rest)
    (hfree : (name.toList.splitOn '/').foldl (cleanStep false) [] = rest ++ List.replicate up dotdot) :
    ups name = up ∧ (relative name).drop up = rest.reverse := by
  have hrelative : relative name = List.replicate up dotdot ++ rest.reverse := by
    rw [relative, hfree, List.reverse_append, List.reverse_replicate]
  have hdown : rest.reverse.takeWhile (· == dotdot) = [] := by
    cases hreverse : rest.reverse with
    | nil => rfl
    | cons e tail =>
        have he : e ∈ rest := List.mem_reverse.mp (hreverse ▸ List.mem_cons_self)
        refine List.takeWhile_cons_of_neg ?_
        rw [beq_iff_eq]
        rintro rfl
        exact hrest he
  have hall : ∀ e ∈ List.replicate up dotdot, (e == dotdot) = true := fun e he => by
    simp [List.eq_of_mem_replicate he]
  constructor
  · rw [ups, hrelative, List.takeWhile_append_of_pos hall, hdown, List.append_nil, List.length_replicate]
  · rw [hrelative, List.drop_left' List.length_replicate]

/-- A name that is joined to a directory is below it exactly if the name stays in it. -/
theorem within_join_iff (hdir : clean dir = dir) (name : String) :
    Within dir (join [dir, name]) ↔ StaysIn dir name := by
  obtain ⟨-, hrooted, helements⟩ := join_spec hdir name
  obtain ⟨places, above, hstack, hroot, hplaces⟩ := stack_spec dir
  obtain ⟨up, rest, hrest, hfree, hkept⟩ := foldl_cleanStep (name.toList.splitOn '/')
  have helementsDir : elements dir = (stack dir).reverse := by
    rw [← elements_clean, hdir]
  have hrestDots : dotdot ∉ rest := fun h => (hrest _ h).1.ne_dotdot rfl
  have hplacesDots : dotdot ∉ places := fun h => (hplaces _ h).1.ne_dotdot rfl
  obtain ⟨hups, hdown⟩ := relative_spec hrestDots hfree
  have hcount : ((elements dir).filter (· != dotdot)).length = places.length := by
    have hkeep : ∀ e ∈ places, (e != dotdot) = true := fun e he => by
      simpa using (hplaces e he).1.ne_dotdot
    rw [helementsDir, hstack, List.filter_reverse, List.length_reverse, List.filter_append,
      List.filter_eq_self.mpr hkeep, List.filter_replicate_of_neg (by decide), List.append_nil]
  have hbelow : Within dir (join [dir, name]) ↔
      ∃ top, rest ++ climb (rooted dir) up (stack dir) = top ++ stack dir ∧ top.getLast? ≠ some dotdot := by
    unfold Within
    rw [helements, hkept, helementsDir]
    constructor
    · rintro ⟨-, after, hafter, hhead⟩
      refine ⟨after.reverse, ?_, by rwa [List.getLast?_reverse]⟩
      rw [← List.reverse_inj, hafter, List.reverse_append, List.reverse_reverse]
    · rintro ⟨top, htop, hlast⟩
      refine ⟨hrooted, top.reverse, ?_, by rwa [List.head?_reverse]⟩
      rw [htop, List.reverse_append]
  rw [hbelow, hstack, below_iff hplacesDots hroot hrestDots, StaysIn, hcount, hups, hdown, helementsDir, hstack,
    List.length_reverse, ← List.reverse_take, List.reverse_prefix]
  refine and_congr_right fun hstays => ?_
  have htake : (places ++ List.replicate above dotdot).take up = places.take up := by
    obtain hrooted | hup := hstays
    · rw [hroot hrooted, List.replicate_zero, List.append_nil]
    · exact List.take_append_of_le_length hup
  rw [htake]

example : StaysIn "/srv" "../srv/a.wav" ∧ ¬ StaysIn "/srv" "../etc/passwd" := by decide

end Clean

end Path
