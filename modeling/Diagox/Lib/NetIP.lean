import Mathlib.Data.List.Basic
import Mathlib.Data.BitVec
import Mathlib.Tactic.Common

/-!
# IP addresses and prefixes

The addresses of Go's `net/netip`. An address is an IPv4 one, or an IPv6 one with a zone that is empty for
most. The texts that are accepted follow `ParseAddr` and `ParsePrefix`: no leading zeros in a decimal field,
at most four digits in a group, one ellipsis that stands for at least one group, an IPv4 tail, no zone in a
prefix.
-/

namespace NetIP

inductive Addr where
  | v4 (a : BitVec 32)
  | v6 (a : BitVec 128) (zone : String)
  deriving DecidableEq, Repr

/-- A prefix: an address without zone and a number of leading bits that fits its family. -/
inductive Prefix where
  | v4 (a : BitVec 32) (bits : Fin 33)
  | v6 (a : BitVec 128) (bits : Fin 129)
  deriving DecidableEq, Repr

/-- `Is4In6`. -/
def is4In6 (a : BitVec 128) : Bool := a >>> 32 = 0xffff

/-- `Unmap`: the IPv4 address that an IPv4-mapped IPv6 address stands for. -/
def Addr.unmap : Addr → Addr
  | .v4 a => .v4 a
  | .v6 a zone => if is4In6 a then .v4 (a.truncate 32) else .v6 a zone

@[simp] theorem Addr.unmap_v4 (a : BitVec 32) : (Addr.v4 a).unmap = .v4 a := rfl

/-- The first `bits` bits of two words are the same. -/
def samePrefix {w : Nat} (bits : Nat) (a b : BitVec w) : Bool := (a ^^^ b) >>> (w - bits) = 0

/-- The word with all but the first `bits` bits cleared. -/
def clearTail {w : Nat} (bits : Nat) (a : BitVec w) : BitVec w := (a >>> (w - bits)) <<< (w - bits)

/-- `Contains`. An address with a zone is in no prefix. -/
def Prefix.contains : Prefix → Addr → Bool
  | .v4 p bits, .v4 a => samePrefix bits a p
  | .v6 p bits, .v6 a zone => zone = "" && samePrefix bits a p
  | _, _ => false

/-- `Masked`. -/
def Prefix.masked : Prefix → Prefix
  | .v4 p bits => .v4 (clearTail bits p) bits
  | .v6 p bits => .v6 (clearTail bits p) bits

theorem samePrefix_clearTail {w : Nat} (bits : Nat) (a b : BitVec w) :
    samePrefix bits a (clearTail bits b) = samePrefix bits a b := by
  have hshift : (a ^^^ clearTail bits b) >>> (w - bits) = (a ^^^ b) >>> (w - bits) := by
    ext i hi
    simp only [clearTail, BitVec.getElem_ushiftRight, BitVec.getLsbD_xor, BitVec.getLsbD_shiftLeft,
      BitVec.getLsbD_ushiftRight]
    by_cases h : w - bits + i < w
    · simp [h]
    · simp [h, BitVec.getLsbD_of_ge b _ (Nat.le_of_not_lt h)]
  rw [samePrefix, samePrefix, hshift]

@[simp] theorem Prefix.contains_masked (p : Prefix) (ip : Addr) : p.masked.contains ip = p.contains ip := by
  cases p <;> cases ip <;> simp [Prefix.masked, Prefix.contains, samePrefix_clearTail]

/-! ### Texts -/

def isDigit (c : Char) : Bool := '0' ≤ c && c ≤ '9'

def isHexDigit (c : Char) : Bool := isDigit c || ('a' ≤ c && c ≤ 'f') || ('A' ≤ c && c ≤ 'F')

def hexValue (c : Char) : Nat :=
  if isDigit c then c.toNat - '0'.toNat
  else if 'a' ≤ c && c ≤ 'f' then c.toNat - 'a'.toNat + 10
  else c.toNat - 'A'.toNat + 10

def decValue (s : List Char) : Nat := s.foldl (fun n c => 10 * n + (c.toNat - '0'.toNat)) 0

def hexWord (s : List Char) : Nat := s.foldl (fun n c => 16 * n + hexValue c) 0

/-- A decimal number without sign and leading zeros. -/
def decimal (s : List Char) : Option Nat :=
  if s ≠ [] ∧ s.all isDigit ∧ (s.length = 1 ∨ s.head? ≠ some '0') then some (decValue s) else none

/-- The parts of a text between the separators. -/
def splitAt (sep : Char) : List Char → List (List Char)
  | [] => [[]]
  | c :: cs => if c = sep then [] :: splitAt sep cs else match splitAt sep cs with
    | [] => [[c]]
    | part :: parts => (c :: part) :: parts

def octet (s : List Char) : Option (BitVec 8) :=
  (decimal s).bind fun n => if n ≤ 255 then some (BitVec.ofNat 8 n) else none

/-- `parseIPv4Fields`. -/
def parseIPv4Fields (s : List Char) : Option (List (BitVec 8)) :=
  if (splitAt '.' s).length = 4 then (splitAt '.' s).mapM octet else none

/-- The bytes of an address, the first one in front. -/
def ofBytes (w : Nat) (bytes : List (BitVec 8)) : BitVec w :=
  BitVec.ofNat w (bytes.foldl (fun n b => 256 * n + b.toNat) 0)

def parseIPv4 (s : List Char) : Option Addr := (parseIPv4Fields s).map fun bytes => .v4 (ofBytes 32 bytes)

/-- The loop of `parseIPv6`: `ip` are the bytes so far and `ellipsis` is the place of the ellipsis. At most
`n` groups follow. What is left of the text is returned too. -/
def parseGroups : Nat → List Char → List (BitVec 8) → Option Nat →
    Option (List (BitVec 8) × Option Nat × List Char)
  | 0, s, ip, ellipsis => some (ip, ellipsis, s)
  | n + 1, s, ip, ellipsis =>
      let group := s.takeWhile isHexDigit
      if group = [] ∨ group.length > 4 then none
      else
        let ip' := ip ++ [BitVec.ofNat 8 (hexWord group / 256), BitVec.ofNat 8 (hexWord group)]
        match s.dropWhile isHexDigit with
        | [] => some (ip', ellipsis, [])
        | '.' :: _ =>
            -- the last two groups may be written as an IPv4 address
            if (ellipsis = none ∧ ip.length ≠ 12) ∨ ip.length + 4 > 16 then none
            else (parseIPv4Fields s).map fun fields => (ip ++ fields, ellipsis, [])
        | ':' :: [] => none
        | ':' :: ':' :: rest =>
            if ellipsis ≠ none then none
            else if rest = [] then some (ip', some ip'.length, [])
            else parseGroups n rest ip' (some ip'.length)
        | ':' :: rest => parseGroups n rest ip' ellipsis
        | _ => none

/-- The ellipsis filled with zeros. -/
def expand (ip : List (BitVec 8)) (ellipsis : Option Nat) : Option (List (BitVec 8)) :=
  match ellipsis with
  | none => if ip.length < 16 then none else some ip
  | some k => if ip.length < 16 then some (ip.take k ++ List.replicate (16 - ip.length) 0 ++ ip.drop k) else none

/-- The groups from the start, with all of the text used. -/
def parseAllGroups (s : List Char) (ellipsis : Option Nat) : Option (BitVec 128) :=
  match parseGroups 8 s [] ellipsis with
  | some (ip, ellipsis, []) => (expand ip ellipsis).map (ofBytes 128)
  | _ => none

def parseUnzoned : List Char → Option (BitVec 128)
  | ':' :: ':' :: rest => if rest = [] then some 0 else parseAllGroups rest (some 0)
  | s => parseAllGroups s none

/-- The text before the first zone sign and the zone after it, which must not be empty. -/
def splitZone (s : List Char) : Option (List Char × String) :=
  if '%' ∈ s then
    if (s.dropWhile (· ≠ '%')).drop 1 = [] then none
    else some (s.takeWhile (· ≠ '%'), String.ofList ((s.dropWhile (· ≠ '%')).drop 1))
  else some (s, "")

def parseIPv6 (s : List Char) : Option Addr := do
  let (s, zone) ← splitZone s
  return .v6 (← parseUnzoned s) zone

/-- `ParseAddr`: the first of the three signs decides the family. -/
def parseAddrChars (s : List Char) : Option Addr :=
  match s.find? fun c => c = '.' || c = ':' || c = '%' with
  | some '.' => parseIPv4 s
  | some ':' => parseIPv6 s
  | _ => none

def parseAddr (s : String) : Option Addr := parseAddrChars s.toList

/-- The text before and after the last separator. -/
def cutLast (sep : Char) (s : List Char) : Option (List Char × List Char) :=
  if sep ∈ s then
    some (((s.reverse.dropWhile (· ≠ sep)).drop 1).reverse, (s.reverse.takeWhile (· ≠ sep)).reverse)
  else none

def prefixFrom : Addr → Nat → Option Prefix
  | .v4 a, n => if h : n < 33 then some (.v4 a ⟨n, h⟩) else none
  | .v6 a zone, n => if h : zone = "" ∧ n < 129 then some (.v6 a ⟨n, h.2⟩) else none

/-- `ParsePrefix`: an address and a number of bits after the last slash. -/
def parsePrefix (s : String) : Option Prefix := do
  let (addr, bits) ← cutLast '/' s.toList
  prefixFrom (← parseAddrChars addr) (← decimal bits)

example : (parseAddr "::ffff:10.0.0.1").map Addr.unmap = parseAddr "10.0.0.1" := by decide

example : (parsePrefix "10.1.2.3/8").map (·.contains (.v4 0x0a090807)) = some true := by decide

/-! ### What the texts are made of -/

theorem mem_takeWhile_or_dropWhile {p : Char → Bool} {s : List Char} {c : Char} (hc : c ∈ s) :
    c ∈ s.takeWhile p ∨ c ∈ s.dropWhile p := by
  rw [← List.mem_append, List.takeWhile_append_dropWhile]
  exact hc

theorem splitAt_chars (sep : Char) (s : List Char) : ∀ c ∈ s, c = sep ∨ ∃ part ∈ splitAt sep s, c ∈ part := by
  induction s with
  | nil => simp
  | cons a s ih =>
      intro c hc
      unfold splitAt
      split_ifs with ha
      · obtain rfl | hc := List.mem_cons.mp hc
        · exact .inl ha
        · obtain h | ⟨part, hpart, hmem⟩ := ih c hc
          · exact .inl h
          · exact .inr ⟨part, List.mem_cons_of_mem _ hpart, hmem⟩
      · cases hparts : splitAt sep s with
        | nil =>
            obtain rfl | hc := List.mem_cons.mp hc
            · exact .inr ⟨_, List.mem_cons_self, List.mem_cons_self⟩
            · obtain h | ⟨part, hpart, hmem⟩ := ih c hc
              · exact .inl h
              · simp [hparts] at hpart
        | cons first parts =>
            obtain rfl | hc := List.mem_cons.mp hc
            · exact .inr ⟨_, List.mem_cons_self, List.mem_cons_self⟩
            · obtain h | ⟨part, hpart, hmem⟩ := ih c hc
              · exact .inl h
              · rw [hparts] at hpart
                obtain rfl | hpart := List.mem_cons.mp hpart
                · exact .inr ⟨_, List.mem_cons_self, List.mem_cons_of_mem _ hmem⟩
                · exact .inr ⟨part, List.mem_cons_of_mem _ hpart, hmem⟩

theorem mapM_eq_some_of_mem {α β : Type} {f : α → Option β} {xs : List α} {ys : List β} (h : xs.mapM f = some ys) :
    ∀ x ∈ xs, ∃ y, f x = some y := by
  induction xs generalizing ys with
  | nil => simp
  | cons x xs ih =>
      simp only [List.mapM_cons, Option.pure_def, Option.bind_eq_bind, Option.bind_eq_some_iff] at h
      obtain ⟨y, hy, ys', hys, -⟩ := h
      intro z hz
      obtain rfl | hz := List.mem_cons.mp hz
      · exact ⟨y, hy⟩
      · exact ih hys z hz

theorem octet_chars {s : List Char} {b : BitVec 8} (h : octet s = some b) : ∀ c ∈ s, isDigit c := by
  obtain ⟨n, hn, -⟩ := Option.bind_eq_some_iff.mp h
  unfold decimal at hn
  split_ifs at hn with hs
  exact List.all_eq_true.mp hs.2.1

theorem parseIPv4Fields_chars {s : List Char} {bytes : List (BitVec 8)} (h : parseIPv4Fields s = some bytes) :
    ∀ c ∈ s, isDigit c ∨ c = '.' := by
  unfold parseIPv4Fields at h
  split_ifs at h with hlen
  intro c hc
  obtain hdot | ⟨part, hpart, hmem⟩ := splitAt_chars '.' s c hc
  · exact .inr hdot
  · obtain ⟨b, hb⟩ := mapM_eq_some_of_mem h part hpart
    exact .inl (octet_chars hb c hmem)

/-- What may stand before the zone of an address. -/
def isAddrChar (c : Char) : Bool := isHexDigit c || c = ':' || c = '.'

theorem parseIPv4Fields_addrChar {s : List Char} {bytes : List (BitVec 8)} (h : parseIPv4Fields s = some bytes) :
    ∀ c ∈ s, isAddrChar c := by
  intro c hc
  obtain hdigit | rfl := parseIPv4Fields_chars h c hc
  · simp [isAddrChar, isHexDigit, hdigit]
  · decide

theorem parseGroups_chars {n : Nat} {s : List Char} {ip : List (BitVec 8)} {ellipsis : Option Nat}
    {result : List (BitVec 8) × Option Nat × List Char} (h : parseGroups n s ip ellipsis = some result) :
    ∀ c ∈ s, isAddrChar c ∨ c ∈ result.2.2 := by
  induction n generalizing s ip ellipsis with
  | zero =>
      obtain rfl : (ip, ellipsis, s) = result := by simpa [parseGroups] using h
      exact fun c hc => .inr hc
  | succ n ih =>
      have hgroup : ∀ c ∈ s.takeWhile isHexDigit, isAddrChar c := fun c hc => by
        simp [isAddrChar, List.all_eq_true.mp List.all_takeWhile c hc]
      -- it is enough to look at what follows the group
      suffices hrest : ∀ c ∈ s.dropWhile isHexDigit, isAddrChar c ∨ c ∈ result.2.2 by
        intro c hc
        obtain hc | hc := mem_takeWhile_or_dropWhile (p := isHexDigit) hc
        · exact .inl (hgroup c hc)
        · exact hrest c hc
      by_cases hempty : s.takeWhile isHexDigit = [] ∨ (s.takeWhile isHexDigit).length > 4
      · simp only [parseGroups, hempty, if_true, reduceCtorEq] at h
      · simp only [parseGroups, hempty, if_false] at h
        split at h
        next hdrop => simp [hdrop]
        next hdrop =>
          split at h
          next => cases h
          next =>
            obtain ⟨fields, hfields, rfl⟩ := Option.map_eq_some_iff.mp h
            intro c hc
            exact .inl (parseIPv4Fields_addrChar hfields c ((List.dropWhile_sublist _).subset hc))
        next hdrop => cases h
        next rest hdrop =>
          split at h
          next => cases h
          next =>
            split at h
            next hnil => simp [hdrop, hnil, isAddrChar]
            next =>
              have := ih h
              simpa [hdrop, isAddrChar] using this
        next rest _ hdrop =>
          have := ih h
          simpa [hdrop, isAddrChar] using this
        next => cases h

theorem parseAllGroups_chars {s : List Char} {ellipsis : Option Nat} {a : BitVec 128}
    (h : parseAllGroups s ellipsis = some a) : ∀ c ∈ s, isAddrChar c := by
  unfold parseAllGroups at h
  split at h
  next hgroups => simpa using parseGroups_chars hgroups
  next => cases h

theorem parseUnzoned_chars {s : List Char} {a : BitVec 128} (h : parseUnzoned s = some a) :
    ∀ c ∈ s, isAddrChar c := by
  unfold parseUnzoned at h
  split at h
  next rest =>
    split at h
    next hnil => simp [hnil, isAddrChar]
    next => simpa [isAddrChar] using parseAllGroups_chars h
  next => exact parseAllGroups_chars h

theorem parseIPv6_zone {s : List Char} {ip : Addr} (h : parseIPv6 s = some ip) :
    ('%' ∈ s ∧ ∃ a zone, ip = .v6 a zone ∧ zone ≠ "") ∨ ('%' ∉ s ∧ ∀ c ∈ s, isAddrChar c) := by
  obtain ⟨⟨body, zone⟩, hsplit, h⟩ := Option.bind_eq_some_iff.mp h
  obtain ⟨a, ha, h⟩ := Option.bind_eq_some_iff.mp h
  obtain rfl : Addr.v6 a zone = ip := Option.some.inj h
  unfold splitZone at hsplit
  split_ifs at hsplit with hsign hempty
  · obtain ⟨-, rfl⟩ := Prod.mk.inj (Option.some.inj hsplit)
    exact .inl ⟨hsign, a, _, rfl, by simpa using hempty⟩
  · obtain ⟨rfl, -⟩ := Prod.mk.inj (Option.some.inj hsplit)
    exact .inr ⟨hsign, parseUnzoned_chars ha⟩

theorem parseAddrChars_slash {s : List Char} {ip : Addr} (h : parseAddrChars s = some ip) (hslash : '/' ∈ s) :
    s.find? (fun c => c = '.' || c = ':' || c = '%') = some ':' ∧ '%' ∈ s := by
  unfold parseAddrChars at h
  split at h
  next hfind =>
    obtain ⟨bytes, hbytes, -⟩ := Option.map_eq_some_iff.mp h
    exact absurd (parseIPv4Fields_addrChar hbytes '/' hslash) (by decide)
  next hfind =>
    refine ⟨hfind, ?_⟩
    obtain ⟨hzone, -⟩ | ⟨-, hchars⟩ := parseIPv6_zone h
    · exact hzone
    · exact absurd (hchars '/' hslash) (by decide)
  next => cases h

theorem exists_dropWhile_ne {sep : Char} {s : List Char} (h : sep ∈ s) :
    ∃ rest, s.dropWhile (· ≠ sep) = sep :: rest := by
  induction s with
  | nil => simp at h
  | cons c s ih =>
      by_cases hc : c = sep
      · exact ⟨s, by simp [hc]⟩
      · rw [List.dropWhile_cons_of_pos (by simpa using hc)]
        exact ih ((List.mem_cons.mp h).resolve_left fun heq => hc heq.symm)

theorem cutLast_eq_some {sep : Char} {s before after : List Char} (h : cutLast sep s = some (before, after)) :
    s = before ++ sep :: after ∧ sep ∉ after := by
  unfold cutLast at h
  split_ifs at h with hsep
  obtain ⟨rfl, rfl⟩ := Prod.mk.inj (Option.some.inj h)
  obtain ⟨rest, hrest⟩ := exists_dropWhile_ne (List.mem_reverse.mpr hsep)
  constructor
  · have hsplit := List.takeWhile_append_dropWhile (p := (· ≠ sep)) (l := s.reverse)
    rw [hrest] at hsplit ⊢
    have := congrArg List.reverse hsplit
    simpa using this.symm
  · intro hmem
    have := List.all_eq_true.mp (List.all_takeWhile (p := (· ≠ sep)) (l := s.reverse)) sep (List.mem_reverse.mp hmem)
    simp at this

theorem decimal_chars {s : List Char} {n : Nat} (h : decimal s = some n) : ∀ c ∈ s, isDigit c := by
  unfold decimal at h
  split_ifs at h with hs
  exact List.all_eq_true.mp hs.2.1

/-- No text is an address and a prefix. -/
theorem parsePrefix_eq_none_of_parseAddr {s : String} {ip : Addr} (h : parseAddr s = some ip) :
    parsePrefix s = none := by
  by_contra hne
  obtain ⟨p, hp⟩ := Option.ne_none_iff_exists'.mp hne
  obtain ⟨⟨addr, bits⟩, hcut, hp⟩ := Option.bind_eq_some_iff.mp hp
  obtain ⟨ip', hip', hp⟩ := Option.bind_eq_some_iff.mp hp
  obtain ⟨n, hn, hp⟩ := Option.bind_eq_some_iff.mp hp
  obtain ⟨hs, -⟩ := cutLast_eq_some hcut
  obtain ⟨hfirst, hsign⟩ := parseAddrChars_slash h (by simp [hs])
  have hbits : ∀ c ∈ bits, ¬ (c = '.' || c = ':' || c = '%') := by
    intro c hc hsign
    have hdigit := decimal_chars hn c hc
    simp only [Bool.or_eq_true, decide_eq_true_eq] at hsign
    rcases hsign with (rfl | rfl) | rfl <;> exact absurd hdigit (by decide)
  -- both signs stand before the slash, so what stands there has a zone
  have hfirst' : addr.find? (fun c => c = '.' || c = ':' || c = '%') = some ':' := by
    rw [hs, List.find?_append, List.find?_cons_of_neg (by decide), List.find?_eq_none.mpr hbits] at hfirst
    simpa using hfirst
  have hsign' : '%' ∈ addr := by
    rw [hs, List.mem_append, List.mem_cons] at hsign
    obtain hsign | hslash | hsign := hsign
    · exact hsign
    · exact absurd hslash (by decide)
    · exact absurd (decimal_chars hn '%' hsign) (by decide)
  have hip6 : parseIPv6 addr = some ip' := by
    unfold parseAddrChars at hip'
    rwa [hfirst'] at hip'
  obtain ⟨-, a, zone, rfl, hzone⟩ | ⟨hno, -⟩ := parseIPv6_zone hip6
  · simp [prefixFrom, hzone] at hp
  · exact hno hsign'

/-! ### Full-length prefixes -/

theorem cutLast_append {sep : Char} {before after : List Char} (h : sep ∉ after) :
    cutLast sep (before ++ sep :: after) = some (before, after) := by
  have hrest : ∀ c ∈ after.reverse, decide (c ≠ sep) = true := by
    intro c hc
    have hmem := List.mem_reverse.mp hc
    exact decide_eq_true fun heq => h (heq ▸ hmem)
  have hstop : (sep :: before.reverse).dropWhile (· ≠ sep) = sep :: before.reverse := by simp
  have hnone : (sep :: before.reverse).takeWhile (· ≠ sep) = [] := by simp
  rw [cutLast, if_pos (by simp)]
  simp only [List.reverse_append, List.reverse_cons, List.append_assoc, List.singleton_append]
  rw [List.dropWhile_append_of_pos hrest, List.takeWhile_append_of_pos hrest, hstop, hnone]
  simp

theorem parsePrefix_append {s : String} {bits : List Char} {a : Addr} {n : Nat} {p : Prefix}
    (ha : parseAddr s = some a) (hslash : '/' ∉ bits) (hbits : decimal bits = some n) (hp : prefixFrom a n = some p) :
    parsePrefix (s ++ String.ofList ('/' :: bits)) = some p := by
  have haddr : parseAddrChars s.toList = some a := ha
  have htext : (s ++ String.ofList ('/' :: bits)).toList = s.toList ++ '/' :: bits := by simp
  rw [parsePrefix, htext, cutLast_append hslash]
  simp [haddr, hbits, hp]

/-- A prefix of all bits, written with the number of bits of its family. -/
def Addr.fullLength : Addr → String
  | .v4 _ => "/32"
  | .v6 _ _ => "/128"

/-- The address has no zone. -/
def Addr.Unzoned : Addr → Prop
  | .v4 _ => True
  | .v6 _ zone => zone = ""

/-- The prefix of all bits of an address. -/
def Addr.prefix_ : Addr → Prefix
  | .v4 a => .v4 a 32
  | .v6 a _ => .v6 a 128

theorem parsePrefix_fullLength {s : String} {a : Addr} (h : parseAddr s = some a) (hzone : a.Unzoned) :
    parsePrefix (s ++ a.fullLength) = some a.prefix_ := by
  cases a with
  | v4 x =>
      have hbits : decimal ['3', '2'] = some 32 := by decide
      exact parsePrefix_append h (by decide) hbits (by simp [prefixFrom, Addr.prefix_])
  | v6 x zone =>
      obtain rfl : zone = "" := hzone
      have hbits : decimal ['1', '2', '8'] = some 128 := by decide
      exact parsePrefix_append h (by decide) hbits (by simp [prefixFrom, Addr.prefix_])

theorem samePrefix_full {w : Nat} (a b : BitVec w) : samePrefix w a b = true ↔ a = b := by
  simp [samePrefix]

/-- The prefix of all bits of an address without zone contains that address, and no other. -/
theorem contains_prefix_ {a : Addr} (hzone : a.Unzoned) (ip : Addr) : a.prefix_.contains ip = true ↔ ip = a := by
  cases a with
  | v4 x =>
      cases ip with
      | v4 y => simpa [Addr.prefix_, Prefix.contains] using samePrefix_full y x
      | v6 y zone => simp [Addr.prefix_, Prefix.contains]
  | v6 x zone =>
      obtain rfl : zone = "" := hzone
      cases ip with
      | v4 y => simp [Addr.prefix_, Prefix.contains]
      | v6 y zone =>
          have hsame : samePrefix 128 y x = true ↔ y = x := samePrefix_full y x
          simp [Addr.prefix_, Prefix.contains, hsame, and_comm]

/-- An address that stands for an IPv4 address. -/
def Addr.IsMapped : Addr → Prop
  | .v4 _ => False
  | .v6 a _ => is4In6 a = true

theorem Addr.unmap_eq_self_iff {a : Addr} : a.unmap = a ↔ ¬ a.IsMapped := by
  cases a with
  | v4 x => simp [Addr.IsMapped]
  | v6 x zone =>
      rw [Addr.unmap, Addr.IsMapped]
      split_ifs with h
      · simp [h]
      · simp [h]

theorem Addr.not_isMapped_unmap (a : Addr) : ¬ a.unmap.IsMapped := by
  cases a with
  | v4 x => exact not_false
  | v6 x zone =>
      rw [Addr.unmap]
      split_ifs with h
      · exact not_false
      · exact h

end NetIP
