import Diagox.Trace.Store

/-!
# The headers of a trace

Messages whose header lines are `Name:`, some spaces and a value. `parseSIPTrace` looks for the name as a
substring, and `X-Orig-Call-ID:` has `Call-ID:` in it; it cuts the name off as a set of characters, which
stops at the X of the longer name and does not stop at a value that starts with a character of the set.
-/

namespace Trace

open Bytes

structure Header where
  name : List UInt8
  /-- How many spaces stand behind the colon. -/
  spaces : Nat
  value : List UInt8
  deriving DecidableEq, Repr

def colon : UInt8 := 58

def space : UInt8 := 32

def lineFeed : UInt8 := 10

def Header.line (h : Header) : List UInt8 := h.name ++ colon :: (List.replicate h.spaces space ++ h.value)

/-- A start line and headers, and what follows them. -/
structure Message where
  startLine : List UInt8
  headers : List Header
  rest : List UInt8

def Message.lines (m : Message) : List (List UInt8) := m.startLine :: m.headers.map Header.line

def ofLines (lines : List (List UInt8)) : List UInt8 := lines.flatMap (· ++ [carriageReturn, lineFeed])

def Message.bytes (m : Message) : List UInt8 := ofLines m.lines ++ m.rest

def callIDName : List UInt8 := ofString "Call-ID"

def xOrigName : List UInt8 := ofString "X-Orig-Call-ID"

theorem headerKey_callID : headerKey "Call-ID" = callIDName ++ [colon] := by decide

theorem headerKey_xOrig : headerKey "X-Orig-Call-ID" = xOrigName ++ [colon] := by decide

/-- The message has one Call-ID `c` and at most one originator `o`, and neither name stands before a colon
anywhere else. -/
structure Message.WellFormed (m : Message) (c : Header) (o : Option Header) : Prop where
  noReturn : ∀ line ∈ m.lines, carriageReturn ∉ line
  noColon : ∀ h ∈ m.headers, colon ∉ h.name
  callID : m.headers.filter (fun h => h.name = callIDName) = [c]
  originator : m.headers.filter (fun h => h.name = xOrigName) = o.toList
  startLine : ¬ headerKey "Call-ID" <:+: m.startLine
  names : ∀ h ∈ m.headers, callIDName <:+ h.name → h.name = callIDName ∨ h.name = xOrigName
  values : ∀ h ∈ m.headers, ¬ headerKey "Call-ID" <:+: h.value
  rest : ¬ headerKey "Call-ID" <:+: m.rest

/-- The value as it is left when the characters of the name are cut off. -/
def Header.parsed (h : Header) : List UInt8 := if h.spaces = 0 then trimLeft h.value cutset else h.value

/-- Nothing but what is cut off and trimmed. -/
def Header.Blank (h : Header) : Prop := trimSpace h.parsed = []

instance (h : Header) : Decidable h.Blank := inferInstanceAs (Decidable (_ = _))

/-- No character of the name stands right behind the colon. -/
def Header.Kept (h : Header) : Prop := h.spaces = 0 → ∀ b, h.value.head? = some b → b ∉ cutset

/-! ### Looking for a header -/

section Search

variable {sep : List UInt8} {lines : List (List UInt8)} {h : Header}

theorem find?_ofLines (hreturn : carriageReturn ∉ sep) (hfeed : lineFeed ∉ sep) (hsep : sep ≠ [])
    (hlines : ∀ line ∈ lines, ¬ sep <:+: line) (t : List UInt8) :
    find? sep (ofLines lines ++ t) = (find? sep t).map (· + (ofLines lines).length) := by
  induction lines with
  | nil => simp [ofLines]
  | cons line lines ih =>
      have hsplit : ofLines (line :: lines) ++ t =
          line ++ carriageReturn :: ([] ++ lineFeed :: (ofLines lines ++ t)) := by
        simp [ofLines]
      have hnil : ¬ sep <:+: [] := by simpa using hsep
      rw [hsplit, find?_append_cons hreturn (hlines line List.mem_cons_self), find?_append_cons hfeed hnil,
        ih fun l hl => hlines l (List.mem_cons_of_mem _ hl), Option.map_map, Option.map_map]
      refine congrArg (fun f => Option.map f (find? sep t)) (funext fun n => ?_)
      simp only [Function.comp_apply, ofLines, List.flatMap_cons, List.length_append, List.length_cons, List.length_nil]
      omega

theorem infix_line_iff {name : List UInt8} (hcolon : colon ∉ name) (hspace : space ∉ name) (hname : colon ∉ h.name) :
    name ++ [colon] <:+: h.line ↔ name <:+ h.name ∨ name ++ [colon] <:+: h.value := by
  have hspaces : ∀ k : Nat, name ++ [colon] <:+: List.replicate k space ++ h.value ↔ name ++ [colon] <:+: h.value := by
    intro k
    induction k with
    | zero => rfl
    | succ k ih =>
        have hsep : space ∉ name ++ [colon] := fun hmem => (List.mem_append.mp hmem).elim hspace (by decide)
        have hcons := List.infix_append_cons_iff (a := []) (b := List.replicate k space ++ h.value) hsep
        rw [List.replicate_succ, List.cons_append, ← ih]
        simpa using hcons
  rw [Header.line, List.concat_infix_append_cons_iff hcolon hname, hspaces]

end Search

theorem getHeaderVal_ofLines {headerName : String} {skip value rest : List UInt8} {before after : List (List UInt8)}
    (hreturn : carriageReturn ∉ headerKey headerName) (hfeed : lineFeed ∉ headerKey headerName)
    (hbefore : ∀ line ∈ before, ¬ headerKey headerName <:+: line)
    (hskip : ∀ t, find? (headerKey headerName) (skip ++ (headerKey headerName ++ t)) = some skip.length)
    (hvalue : carriageReturn ∉ value) :
    getHeaderVal (ofLines (before ++ (skip ++ (headerKey headerName ++ value)) :: after) ++ rest) headerName =
      some (trimSpace (trimLeft (headerKey headerName ++ value) cutset)) := by
  have hsplit : ofLines (before ++ (skip ++ (headerKey headerName ++ value)) :: after) ++ rest =
      (ofLines before ++ skip) ++
        ((headerKey headerName ++ value) ++ carriageReturn :: (lineFeed :: (ofLines after ++ rest))) := by
    simp [ofLines]
  have hkey : headerKey headerName ≠ [] := by
    intro hnil
    have hlength := congrArg List.length hnil
    simp [headerKey, ofString] at hlength
  rw [hsplit]
  refine getHeaderVal_of_terminated ?_ rfl fun hmem => (List.mem_append.mp hmem).elim hreturn hvalue
  rw [List.append_assoc, List.append_assoc, find?_ofLines hreturn hfeed hkey hbefore, hskip, List.length_append,
    Option.map_some, Nat.add_comm]

/-! ### What the two searches find -/

theorem callIDName_suffix_xOrigName : callIDName <:+ xOrigName := by decide

section Values

variable {m : Message} {c : Header} {o : Option Header}

theorem Message.WellFormed.not_infix_line (hm : m.WellFormed c o) {h : Header} (hmem : h ∈ m.headers)
    (hcallID : h.name ≠ callIDName) (hxOrig : h.name ≠ xOrigName) : ¬ headerKey "Call-ID" <:+: h.line := by
  rw [headerKey_callID, infix_line_iff (by decide) (by decide) (hm.noColon h hmem), ← headerKey_callID, not_or]
  exact ⟨fun hname => (hm.names h hmem hname).elim hcallID hxOrig, hm.values h hmem⟩

theorem Message.WellFormed.not_infix_line_xOrig (hm : m.WellFormed c o) {h : Header} (hmem : h ∈ m.headers)
    (hxOrig : h.name ≠ xOrigName) : ¬ headerKey "X-Orig-Call-ID" <:+: h.line := by
  have hshort : headerKey "Call-ID" <:+: headerKey "X-Orig-Call-ID" := by decide
  rw [headerKey_xOrig, infix_line_iff (by decide) (by decide) (hm.noColon h hmem), ← headerKey_xOrig, not_or]
  refine ⟨fun hname => ?_, fun hvalue => hm.values h hmem (hshort.trans hvalue)⟩
  obtain hcallID | heq := hm.names h hmem (callIDName_suffix_xOrigName.trans hname)
  · have hlength := hname.length_le
    rw [hcallID] at hlength
    exact absurd hlength (by decide)
  · exact hxOrig heq

theorem trimLeft_callID (h : Header) :
    trimSpace (trimLeft (headerKey "Call-ID" ++ (List.replicate h.spaces space ++ h.value)) cutset) =
      trimSpace h.parsed := by
  have hname : ∀ b ∈ headerKey "Call-ID", cutset.contains b = true := List.all_eq_true.mp (by decide)
  have hspace : ¬ cutset.contains space = true := by decide
  rw [trimLeft, List.dropWhile_append_of_pos hname, Header.parsed]
  split_ifs with hspaces
  · rw [hspaces]
    rfl
  · obtain ⟨k, hk⟩ := Nat.exists_eq_succ_of_ne_zero hspaces
    have hstop : (List.replicate h.spaces space ++ h.value).dropWhile (cutset.contains ·) =
        List.replicate h.spaces space ++ h.value := by
      rw [hk, List.replicate_succ, List.cons_append, List.dropWhile_cons_of_neg hspace]
    rw [hstop]
    exact trimSpace_spaces h.spaces h.value

theorem noReturn_value (hm : m.WellFormed c o) {h : Header} (hmem : h ∈ m.headers) :
    carriageReturn ∉ List.replicate h.spaces space ++ h.value := by
  intro hreturn
  refine hm.noReturn h.line (List.mem_cons_of_mem _ (List.mem_map_of_mem hmem)) ?_
  exact List.mem_append_right _ (List.mem_cons_of_mem _ hreturn)

/-- The Call-ID is read from the first header of either name. -/
theorem getHeaderVal_callID (hm : m.WellFormed c o) {first : Header}
    (hfirst : m.headers.find? (fun h => h.name = callIDName ∨ h.name = xOrigName) = some first) :
    getHeaderVal m.bytes "Call-ID" = some (trimSpace first.parsed) := by
  obtain ⟨hname, before, after, hheaders, hbefore⟩ := List.find?_eq_some_iff_append.mp hfirst
  have hmem : first ∈ m.headers := by simp [hheaders]
  have hlines : ∀ line ∈ m.startLine :: before.map Header.line, ¬ headerKey "Call-ID" <:+: line := by
    intro line hline
    obtain rfl | hline := List.mem_cons.mp hline
    · exact hm.startLine
    · obtain ⟨h, hh, rfl⟩ := List.mem_map.mp hline
      have hother : ¬ (h.name = callIDName ∨ h.name = xOrigName) := by simpa using hbefore h hh
      rw [not_or] at hother
      exact hm.not_infix_line (by simp [hheaders, hh]) hother.1 hother.2
  have hbytes : ∀ skip, first.line =
      skip ++ (headerKey "Call-ID" ++ (List.replicate first.spaces space ++ first.value)) →
      m.bytes = ofLines ((m.startLine :: before.map Header.line) ++
        (skip ++ (headerKey "Call-ID" ++ (List.replicate first.spaces space ++ first.value))) ::
          after.map Header.line) ++ m.rest := by
    intro skip hskip
    rw [← hskip, Message.bytes, Message.lines, hheaders]
    simp
  have hvalue := noReturn_value hm hmem
  obtain hcallID | hxOrig : first.name = callIDName ∨ first.name = xOrigName := by simpa using hname
  · have hline : first.line = [] ++ (headerKey "Call-ID" ++ (List.replicate first.spaces space ++ first.value)) := by
      rw [Header.line, hcallID, headerKey_callID]
      simp
    rw [hbytes [] hline, ← trimLeft_callID]
    exact getHeaderVal_ofLines (by decide) (by decide) hlines (find?_append_self _) hvalue
  · have hline : first.line =
        ofString "X-Orig-" ++ (headerKey "Call-ID" ++ (List.replicate first.spaces space ++ first.value)) := by
      have hsplit : xOrigName ++ [colon] = ofString "X-Orig-" ++ headerKey "Call-ID" := by decide
      rw [Header.line, hxOrig, ← List.append_assoc, ← hsplit]
      simp
    rw [hbytes _ hline, ← trimLeft_callID]
    refine getHeaderVal_ofLines (by decide) (by decide) hlines (fun t => ?_) hvalue
    rfl

/-- The originator is read with its name in front. -/
theorem getHeaderVal_xOrig (hm : m.WellFormed c o) :
    getHeaderVal m.bytes "X-Orig-Call-ID" = some (o.elim [] fun h => trimSpace h.line) := by
  have hshort : headerKey "Call-ID" <:+: headerKey "X-Orig-Call-ID" := by decide
  have hstart : ¬ headerKey "X-Orig-Call-ID" <:+: m.startLine := fun h => hm.startLine (hshort.trans h)
  cases o with
  | none =>
      have hnone : ∀ h ∈ m.headers, h.name ≠ xOrigName := by
        have := hm.originator
        simpa [List.filter_eq_nil_iff] using this
      apply getHeaderVal_of_none
      rw [← find?_eq_none_iff, Message.bytes, find?_ofLines (by decide) (by decide) (by decide), Option.map_eq_none_iff,
        find?_eq_none_iff]
      · exact fun h => hm.rest (hshort.trans h)
      · intro line hline
        obtain rfl | hline := List.mem_cons.mp hline
        · exact hstart
        · obtain ⟨h, hh, rfl⟩ := List.mem_map.mp hline
          exact hm.not_infix_line_xOrig hh (hnone h hh)
  | some o =>
      have hfirst : m.headers.find? (fun h => h.name = xOrigName) = some o := by
        rw [← List.head?_filter, hm.originator]
        rfl
      obtain ⟨hname, before, after, hheaders, hbefore⟩ := List.find?_eq_some_iff_append.mp hfirst
      have hmem : o ∈ m.headers := by simp [hheaders]
      have hlines : ∀ line ∈ m.startLine :: before.map Header.line, ¬ headerKey "X-Orig-Call-ID" <:+: line := by
        intro line hline
        obtain rfl | hline := List.mem_cons.mp hline
        · exact hstart
        · obtain ⟨h, hh, rfl⟩ := List.mem_map.mp hline
          exact hm.not_infix_line_xOrig (by simp [hheaders, hh]) (by simpa using hbefore h hh)
      have hline : o.line =
          [] ++ (headerKey "X-Orig-Call-ID" ++ (List.replicate o.spaces space ++ o.value)) := by
        have hxOrig : o.name = xOrigName := by simpa using hname
        rw [Header.line, hxOrig, headerKey_xOrig]
        simp
      have hbytes : m.bytes = ofLines ((m.startLine :: before.map Header.line) ++
          ([] ++ (headerKey "X-Orig-Call-ID" ++ (List.replicate o.spaces space ++ o.value))) ::
            after.map Header.line) ++ m.rest := by
        rw [← hline, Message.bytes, Message.lines, hheaders]
        simp
      -- the X is in no cutset
      have htrim : trimLeft (headerKey "X-Orig-Call-ID" ++ (List.replicate o.spaces space ++ o.value)) cutset =
          o.line := by
        rw [hline]
        rfl
      rw [hbytes, getHeaderVal_ofLines (by decide) (by decide) hlines (find?_append_self _) (noReturn_value hm hmem),
        htrim]
      rfl

end Values

/-! ### What a trace is for -/

theorem isSolid_of_mem_cutset : ∀ b ∈ cutset, isSolid b = true := List.all_eq_true.mp (by decide)

theorem trimSpace_parsed_iff (h : Header) : trimSpace h.parsed = trimSpace h.value ↔ h.Kept := by
  unfold Header.parsed Header.Kept
  by_cases hspaces : h.spaces = 0
  · simp only [hspaces, if_true, forall_true_left]
    cases hvalue : h.value with
    | nil => simp [trimLeft]
    | cons b rest =>
        by_cases hb : b ∈ cutset
        · refine iff_of_false (fun heq => ?_) fun hkept => hkept b rfl hb
          have hcount := congrArg (List.countP isSolid) heq
          have hcut : trimLeft (b :: rest) cutset = rest.dropWhile (cutset.contains ·) := by
            rw [trimLeft, List.dropWhile_cons_of_pos (by simpa using hb)]
          have hle : (rest.dropWhile (cutset.contains ·)).countP isSolid ≤ rest.countP isSolid :=
            (List.dropWhile_sublist _).countP_le
          rw [countP_trimSpace, countP_trimSpace, hcut, List.countP_cons_of_pos (isSolid_of_mem_cutset b hb)] at hcount
          omega
        · refine iff_of_true ?_ fun b' hb' => ?_
          · rw [trimLeft, List.dropWhile_cons_of_neg (by simpa using hb)]
          · obtain rfl : b = b' := Option.some.inj hb'
            exact hb
  · simp [hspaces]

theorem trimSpace_line_ne {h : Header} (hname : h.name = xOrigName) : trimSpace h.line ≠ trimSpace h.value := by
  intro heq
  have hcount := congrArg (List.countP isSolid) heq
  have hxOrig : xOrigName.countP isSolid = 14 := by decide
  rw [countP_trimSpace, countP_trimSpace, Header.line, hname, List.countP_append, hxOrig] at hcount
  have hle : h.value.countP isSolid ≤ (colon :: (List.replicate h.spaces space ++ h.value)).countP isSolid :=
    ((List.sublist_append_right _ h.value).cons colon).countP_le
  omega

/-- The trace has the trimmed values of the two headers, and a search for the originator finds it once it is
stored. -/
structure Traced (c : Header) (o : Option Header) (t : SIPTrace) : Prop where
  callID : t.callID = trimSpace c.value
  originatorCallID : t.originatorCallID = o.elim [] fun h => trimSpace h.value
  found : ∀ h, o = some h → ∀ s s', writeTrace s t = some s' → t ∈ sipTraceFind s' (trimSpace h.value)

theorem traced_iff {c : Header} {o : Option Header} {t : SIPTrace} :
    Traced c o t ↔ t.callID = trimSpace c.value ∧ t.originatorCallID = o.elim [] fun h => trimSpace h.value := by
  refine ⟨fun h => ⟨h.callID, h.originatorCallID⟩, fun h => ⟨h.1, h.2, ?_⟩⟩
  rintro o rfl s s' hwrite
  exact mem_sipTraceFind_of_write hwrite (.inr h.2)

theorem parseSIPTrace_eq (now : Cdr.Time) (trace : SIPTrace) (transport laddr raddr : String) {m : Message}
    {c first : Header} {o : Option Header} (hm : m.WellFormed c o)
    (hfirst : m.headers.find? (fun h => h.name = callIDName ∨ h.name = xOrigName) = some first) :
    parseSIPTrace now trace transport laddr raddr m.bytes = some (if first.Blank then trace else
      { created := now
        rw := trace.rw
        transport := transport
        laddr := laddr
        raddr := raddr
        callID := trimSpace first.parsed
        originatorCallID := o.elim [] fun h => trimSpace h.line
        msg := m.bytes }) := by
  by_cases hblank : first.Blank
  · have hempty : trimSpace first.parsed = [] := hblank
    simp [parseSIPTrace, getHeaderVal_callID hm hfirst, hblank, hempty]
  · have hempty : trimSpace first.parsed ≠ [] := hblank
    simp [parseSIPTrace, getHeaderVal_callID hm hfirst, getHeaderVal_xOrig hm, hblank, hempty]

theorem first_eq_callID {m : Message} {c first : Header} (hm : m.WellFormed c none)
    (hfirst : m.headers.find? (fun h => h.name = callIDName ∨ h.name = xOrigName) = some first) : first = c := by
  have hmem := List.mem_of_find?_eq_some hfirst
  have hxOrig : first.name ≠ xOrigName := by
    simpa using List.filter_eq_nil_iff.mp hm.originator first hmem
  have hname : first.name = callIDName := by
    have hname := List.find?_some hfirst
    simpa [hxOrig] using hname
  have honly : first ∈ m.headers.filter fun h => h.name = callIDName := List.mem_filter.mpr ⟨hmem, by simp [hname]⟩
  rw [hm.callID] at honly
  exact List.mem_singleton.mp honly

theorem exists_first {m : Message} {c : Header} {o : Option Header} (hm : m.WellFormed c o) :
    ∃ first, m.headers.find? (fun h => h.name = callIDName ∨ h.name = xOrigName) = some first := by
  have hmem : c ∈ m.headers.filter fun h => h.name = callIDName := by
    rw [hm.callID]
    exact List.mem_singleton_self c
  obtain ⟨hc, hname⟩ := List.mem_filter.mp hmem
  rw [← Option.isSome_iff_exists, List.find?_isSome]
  exact ⟨c, hc, by simpa using .inl (of_decide_eq_true hname)⟩

/-- The Call-ID and the originator are traced exactly when there is no originator and a Call-ID that is not
blank, with no character of the name right behind its colon, or when the first of the two headers is blank
and the trace has the values already. -/
theorem parseSIPTrace_traced_iff (now : Cdr.Time) (trace : SIPTrace) (transport laddr raddr : String) {m : Message}
    {c : Header} {o : Option Header} (hm : m.WellFormed c o) :
    ∃ first t, m.headers.find? (fun h => h.name = callIDName ∨ h.name = xOrigName) = some first ∧
      parseSIPTrace now trace transport laddr raddr m.bytes = some t ∧
      (Traced c o t ↔ ¬ first.Blank ∧ o = none ∧ c.Kept ∨ first.Blank ∧ Traced c o trace) := by
  obtain ⟨first, hfirst⟩ := exists_first hm
  refine ⟨first, _, hfirst, parseSIPTrace_eq now trace transport laddr raddr hm hfirst, ?_⟩
  by_cases hblank : first.Blank
  · simp [hblank]
  · rw [if_neg hblank, traced_iff]
    simp only [hblank, not_false_iff, true_and, false_and, or_false]
    cases o with
    | none =>
        rw [first_eq_callID hm hfirst, ← trimSpace_parsed_iff]
        simp
    | some o =>
        have hname : o.name = xOrigName := by
          have hmem : o ∈ m.headers.filter fun h => h.name = xOrigName := by
            rw [hm.originator]
            exact List.mem_singleton_self o
          simpa using (List.mem_filter.mp hmem).2
        simp [trimSpace_line_ne hname]

/-- An inbound leg. -/
def inboundHeader : Header := ⟨callIDName, 1, ofString "abc@pbx"⟩

def inboundMessage : Message := ⟨ofString "INVITE sip:bob@pbx SIP/2.0", [inboundHeader], ofString "\r\n"⟩

theorem wellFormed_inbound : inboundMessage.WellFormed inboundHeader none := by
  constructor <;> decide

theorem parseSIPTrace_traced_inbound :
    ∃ t, parseSIPTrace 0 {} "udp" "" "" inboundMessage.bytes = some t ∧ Traced inboundHeader none t := by
  obtain ⟨first, t, hfirst, hparse, hiff⟩ := parseSIPTrace_traced_iff 0 {} "udp" "" "" wellFormed_inbound
  obtain rfl : inboundHeader = first := Option.some.inj hfirst
  exact ⟨t, hparse, hiff.mpr (.inl ⟨by decide, rfl, by unfold Header.Kept; decide⟩)⟩

/-- The outbound leg of it. -/
def outboundMessage : Message :=
  ⟨ofString "INVITE sip:bob@10.0.0.1 SIP/2.0",
    [⟨callIDName, 1, ofString "def@pbx"⟩, ⟨xOrigName, 1, ofString "abc@pbx"⟩], ofString "\r\n"⟩

/-- The name of the header stays in front of the originator. -/
theorem not_parseSIPTrace_traced :
    ¬ ∀ (now : Cdr.Time) (rw : Nat) (transport laddr raddr : String) (m : Message) (c : Header) (o : Option Header)
      (t : SIPTrace), m.WellFormed c o → parseSIPTrace now { rw := rw } transport laddr raddr m.bytes = some t →
      Traced c o t := by
  intro h
  have htraced := h 0 1 "udp" "" "" outboundMessage ⟨callIDName, 1, ofString "def@pbx"⟩
    (some ⟨xOrigName, 1, ofString "abc@pbx"⟩) _ (by constructor <;> decide) rfl
  exact absurd htraced.originatorCallID (by decide)

end Trace
