import Diagox.Cdr.Storage
import Diagox.Lib.Bytes

/-!
# Parsing a SIP trace

`parseSIPTrace` of `cdr_storage.go`, which looks up two headers in the bytes of a message as it came from the network.
The texts it cuts out of the message need not be UTF-8, so they are byte strings.
-/

namespace Trace

open Bytes

structure SIPTrace where
  created : Cdr.Time := 0
  /-- 0 is a read, 1 is a write. -/
  rw : Nat := 0
  transport : String := ""
  laddr : String := ""
  raddr : String := ""
  callID : List UInt8 := []
  originatorCallID : List UInt8 := []
  msg : List UInt8 := []
  deriving DecidableEq, Repr

/-- The name of a header as it is looked for. -/
def headerKey (headerName : String) : List UInt8 := ofString (headerName ++ ":")

/-- What is cut off in front of a value. -/
def cutset : List UInt8 := ofString "Call-ID:"

def carriageReturn : UInt8 := 13

/-- `getHeaderVal`. The result is `none` where the source panics on a slice out of range. -/
def getHeaderVal (sipmsg : List UInt8) (headerName : String) : Option (List UInt8) :=
  let ind := index sipmsg (headerKey headerName)
  if ind < 0 then some []
  else do
    let rest ← slice sipmsg ind sipmsg.length
    let stop := index rest [carriageReturn]
    let callid ← slice sipmsg ind (ind + stop)
    return trimSpace (trimLeft callid cutset)

/-- `parseSIPTrace`, at a time. Without a Call-ID the trace stays as it is. -/
def parseSIPTrace (now : Cdr.Time) (trace : SIPTrace) (transport laddr raddr : String) (sipmsg : List UInt8) :
    Option SIPTrace := do
  let callId ← getHeaderVal sipmsg "Call-ID"
  if callId = [] then return trace
  else do
    let linkedID ← getHeaderVal sipmsg "X-Orig-Call-ID"
    return {
      created := now
      rw := trace.rw
      transport := transport
      laddr := laddr
      raddr := raddr
      callID := callId
      originatorCallID := linkedID
      msg := sipmsg }

/-! ### Where a header ends -/

/-- If the header is there at all, it is somewhere with a carriage return behind it. -/
def Terminated (sipmsg : List UInt8) (headerName : String) : Prop :=
  headerKey headerName <:+: sipmsg →
    ∃ before after, sipmsg = before ++ (headerKey headerName ++ after) ∧ carriageReturn ∈ after

/-- The first Call-ID has nothing to it: up to the carriage return there is nothing but what is cut off. -/
def BlankCallID (sipmsg : List UInt8) : Prop :=
  ∃ before value after, sipmsg = before ++ (value ++ carriageReturn :: after) ∧ carriageReturn ∉ value ∧
    find? (headerKey "Call-ID") sipmsg = some before.length ∧ trimSpace (trimLeft value cutset) = []

section Header

variable {sipmsg : List UInt8} {headerName : String}

theorem getHeaderVal_of_find? {n : Nat} (h : find? (headerKey headerName) sipmsg = some n) :
    getHeaderVal sipmsg headerName =
      (slice sipmsg n (n + index (sipmsg.drop n) [carriageReturn])).map fun callid =>
        trimSpace (trimLeft callid cutset) := by
  obtain ⟨before, after, hs, rfl⟩ := exists_of_find? h
  have hlength : before.length ≤ sipmsg.length := by
    rw [hs, List.length_append]
    exact Nat.le_add_right _ _
  have hindex : index sipmsg (headerKey headerName) = before.length := by
    rw [index, h]
    rfl
  have hrest : slice sipmsg before.length sipmsg.length = some (sipmsg.drop before.length) := by
    rw [slice, if_pos ⟨Int.natCast_nonneg _, Int.ofNat_le.mpr hlength, le_rfl⟩]
    simp
  unfold getHeaderVal
  simp only [hindex]
  rw [if_neg (Int.not_lt.mpr (Int.natCast_nonneg _)), hrest]
  exact Option.map_eq_bind.symm

theorem getHeaderVal_of_none (h : ¬ headerKey headerName <:+: sipmsg) : getHeaderVal sipmsg headerName = some [] := by
  rw [getHeaderVal, index, find?_eq_none_iff.mpr h]
  rfl

/-- A header is read without a panic exactly when it is terminated. -/
theorem getHeaderVal_isSome_iff (hname : carriageReturn ∉ headerKey headerName) :
    (getHeaderVal sipmsg headerName).isSome = true ↔ Terminated sipmsg headerName := by
  cases hfind : find? (headerKey headerName) sipmsg with
  | none =>
      have hnot := find?_eq_none_iff.mp hfind
      rw [getHeaderVal_of_none hnot]
      exact iff_of_true rfl fun h => absurd h hnot
  | some n =>
      obtain ⟨before, after, hs, rfl⟩ := exists_of_find? hfind
      have hlength : before.length ≤ sipmsg.length := by
        rw [hs, List.length_append]
        exact Nat.le_add_right _ _
      have hdrop : sipmsg.drop before.length = headerKey headerName ++ after := by rw [hs, List.drop_left]
      rw [getHeaderVal_of_find? hfind, Option.isSome_map, slice_index_isSome_iff hlength, List.singleton_infix_iff,
        hdrop]
      constructor
      · intro hmem _
        exact ⟨before, after, hs, (List.mem_append.mp hmem).resolve_left hname⟩
      · intro hterminated
        obtain ⟨before', after', hs', hmem⟩ := hterminated ⟨before, after, by rw [hs, List.append_assoc]⟩
        -- the first occurrence stands before any other
        have hle := find?_le hfind hs'
        have hdrop' : sipmsg.drop before.length = before'.drop before.length ++ (headerKey headerName ++ after') := by
          rw [hs', List.drop_append_of_le_length hle]
        rw [← hdrop, hdrop']
        exact List.mem_append_right _ (List.mem_append_right _ hmem)

theorem getHeaderVal_of_terminated {before value after : List UInt8}
    (h : find? (headerKey headerName) sipmsg = some before.length)
    (hs : sipmsg = before ++ (value ++ carriageReturn :: after)) (hvalue : carriageReturn ∉ value) :
    getHeaderVal sipmsg headerName = some (trimSpace (trimLeft value cutset)) := by
  have hfirst := find?_singleton_of_notMem hvalue after
  rw [getHeaderVal_of_find? h, slice_index_of_find? hs hfirst]
  rfl

end Header

theorem getHeaderVal_eq_nil_iff {sipmsg : List UInt8} (hterminated : Terminated sipmsg "Call-ID") :
    getHeaderVal sipmsg "Call-ID" = some [] ↔ ¬ headerKey "Call-ID" <:+: sipmsg ∨ BlankCallID sipmsg := by
  cases hfind : find? (headerKey "Call-ID") sipmsg with
  | none =>
      have hnot := find?_eq_none_iff.mp hfind
      exact iff_of_true (getHeaderVal_of_none hnot) (.inl hnot)
  | some n =>
      obtain ⟨before, rest, hs, rfl⟩ := exists_of_find? hfind
      have hinfix : headerKey "Call-ID" <:+: sipmsg := ⟨before, rest, by rw [hs, List.append_assoc]⟩
      obtain ⟨before', after', hs', hmem⟩ := hterminated hinfix
      have hle := find?_le hfind hs'
      have hreturn : carriageReturn ∈ sipmsg.drop before.length := by
        rw [hs', List.drop_append_of_le_length hle]
        exact List.mem_append_right _ (List.mem_append_right _ hmem)
      obtain ⟨value, after, hdrop, hvalue⟩ := List.eq_append_cons_of_mem hreturn
      have hsplit : sipmsg = before ++ (value ++ carriageReturn :: after) := by
        rw [← hdrop, hs, List.drop_left]
      rw [getHeaderVal_of_terminated hfind hsplit hvalue, Option.some.injEq, or_iff_right (not_not.mpr hinfix)]
      constructor
      · exact fun hblank => ⟨before, value, after, hsplit, hvalue, hfind, hblank⟩
      · rintro ⟨before₁, value₁, after₁, hs₁, hvalue₁, hfind₁, hblank⟩
        have hsame := getHeaderVal_of_terminated hfind₁ hs₁ hvalue₁
        rw [getHeaderVal_of_terminated hfind hsplit hvalue, hblank] at hsame
        exact Option.some.inj hsame

/-- For every byte sequence, parsing a trace does not panic exactly when the Call-ID has a carriage return behind it,
and so has the Call-ID of the originator, which is not looked for behind a blank Call-ID. -/
theorem parseSIPTrace_isSome_iff (now : Cdr.Time) (trace : SIPTrace) (transport laddr raddr : String)
    (sipmsg : List UInt8) :
    (parseSIPTrace now trace transport laddr raddr sipmsg).isSome = true ↔
      Terminated sipmsg "Call-ID" ∧ (BlankCallID sipmsg ∨ Terminated sipmsg "X-Orig-Call-ID") := by
  have hcallID : (getHeaderVal sipmsg "Call-ID").isSome = true ↔ Terminated sipmsg "Call-ID" :=
    getHeaderVal_isSome_iff (by decide)
  have hlinked : (getHeaderVal sipmsg "X-Orig-Call-ID").isSome = true ↔ Terminated sipmsg "X-Orig-Call-ID" :=
    getHeaderVal_isSome_iff (by decide)
  unfold parseSIPTrace
  cases hvalue : getHeaderVal sipmsg "Call-ID" with
  | none =>
      rw [hvalue] at hcallID
      exact iff_of_false (by simp) fun h => by simpa using hcallID.mpr h.1
  | some callId =>
      have hterminated : Terminated sipmsg "Call-ID" := hcallID.mp (by rw [hvalue]; rfl)
      have hblank := getHeaderVal_eq_nil_iff hterminated
      rw [hvalue, Option.some.injEq] at hblank
      rw [and_iff_right hterminated]
      by_cases hempty : callId = []
      · refine iff_of_true (by simp [hempty]) ?_
        obtain hmissing | hblank := hblank.mp hempty
        · -- the name of the second header ends in the name of the first
          right
          intro hinfix
          have hsuffix : headerKey "Call-ID" <:+ headerKey "X-Orig-Call-ID" := by decide
          exact absurd (hsuffix.isInfix.trans hinfix) hmissing
        · exact .inl hblank
      · have hnot : ¬ BlankCallID sipmsg := fun h => hempty (hblank.mpr (.inr h))
        rw [or_iff_right hnot, ← hlinked]
        cases getHeaderVal sipmsg "X-Orig-Call-ID" with
        | none => simp [hempty]
        | some linkedID => simp [hempty]

/-- A message whose lines end without a carriage return. -/
def bareMessage : List UInt8 := ofString "OPTIONS sip:pbx SIP/2.0\nCall-ID: 1\n\n"

theorem not_parseSIPTrace_isSome :
    ¬ ∀ (now : Cdr.Time) (trace : SIPTrace) (transport laddr raddr : String) (sipmsg : List UInt8),
      (parseSIPTrace now trace transport laddr raddr sipmsg).isSome = true := by
  intro h
  exact absurd (h 0 {} "udp" "" "" bareMessage) (by decide)

end Trace
