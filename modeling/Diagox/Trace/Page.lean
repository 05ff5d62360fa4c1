import Diagox.Trace.Search

/-!
# The page of a call

From the bytes on the network to `GET /history/siptrace` of `http.go`: `SIPTraceRead` and `SIPTraceWrite` record a
message, and the page shows the messages of one call, as `parseSIPTrace` reads their headers. That is not always what
the headers say: the value of `X-Orig-Call-ID` is read with the name in front of it. A message in which no Call-ID is
read is not shown anywhere, but it takes up a slot.
-/

namespace Trace

open Bytes

/-- A message on the network, read (0) or written (1). -/
structure Wire where
  now : Cdr.Time
  rw : Nat
  transport : String
  laddr : String
  raddr : String
  sipmsg : List UInt8
  deriving DecidableEq, Repr

/-- What `SIPTraceRead` and `SIPTraceWrite` have in common. The result is `none` where the source panics. -/
def sipTrace (s : SipTracerMemoryStorage) (w : Wire) : Option SipTracerMemoryStorage := do
  let trace ← parseSIPTrace w.now { rw := w.rw } w.transport w.laddr w.raddr w.sipmsg
  writeTrace s trace

def sipTraceRead (s : SipTracerMemoryStorage) (now : Cdr.Time) (transport laddr raddr : String) (sipmsg : List UInt8) :
    Option SipTracerMemoryStorage :=
  sipTrace s ⟨now, 0, transport, laddr, raddr, sipmsg⟩

def sipTraceWrite (s : SipTracerMemoryStorage) (now : Cdr.Time) (transport laddr raddr : String)
    (sipmsg : List UInt8) : Option SipTracerMemoryStorage :=
  sipTrace s ⟨now, 1, transport, laddr, raddr, sipmsg⟩

def sipTraceAll (s : SipTracerMemoryStorage) : List Wire → Option SipTracerMemoryStorage
  | [] => some s
  | w :: wires => (sipTrace s w).bind (sipTraceAll · wires)

section Page

-- `time.Time.Format` with the layout of RFC 3339
variable (formatRFC3339 : Cdr.Time → String)

/-- What the page shows of one trace. -/
def traceBlock (m : SIPTrace) : List UInt8 :=
  let dir := if m.rw = 1 then " --> " else " <-- "
  ofString ("===> " ++ formatRFC3339 m.created ++ " " ++ m.laddr ++ dir ++ m.raddr ++ " <===\n") ++ m.msg ++
    ofString "\n"

inductive PageAnswer where
  | error (code : Nat) (msg : String)
  | content (body : List UInt8)
  deriving DecidableEq, Repr

/-- `pageHistorySipTrace`, for the value of `callid` in the query. -/
def pageHistorySipTrace (tracer : Option SipTracerMemoryStorage) (callid : List UInt8) : PageAnswer :=
  match tracer with
  | none => .error 404 "SIP tracer is not enabled"
  | some s =>
      if callid = [] then .error 400 "missing callid parameter"
      else .content ((sipTraceFind s callid).flatMap (traceBlock formatRFC3339))

end Page

/-! ### What the page shows -/

/-- `parseSIPTrace` reads this Call-ID in the message, or a Call-ID and this originator. -/
def Wire.ReadAs (callID : List UInt8) (w : Wire) : Prop :=
  ∃ c, getHeaderVal w.sipmsg "Call-ID" = some c ∧ c ≠ [] ∧
    (c = callID ∨ getHeaderVal w.sipmsg "X-Orig-Call-ID" = some callID)

instance (callID : List UInt8) : DecidablePred (Wire.ReadAs callID) := fun w =>
  match h : getHeaderVal w.sipmsg "Call-ID" with
  | none => .isFalse fun ⟨_, hc, _⟩ => by rw [h] at hc; cases hc
  | some c =>
      decidable_of_iff (c ≠ [] ∧ (c = callID ∨ getHeaderVal w.sipmsg "X-Orig-Call-ID" = some callID))
        ⟨fun hc => ⟨c, h, hc⟩, fun ⟨c', hc', hrest⟩ => by
          rw [h, Option.some.injEq] at hc'
          exact hc' ▸ hrest⟩

/-- The message as the page shows it. -/
def Wire.block (formatRFC3339 : Cdr.Time → String) (w : Wire) : List UInt8 :=
  ofString ("===> " ++ formatRFC3339 w.now ++ " " ++ w.laddr ++ (if w.rw = 1 then " --> " else " <-- ") ++ w.raddr ++
    " <===\n") ++ w.sipmsg ++ ofString "\n"

/-- The last `N` entries in the order of their slots: those since the ring has started over come first. -/
def ringOrder {α : Type} (N : Nat) (xs : List α) : List α :=
  xs.drop (xs.length - xs.length % N) ++ (xs.take (xs.length - xs.length % N)).drop (xs.length - N)

section Shown

variable {N : Nat} {s : SipTracerMemoryStorage} {wires : List Wire} {callID : List UInt8}

theorem sipTraceAll_eq_some {s s' : SipTracerMemoryStorage} (h : sipTraceAll s wires = some s') :
    ∃ traces, List.Forall₂ (fun (w : Wire) t =>
        parseSIPTrace w.now { rw := w.rw } w.transport w.laddr w.raddr w.sipmsg = some t) wires traces ∧
      writeTraceAll s traces = some s' := by
  induction wires generalizing s with
  | nil => exact ⟨[], .nil, h⟩
  | cons w wires ih =>
      obtain ⟨s₁, hfirst, hrest⟩ := Option.bind_eq_some_iff.mp h
      obtain ⟨t, hparse, hwrite⟩ := Option.bind_eq_some_iff.mp hfirst
      obtain ⟨traces, hparsed, hall⟩ := ih hrest
      exact ⟨t :: traces, .cons hparse hparsed, by rw [writeTraceAll, hwrite]; exact hall⟩

/-- A trace is found by a Call-ID exactly when its message is read as having it, and is shown as this message. -/
theorem concerns_parsed {w : Wire} {t : SIPTrace} (hcallID : callID ≠ [])
    (h : parseSIPTrace w.now { rw := w.rw } w.transport w.laddr w.raddr w.sipmsg = some t) :
    (Concerns callID t ↔ w.ReadAs callID) ∧
      ∀ formatRFC3339, Concerns callID t → traceBlock formatRFC3339 t = w.block formatRFC3339 := by
  obtain ⟨c, hc, hrest⟩ := Option.bind_eq_some_iff.mp h
  unfold Wire.ReadAs
  split_ifs at hrest with hblank
  · obtain rfl : _ = t := Option.some.inj hrest
    have hnot : ¬ Concerns callID ({ rw := w.rw } : SIPTrace) := by
      rintro (hsame | hsame)
      · exact hcallID hsame.symm
      · exact hcallID hsame.symm
    refine ⟨iff_of_false hnot ?_, fun _ hconcerns => absurd hconcerns hnot⟩
    rintro ⟨c', hc', hne, -⟩
    rw [hc, Option.some.injEq] at hc'
    exact hne (hc' ▸ hblank)
  · obtain ⟨o, ho, hsome⟩ := Option.bind_eq_some_iff.mp hrest
    obtain rfl := Option.some.inj hsome
    refine ⟨?_, fun _ _ => rfl⟩
    simp only [Concerns, hc, ho, Option.some.injEq, exists_eq_left']
    exact (and_iff_right hblank).symm

theorem flatMap_filter_parsed {formatRFC3339 : Cdr.Time → String} {traces : List SIPTrace} (hcallID : callID ≠ [])
    (h : List.Forall₂ (fun (w : Wire) t =>
      parseSIPTrace w.now { rw := w.rw } w.transport w.laddr w.raddr w.sipmsg = some t) wires traces) :
    (traces.filter fun t => Concerns callID t).flatMap (traceBlock formatRFC3339) =
      (wires.filter fun w => w.ReadAs callID).flatMap (Wire.block formatRFC3339) := by
  induction h with
  | nil => rfl
  | @cons w t wires traces hparse hparsed ih =>
      obtain ⟨hiff, hblock⟩ := concerns_parsed hcallID hparse
      by_cases ht : Concerns callID t
      · have hw := hiff.mp ht
        rw [List.filter_cons_of_pos (by simpa using ht), List.filter_cons_of_pos (by simpa using hw),
          List.flatMap_cons, List.flatMap_cons, ih, hblock formatRFC3339 ht]
      · have hw := fun hw => ht (hiff.mpr hw)
        rw [List.filter_cons_of_neg (by simpa using ht), List.filter_cons_of_neg (by simpa using hw), ih]

/-- Whatever was read and written without a panic, the page of a Call-ID shows those of the last `N` messages that are
read as having it, each of them once with its own bytes, in the order of their slots. -/
theorem pageHistorySipTrace_shows (formatRFC3339 : Cdr.Time → String) (hN : 0 < N) (wires : List Wire)
    (hs : sipTraceAll (newSipTracerMemoryStorage N) wires = some s) (hcallID : callID ≠ []) :
    pageHistorySipTrace formatRFC3339 (some s) callID =
      .content (((ringOrder N wires).filter fun w => w.ReadAs callID).flatMap (Wire.block formatRFC3339)) := by
  obtain ⟨traces, hparsed, hwritten⟩ := sipTraceAll_eq_some hs
  have hlength := hparsed.length_eq
  unfold pageHistorySipTrace
  simp only [if_neg hcallID]
  rw [sipTraceFind_eq hN hwritten hcallID, ← List.filter_append]
  congr 1
  apply flatMap_filter_parsed hcallID
  unfold sinceRound beforeRound ringOrder
  rw [← hlength]
  exact List.rel_append (List.forall₂_drop _ hparsed) (List.forall₂_drop _ (List.forall₂_take _ hparsed))

end Shown

/-- An INVITE that is read, a keep-alive without a Call-ID, and the answer to the INVITE. -/
def threeWires : List Wire :=
  [⟨1, 0, "udp", "pbx", "bob", ofString "INVITE\r\nCall-ID: a\r\n\r\n"⟩, ⟨2, 0, "udp", "pbx", "bob", ofString "\r\n"⟩,
    ⟨3, 1, "udp", "pbx", "bob", ofString "SIP/2.0 200 OK\r\nCall-ID: a\r\n\r\n"⟩]

theorem pageHistorySipTrace_shows_threeWires :
    ∃ s, sipTraceAll (newSipTracerMemoryStorage 2) threeWires = some s ∧
      pageHistorySipTrace (fun _ => "now") (some s) [97] =
        .content (((ringOrder 2 threeWires).filter fun w => w.ReadAs [97]).flatMap (Wire.block fun _ => "now")) := by
  obtain ⟨s, hs⟩ : ∃ s, sipTraceAll (newSipTracerMemoryStorage 2) threeWires = some s := ⟨_, rfl⟩
  exact ⟨s, hs, pageHistorySipTrace_shows (fun _ => "now") (by decide) threeWires hs (by decide)⟩

/-- The keep-alive has taken the slot of the INVITE, and only the answer is left. -/
example : ((ringOrder 2 threeWires).filter fun w => w.ReadAs [97]).map (·.now) = [3] := by decide

end Trace
