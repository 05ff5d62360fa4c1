import Diagox.Flow.ReadLoop
import Diagox.Flow.Recording
import Diagox.Lib.Bytes
import Diagox.Lib.SharedStream

/-!
# Frames on a flow connection

The messages of a `FlowConnection` as the agent receives them. The read loop and the goroutines of the dialogs write
to one `net.Conn`, and `wsutil` writes a message in two parts, the header of its frame and the payload. Nothing keeps
another goroutine from a write between them, so who writes what and when is left open here: every order of parts is a
schedule.
-/

namespace Flow.Frames

open SharedStream

/-! ### Messages -/

inductive OpCode where
  | text
  | binary
  deriving DecidableEq, Repr

/-- The first byte of a frame that is not fragmented. -/
def OpCode.finByte : OpCode → UInt8
  | .text => 129
  | .binary => 130

inductive Write where
  /-- `writeResponse` of the read loop or of a dialog. -/
  | response (res : ReadLoop.FlowResponse)
  /-- The request of `doRequest`. -/
  | request (req : ReadLoop.FlowRequest)
  /-- The recording of `listen`, with the samples encoded if a format is asked for. -/
  | recording (recordID : List UInt8) (samples16 : Nat) (samples : List (List UInt8))
      (wavWrite : Option (List UInt8 → List UInt8))

def recordingMessage (recordID : List UInt8) (samples16 : Nat) (samples : List (List UInt8))
    (wavWrite : Option (List UInt8 → List UInt8)) : List UInt8 :=
  let metadataSize := (newRecordBuffer recordID samples16).n
  let recording := ((newRecordBuffer recordID samples16).writeFrames samples).1.bytes
  match wavWrite with
  | none => recording
  | some wavWrite => recording.take metadataSize ++ wavWrite (recording.drop metadataSize)

def Write.opCode : Write → OpCode
  | .recording .. => .binary
  | _ => .text

section Payload

variable (quote : String → List UInt8)

/-- `json.Marshal` of a struct, whose strings are written by `quote`. -/
def marshalStruct (members : List (String × List UInt8)) : List UInt8 :=
  123 :: [44].intercalate (members.map fun member => quote member.1 ++ 58 :: member.2) ++ [125]

/-- A `json.RawMessage` that is nil is written as `null`. -/
def marshalRaw (data : String) : List UInt8 := Bytes.ofString (if data = "" then "null" else data)

def marshalResponse (res : ReadLoop.FlowResponse) : List UInt8 :=
  marshalStruct quote [("id", quote res.id), ("did", quote res.did), ("code", Bytes.ofString (toString res.code)),
    ("reason", quote res.reason), ("data", marshalRaw res.data)]

def marshalRequest (req : ReadLoop.FlowRequest) : List UInt8 :=
  marshalStruct quote [("id", quote req.id), ("did", quote req.did), ("op", quote req.op),
    ("data", marshalRaw req.data)]

def Write.payload : Write → List UInt8
  | .response res => marshalResponse quote res
  | .request req => marshalRequest quote req
  | .recording recordID samples16 samples wavWrite => recordingMessage recordID samples16 samples wavWrite

/-- A message. The length of a slice is an `int`. -/
structure Message where
  write : Write
  fits : (write.payload quote).length < 2 ^ 63

end Payload

/-! ### Frames -/

inductive Writer where
  | readLoop
  | dialog (id : String)
  deriving DecidableEq, Repr

/-- What RFC 6455 says of the header that `ws.WriteHeader` writes, by the opcode and the length of the payload. -/
structure HeaderFormat (header : OpCode → Nat → List UInt8) : Prop where
  finByte : ∀ op n, (header op n).head? = some op.finByte
  /-- The end of a header is known from its bytes. -/
  delimited : ∀ op op' n n' rest rest', n < 2 ^ 63 → n' < 2 ^ 63 →
    header op n ++ rest = header op' n' ++ rest' → op = op' ∧ n = n'

section Connection

variable {quote : String → List UInt8} (writeHeader : OpCode → Nat → List UInt8)

def Message.payload (m : Message quote) : List UInt8 := m.write.payload quote

def Message.header (m : Message quote) : List UInt8 := writeHeader m.write.opCode m.payload.length

abbrev Connection (quote : String → List UInt8) := SharedStream Writer (Message quote) UInt8

def writePart (conn : Connection quote) (part : Part Writer (Message quote)) : Connection quote :=
  step (Message.header writeHeader) Message.payload conn part

/-- What the agent receives are complete frames, one for each message. -/
def ReceivesFrames (conn : Connection quote) : Prop := Intact (Message.header writeHeader) Message.payload conn

variable {writeHeader}

theorem exists_payload_eq_cons (m : Message quote) : ∃ b rest, m.payload = b :: rest ∧ (b = 123 ∨ b = 1) := by
  obtain ⟨write, hfits⟩ := m
  cases write with
  | response res => exact ⟨123, _, rfl, .inl rfl⟩
  | request req => exact ⟨123, _, rfl, .inl rfl⟩
  | recording recordID samples16 samples wavWrite =>
      obtain ⟨hfits, hn, hbytes⟩ := newRecordBuffer_spec recordID samples16
      obtain ⟨-, rest, hrest⟩ := RecordBuffer.writeFrames_spec hfits samples
      rw [hbytes, List.cons_append, List.cons_append] at hrest
      cases wavWrite with
      | none => exact ⟨1, _, hrest.symm, .inr rfl⟩
      | some wavWrite =>
          let recording := ((newRecordBuffer recordID samples16).writeFrames samples).1.bytes
          have htake : recording.take (newRecordBuffer recordID samples16).n =
              1 :: (putUint32 (recordID.length % 2 ^ 32) ++ recordID ++ rest).take (recordID.length + 4) := by
            rw [hn, ← List.take_succ_cons, hrest]
          exact ⟨1, _, congrArg (· ++ _) htake, .inr rfl⟩

theorem framing (hheader : HeaderFormat writeHeader) :
    Framing (Message.header writeHeader : Message quote → List UInt8) Message.payload where
  delimited m m' rest rest' heq := by
    obtain ⟨hop, hlength⟩ := hheader.delimited _ _ _ _ _ _ m.fits m'.fits heq
    refine ⟨?_, hlength⟩
    show writeHeader _ _ = writeHeader _ _
    rw [hop]
    exact congrArg _ hlength
  apart m m' rest rest' heq := by
    obtain ⟨b, payload, hpayload, hb⟩ := exists_payload_eq_cons m'
    have hhead := congrArg List.head? heq
    rw [hpayload, List.head?_append, Message.header, hheader.finByte] at hhead
    obtain rfl : m.write.opCode.finByte = b := Option.some.inj hhead
    cases hop : m.write.opCode with
    | text => simp [hop, OpCode.finByte] at hb
    | binary => simp [hop, OpCode.finByte] at hb

/-- When no write is under way, the agent has received complete frames exactly when no goroutine has written a header
between the header and the payload of another. -/
theorem receivesFrames_iff (hheader : HeaderFormat writeHeader) {schedule : List (Part Writer (Message quote))}
    (hidle : ∀ writer, (Run.run (writePart writeHeader) {} schedule).pending writer = none) :
    ReceivesFrames writeHeader (Run.run (writePart writeHeader) {} schedule) ↔
      Run.Permitted (writePart writeHeader) Alone {} schedule :=
  intact_iff (framing hheader) hidle

end Connection

/-! ### The header of a frame -/

/-- The length of a payload, in one of the three forms of RFC 6455. -/
def headerLength (n : Nat) : List UInt8 :=
  if n < 126 then [.ofNat n] else if n < 2 ^ 16 then 126 :: Bytes.bigEndian 2 n else 127 :: Bytes.bigEndian 8 n

def rfcHeader (op : OpCode) (n : Nat) : List UInt8 := op.finByte :: headerLength n

theorem head_headerLength (n : Nat) (rest : List UInt8) :
    (headerLength n ++ rest).head?.map UInt8.toNat =
      some (if n < 126 then n else if n < 2 ^ 16 then 126 else 127) := by
  unfold headerLength
  split_ifs with hshort hmedium
  · show some (UInt8.ofNat n).toNat = some n
    rw [UInt8.toNat_ofNat', Nat.mod_eq_of_lt (by omega)]
  · rfl
  · rfl

theorem headerLength_inj {n n' : Nat} (hn : n < 2 ^ 63) (hn' : n' < 2 ^ 63) {rest rest' : List UInt8}
    (h : headerLength n ++ rest = headerLength n' ++ rest') : n = n' := by
  have hform := congrArg (fun bytes => bytes.head?.map UInt8.toNat) h
  simp only [head_headerLength, Option.some.injEq] at hform
  have hforms : (n < 126 → n = n') ∧ (n' < 126 ↔ n < 126) ∧ (n' < 2 ^ 16 ↔ n < 2 ^ 16) := by
    split_ifs at hform <;> omega
  obtain ⟨hequal, hshort', hmedium'⟩ := hforms
  by_cases hshort : n < 126
  · exact hequal hshort
  simp only [headerLength, hshort', hmedium', if_neg hshort] at h
  by_cases hmedium : n < 2 ^ 16
  · simp only [if_pos hmedium] at h
    have hbytes := (List.append_inj (List.cons.inj h).2 (by simp)).1
    exact Bytes.bigEndian_inj hmedium (hmedium'.mpr hmedium) hbytes
  · simp only [if_neg hmedium] at h
    have hbytes := (List.append_inj (List.cons.inj h).2 (by simp)).1
    exact Bytes.bigEndian_inj (by omega) (by omega) hbytes

theorem headerFormat_rfc : HeaderFormat rfcHeader where
  finByte _ _ := rfl
  delimited op op' n n' rest rest' hn hn' h := by
    obtain ⟨hfin, htail⟩ := List.cons.inj h
    refine ⟨?_, headerLength_inj hn hn' htail⟩
    cases op with
    | text =>
        cases op' with
        | text => rfl
        | binary => cases hfin
    | binary =>
        cases op' with
        | text => cases hfin
        | binary => rfl

/-! ### The read loop and a dialog -/

/-- Strings without escapes. -/
def quotePlain (s : String) : List UInt8 := 34 :: Bytes.ofString s ++ [34]

def notFound : Message quotePlain where
  write := .response { id := "2", did := "e", code := 404, reason := "Dialog Does Not Exist" }
  fits := by decide

def played : Message quotePlain where
  write := .response { id := "1", did := "d", code := 200, reason := "OK" }
  fits := by decide

def orderlySchedule : List (Part Writer (Message quotePlain)) :=
  [.header (.dialog "d") played, .payload (.dialog "d"), .header .readLoop notFound, .payload .readLoop]

/-- The loop answers while the dialog is writing. -/
def tornSchedule : List (Part Writer (Message quotePlain)) :=
  [.header (.dialog "d") played, .header .readLoop notFound, .payload (.dialog "d"), .payload .readLoop]

theorem receivesFrames_orderly :
    ReceivesFrames rfcHeader (Run.run (writePart rfcHeader) {} orderlySchedule) ↔
      Run.Permitted (writePart rfcHeader) Alone {} orderlySchedule := by
  refine receivesFrames_iff headerFormat_rfc fun writer => ?_
  simp [orderlySchedule, writePart, step]

theorem not_receivesFrames :
    (∀ writer, (Run.run (writePart rfcHeader) {} tornSchedule).pending writer = none) ∧
      (Run.run (writePart rfcHeader) {} tornSchedule).written = [played, notFound] ∧
      ¬ReceivesFrames rfcHeader (Run.run (writePart rfcHeader) {} tornSchedule) := by
  refine ⟨fun writer => ?_, rfl, ?_⟩
  · cases writer with
    | readLoop => rfl
    | dialog id =>
        by_cases hid : id = "d"
        · rw [hid]
          rfl
        · simp [tornSchedule, writePart, step, hid]
  · exact Torn.not_intact (framing headerFormat_rfc) ⟨[], played, notFound, played.payload ++ notFound.payload, rfl⟩

end Flow.Frames
