import Mathlib.Algebra.Ring.Nat
import Mathlib.Data.List.Basic
import Mathlib.Order.Basic
import Mathlib.Tactic.Common

/-!
# The recording buffer

`recordBuffer` of `flow_rpc.go`: what `listen` records into, and the message it sends. The message starts with a type
byte, the length of the request ID in four bytes and the ID; the samples follow. They are written after it, so it is
there when `listen` looks for it again. Of the frames of samples the first ones are kept, as many as fit, and a frame
that fits exactly is kept although its write reports an error.
-/

namespace Flow

/-- `copy(dst[n:], b)`: the slice afterwards, and how many bytes were copied. -/
def copyAt (dst : List UInt8) (n : Nat) (b : List UInt8) : List UInt8 × Nat :=
  (dst.take n ++ b.take (dst.length - n) ++ dst.drop (n + b.length), min (dst.length - n) b.length)

/-- `binary.BigEndian.PutUint32`. -/
def putUint32 (v : Nat) : List UInt8 := [.ofNat (v / 2 ^ 24), .ofNat (v / 2 ^ 16), .ofNat (v / 2 ^ 8), .ofNat v]

/-- `binary.BigEndian.Uint32`, of four bytes. -/
def getUint32 (b : List UInt8) : Nat := b.foldl (fun v x => 256 * v + x.toNat) 0

/-- The capacity of `memoryBuf` is its length. -/
structure RecordBuffer where
  memoryBuf : List UInt8
  n : Nat
  deriving DecidableEq, Repr

inductive WriteError where
  /-- `io.ErrUnexpectedEOF`. -/
  | unexpectedEOF
  /-- `io.ErrClosedPipe`: the buffer is full. -/
  | closedPipe
  deriving DecidableEq, Repr

namespace RecordBuffer

/-- The first `n` bytes. -/
def bytes (buf : RecordBuffer) : List UInt8 := buf.memoryBuf.take buf.n

def append (buf : RecordBuffer) (b : List UInt8) : RecordBuffer :=
  { memoryBuf := (copyAt buf.memoryBuf buf.n b).1, n := buf.n + (copyAt buf.memoryBuf buf.n b).2 }

/-- `Write`, with the two results it returns. -/
def write (buf : RecordBuffer) (b : List UInt8) : RecordBuffer × Nat × Option WriteError :=
  let avail := buf.memoryBuf.length - buf.n
  if avail ≤ b.length then
    if buf.n = 0 then (buf, 0, some .unexpectedEOF)
    else if avail = b.length then (buf.append b, 0, some .closedPipe)
    else (buf, 0, some .closedPipe)
  else (buf.append b, b.length, none)

/-- Frames that are copied to the buffer one after the other, as far as the first error of a write. -/
def writeFrames (buf : RecordBuffer) : List (List UInt8) → RecordBuffer × Option WriteError
  | [] => (buf, none)
  | b :: frames => match buf.write b with
    | (buf, _, none) => buf.writeFrames frames
    | (buf, _, some err) => (buf, some err)

end RecordBuffer

/-- The buffer of a recording for ten seconds of samples, with the metadata in front of them. -/
def newRecordBuffer (recordID : List UInt8) (samples16 : Nat) : RecordBuffer :=
  let memoryBuf := List.replicate (1 + 4 + recordID.length + samples16 * 50 * 10) 0
  let memoryBuf := memoryBuf.set 0 1
  let memoryBuf := (copyAt memoryBuf 1 (putUint32 (recordID.length % 2 ^ 32))).1
  let (memoryBuf, n) := copyAt memoryBuf 5 recordID
  { memoryBuf := memoryBuf, n := n + 5 }

/-- The conditions under which `listen` does not panic over its recording. -/
def recordingConsistent (recording recordID : List UInt8) (metadataSize : Nat) : Bool :=
  !decide (recording.length < metadataSize) &&
    getUint32 ((recording.drop 1).take 4) == recordID.length % 2 ^ 32 &&
    (recording.drop 5).take recordID.length == recordID

/-! ### The frames that fit -/

/-- The bytes of the frames that are recorded with room for so many: each frame that leaves room, and a last one that
leaves none. -/
def recorded : (room : Nat) → List (List UInt8) → List UInt8
  | _, [] => []
  | room, b :: frames =>
      if room ≤ b.length then if room = b.length then b else []
      else b ++ recorded (room - b.length) frames

/-- The first frames that fit into the room, as many of them as do. -/
structure LongestFitting (room : Nat) (frames taken : List (List UInt8)) : Prop where
  isPrefix : taken <+: frames
  fits : taken.flatten.length ≤ room
  longest : ∀ other : List (List UInt8), other <+: frames → other.flatten.length ≤ room → other.length ≤ taken.length

/-- The last of the frames fills the room exactly, or no longer fits into it. -/
def Fills (room : Nat) (frames : List (List UInt8)) : Prop := room ≤ frames.flatten.length

/-- None of the frames before does so. -/
def FirstToFill (room : Nat) (before : List (List UInt8)) (b : List UInt8) : Prop :=
  (∀ earlier, earlier <+: before → earlier ≠ [] → ¬ Fills room earlier) ∧ Fills room (before ++ [b])

section Fitting

variable {room : Nat} {frames taken : List (List UInt8)} {b : List UInt8}

theorem LongestFitting.nil (room : Nat) : LongestFitting room [] [] where
  isPrefix := List.prefix_rfl
  fits := Nat.zero_le _
  longest _ hother _ := hother.length_le

theorem LongestFitting.cons (hb : b.length ≤ room) (h : LongestFitting (room - b.length) frames taken) :
    LongestFitting room (b :: frames) (b :: taken) where
  isPrefix := (List.prefix_cons_inj b).mpr h.isPrefix
  fits := by
    have hfits := h.fits
    rw [List.flatten_cons, List.length_append]
    omega
  longest other hother hroom := by
    obtain _ | ⟨c, other⟩ := other
    · exact Nat.zero_le _
    · obtain ⟨rfl, hrest⟩ := List.cons_prefix_cons.mp hother
      rw [List.flatten_cons, List.length_append] at hroom
      exact Nat.succ_le_succ (h.longest other hrest (by omega))

theorem LongestFitting.of_lt (hb : room < b.length) : LongestFitting room (b :: frames) [] where
  isPrefix := List.nil_prefix
  fits := Nat.zero_le _
  longest other hother hroom := by
    obtain _ | ⟨c, other⟩ := other
    · exact le_rfl
    · obtain ⟨rfl, -⟩ := List.cons_prefix_cons.mp hother
      rw [List.flatten_cons, List.length_append] at hroom
      omega

theorem LongestFitting.full (h : ∀ b ∈ frames, b ≠ []) : LongestFitting 0 frames [] := by
  cases frames with
  | nil => exact .nil 0
  | cons b frames => exact .of_lt (List.length_pos_iff.mpr (h b List.mem_cons_self))

theorem recorded_longestFitting (h : ∀ b ∈ frames, b ≠ []) :
    ∃ taken, LongestFitting room frames taken ∧ recorded room frames = taken.flatten := by
  induction frames generalizing room with
  | nil => exact ⟨[], .nil room, rfl⟩
  | cons b frames ih =>
      have hrest : ∀ c ∈ frames, c ≠ [] := fun c hc => h c (List.mem_cons_of_mem b hc)
      unfold recorded
      split_ifs with hfull hexact
      · -- the last frame, which leaves no room for another one
        refine ⟨[b], .cons hexact.ge ?_, by simp⟩
        rw [hexact, Nat.sub_self]
        exact .full hrest
      · exact ⟨[], .of_lt (by omega), rfl⟩
      · obtain ⟨taken, htaken, hrecorded⟩ : ∃ taken, LongestFitting (room - b.length) frames taken ∧
            recorded (room - b.length) frames = taken.flatten := ih hrest
        exact ⟨b :: taken, .cons (by omega) htaken, by rw [hrecorded, List.flatten_cons]⟩

theorem Fills.mono {earlier : List (List UInt8)} (h : Fills room earlier) (hle : earlier <+: frames) :
    Fills room frames := by
  obtain ⟨rest, rfl⟩ := hle
  rw [Fills, List.flatten_append, List.length_append]
  exact Nat.le_add_right_of_le h

end Fitting

/-! ### The bytes in the buffer -/

section Bytes

theorem getUint32_putUint32 {v : Nat} (hv : v < 2 ^ 32) : getUint32 (putUint32 v) = v := by
  simp only [getUint32, putUint32, List.foldl_cons, List.foldl_nil, UInt8.toNat_ofNat']
  omega

variable {dst b : List UInt8} {n : Nat}

theorem take_copyAt (h : n + b.length ≤ dst.length) : (copyAt dst n b).1.take (n + b.length) = dst.take n ++ b := by
  have hb : b.take (dst.length - n) = b := List.take_of_length_le (by omega)
  have hlength : (dst.take n ++ b).length = n + b.length := by
    rw [List.length_append, List.length_take, Nat.min_eq_left (by omega)]
  rw [copyAt, hb]
  exact List.take_left' hlength

theorem length_copyAt (h : n + b.length ≤ dst.length) : (copyAt dst n b).1.length = dst.length := by
  simp only [copyAt, List.length_append, List.length_take, List.length_drop]
  omega

theorem count_copyAt (h : n + b.length ≤ dst.length) : (copyAt dst n b).2 = b.length :=
  Nat.min_eq_right (by omega)

namespace RecordBuffer

variable {buf : RecordBuffer}

/-- The buffer holds what was written. -/
def Fits (buf : RecordBuffer) : Prop := buf.n ≤ buf.memoryBuf.length

theorem append_spec (h : buf.n + b.length ≤ buf.memoryBuf.length) :
    (buf.append b).Fits ∧ (buf.append b).bytes = buf.bytes ++ b := by
  constructor
  · show buf.n + (copyAt buf.memoryBuf buf.n b).2 ≤ (copyAt buf.memoryBuf buf.n b).1.length
    rw [count_copyAt h, length_copyAt h]
    exact h
  · show (copyAt buf.memoryBuf buf.n b).1.take (buf.n + (copyAt buf.memoryBuf buf.n b).2) = _
    rw [count_copyAt h, take_copyAt h]
    rfl

theorem write_spec (h : buf.Fits) (b : List UInt8) :
    (buf.write b).1.Fits ∧ buf.bytes <+: (buf.write b).1.bytes := by
  have happend : buf.n + b.length ≤ buf.memoryBuf.length →
      (buf.append b).Fits ∧ buf.bytes <+: (buf.append b).bytes := by
    intro hb
    obtain ⟨hfits, hbytes⟩ := append_spec hb
    exact ⟨hfits, hbytes ▸ List.prefix_append _ _⟩
  have hn : buf.n ≤ buf.memoryBuf.length := h
  unfold write
  dsimp only
  split_ifs with hfull hempty hlast
  · exact ⟨h, List.prefix_rfl⟩
  · exact happend (by omega)
  · exact ⟨h, List.prefix_rfl⟩
  · exact happend (by omega)

theorem writeFrames_spec (h : buf.Fits) (frames : List (List UInt8)) :
    (buf.writeFrames frames).1.Fits ∧ buf.bytes <+: (buf.writeFrames frames).1.bytes := by
  induction frames generalizing buf with
  | nil => exact ⟨h, List.prefix_rfl⟩
  | cons b frames ih =>
      obtain ⟨hfits, hprefix⟩ := write_spec h b
      unfold writeFrames
      rcases hwrite : buf.write b with ⟨buf', count, _ | err⟩
      · rw [hwrite] at hfits hprefix
        obtain ⟨hfits', hprefix'⟩ := ih hfits
        exact ⟨hfits', hprefix.trans hprefix'⟩
      · rw [hwrite] at hfits hprefix
        exact ⟨hfits, hprefix⟩

theorem append_sizes (h : buf.n + b.length ≤ buf.memoryBuf.length) :
    (buf.append b).memoryBuf.length = buf.memoryBuf.length ∧ (buf.append b).n = buf.n + b.length :=
  ⟨length_copyAt h, congrArg (buf.n + ·) (count_copyAt h)⟩

theorem append_pos (hn : 0 < buf.n) (b : List UInt8) : 0 < (buf.append b).n := Nat.add_pos_left hn _

/-! ### Frame by frame -/

theorem write_of_room (h : b.length < buf.memoryBuf.length - buf.n) :
    buf.write b = (buf.append b, b.length, none) :=
  if_neg (not_le.mpr h)

theorem write_of_full (hn : 0 < buf.n) (h : buf.memoryBuf.length - buf.n ≤ b.length) :
    buf.write b =
      (if buf.memoryBuf.length - buf.n = b.length then buf.append b else buf, 0, some .closedPipe) := by
  unfold write
  dsimp only
  rw [if_pos h, if_neg hn.ne']
  split_ifs <;> rfl

theorem writeFrames_of_room (h : b.length < buf.memoryBuf.length - buf.n) (frames : List (List UInt8)) :
    buf.writeFrames (b :: frames) = (buf.append b).writeFrames frames := by
  rw [writeFrames, write_of_room h]

theorem writeFrames_of_full (hn : 0 < buf.n) (h : buf.memoryBuf.length - buf.n ≤ b.length)
    (frames : List (List UInt8)) :
    buf.writeFrames (b :: frames) =
      (if buf.memoryBuf.length - buf.n = b.length then buf.append b else buf, some .closedPipe) := by
  rw [writeFrames, write_of_full hn h]

theorem writeFrames_ne_unexpectedEOF (h : 0 < buf.n) (frames : List (List UInt8)) :
    (buf.writeFrames frames).2 ≠ some .unexpectedEOF := by
  induction frames generalizing buf with
  | nil => exact nofun
  | cons b frames ih =>
      obtain hroom | hfull := lt_or_ge b.length (buf.memoryBuf.length - buf.n)
      · rw [writeFrames_of_room hroom]
        exact ih (append_pos h b)
      · rw [writeFrames_of_full h hfull]
        exact nofun

/-- The buffer keeps its bytes and takes the frames that fit behind them. -/
theorem writeFrames_bytes (h : buf.Fits) (hn : 0 < buf.n) (frames : List (List UInt8)) :
    (buf.writeFrames frames).1.bytes = buf.bytes ++ recorded (buf.memoryBuf.length - buf.n) frames ∧
      (buf.writeFrames frames).1.n = buf.n + (recorded (buf.memoryBuf.length - buf.n) frames).length := by
  induction frames generalizing buf with
  | nil => simp [writeFrames, recorded]
  | cons b frames ih =>
      have hfits : buf.n ≤ buf.memoryBuf.length := h
      rw [recorded]
      obtain hroom | hfull := lt_or_ge b.length (buf.memoryBuf.length - buf.n)
      · have happend : buf.n + b.length ≤ buf.memoryBuf.length := by omega
        obtain ⟨hfits', hbytes⟩ := append_spec happend
        obtain ⟨hlength, hcount⟩ := append_sizes happend
        obtain ⟨ihbytes, ihcount⟩ := ih hfits' (append_pos hn b)
        rw [if_neg (not_le.mpr hroom), writeFrames_of_room hroom, ihbytes, ihcount, hbytes, hlength, hcount,
          List.append_assoc, Nat.sub_add_eq, List.length_append, Nat.add_assoc]
        exact ⟨rfl, rfl⟩
      · rw [if_pos hfull, writeFrames_of_full hn hfull]
        by_cases hexact : buf.memoryBuf.length - buf.n = b.length
        · have happend : buf.n + b.length ≤ buf.memoryBuf.length := by omega
          rw [if_pos hexact, if_pos hexact]
          exact ⟨(append_spec happend).2, (append_sizes happend).2⟩
        · rw [if_neg hexact, if_neg hexact]
          simp

theorem write_ne_none_iff (hn : 0 < buf.n) : (buf.write b).2.2 ≠ none ↔ buf.memoryBuf.length - buf.n ≤ b.length := by
  obtain hroom | hfull := lt_or_ge b.length (buf.memoryBuf.length - buf.n)
  · rw [write_of_room hroom]
    exact iff_of_false (fun h => h rfl) (not_le.mpr hroom)
  · rw [write_of_full hn hfull]
    exact iff_of_true nofun hfull

theorem writeFrames_eq_none_iff (h : buf.Fits) (hn : 0 < buf.n) (frames : List (List UInt8)) :
    (buf.writeFrames frames).2 = none ↔ frames = [] ∨ ¬ Fills (buf.memoryBuf.length - buf.n) frames := by
  induction frames generalizing buf with
  | nil => exact iff_of_true rfl (.inl rfl)
  | cons b frames ih =>
      have hfits : buf.n ≤ buf.memoryBuf.length := h
      rw [or_iff_right (List.cons_ne_nil b frames), Fills, List.flatten_cons, List.length_append]
      obtain hroom | hfull := lt_or_ge b.length (buf.memoryBuf.length - buf.n)
      · have happend : buf.n + b.length ≤ buf.memoryBuf.length := by omega
        obtain ⟨hlength, hcount⟩ := append_sizes happend
        rw [writeFrames_of_room hroom, ih (append_spec happend).1 (append_pos hn b), hlength, hcount, Fills]
        constructor
        · rintro (rfl | hrest)
          · rw [List.flatten_nil, List.length_nil]
            omega
          · omega
        · intro hrest
          exact .inr (by omega)
      · rw [writeFrames_of_full hn hfull]
        exact iff_of_false nofun (by omega)

theorem writeFrames_sizes (h : buf.Fits) (hn : 0 < buf.n) {frames : List (List UInt8)}
    (hnone : (buf.writeFrames frames).2 = none) :
    (buf.writeFrames frames).1.n = buf.n + frames.flatten.length ∧
      (buf.writeFrames frames).1.memoryBuf.length = buf.memoryBuf.length := by
  induction frames generalizing buf with
  | nil => exact ⟨rfl, rfl⟩
  | cons b frames ih =>
      have hfits : buf.n ≤ buf.memoryBuf.length := h
      obtain hroom | hfull := lt_or_ge b.length (buf.memoryBuf.length - buf.n)
      · have happend : buf.n + b.length ≤ buf.memoryBuf.length := by omega
        obtain ⟨hlength, hcount⟩ := append_sizes happend
        rw [writeFrames_of_room hroom] at hnone ⊢
        obtain ⟨ihcount, ihlength⟩ := ih (append_spec happend).1 (append_pos hn b) hnone
        refine ⟨?_, ihlength.trans hlength⟩
        rw [ihcount, hcount, List.flatten_cons, List.length_append, Nat.add_assoc]
      · rw [writeFrames_of_full hn hfull] at hnone
        cases hnone

theorem firstError_iff (h : buf.Fits) (hn : 0 < buf.n) (before : List (List UInt8)) (b : List UInt8) :
    (buf.writeFrames before).2 = none ∧ ((buf.writeFrames before).1.write b).2.2 ≠ none ↔
      FirstToFill (buf.memoryBuf.length - buf.n) before b := by
  have hearlier : (buf.writeFrames before).2 = none ↔
      ∀ earlier, earlier <+: before → earlier ≠ [] → ¬ Fills (buf.memoryBuf.length - buf.n) earlier := by
    rw [writeFrames_eq_none_iff h hn]
    constructor
    · rintro (rfl | hroom) earlier hle hne
      · exact absurd (List.prefix_nil.mp hle) hne
      · exact fun hfills => hroom (hfills.mono hle)
    · intro hroom
      obtain rfl | hne := eq_or_ne before []
      · exact .inl rfl
      · exact .inr (hroom before List.prefix_rfl hne)
  rw [FirstToFill, ← hearlier]
  refine and_congr_right fun hnone => ?_
  obtain ⟨hcount, hlength⟩ := writeFrames_sizes h hn hnone
  rw [write_ne_none_iff (hcount ▸ Nat.add_pos_left hn _), hcount, hlength, Fills, List.flatten_append,
    List.length_append, List.flatten_singleton]
  omega

/-- Frames are written inside the buffer as long as there is no error, and then once more at most. What the buffer has
then are the bytes it had and the first frames that fit behind them, as many as do, and the error comes with the first
frame that fills the buffer exactly or no longer fits. -/
theorem writeFrames_longestFitting (h : buf.Fits) (hn : 0 < buf.n) {frames : List (List UInt8)}
    (hframes : ∀ b ∈ frames, b ≠ []) :
    (∀ written, written <+: frames → (buf.writeFrames written).1.Fits) ∧
      (∃ taken, LongestFitting (buf.memoryBuf.length - buf.n) frames taken ∧
        (buf.writeFrames frames).1.bytes = buf.bytes ++ taken.flatten) ∧
      ∀ before b after, frames = before ++ b :: after →
        ((buf.writeFrames before).2 = none ∧ ((buf.writeFrames before).1.write b).2.2 ≠ none ↔
          FirstToFill (buf.memoryBuf.length - buf.n) before b) := by
  refine ⟨fun written _ => (writeFrames_spec h written).1, ?_, fun before b _ _ => firstError_iff h hn before b⟩
  obtain ⟨taken, htaken, hrecorded⟩ := recorded_longestFitting hframes
  exact ⟨taken, htaken, by rw [(writeFrames_bytes h hn frames).1, hrecorded]⟩

/-- Room for three bytes, filled exactly by the first two of three frames. -/
def shortBuffer : RecordBuffer := ⟨[1, 0, 0, 0], 1⟩

def shortFrames : List (List UInt8) := [[5], [6, 7], [8]]

theorem writeFrames_longestFitting_short :
    (∀ written, written <+: shortFrames → (shortBuffer.writeFrames written).1.Fits) ∧
      (∃ taken, LongestFitting 3 shortFrames taken ∧
        (shortBuffer.writeFrames shortFrames).1.bytes = [1] ++ taken.flatten) ∧
      ∀ before b after, shortFrames = before ++ b :: after →
        ((shortBuffer.writeFrames before).2 = none ∧ ((shortBuffer.writeFrames before).1.write b).2.2 ≠ none ↔
          FirstToFill 3 before b) :=
  have hfits : shortBuffer.Fits := show 1 ≤ 4 by decide
  writeFrames_longestFitting hfits (by decide) (by decide)

end RecordBuffer

variable (recordID : List UInt8) (samples16 : Nat)

theorem length_newRecordBuffer :
    (newRecordBuffer recordID samples16).memoryBuf.length = 1 + 4 + recordID.length + samples16 * 50 * 10 := by
  let size := putUint32 (recordID.length % 2 ^ 32)
  let blank : List UInt8 := (List.replicate (1 + 4 + recordID.length + samples16 * 50 * 10) 0).set 0 1
  have hblank : blank.length = 1 + 4 + recordID.length + samples16 * 50 * 10 := by
    rw [List.length_set, List.length_replicate]
  have hsize : (copyAt blank 1 size).1.length = blank.length := by
    apply length_copyAt
    rw [hblank, show size.length = 4 from rfl]
    omega
  have hID : (copyAt (copyAt blank 1 size).1 5 recordID).1.length = (copyAt blank 1 size).1.length := by
    apply length_copyAt
    rw [hsize, hblank]
    omega
  show (copyAt (copyAt blank 1 size).1 5 recordID).1.length = _
  rw [hID, hsize, hblank]

theorem newRecordBuffer_spec :
    (newRecordBuffer recordID samples16).Fits ∧ (newRecordBuffer recordID samples16).n = recordID.length + 5 ∧
      (newRecordBuffer recordID samples16).bytes = 1 :: putUint32 (recordID.length % 2 ^ 32) ++ recordID := by
  let size := putUint32 (recordID.length % 2 ^ 32)
  have hsize : size.length = 4 := rfl
  let blank : List UInt8 := (List.replicate (1 + 4 + recordID.length + samples16 * 50 * 10) 0).set 0 1
  have hblank : blank.length = 1 + 4 + recordID.length + samples16 * 50 * 10 := by
    rw [List.length_set, List.length_replicate]
  have hfirst : blank.take 1 = [1] := by
    simp only [blank]
    rw [show 1 + 4 + recordID.length + samples16 * 50 * 10 = (4 + recordID.length + samples16 * 50 * 10) + 1 by omega,
      List.replicate_succ]
    rfl
  have hfits : 1 + size.length ≤ blank.length := by omega
  have hfits' : 5 + recordID.length ≤ (copyAt blank 1 size).1.length := by
    rw [length_copyAt hfits]
    omega
  have hn : (newRecordBuffer recordID samples16).n = recordID.length + 5 := by
    show (copyAt (copyAt blank 1 size).1 5 recordID).2 + 5 = _
    rw [count_copyAt hfits']
  refine ⟨?_, hn, ?_⟩
  · show (newRecordBuffer recordID samples16).n ≤ (newRecordBuffer recordID samples16).memoryBuf.length
    rw [hn, length_newRecordBuffer]
    omega
  · show (copyAt (copyAt blank 1 size).1 5 recordID).1.take (newRecordBuffer recordID samples16).n = _
    have hmetadata : (copyAt blank 1 size).1.take 5 = [1] ++ size := by
      rw [← hfirst]
      exact take_copyAt hfits
    rw [hn, Nat.add_comm, take_copyAt hfits', hmetadata]
    rfl

/-- Whatever frames are written, the metadata is found again. -/
theorem recordingConsistent_writeFrames (frames : List (List UInt8)) :
    recordingConsistent ((newRecordBuffer recordID samples16).writeFrames frames).1.bytes recordID
      (newRecordBuffer recordID samples16).n = true := by
  obtain ⟨hfits, hn, hbytes⟩ := newRecordBuffer_spec recordID samples16
  obtain ⟨-, samples, hsamples⟩ := RecordBuffer.writeFrames_spec hfits frames
  rw [← hsamples, hn, hbytes]
  have hlength : ¬ (1 :: putUint32 (recordID.length % 2 ^ 32) ++ recordID ++ samples).length < recordID.length + 5 := by
    simp only [List.length_append, List.length_cons, putUint32, List.length_nil]
    omega
  have hsize : ((1 :: putUint32 (recordID.length % 2 ^ 32) ++ recordID ++ samples).drop 1).take 4 =
      putUint32 (recordID.length % 2 ^ 32) := rfl
  have hID : ((1 :: putUint32 (recordID.length % 2 ^ 32) ++ recordID ++ samples).drop 5).take recordID.length =
      recordID := List.take_left
  rw [recordingConsistent, hsize, hID, getUint32_putUint32 (Nat.mod_lt _ (by decide)), decide_eq_false hlength]
  simp

end Bytes

end Flow
