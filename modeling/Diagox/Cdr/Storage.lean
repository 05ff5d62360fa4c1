import Diagox.Lib.RingStore
import Diagox.Lib.Strings
import Mathlib.Data.List.TakeWhile
import Mathlib.Data.Rat.Defs

/-!
# The in-memory store of call detail records

`CDRMemoryStorage` of `cdr_storage.go`: a ring of records that is written round and round and read from the
latest write downwards. A read goes down to slot 0 and stops there, so the records that the ring still has
above the latest write are not seen.
-/

namespace Cdr

/-- A `time.Time`, in nanoseconds after the zero time. -/
abbrev Time := Int

/-- `time.Time.IsZero`. -/
def Time.isZero (t : Time) : Bool := decide (t = 0)

structure DialogMediaStats where
  rttMax : Int := 0
  rttMin : Int := 0
  packetsReadCount : Nat := 0
  packetsWriteCount : Nat := 0
  packetsReadLost : Nat := 0
  packetsWriteLost : Nat := 0
  maxJitter : Int := 0
  deriving DecidableEq, Repr

def directionIn : String := "IN"

def directionOut : String := "OUT"

structure CDR where
  direction : String := ""
  callID : String := ""
  originatorCallID : String := ""
  startTime : Time := 0
  duration : Int := 0
  callerID : String := ""
  calleeID : String := ""
  bill : ℚ := 0
  disposition : String := ""
  mediaStats : DialogMediaStats := {}
  mes : ℚ := 0
  recordingID : String := ""
  bridged : Bool := false
  startTimeFormated : String := ""
  deriving DecidableEq, Repr

structure CDRReadOptions where
  offset : Int := 0
  fromTime : Time := 0
  toTime : Time := 0
  from_ : String := ""
  to_ : String := ""
  callID : String := ""
  originatorCallID : String := ""
  mes : ℚ := 0
  deriving DecidableEq, Repr

abbrev CDRMemoryStorage := RingStore CDR

/-- `NewCDRMemoryStorage`, which makes room for 10000 records, for any capacity. -/
def newCDRMemoryStorage (capacity : Nat) : CDRMemoryStorage := .new {} capacity

section Write

-- `time.Time.Format` with the layout of RFC 3339
variable (formatRFC3339 : Time → String)

/-- The record as it is stored: a missing formatted start time is filled in. -/
def fillStartTime (cdr : CDR) : CDR :=
  if cdr.startTimeFormated = "" then { cdr with startTimeFormated := formatRFC3339 cdr.startTime } else cdr

/-- `CDRWrite`. The result is `none` where the source panics on an index out of range. -/
def cdrWrite (s : CDRMemoryStorage) (cdr : CDR) : Option CDRMemoryStorage :=
  s.write (fillStartTime formatRFC3339 cdr)

def cdrWriteAll (s : CDRMemoryStorage) : List CDR → Option CDRMemoryStorage
  | [] => some s
  | cdr :: cdrs => (cdrWrite formatRFC3339 s cdr).bind (cdrWriteAll · cdrs)

end Write

def matchesOptions (opts : CDRReadOptions) (d : CDR) : Bool :=
  if (!opts.fromTime.isZero && !opts.toTime.isZero) &&
      (decide (d.startTime < opts.fromTime) || decide (d.startTime > opts.toTime)) then false
  else if opts.from_ ≠ "" && !Strings.contains d.callerID opts.from_ then false
  else if opts.to_ ≠ "" && !Strings.contains d.calleeID opts.to_ then false
  else if opts.callID ≠ "" && !Strings.contains d.callID opts.callID then false
  else if opts.originatorCallID ≠ "" && !Strings.contains d.callID opts.originatorCallID then false
  else true

/-- The loop of `CDRRead` from slot `i - 1` downwards, with room for `room` more records in the buffer. -/
def cdrReadLoop (data : List CDR) (opts : CDRReadOptions) : (i room : Nat) → Option (List CDR)
  | 0, _ => some []
  | _ + 1, 0 => some []
  | i + 1, room + 1 => do
      let d ← data[i]?
      if d.startTime.isZero then
        -- consider not set
        return []
      else if matchesOptions opts d then
        return d :: (← cdrReadLoop data opts i room)
      else
        cdrReadLoop data opts i (room + 1)

/-- `CDRRead` into a buffer of `size` records: the records it puts there. The result is `none` where the
source panics on an index out of range. -/
def cdrRead (s : CDRMemoryStorage) (size : Nat) (opts : CDRReadOptions) : Option (List CDR) :=
  cdrReadLoop s.data opts (s.last + 1) size

/-! ### What a read returns -/

theorem fillStartTime_startTime (formatRFC3339 : Time → String) (cdr : CDR) :
    (fillStartTime formatRFC3339 cdr).startTime = cdr.startTime := by
  unfold fillStartTime
  split_ifs <;> rfl

theorem cdrWriteAll_eq (formatRFC3339 : Time → String) (s : CDRMemoryStorage) (cdrs : List CDR) :
    cdrWriteAll formatRFC3339 s cdrs = s.writeAll (cdrs.map (fillStartTime formatRFC3339)) := by
  induction cdrs generalizing s with
  | nil => rfl
  | cons cdr cdrs ih => simp only [cdrWriteAll, List.map_cons, RingStore.writeAll, cdrWrite, ih]

/-- The records a read of slots `i - 1, …, 0` passes over before it meets one that is not set. -/
def setBelow (data : List CDR) (i : Nat) : List CDR :=
  (data.take i).reverse.takeWhile fun d => !d.startTime.isZero

theorem cdrReadLoop_eq (data : List CDR) (opts : CDRReadOptions) {i : Nat} (hi : i ≤ data.length) (room : Nat) :
    cdrReadLoop data opts i room = some (((setBelow data i).filter (matchesOptions opts)).take room) := by
  induction i generalizing room with
  | zero => simp [cdrReadLoop, setBelow]
  | succ i ih =>
      have hlt : i < data.length := hi
      have hbelow : setBelow data (i + 1) =
          if data[i].startTime.isZero then [] else data[i] :: setBelow data i := by
        simp only [setBelow, List.take_succ_eq_append_getElem hlt, List.reverse_append, List.reverse_singleton,
          List.singleton_append, List.takeWhile_cons]
        cases data[i].startTime.isZero <;> rfl
      cases room with
      | zero => simp [cdrReadLoop]
      | succ room =>
          rw [hbelow]
          simp only [cdrReadLoop, List.getElem?_eq_getElem hlt, Option.bind_eq_bind, Option.bind_some]
          cases data[i].startTime.isZero with
          | true => simp
          | false =>
              cases hmatch : matchesOptions opts data[i] with
              | true => simp [ih hlt.le, hmatch]
              | false => simp [ih hlt.le, hmatch]

theorem matchesOptions_empty (d : CDR) : matchesOptions {} d = true := by
  simp [matchesOptions, Time.isZero]

/-! ### Reading back what was written -/

section ReadBack

variable (formatRFC3339 : Time → String) {N : Nat} {cdrs : List CDR}

/-- The records a read without options should return after the writes `cdrs`: the last `min k N size`,
newest first. -/
def lastRecords (N size : Nat) (cdrs : List CDR) : List CDR :=
  (cdrs.map (fillStartTime formatRFC3339)).reverse.take (min (min cdrs.length N) size)

/-- How many of the latest writes are at or below the slot of the last one. -/
def sinceWrap (N k : Nat) : Nat := if k = 0 then 0 else (k - 1) % N + 1

theorem setBelow_written (hN : 0 < N) {s : CDRMemoryStorage}
    (hs : s.Holds {} N (cdrs.map (fillStartTime formatRFC3339))) :
    setBelow s.data (s.last + 1) =
      ((cdrs.map (fillStartTime formatRFC3339)).reverse.take (sinceWrap N cdrs.length)).takeWhile
        fun d => !d.startTime.isZero := by
  have hlast := hs.newest
  rw [List.length_map] at hlast
  by_cases hk : cdrs.length = 0
  · -- nothing is written yet, and slot 0 is not set
    obtain rfl : cdrs = [] := List.length_eq_zero_iff.mp hk
    obtain ⟨d, rest, hdata⟩ := List.exists_cons_of_length_pos (hs.size.symm ▸ hN)
    have hzero := hs.fresh 0 le_rfl hN
    rw [hdata] at hzero
    obtain rfl : d = {} := by simpa using hzero
    simp [setBelow, hlast, hdata, Time.isZero]
  · have hring := hs.reverse_take hN (by simpa using Nat.pos_of_ne_zero hk)
    rw [setBelow, hring, sinceWrap, if_neg hk, hlast]

theorem takeWhile_of_set (hset : ∀ cdr ∈ cdrs, cdr.startTime ≠ 0) (n : Nat) :
    (((cdrs.map (fillStartTime formatRFC3339)).reverse.take n).takeWhile fun d => !d.startTime.isZero) =
      (cdrs.map (fillStartTime formatRFC3339)).reverse.take n := by
  rw [List.takeWhile_eq_self_iff]
  intro d hd
  obtain ⟨cdr, hcdr, rfl⟩ := List.mem_map.mp (List.mem_reverse.mp (List.mem_of_mem_take hd))
  simpa [Time.isZero, fillStartTime_startTime] using hset cdr hcdr

theorem setBelow_of_holds (hN : 0 < N) (hset : ∀ cdr ∈ cdrs, cdr.startTime ≠ 0) {s : CDRMemoryStorage}
    (hs : s.Holds {} N (cdrs.map (fillStartTime formatRFC3339))) :
    setBelow s.data (s.last + 1) =
      (cdrs.map (fillStartTime formatRFC3339)).reverse.take (sinceWrap N cdrs.length) := by
  rw [setBelow_written formatRFC3339 hN hs, takeWhile_of_set formatRFC3339 hset]

theorem cdrRead_empty (hN : 0 < N) (hset : ∀ cdr ∈ cdrs, cdr.startTime ≠ 0) (size : Nat) :
    ((cdrWriteAll formatRFC3339 (newCDRMemoryStorage N) cdrs).bind fun s => cdrRead s size {}) =
      some ((cdrs.map (fillStartTime formatRFC3339)).reverse.take (min size (sinceWrap N cdrs.length))) := by
  obtain ⟨s, hwrite, hs⟩ := RingStore.writeAll_new hN ({} : CDR) (cdrs.map (fillStartTime formatRFC3339))
  have hlt : s.last < N := hs.newest ▸ Nat.mod_lt _ hN
  rw [cdrWriteAll_eq, newCDRMemoryStorage, hwrite, Option.bind_some, cdrRead,
    cdrReadLoop_eq _ _ (by rw [hs.size]; exact hlt), setBelow_of_holds formatRFC3339 hN hset hs,
    List.filter_eq_self.mpr fun d _ => matchesOptions_empty d, List.take_take]

theorem min_le_sinceWrap (hN : 0 < N) (k : Nat) : min k N ≤ sinceWrap N k ↔ k ≤ N ∨ N ∣ k := by
  unfold sinceWrap
  cases k with
  | zero => simp
  | succ m =>
      have hlt := Nat.mod_lt m hN
      have hsucc := RingStore.succ_mod m hN
      rw [if_neg (Nat.succ_ne_zero m), Nat.add_sub_cancel, Nat.dvd_iff_mod_eq_zero, hsucc]
      constructor
      · intro h
        by_cases hle : m + 1 ≤ N
        · exact .inl hle
        · right
          rw [if_pos (by omega)]
      · rintro (hle | hround)
        · rw [Nat.mod_eq_of_lt hle]
          omega
        · split_ifs at hround with h
          · omega

theorem sinceWrap_le (hN : 0 < N) (k : Nat) : sinceWrap N k ≤ min k N := by
  unfold sinceWrap
  split_ifs with hk
  · omega
  · have := Nat.mod_lt (k - 1) hN
    have := Nat.mod_le (k - 1) N
    omega

/-- A read without options returns the last `min k N size` of the `k` records written exactly when no more
than `N` were written, their number is a multiple of `N`, or the buffer is no longer than the part of the
ring written since it last started over. -/
theorem cdrRead_lastRecords_iff (hN : 0 < N) (hset : ∀ cdr ∈ cdrs, cdr.startTime ≠ 0) (size : Nat) :
    ((cdrWriteAll formatRFC3339 (newCDRMemoryStorage N) cdrs).bind fun s => cdrRead s size {}) =
        some (lastRecords formatRFC3339 N size cdrs) ↔
      cdrs.length ≤ N ∨ N ∣ cdrs.length ∨ size ≤ (cdrs.length - 1) % N + 1 := by
  have hle := sinceWrap_le hN cdrs.length
  rw [cdrRead_empty formatRFC3339 hN hset, Option.some_inj, lastRecords, ← or_assoc,
    ← min_le_sinceWrap hN cdrs.length]
  have hsince : sinceWrap N cdrs.length ≤ (cdrs.length - 1) % N + 1 := by
    unfold sinceWrap
    split_ifs <;> omega
  constructor
  · intro h
    have hlen := congrArg List.length h
    simp only [List.length_take, List.length_reverse, List.length_map] at hlen
    omega
  · intro h
    congr 1
    by_cases hk : cdrs.length = 0
    · have hzero : sinceWrap N cdrs.length = 0 := if_pos hk
      omega
    · have hwrap : sinceWrap N cdrs.length = (cdrs.length - 1) % N + 1 := if_neg hk
      omega

/-- Five records in a store of three slots, the last two of which are read. -/
theorem cdrRead_lastRecords_fiveRecords :
    ((cdrWriteAll (fun _ => "") (newCDRMemoryStorage 3)
        [{ startTime := 1 }, { startTime := 2 }, { startTime := 3 }, { startTime := 4 }, { startTime := 5 }]).bind
      fun s => cdrRead s 2 {}) = some [{ startTime := 5 }, { startTime := 4 }] :=
  ((cdrRead_lastRecords_iff (fun _ => "") (by decide) (by decide) 2).mpr (by decide)).trans rfl

/-- Three records in a store of two slots: a read of two returns only the third. -/
theorem not_cdrRead_lastRecords :
    ¬ ∀ (formatRFC3339 : Time → String) (N size : Nat) (cdrs : List CDR), 0 < N →
      (∀ cdr ∈ cdrs, cdr.startTime ≠ 0) →
      ((cdrWriteAll formatRFC3339 (newCDRMemoryStorage N) cdrs).bind fun s => cdrRead s size {}) =
        some (lastRecords formatRFC3339 N size cdrs) := by
  intro h
  have h3 := h (fun _ => "") 2 2 [{ startTime := 1 }, { startTime := 2 }, { startTime := 3 }] (by decide) (by decide)
  revert h3
  decide

end ReadBack

end Cdr
