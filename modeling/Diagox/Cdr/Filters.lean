import Diagox.Cdr.Storage
import Diagox.Lib.Lists

/-!
# Reading records with filters

What the options of `CDRRead` say, each about its own field. The loop looks for `OriginatorCallID` in the
`CallID` of a record, so a read agrees with the options as long as no record that it comes to makes a
difference there.
-/

namespace Cdr

section Options

variable (opts : CDRReadOptions) (d : CDR)

/-- Every option that is set, but for `OriginatorCallID`. -/
def SatisfiesOthers : Prop :=
  (opts.fromTime ≠ 0 → opts.toTime ≠ 0 → opts.fromTime ≤ d.startTime ∧ d.startTime ≤ opts.toTime) ∧
    (opts.from_ ≠ "" → Strings.contains d.callerID opts.from_ = true) ∧
    (opts.to_ ≠ "" → Strings.contains d.calleeID opts.to_ = true) ∧
    (opts.callID ≠ "" → Strings.contains d.callID opts.callID = true)

instance : Decidable (SatisfiesOthers opts d) := inferInstanceAs (Decidable (_ ∧ _))

/-- Every option that is set. -/
def Satisfies : Prop :=
  SatisfiesOthers opts d ∧
    (opts.originatorCallID ≠ "" → Strings.contains d.originatorCallID opts.originatorCallID = true)

instance : Decidable (Satisfies opts d) := inferInstanceAs (Decidable (_ ∧ _))

/-- The originator is looked for in the Call-ID. -/
theorem matchesOptions_iff : matchesOptions opts d = true ↔ SatisfiesOthers opts d ∧
    (opts.originatorCallID ≠ "" → Strings.contains d.callID opts.originatorCallID = true) := by
  have htime : (!opts.fromTime.isZero && !opts.toTime.isZero &&
      (decide (d.startTime < opts.fromTime) || decide (d.startTime > opts.toTime))) = true ↔
      ¬ (opts.fromTime ≠ 0 → opts.toTime ≠ 0 → opts.fromTime ≤ d.startTime ∧ d.startTime ≤ opts.toTime) := by
    simp only [Time.isZero, Bool.and_eq_true, Bool.not_eq_true', decide_eq_false_iff_not, Bool.or_eq_true,
      decide_eq_true_eq]
    grind
  have hset : ∀ text option : String, (decide (option ≠ "") && !Strings.contains text option) = true ↔
      ¬ (option ≠ "" → Strings.contains text option = true) := by
    intro text option
    simp
  unfold matchesOptions SatisfiesOthers
  rw [and_assoc, and_assoc, and_assoc]
  split_ifs with h₁ h₂ h₃ h₄ h₅
  · exact iff_of_false (by simp) fun h => htime.mp h₁ h.1
  · exact iff_of_false (by simp) fun h => (hset _ _).mp h₂ h.2.1
  · exact iff_of_false (by simp) fun h => (hset _ _).mp h₃ h.2.2.1
  · exact iff_of_false (by simp) fun h => (hset _ _).mp h₄ h.2.2.2.1
  · exact iff_of_false (by simp) fun h => (hset _ _).mp h₅ h.2.2.2.2
  · rw [htime, not_not] at h₁
    rw [hset, not_not] at h₂ h₃ h₄ h₅
    exact iff_of_true rfl ⟨h₁, h₂, h₃, h₄, h₅⟩

/-- It makes no difference for the record whether the originator is looked for in its `CallID` or in its
`OriginatorCallID`. -/
def OriginatorAgrees : Prop :=
  SatisfiesOthers opts d → opts.originatorCallID ≠ "" →
    (Strings.contains d.callID opts.originatorCallID = true ↔
      Strings.contains d.originatorCallID opts.originatorCallID = true)

instance : Decidable (OriginatorAgrees opts d) := inferInstanceAs (Decidable (_ → _))

theorem matchesOptions_eq_satisfies_iff :
    matchesOptions opts d = decide (Satisfies opts d) ↔ OriginatorAgrees opts d := by
  rw [Bool.eq_iff_iff, decide_eq_true_iff, matchesOptions_iff, Satisfies, OriginatorAgrees, and_congr_right_iff]
  exact forall_congr' fun _ => ⟨fun h horig => by simpa [horig] using h, fun h => forall_congr' h⟩

end Options

/-- A read with options returns the first records of an unlimited read without options that satisfy every
option set, exactly when the records that are come to before the buffer is full do not differ in the two
Call-IDs with respect to the originator. -/
theorem cdrRead_filtered_iff (formatRFC3339 : Time → String) {N : Nat} (hN : 0 < N) (cdrs : List CDR)
    (s : CDRMemoryStorage) (hs : cdrWriteAll formatRFC3339 (newCDRMemoryStorage N) cdrs = some s) (unlimited : Nat)
    (hunlimited : N ≤ unlimited) (records : List CDR) (hrecords : cdrRead s unlimited {} = some records) (size : Nat)
    (opts : CDRReadOptions) :
    cdrRead s size opts = some ((records.filter fun d => Satisfies opts d).take size) ↔
      ∀ before d after, records = before ++ d :: after → (before.filter fun d => Satisfies opts d).length < size →
        OriginatorAgrees opts d := by
  obtain ⟨s', hwrite, hholds⟩ := RingStore.writeAll_new hN ({} : CDR) (cdrs.map (fillStartTime formatRFC3339))
  obtain rfl : s' = s := by
    rw [cdrWriteAll_eq, newCDRMemoryStorage, hwrite] at hs
    exact Option.some.inj hs
  have hlast : s'.last + 1 ≤ s'.data.length := by
    rw [hholds.size]
    exact hholds.newest ▸ Nat.mod_lt _ hN
  have hall : records = setBelow s'.data (s'.last + 1) := by
    rw [cdrRead, cdrReadLoop_eq _ _ hlast, Option.some_inj,
      List.filter_eq_self.mpr fun d _ => matchesOptions_empty d, List.take_of_length_le] at hrecords
    · exact hrecords.symm
    · have hlen : (setBelow s'.data (s'.last + 1)).length ≤ s'.last + 1 :=
        (List.takeWhile_sublist _).length_le.trans (by simp)
      rw [hholds.size] at hlast
      omega
  rw [cdrRead, cdrReadLoop_eq _ _ hlast, ← hall, Option.some_inj, List.take_filter_eq_iff]
  simp only [matchesOptions_eq_satisfies_iff]

/-- The options of a read for one originator, who has the Call-ID `a`. -/
def ofOriginator : CDRReadOptions := { originatorCallID := "a" }

/-- The records of three calls. The first was written for an outbound leg with a Call-ID of its own. -/
def threeCalls : List CDR :=
  [{ callID := "b", originatorCallID := "a1", startTime := 1 }, { callID := "a1", originatorCallID := "a1", startTime := 2 },
   { callID := "c", originatorCallID := "c", startTime := 3 }, { callID := "a2", originatorCallID := "a2", startTime := 4 }]

/-- Of the three records for the originator the buffer takes two, and the third makes a difference. -/
theorem cdrRead_filtered_threeCalls :
    cdrRead ⟨threeCalls, 4, 3⟩ 2 ofOriginator =
      some ((threeCalls.reverse.filter fun d => Satisfies ofOriginator d).take 2) := by
  refine (cdrRead_filtered_iff (fun _ => "") (N := 4) (by decide) threeCalls _ rfl 4 (le_refl 4) _ rfl 2
    ofOriginator).mpr fun before d after hrecords hlen => ?_
  have hread : ∀ i < 4, ((threeCalls.reverse.take i).filter fun d => Satisfies ofOriginator d).length < 2 →
      ∀ d ∈ threeCalls.reverse[i]?, OriginatorAgrees ofOriginator d := by
    decide
  have hsplit : threeCalls.reverse = before ++ d :: after := hrecords
  have hlt : before.length < threeCalls.reverse.length := by
    rw [hsplit]
    simp
  exact hread before.length hlt (by simpa [hsplit] using hlen) d (by simp [hsplit])

/-- The record of an outbound leg is not found by the Call-ID of its inbound leg. -/
theorem not_cdrRead_filtered :
    ¬ ∀ (formatRFC3339 : Time → String) (N : Nat) (cdrs : List CDR) (s : CDRMemoryStorage) (unlimited size : Nat)
      (records : List CDR) (opts : CDRReadOptions), 0 < N →
      cdrWriteAll formatRFC3339 (newCDRMemoryStorage N) cdrs = some s → N ≤ unlimited →
      cdrRead s unlimited {} = some records →
      cdrRead s size opts = some ((records.filter fun d => Satisfies opts d).take size) := by
  intro h
  have hread := h (fun _ => "") 1 [{ callID := "b", originatorCallID := "a", startTime := 1 }] _ 1 1 _ ofOriginator
    (by decide) rfl (le_refl 1) rfl
  revert hread
  decide

end Cdr
