import Diagox.Call.Bridge
import Diagox.Lib.Float64
import Diagox.Lib.Interleave

/-!
# The media experience score

`calcMES` of `pbx.go` takes a penalty for the largest round trip and one for the largest jitter, each once it is
above its threshold, and `onReadRTCP` collects the two maxima. A penalty is the threshold divided by the
statistic: it sets in with almost one and then shrinks while the network gets worse. So the score rises with every
report that adds to a statistic above its threshold, unless the other one crosses its own at the same time and
costs as much, and it leaves the range from 0 to 0.9 as soon as a penalty is more than the call has scored.
-/

namespace Call

open Cdr Run

/-! ### RTCP reports -/

/-- A reception report. The jitter is in units of the sample rate. -/
structure ReceptionReport where
  totalLost : Nat
  jitter : Nat
  deriving DecidableEq, Repr

/-- `rtcp.Packet`. -/
inductive Packet where
  | senderReport (reports : List ReceptionReport)
  | other
  deriving DecidableEq, Repr

structure RTPReadStats where
  rtt : Int := 0
  packetsCount : Nat := 0
  sampleRate : Nat := 0
  deriving DecidableEq, Repr

def jitterDuration (jitter sampleRate : Nat) : Int :=
  let sampleRate := if sampleRate = 0 then 8000 else sampleRate
  Float64.toInt
    (Float64.mul (Float64.div (Float64.ofInt jitter) (Float64.ofInt sampleRate)) (Float64.ofInt (1000 * millisecond)))

def onReadRTCP (stats : DialogMediaStats) (pkt : Packet) (rtpStats : RTPReadStats) : DialogMediaStats :=
  let stats :=
    if rtpStats.rtt > 0 then
      { stats with
        rttMax := max stats.rttMax rtpStats.rtt
        rttMin := min (if stats.rttMin = 0 then rtpStats.rtt else stats.rttMin) rtpStats.rtt }
    else stats
  let stats := { stats with packetsReadCount := rtpStats.packetsCount }
  match pkt with
  | .senderReport (rr :: _) =>
      { stats with
        packetsReadLost := rr.totalLost
        maxJitter := max stats.maxJitter (jitterDuration rr.jitter rtpStats.sampleRate) }
  | _ => stats

abbrev Report := Packet × RTPReadStats

def reportStep (stats : DialogMediaStats) (report : Report) : DialogMediaStats := onReadRTCP stats report.1 report.2

/-- The round trip of a report. -/
def roundTrip (report : Report) : Int := report.2.rtt

/-- The jitter of a report, 0 without one. -/
def reportedJitter (report : Report) : Int :=
  match report.1 with
  | .senderReport (rr :: _) => jitterDuration rr.jitter report.2.sampleRate
  | _ => 0

def maxRoundTrip (reports : List Report) : Int := (reports.map roundTrip).foldl max 0

def maxReportedJitter (reports : List Report) : Int := (reports.map reportedJitter).foldl max 0

theorem reportStep_maxima {stats : DialogMediaStats} (hrtt : 0 ≤ stats.rttMax) (hjitter : 0 ≤ stats.maxJitter)
    (report : Report) :
    (reportStep stats report).rttMax = max stats.rttMax (roundTrip report) ∧
      (reportStep stats report).maxJitter = max stats.maxJitter (reportedJitter report) := by
  obtain ⟨pkt, rtpStats⟩ := report
  have hmax : ¬ rtpStats.rtt > 0 → max stats.rttMax rtpStats.rtt = stats.rttMax := fun hneg =>
    max_eq_left ((not_lt.mp hneg).trans hrtt)
  unfold reportStep onReadRTCP reportedJitter roundTrip
  by_cases hpos : rtpStats.rtt > 0
  · rcases pkt with (_ | ⟨rr, reports⟩) | _ <;> simp [hpos, hjitter]
  · rcases pkt with (_ | ⟨rr, reports⟩) | _ <;> simp [hpos, hjitter, hmax hpos]

theorem run_maxima (reports : List Report) {stats : DialogMediaStats} (hrtt : 0 ≤ stats.rttMax)
    (hjitter : 0 ≤ stats.maxJitter) :
    (run reportStep stats reports).rttMax = (reports.map roundTrip).foldl max stats.rttMax ∧
      (run reportStep stats reports).maxJitter = (reports.map reportedJitter).foldl max stats.maxJitter := by
  induction reports generalizing stats with
  | nil => exact ⟨rfl, rfl⟩
  | cons report reports ih =>
      obtain ⟨hrttMax, hmaxJitter⟩ := reportStep_maxima hrtt hjitter report
      obtain ⟨ihrtt, ihjitter⟩ := ih (hrttMax ▸ le_max_of_le_left hrtt) (hmaxJitter ▸ le_max_of_le_left hjitter)
      rw [run_cons, ihrtt, ihjitter, hrttMax, hmaxJitter]
      exact ⟨rfl, rfl⟩

/-! ### Penalties -/

/-- What a statistic costs. -/
def penalty (threshold x : Int) : ℚ := if x > threshold then threshold / x else 0

/-- A statistic above its threshold gets worse. -/
def Grows (threshold x x' : Int) : Prop := threshold < x ∧ x < x'

/-- A statistic comes to be above its threshold. -/
def Crosses (threshold x x' : Int) : Prop := x ≤ threshold ∧ threshold < x'

section Penalty

variable {t x x' : Int}

theorem penalty_of_le (h : x ≤ t) : penalty t x = 0 := if_neg (not_lt.mpr h)

theorem penalty_of_lt (h : t < x) : penalty t x = (t : ℚ) / x := if_pos h

theorem penalty_pos (ht : 0 < t) (h : t < x) : 0 < penalty t x := by
  have hx : (0 : ℚ) < x := by exact_mod_cast ht.trans h
  have ht' : (0 : ℚ) < t := by exact_mod_cast ht
  rw [penalty_of_lt h]
  exact div_pos ht' hx

theorem penalty_nonneg (ht : 0 < t) (x : Int) : 0 ≤ penalty t x := by
  obtain hle | hlt := le_or_gt x t
  · rw [penalty_of_le hle]
  · exact (penalty_pos ht hlt).le

theorem penalty_le_iff (ht : 0 < t) (h : t < x) : penalty t x ≤ 9 / 10 ↔ 10 * t ≤ 9 * x := by
  have hx : (0 : ℚ) < x := by exact_mod_cast ht.trans h
  have hcast : (10 * t ≤ 9 * x) ↔ (10 * t : ℚ) ≤ 9 * x := by norm_cast
  rw [penalty_of_lt h, div_le_iff₀ hx, hcast]
  constructor
  · intro hle
    linarith
  · intro hle
    linarith

theorem penalty_lt_of_grows (ht : 0 < t) (h : Grows t x x') : penalty t x' < penalty t x := by
  obtain ⟨hlt, hlt'⟩ := h
  have ht' : (0 : ℚ) < t := by exact_mod_cast ht
  have hx : (0 : ℚ) < x := by exact_mod_cast ht.trans hlt
  rw [penalty_of_lt hlt, penalty_of_lt (hlt.trans hlt')]
  exact div_lt_div_of_pos_left ht' hx (by exact_mod_cast hlt')

theorem penalty_eq (hle : x ≤ x') (hgrows : ¬ Grows t x x') (hcrosses : ¬ Crosses t x x') :
    penalty t x' = penalty t x := by
  obtain hx | hx := le_or_gt x t
  · rw [penalty_of_le hx, penalty_of_le (not_lt.mp fun hlt => hcrosses ⟨hx, hlt⟩)]
  · rw [le_antisymm (not_lt.mp fun hlt => hgrows ⟨hx, hlt⟩) hle]

theorem penalty_le (ht : 0 < t) (hle : x ≤ x') (hgrows : ¬ Grows t x x') : penalty t x ≤ penalty t x' := by
  by_cases hcrosses : Crosses t x x'
  · rw [penalty_of_le hcrosses.1]
    exact penalty_nonneg ht x'
  · exact (penalty_eq hle hgrows hcrosses).ge

end Penalty

/-- No statistic that is above its threshold grows, or one does so while the other one crosses its threshold and
costs more than the first one has become cheaper. -/
def NotRelieved (t u x y x' y' : Int) : Prop :=
  ¬ Grows t x x' ∧ ¬ Grows u y y' ∨
    Grows t x x' ∧ Crosses u y y' ∧ (t : ℚ) / x ≤ t / x' + u / y' ∨
    Grows u y y' ∧ Crosses t x x' ∧ (u : ℚ) / y ≤ u / y' + t / x'

theorem penalties_le_iff_of_grows {t u x y x' y' : Int} (ht : 0 < t) (hy : y ≤ y') (hgrows : Grows t x x')
    (hsteady : ¬ Grows u y y') :
    penalty t x + penalty u y ≤ penalty t x' + penalty u y' ↔
      Crosses u y y' ∧ (t : ℚ) / x ≤ t / x' + u / y' := by
  by_cases hcrosses : Crosses u y y'
  · rw [and_iff_right hcrosses, penalty_of_lt hgrows.1, penalty_of_lt (hgrows.1.trans hgrows.2),
      penalty_of_le hcrosses.1, penalty_of_lt hcrosses.2, add_zero]
  · have hless := penalty_lt_of_grows ht hgrows
    rw [penalty_eq hy hsteady hcrosses]
    exact iff_of_false (by linarith) fun h => hcrosses h.1

theorem penalties_le_iff {t u x y x' y' : Int} (ht : 0 < t) (hu : 0 < u) (hx : x ≤ x') (hy : y ≤ y') :
    penalty t x + penalty u y ≤ penalty t x' + penalty u y' ↔ NotRelieved t u x y x' y' := by
  by_cases hgx : Grows t x x'
  · by_cases hgy : Grows u y y'
    · have hless := penalty_lt_of_grows ht hgx
      have hless' := penalty_lt_of_grows hu hgy
      refine iff_of_false (by linarith) ?_
      rintro (⟨hnot, -⟩ | ⟨-, hcrosses, -⟩ | ⟨-, hcrosses, -⟩)
      · exact hnot hgx
      · exact absurd hgy.1 (not_lt.mpr hcrosses.1)
      · exact absurd hgx.1 (not_lt.mpr hcrosses.1)
    · rw [penalties_le_iff_of_grows ht hy hgx hgy]
      simp [NotRelieved, hgx, hgy]
  · by_cases hgy : Grows u y y'
    · rw [add_comm (penalty t x), add_comm (penalty t x'), penalties_le_iff_of_grows hu hx hgy hgx]
      simp [NotRelieved, hgx, hgy]
    · exact iff_of_true (add_le_add (penalty_le ht hx hgx) (penalty_le hu hy hgy)) (.inl ⟨hgx, hgy⟩)

/-! ### The score -/

/-- The statistics `s` are at most those of `s'`. -/
structure NoWorse (s s' : DialogMediaStats) : Prop where
  rttMax : s.rttMax ≤ s'.rttMax
  maxJitter : s.maxJitter ≤ s'.maxJitter

/-- A call with this disposition starts from 0.9. -/
def PickedUp (disposition : String) : Prop := disposition = "ANSWER" ∨ disposition = "BRIDGED"

instance (disposition : String) : Decidable (PickedUp disposition) := by
  unfold PickedUp
  infer_instance

/-- No penalty, or penalties of an answered call that are at most 0.9 in all. -/
def PenaltiesFit (disposition : String) (rttMax maxJitter : Int) : Prop :=
  rttMax ≤ 20 * millisecond ∧ maxJitter ≤ 10 * millisecond ∨
    PickedUp disposition ∧
      (maxJitter ≤ 10 * millisecond ∧ 200 * millisecond ≤ 9 * rttMax ∨
        rttMax ≤ 20 * millisecond ∧ 100 * millisecond ≤ 9 * maxJitter ∨
        20 * millisecond < rttMax ∧ 10 * millisecond < maxJitter ∧
          ((20 * millisecond : Int) : ℚ) / rttMax + (10 * millisecond : Int) / maxJitter ≤ 9 / 10)

theorem calcMES_eq (s : DialogMediaStats) (disposition : String) :
    calcMES s disposition = (if PickedUp disposition then 9 / 10 else 0) -
      (penalty (20 * millisecond) s.rttMax + penalty (10 * millisecond) s.maxJitter) := by
  have hbase : (if disposition = "ANSWER" ∨ disposition = "BRIDGED" then 9 / 10 else 0 : ℚ) =
      if PickedUp disposition then 9 / 10 else 0 := if_congr Iff.rfl rfl rfl
  unfold calcMES penalty
  rw [hbase]
  simp only
  split_ifs <;> ring

theorem calcMES_le_iff {s s' : DialogMediaStats} (h : NoWorse s s') (disposition : String) :
    calcMES s' disposition ≤ calcMES s disposition ↔
      NotRelieved (20 * millisecond) (10 * millisecond) s.rttMax s.maxJitter s'.rttMax s'.maxJitter := by
  rw [calcMES_eq, calcMES_eq, sub_le_sub_iff_left]
  exact penalties_le_iff (by decide) (by decide) h.rttMax h.maxJitter

theorem calcMES_le (s : DialogMediaStats) (disposition : String) : calcMES s disposition ≤ 9 / 10 := by
  have hrtt := penalty_nonneg (show 0 < 20 * millisecond by decide) s.rttMax
  have hjitter := penalty_nonneg (show 0 < 10 * millisecond by decide) s.maxJitter
  rw [calcMES_eq]
  split_ifs
  · linarith
  · linarith

theorem calcMES_nonneg_iff (s : DialogMediaStats) (disposition : String) :
    0 ≤ calcMES s disposition ↔ PenaltiesFit disposition s.rttMax s.maxJitter := by
  have hpos : 0 < 20 * millisecond := by decide
  have hpos' : 0 < 10 * millisecond := by decide
  have hrtt := penalty_nonneg hpos s.rttMax
  have hjitter := penalty_nonneg hpos' s.maxJitter
  rw [calcMES_eq, sub_nonneg, PenaltiesFit]
  obtain hr | hr := le_or_gt s.rttMax (20 * millisecond)
  · obtain hj | hj := le_or_gt s.maxJitter (10 * millisecond)
    · rw [penalty_of_le hr, penalty_of_le hj, add_zero]
      exact iff_of_true (by split_ifs <;> norm_num) (.inl ⟨hr, hj⟩)
    · have hj' := penalty_pos hpos' hj
      rw [penalty_of_le hr, zero_add]
      split_ifs with hanswered
      · rw [penalty_le_iff hpos' hj, show 10 * (10 * millisecond) = 100 * millisecond from rfl]
        simp [hanswered, hr, hj.not_ge, hr.not_gt]
      · simp [hanswered, hj.not_ge, hj'.not_ge]
  · have hr' := penalty_pos hpos hr
    obtain hj | hj := le_or_gt s.maxJitter (10 * millisecond)
    · rw [penalty_of_le hj, add_zero]
      split_ifs with hanswered
      · rw [penalty_le_iff hpos hr, show 10 * (20 * millisecond) = 200 * millisecond from rfl]
        simp [hanswered, hj, hr.not_ge, hj.not_gt]
      · simp [hanswered, hr.not_ge, hr'.not_ge]
    · rw [penalty_of_lt hr, penalty_of_lt hj]
      rw [penalty_of_lt hr] at hr'
      rw [penalty_of_lt hj] at hjitter
      split_ifs with hanswered
      · simp [hanswered, hr, hj, hr.not_ge, hj.not_ge]
      · simp only [hanswered, false_and, or_false]
        exact iff_of_false (by linarith) fun h => hr.not_ge h.1

/-- No report of a call raises its score. -/
def NeverRaised (disposition : String) (reports : List Report) : Prop :=
  ∀ before report after, reports = before ++ report :: after →
    calcMES (run reportStep {} (before ++ [report])) disposition ≤ calcMES (run reportStep {} before) disposition

theorem collected (reports : List Report) :
    (run reportStep {} reports).rttMax = maxRoundTrip reports ∧
      (run reportStep {} reports).maxJitter = maxReportedJitter reports :=
  run_maxima reports le_rfl le_rfl

theorem noWorse_report (before : List Report) (report : Report) :
    NoWorse (run reportStep {} before) (run reportStep {} (before ++ [report])) := by
  obtain ⟨hrtt, hjitter⟩ := collected before
  obtain ⟨hrtt', hjitter'⟩ := collected (before ++ [report])
  constructor
  · rw [hrtt, hrtt', maxRoundTrip, maxRoundTrip, List.map_append, List.foldl_append]
    exact le_max_left _ _
  · rw [hjitter, hjitter', maxReportedJitter, maxReportedJitter, List.map_append, List.foldl_append]
    exact le_max_left _ _

/-- The score of the better of two statistics is not the lower one, no report of a call raises its score, and the
score is between 0 and 0.9: each of them exactly when no penalty is relieved, in the two statistics, at every
report, and when the penalties are no more than the call has scored. -/
theorem calcMES_laws_iff (disposition : String) {s s' : DialogMediaStats} (h : NoWorse s s') (reports : List Report) :
    (calcMES s' disposition ≤ calcMES s disposition ↔
        NotRelieved (20 * millisecond) (10 * millisecond) s.rttMax s.maxJitter s'.rttMax s'.maxJitter) ∧
      (NeverRaised disposition reports ↔ ∀ before report after, reports = before ++ report :: after →
        NotRelieved (20 * millisecond) (10 * millisecond) (maxRoundTrip before) (maxReportedJitter before)
          (maxRoundTrip (before ++ [report])) (maxReportedJitter (before ++ [report]))) ∧
      (0 ≤ calcMES s disposition ∧ calcMES s disposition ≤ 9 / 10 ↔
        PenaltiesFit disposition s.rttMax s.maxJitter) := by
  refine ⟨calcMES_le_iff h disposition, ?_, ?_⟩
  · refine forall_congr' fun before => forall_congr' fun report => forall_congr' fun after => imp_congr_right fun _ => ?_
    rw [calcMES_le_iff (noWorse_report before report), (collected before).1, (collected before).2,
      (collected (before ++ [report])).1, (collected (before ++ [report])).2]
  · rw [calcMES_nonneg_iff]
    exact and_iff_left (calcMES_le s disposition)

theorem calcMES_laws_quiet :
    (calcMES { rttMax := 5 * millisecond } "ANSWER" ≤ calcMES {} "ANSWER" ↔
        NotRelieved (20 * millisecond) (10 * millisecond) 0 0 (5 * millisecond) 0) ∧
      (NeverRaised "ANSWER" [(.other, { rtt := 5 * millisecond })] ↔ ∀ before report after,
        [(Packet.other, ({ rtt := 5 * millisecond } : RTPReadStats))] = before ++ report :: after →
        NotRelieved (20 * millisecond) (10 * millisecond) (maxRoundTrip before) (maxReportedJitter before)
          (maxRoundTrip (before ++ [report])) (maxReportedJitter (before ++ [report]))) ∧
      (0 ≤ calcMES {} "ANSWER" ∧ calcMES {} "ANSWER" ≤ 9 / 10 ↔ PenaltiesFit "ANSWER" 0 0) :=
  calcMES_laws_iff "ANSWER" (⟨by decide, by decide⟩ : NoWorse {} { rttMax := 5 * millisecond }) _

/-- A round trip of 21 ms costs the call more than it has scored, and one of 210 ms a tenth of that. -/
theorem calcMES_rewards_delay :
    calcMES { rttMax := 21 * millisecond } "ANSWER" < calcMES { rttMax := 210 * millisecond } "ANSWER" ∧
      calcMES { rttMax := 21 * millisecond } "ANSWER" < 0 ∧
      ¬ NeverRaised "ANSWER" [(.other, { rtt := 21 * millisecond }), (.other, { rtt := 210 * millisecond })] := by
  refine ⟨by decide +kernel, by decide +kernel, fun h => ?_⟩
  have hraised := h [(.other, { rtt := 21 * millisecond })] (.other, { rtt := 210 * millisecond }) [] rfl
  exact absurd hraised (by decide +kernel)

end Call
