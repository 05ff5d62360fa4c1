import Diagox.Call.MediaScore
import Diagox.Lib.LastValues
import Diagox.Registrar.Seconds

/-!
# The packet counters

`onReadRTCP` and `onWriteRTCP` of `pbx.go` are called for every RTCP packet of a stream. Each stream has statistics of
its own, and all of them add to the metrics of `metrics.go`. The packet count of a sender report is that of the whole
stream so far, and it is added to a counter whenever it is reported.
-/

namespace Call

open Cdr Run

inductive Metric where
  | rtpPacketsRead
  | rtpPacketsWritten
  | rtpRTT
  | rtpRTTLast
  | rtpJitter
  | rtpJitterLast
  | rtpPacketLossRatio
  deriving DecidableEq, Repr

/-- A counter is added to, a histogram observes and a gauge is set. -/
inductive MetricUpdate where
  | add (metric : Metric) (v : ℚ)
  | observe (metric : Metric) (v : ℚ)
  | set (metric : Metric) (v : ℚ)
  deriving DecidableEq, Repr

/-- A reception report with the fraction that is lost, of 255. -/
structure ReportBlock extends ReceptionReport where
  fractionLost : UInt8 := 0
  deriving DecidableEq, Repr

/-- `rtcp.Packet`, with the packet count of a sender report. -/
inductive RTCPPacket where
  | senderReport (packetCount : UInt32) (reports : List ReportBlock)
  | other
  deriving DecidableEq, Repr

def RTCPPacket.packet : RTCPPacket → Packet
  | .senderReport _ reports => .senderReport (reports.map ReportBlock.toReceptionReport)
  | .other => .other

structure RTPWriteStats where
  packetsCount : Nat := 0
  deriving DecidableEq, Repr

/-- What `onReadRTCP` does to the metrics; what it does to the statistics is `onReadRTCP`. -/
def onReadRTCPMetrics (pkt : RTCPPacket) (rtpStats : RTPReadStats) : List MetricUpdate :=
  (match pkt with
    | .senderReport packetCount reports =>
        .add .rtpPacketsRead (Float64.ofInt packetCount.toNat) ::
          match reports with
          | rr :: _ =>
              let sampleRate := if rtpStats.sampleRate = 0 then 8000 else rtpStats.sampleRate
              let jitterSeconds := Float64.div (Float64.ofInt rr.jitter) (Float64.ofInt sampleRate)
              [.observe .rtpJitter jitterSeconds, .set .rtpJitterLast jitterSeconds,
                .set .rtpPacketLossRatio (Float64.div (Float64.ofInt rr.fractionLost.toNat) 255)]
          | [] => []
    | .other => []) ++
    if rtpStats.rtt > 0 then
      let rttSeconds := Registrar.durationSeconds rtpStats.rtt
      [.observe .rtpRTT rttSeconds, .set .rtpRTTLast rttSeconds]
    else []

def onWriteRTCP (stats : DialogMediaStats) (pkt : RTCPPacket) (rtpStats : RTPWriteStats) : DialogMediaStats :=
  let stats := match pkt with
    | .senderReport _ (rr :: _) => { stats with packetsWriteLost := rr.totalLost }
    | _ => stats
  { stats with packetsWriteCount := rtpStats.packetsCount }

def onWriteRTCPMetrics : RTCPPacket → List MetricUpdate
  | .senderReport packetCount _ => [.add .rtpPacketsWritten (Float64.ofInt packetCount.toNat)]
  | .other => []

/-! ### All streams together -/

/-- A packet that comes on a stream, or goes out on it. -/
inductive RTCPEvent (ι : Type) where
  | read (stream : ι) (pkt : RTCPPacket) (rtpStats : RTPReadStats)
  | write (stream : ι) (pkt : RTCPPacket) (rtpStats : RTPWriteStats)

/-- The statistics of each stream, and what has been done to the metrics. -/
structure Telemetry (ι : Type) where
  stats : ι → DialogMediaStats
  updates : List MetricUpdate := []

section Streams

variable {ι : Type} [DecidableEq ι]

/-- One packet. Streams share nothing but the metrics, and a packet adds to a counter once. -/
def rtcpStep (s : Telemetry ι) : RTCPEvent ι → Telemetry ι
  | .read stream pkt rtpStats =>
      { stats := Function.update s.stats stream (onReadRTCP (s.stats stream) pkt.packet rtpStats)
        updates := s.updates ++ onReadRTCPMetrics pkt rtpStats }
  | .write stream pkt rtpStats =>
      { stats := Function.update s.stats stream (onWriteRTCP (s.stats stream) pkt rtpStats)
        updates := s.updates ++ onWriteRTCPMetrics pkt }

def RTCPEvent.stream : RTCPEvent ι → ι
  | .read stream _ _ => stream
  | .write stream _ _ => stream

/-- The statistics of a stream are those of its own packets, whatever comes between them. -/
theorem stats_run (s : Telemetry ι) (events : List (RTCPEvent ι)) (stream : ι) :
    (run rtcpStep s events).stats stream = (run rtcpStep s (events.filter (·.stream = stream))).stats stream := by
  have hcongr : ∀ (own : List (RTCPEvent ι)) (s s' : Telemetry ι), (∀ e ∈ own, e.stream = stream) →
      s.stats stream = s'.stats stream → (run rtcpStep s own).stats stream = (run rtcpStep s' own).stats stream := by
    intro own
    induction own with
    | nil => exact fun _ _ _ h => h
    | cons e own ih =>
        intro s s' hown h
        refine ih _ _ (fun e he => hown e (List.mem_cons_of_mem _ he)) ?_
        have he : e.stream = stream := hown e List.mem_cons_self
        cases e with
        | read i pkt rtpStats =>
            obtain rfl : i = stream := he
            simp [rtcpStep, h]
        | write i pkt rtpStats =>
            obtain rfl : i = stream := he
            simp [rtcpStep, h]
  induction events generalizing s with
  | nil => rfl
  | cons e events ih =>
      rw [run_cons, ih, List.filter_cons]
      split_ifs with he
      · rfl
      · refine hcongr _ _ _ (fun e' he' => of_decide_eq_true (List.mem_filter.mp he').2) ?_
        have hne : stream ≠ e.stream := fun h => he (decide_eq_true h.symm)
        cases e with
        | read i pkt rtpStats => exact Function.update_of_ne hne _ _
        | write i pkt rtpStats => exact Function.update_of_ne hne _ _

/-- The packet counts that are reported of packets read, under their streams. -/
def readCounts (events : List (RTCPEvent ι)) : List (ι × ℕ) :=
  events.filterMap fun
    | .read stream (.senderReport packetCount _) _ => some (stream, packetCount.toNat)
    | _ => none

/-- Those that are reported of packets written. -/
def writtenCounts (events : List (RTCPEvent ι)) : List (ι × ℕ) :=
  events.filterMap fun
    | .write stream (.senderReport packetCount _) _ => some (stream, packetCount.toNat)
    | _ => none

end Streams

/-! ### What is added -/

/-- The total that is added to a metric. -/
def added (metric : Metric) (updates : List MetricUpdate) : ℚ :=
  (updates.map fun
    | .add m v => if m = metric then v else 0
    | _ => 0).sum

theorem added_append (metric : Metric) (updates updates' : List MetricUpdate) :
    added metric (updates ++ updates') = added metric updates + added metric updates' := by
  rw [added, List.map_append, List.sum_append]
  rfl

theorem float64_packetCount (n : UInt32) : Float64.ofInt n.toNat = n.toNat :=
  Float64.ofInt_natCast (n.toNat_lt.trans (by decide))

section Added

variable {ι : Type} [DecidableEq ι]

theorem added_onReadRTCPMetrics (pkt : RTCPPacket) (rtpStats : RTPReadStats) :
    added .rtpPacketsRead (onReadRTCPMetrics pkt rtpStats) =
        (match pkt with
          | .senderReport packetCount _ => (packetCount.toNat : ℚ)
          | .other => 0) ∧
      added .rtpPacketsWritten (onReadRTCPMetrics pkt rtpStats) = 0 := by
  unfold onReadRTCPMetrics
  rw [added_append, added_append]
  rcases pkt with ⟨packetCount, _ | ⟨rr, reports⟩⟩ | _ <;> split_ifs <;> simp [added, float64_packetCount]

theorem added_onWriteRTCPMetrics (pkt : RTCPPacket) :
    added .rtpPacketsWritten (onWriteRTCPMetrics pkt) =
        (match pkt with
          | .senderReport packetCount _ => (packetCount.toNat : ℚ)
          | .other => 0) ∧
      added .rtpPacketsRead (onWriteRTCPMetrics pkt) = 0 := by
  cases pkt with
  | senderReport packetCount reports => simp [onWriteRTCPMetrics, added, float64_packetCount]
  | other => simp [onWriteRTCPMetrics, added]

/-- Every count that is reported is added. -/
theorem added_run (s : Telemetry ι) (events : List (RTCPEvent ι)) :
    added .rtpPacketsRead (run rtcpStep s events).updates =
        added .rtpPacketsRead s.updates + ((readCounts events).map Prod.snd).sum ∧
      added .rtpPacketsWritten (run rtcpStep s events).updates =
        added .rtpPacketsWritten s.updates + ((writtenCounts events).map Prod.snd).sum := by
  induction events generalizing s with
  | nil => simp [readCounts, writtenCounts]
  | cons e events ih =>
      rw [run_cons, (ih _).1, (ih _).2]
      cases e with
      | read stream pkt rtpStats =>
          obtain ⟨hread, hwritten⟩ := added_onReadRTCPMetrics pkt rtpStats
          simp only [rtcpStep, added_append, hread, hwritten]
          cases pkt with
          | senderReport packetCount reports =>
              simp only [readCounts, writtenCounts, List.filterMap_cons, List.map_cons, List.sum_cons]
              push_cast
              exact ⟨by ring, by ring⟩
          | other => simp [readCounts, writtenCounts]
      | write stream pkt rtpStats =>
          obtain ⟨hwritten, hread⟩ := added_onWriteRTCPMetrics pkt
          simp only [rtcpStep, added_append, hread, hwritten]
          cases pkt with
          | senderReport packetCount reports =>
              simp only [readCounts, writtenCounts, List.filterMap_cons, List.map_cons, List.sum_cons]
              push_cast
              exact ⟨by ring, by ring⟩
          | other => simp [readCounts, writtenCounts]

end Added

/-- No count but zero is reported of a stream before its last one. -/
def CountsOnce {ι : Type} (counts : List (ι × ℕ)) : Prop :=
  ∀ before stream n after, counts = before ++ (stream, n) :: after → stream ∈ after.map Prod.fst → n = 0

/-- The total of a counter is the sum of the last counts of all streams exactly when every stream has counted nothing
until its last report. -/
theorem packetCounters_iff {ι : Type} [DecidableEq ι] (stats : ι → DialogMediaStats) (events : List (RTCPEvent ι)) :
    (added .rtpPacketsRead (run rtcpStep { stats := stats } events).updates =
        (LastValues.sumLast (readCounts events) : ℕ) ↔ CountsOnce (readCounts events)) ∧
      (added .rtpPacketsWritten (run rtcpStep { stats := stats } events).updates =
        (LastValues.sumLast (writtenCounts events) : ℕ) ↔ CountsOnce (writtenCounts events)) := by
  obtain ⟨hread, hwritten⟩ := added_run { stats := stats } events
  rw [hread, hwritten]
  have hnone : ∀ metric, added metric ({ stats := stats } : Telemetry ι).updates = 0 := fun _ => rfl
  rw [hnone, hnone, zero_add, zero_add, Nat.cast_inj, Nat.cast_inj]
  exact ⟨LastValues.sum_eq_sumLast_iff _, LastValues.sum_eq_sumLast_iff _⟩

/-- The counts of a stream never decrease. -/
def Cumulative {ι : Type} [DecidableEq ι] (counts : List (ι × ℕ)) : Prop :=
  ∀ stream, ((counts.filter fun x => x.1 = stream).map Prod.snd).Pairwise (· ≤ ·)

/-- A stream of 20 packets that are reported after 10 and after 20: 30 are added. -/
def twoReports : List (RTCPEvent Unit) :=
  [.read () (.senderReport 10 []) {}, .write () (.senderReport 10 []) {},
    .read () (.senderReport 20 []) {}, .write () (.senderReport 20 []) {}]

theorem not_packetCounters :
    Cumulative (readCounts twoReports) ∧ Cumulative (writtenCounts twoReports) ∧
      added .rtpPacketsRead (run rtcpStep { stats := fun _ => {} } twoReports).updates ≠
        (LastValues.sumLast (readCounts twoReports) : ℕ) ∧
      added .rtpPacketsWritten (run rtcpStep { stats := fun _ => {} } twoReports).updates ≠
        (LastValues.sumLast (writtenCounts twoReports) : ℕ) := by
  have hread : ((readCounts twoReports).map Prod.snd).sum = 30 := by decide
  have hwritten : ((writtenCounts twoReports).map Prod.snd).sum = 30 := by decide
  have hlast : LastValues.sumLast (readCounts twoReports) = 20 := by decide
  have hlast' : LastValues.sumLast (writtenCounts twoReports) = 20 := by decide
  refine ⟨fun ⟨⟩ => by decide, fun ⟨⟩ => by decide, ?_, ?_⟩
  · rw [(added_run _ _).1, hread, hlast]
    exact fun h => absurd h (by norm_num [added])
  · rw [(added_run _ _).2, hwritten, hlast']
    exact fun h => absurd h (by norm_num [added])

end Call
