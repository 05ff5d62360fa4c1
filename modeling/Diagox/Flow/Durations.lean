import Diagox.Flow.Messages
import Mathlib.Algebra.Order.Field.Rat
import Mathlib.Tactic.FieldSimp
import Mathlib.Tactic.Linarith
import Mathlib.Tactic.Positivity

/-!
# How long a recording is

The buffer of `listen` has room for ten seconds, whatever duration is asked for, and the number that the duration in
the response is computed from counts the metadata as well as the samples.
-/

namespace Flow

open Defer Defer.Body

/-- The first frames that last no longer than a limit, as many of them as do. -/
structure LongestWithin (limit frameDur : ℚ) (frames taken : List (List UInt8)) : Prop where
  isPrefix : taken <+: frames
  within : taken.length * frameDur ≤ limit
  longest : ∀ other : List (List UInt8), other <+: frames → other.length * frameDur ≤ limit →
    other.length ≤ taken.length

/-- A recording is what is asked for: the audio is as many whole frames as last no longer than the request says, and
the duration that is reported is theirs. -/
def AsAsked (x : Incoming) (args : FlowArgs) (codec : Codec) (message : List UInt8) (duration : Option ℚ) : Prop :=
  ∃ taken, LongestWithin args.durationSeconds codec.sampleDur x.ext.frames taken ∧
    Encodes message (recordID x) taken.flatten ∧ duration = some (taken.length * codec.sampleDur)

/-! ### Frames of one size -/

section Frames

variable {frames taken : List (List UInt8)} {size : Nat}

theorem length_flatten_frames (h : ∀ b ∈ frames, b.length = size) : frames.flatten.length = frames.length * size := by
  have hlengths : frames.map List.length = List.replicate frames.length size := List.map_eq_replicate_iff.mpr h
  rw [List.length_flatten, hlengths, List.sum_replicate_nat]

theorem recorded_frames (hsize : 0 < size) (h : ∀ b ∈ frames, b.length = size) (n : Nat) :
    recorded (size * n) frames = (frames.take n).flatten := by
  induction frames generalizing n with
  | nil => simp [recorded]
  | cons b frames ih =>
      have hb : b.length = size := h b List.mem_cons_self
      unfold recorded
      rw [hb]
      obtain _ | _ | n := n
      · rw [if_pos (by omega), if_neg (by omega)]
        rfl
      · rw [if_pos (by omega), if_pos (by omega)]
        simp
      · have hroom : ¬ size * (n + 1 + 1) ≤ size := by
          rw [not_le]
          exact lt_mul_of_one_lt_right hsize (by omega)
        have hrest : size * (n + 1 + 1) - size = size * (n + 1) := by rw [Nat.mul_succ, Nat.add_sub_cancel]
        rw [if_neg hroom, hrest, ih (fun b hb => h b (List.mem_cons_of_mem _ hb))]
        rfl

/-- Of frames of a fiftieth of a second, fifty make a second. -/
theorem longestWithin_iff (d : Nat) : LongestWithin d (1 / 50) frames taken ↔ taken = frames.take (50 * d) := by
  have hwithin : ∀ n : Nat, (n : ℚ) * (1 / 50) ≤ d ↔ n ≤ 50 * d := by
    intro n
    rw [← Nat.cast_le (α := ℚ)]
    push_cast
    constructor
    · intro h
      linarith
    · intro h
      linarith
  constructor
  · intro h
    have hlength : (frames.take (50 * d)).length ≤ taken.length := by
      apply h.longest _ (List.take_prefix _ _)
      rw [hwithin, List.length_take]
      exact Nat.min_le_left _ _
    have htaken : taken.length ≤ 50 * d := (hwithin _).mp h.within
    rw [List.length_take] at hlength
    have hfront := List.prefix_iff_eq_take.mp h.isPrefix
    have hshort : taken.length ≤ frames.length := h.isPrefix.length_le
    rw [hfront, List.take_eq_take_iff]
    omega
  · rintro rfl
    refine ⟨List.take_prefix _ _, ?_, fun other hother h => ?_⟩
    · rw [hwithin, List.length_take]
      exact Nat.min_le_left _ _
    · have hlong : other.length ≤ 50 * d := (hwithin _).mp h
      have hshort : other.length ≤ frames.length := hother.length_le
      rw [List.length_take]
      exact le_min hlong hshort

end Frames

/-! ### What is reported -/

section Reported

variable {x : Incoming} {args : FlowArgs} {codec : Codec} {message : List UInt8}

theorem Encodes.payload_eq {id payload payload' : List UInt8} (h : Encodes message id payload)
    (h' : Encodes message id payload') : payload' = payload :=
  List.append_cancel_left (h'.symm.trans h)

theorem not_asAsked (hdur : codec.sampleDur = 1 / 50) (hframes : ∀ b ∈ x.ext.frames, b.length = codec.samples16)
    (hmessage : Encodes message (recordID x) (x.samples codec)) {n : Nat}
    (hn : n = (recordID x).length + 5 + (x.samples codec).length) :
    ¬ AsAsked x args codec message (durationSec codec n) := by
  rintro ⟨taken, hlongest, hencodes, hduration⟩
  unfold durationSec at hduration
  split_ifs at hduration with hzero
  have hsize : (0 : ℚ) < codec.samples16 := by exact_mod_cast Nat.pos_of_ne_zero hzero
  have hsamples : (x.samples codec).length = taken.length * codec.samples16 := by
    rw [← hmessage.payload_eq hencodes]
    exact length_flatten_frames fun b hb => hframes b (hlongest.isPrefix.subset hb)
  have hcount : (n : ℚ) / codec.samples16 = taken.length := by
    rw [hdur, Option.some.injEq] at hduration
    linarith
  rw [div_eq_iff hsize.ne'] at hcount
  have hn' : n = taken.length * codec.samples16 := by exact_mod_cast hcount
  omega

/-- The audio is what is asked for if ten seconds are, or if there is not more of it than that. -/
theorem audio_asAsked_iff (hpos : 0 ≤ args.durationSeconds) (hdur : codec.sampleDur = 1 / 50)
    (hsize : 0 < codec.samples16) (hframes : ∀ b ∈ x.ext.frames, b.length = codec.samples16)
    (hmessage : Encodes message (recordID x) (x.samples codec)) :
    (∃ taken, LongestWithin args.durationSeconds codec.sampleDur x.ext.frames taken ∧
        Encodes message (recordID x) taken.flatten) ↔
      args.durationSeconds = 10 ∨ (x.ext.frames.length : ℤ) ≤ 50 * min args.durationSeconds 10 := by
  obtain ⟨d, hd⟩ := Int.eq_ofNat_of_zero_le hpos
  have hseconds : (args.durationSeconds : ℚ) = d := by
    rw [hd]
    rfl
  have htake : ∀ n, (x.ext.frames.take n).flatten.length = min n x.ext.frames.length * codec.samples16 := by
    intro n
    rw [length_flatten_frames fun b hb => hframes b (List.mem_of_mem_take hb), List.length_take]
  have hsamples : x.samples codec = (x.ext.frames.take 500).flatten := by
    unfold Incoming.samples
    rw [Nat.mul_assoc]
    exact recorded_frames hsize hframes 500
  have harith : args.durationSeconds = 10 ∨ (x.ext.frames.length : ℤ) ≤ 50 * min args.durationSeconds 10 ↔
      min (50 * d) x.ext.frames.length = min 500 x.ext.frames.length := by
    rw [hd]
    omega
  rw [harith, hdur, hseconds]
  constructor
  · rintro ⟨taken, hlongest, hencodes⟩
    obtain rfl := (longestWithin_iff d).mp hlongest
    have hlengths := congrArg List.length (hmessage.payload_eq hencodes)
    rw [hsamples, htake, htake] at hlengths
    exact Nat.eq_of_mul_eq_mul_right hsize hlengths
  · intro heq
    refine ⟨_, (longestWithin_iff d).mpr rfl, ?_⟩
    rw [List.take_eq_take_iff.mpr heq, ← hsamples]
    exact hmessage

theorem turnStep_listen (cx : DialogContext) (hop : x.request.op = "listen") (hargs : x.request.args = .ok args)
    (hmax : args.durationSeconds ≤ 30) (hcodec : x.ext.audioReader = .returned codec) {r : DialogRun}
    (hended : r.ended = none) (hstays : (turnStep cx r (.request x)).ended = none) :
    ∃ message s, (turnStep cx r (.request x)).vars = writeResponse cx x 200 "OK" (some (x.recording codec)) s ∧
      s.recordings = r.vars.recordings ++ [message] ∧ Encodes message (recordID x) (x.payload args codec) := by
  obtain ⟨e, s, hrun, hlistened⟩ := run_listen cx hop r.vars
  have hlives : ¬ Fatal e := fun he => ended_of_fatal hended he hrun hstays
  generalize hrecordings : s.recordings = recordings at hlistened
  cases hlistened with
  | refused hargs' hlong =>
      rw [hargs, Except.ok.injEq] at hargs'
      rw [hargs'] at hmax
      omega
  | failed he => exact absurd he hlives
  | sent hargs' hcodec' hmessage he =>
      rw [hargs, Except.ok.injEq] at hargs'
      rw [hcodec, Exit.returned.injEq] at hcodec'
      subst hargs' hcodec'
      obtain he | rfl := he
      · exact absurd he hlives
      · refine ⟨_, s, ?_, hrecordings, hmessage⟩
        rw [turnStep_returned hended hrun]
        rfl

end Reported

/-- No raw recording is reported as what it is: whenever a `listen` sends one and responds with it, the duration in the
response is not that of the audio. The audio itself is what was asked for if that is ten seconds, or if there is not
more of it than that. -/
theorem listen_never_asAsked (cx : DialogContext) {x : Incoming} {args : FlowArgs} {codec : Codec}
    (hop : x.request.op = "listen") (hargs : x.request.args = .ok args) (hmin : 1 ≤ args.durationSeconds)
    (hmax : args.durationSeconds ≤ 30) (hraw : args.audioFormat ≠ "wav")
    (hcodec : x.ext.audioReader = .returned codec) (hdur : codec.sampleDur = 1 / 50)
    (hframes : ∀ b ∈ x.ext.frames, b.length = codec.samples16) {r : DialogRun} (hended : r.ended = none)
    (hstays : (turnStep cx r (.request x)).ended = none) :
    ∃ message size duration s,
      (turnStep cx r (.request x)).vars = writeResponse cx x 200 "OK" (some (.recording size duration)) s ∧
      s.recordings = r.vars.recordings ++ [message] ∧ ¬ AsAsked x args codec message duration ∧
      (0 < codec.samples16 →
        ((∃ taken, LongestWithin args.durationSeconds codec.sampleDur x.ext.frames taken ∧
            Encodes message (recordID x) taken.flatten) ↔
          args.durationSeconds = 10 ∨ (x.ext.frames.length : ℤ) ≤ 50 * min args.durationSeconds 10)) := by
  obtain ⟨message, s, hvars, hrecordings, hmessage⟩ := turnStep_listen cx hop hargs hmax hcodec hended hstays
  rw [Incoming.payload, if_neg hraw] at hmessage
  refine ⟨message, _, _, s, hvars, hrecordings, not_asAsked hdur hframes hmessage rfl, fun hsize => ?_⟩
  exact audio_asAsked_iff (by omega) hdur hsize hframes hmessage

/-- A request for one second, of which there are two frames. -/
def secondRequest : Incoming where
  request := { id := "7", op := "listen", args := .ok { durationSeconds := 1, audioFormat := "raw" } }
  ext := { quietExternals with
    frames := [[1, 2], [3, 4]]
    audioReader := .returned { samples16 := 2 } }

/-- The dialog of a call that is answered. -/
def answeredRun : DialogRun := { vars := { dialogMedia := some 0 }, answered := true }

theorem listen_never_asAsked_second :
    ∃ message size duration s,
      (turnStep plainContext answeredRun (.request secondRequest)).vars =
        writeResponse plainContext secondRequest 200 "OK" (some (.recording size duration)) s ∧
      s.recordings = [] ++ [message] ∧
      ¬ AsAsked secondRequest { durationSeconds := 1, audioFormat := "raw" } { samples16 := 2 } message duration ∧
      (0 < 2 →
        ((∃ taken, LongestWithin (1 : ℤ) (1 / 50) secondRequest.ext.frames taken ∧
            Encodes message (recordID secondRequest) taken.flatten) ↔
          (1 : ℤ) = 10 ∨ ((2 : ℕ) : ℤ) ≤ 50 * min 1 10)) :=
  listen_never_asAsked plainContext (x := secondRequest) rfl rfl (by decide) (by decide) (by decide) rfl rfl (by decide)
    (r := answeredRun) rfl (by decide +kernel)

/-- Two frames of two bytes are reported as ten bytes, which is five frames. -/
theorem not_listen_asAsked :
    ¬ ∀ (cx : DialogContext) (x : Incoming) (args : FlowArgs) (codec : Codec) (r : DialogRun) (message : List UInt8)
      (size : Nat) (duration : Option ℚ) (s : DialogVars), x.request.op = "listen" → x.request.args = .ok args →
      1 ≤ args.durationSeconds → args.durationSeconds ≤ 30 → args.audioFormat = "raw" →
      x.ext.audioReader = .returned codec → codec.sampleDur = 1 / 50 →
      (∀ b ∈ x.ext.frames, b.length = codec.samples16) →
      (turnStep cx r (.request x)).vars = writeResponse cx x 200 "OK" (some (.recording size duration)) s →
      s.recordings = r.vars.recordings ++ [message] → AsAsked x args codec message duration := by
  intro h
  let message : List UInt8 := [1, 0, 0, 0, 1, 55, 1, 2, 3, 4]
  let s : DialogVars :=
    { dialogMedia := some 0, stopListen := true, recordings := [message],
      responses := [⟨"7", "d", 183, "Recording In Progress", none⟩, ⟨"7", "d", 190, "Recording Write", none⟩] }
  have hasked : AsAsked secondRequest { durationSeconds := 1, audioFormat := "raw" } { samples16 := 2 } message
      (some (1 / 10)) :=
    h plainContext secondRequest _ _ answeredRun message 10 (some (1 / 10)) s rfl rfl (by decide) (by decide) rfl rfl
      rfl (by decide) (by decide +kernel) rfl
  have hduration : durationSec { samples16 := 2 } 10 = some (1 / 10) := by decide +kernel
  have hmessage : Encodes message (recordID secondRequest) (secondRequest.samples { samples16 := 2 }) := by
    unfold Encodes
    decide +kernel
  rw [← hduration] at hasked
  exact not_asAsked rfl (by decide) hmessage rfl hasked

end Flow
