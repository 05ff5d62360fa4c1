import Diagox.Lib.Float64
import Diagox.Registrar.Auth
import Mathlib.Tactic.IntervalCases

/-!
# A duration in seconds

`Duration.Seconds` is a double, and the registrar announces its integer part. The whole seconds and the fraction
are rounded on their own and once more when they are added, so a duration that ends shortly before a full second
can become that second. `RoundsDown` says when it does not.
-/

namespace Registrar

/-- `Duration.Seconds`. -/
def durationSeconds (d : Int) : ℚ :=
  Float64.add (Float64.ofInt (d.tdiv second)) (Float64.div (Float64.ofInt (d.tmod second)) (Float64.ofInt second))

/-- `int(d.Seconds())`. -/
def wholeSeconds (d : Int) : Int := Float64.toInt (durationSeconds d)

/-- What is missing to the next full second is more than half a unit in the last place of the seconds. -/
def RoundsDown (d : Int) : Prop := second * 2 ^ Nat.log 2 (d / second).toNat < (second - d % second) * 2 ^ 53

instance (d : Int) : Decidable (RoundsDown d) := by
  unfold RoundsDown
  infer_instance

theorem nanoseconds_gap {k n : ℕ} (hk : k < 34) (hn : n < 1000000000) (h : n * 2 ^ 53 < (2 ^ 53 - 2 ^ k) * 1000000000) :
    n * 2 ^ 53 ≤ (2 ^ 53 - 2 ^ k - 1) * 1000000000 := by
  interval_cases k <;> omega

theorem le_round_nanoseconds_iff {k n : ℕ} (hk : k < 34) (hn : n < 1000000000) :
    ((2 ^ 53 - 2 ^ k : ℕ) : ℚ) * 2 ^ (-53 : ℤ) ≤ Float64.round (n / 1000000000) ↔
      (2 ^ 53 - 2 ^ k) * 1000000000 ≤ n * 2 ^ 53 := by
  have hpos : (0 : ℚ) < 2 ^ (-53 : ℤ) := zpow_pos two_pos _
  have hpow : 0 < 2 ^ k := Nat.two_pow_pos k
  have hscale : ∀ j : ℕ, (j : ℚ) * 2 ^ (-53 : ℤ) * 1000000000 = ((j * 1000000000 : ℕ) : ℚ) / 2 ^ 53 := fun j => by
    push_cast
    rw [zpow_neg, ← div_eq_mul_inv, div_mul_eq_mul_div]
    norm_cast
  constructor
  · intro h
    by_contra hlt
    have hgap := nanoseconds_gap hk hn (not_le.mp hlt)
    have hbelow : (n : ℚ) / 1000000000 ≤ ((2 ^ 53 - 2 ^ k - 1 : ℕ) : ℚ) * 2 ^ (-53 : ℤ) := by
      rw [div_le_iff₀ (by norm_num), hscale, le_div_iff₀ (by norm_num)]
      exact_mod_cast hgap
    have hround := Float64.round_le_of_le (by omega) (by positivity) hbelow
    have hless : ((2 ^ 53 - 2 ^ k - 1 : ℕ) : ℚ) < ((2 ^ 53 - 2 ^ k : ℕ) : ℚ) := by
      have : 2 ^ k < 2 ^ 53 := Nat.pow_lt_pow_right (by decide) (by omega)
      exact_mod_cast (by omega : 2 ^ 53 - 2 ^ k - 1 < 2 ^ 53 - 2 ^ k)
    exact absurd (h.trans hround) (not_le.mpr (mul_lt_mul_of_pos_right hless hpos))
  · intro h
    refine Float64.le_round_of_le (by omega) ?_
    rw [le_div_iff₀ (by norm_num), hscale, div_le_iff₀ (by norm_num)]
    exact_mod_cast h

theorem roundsDown_iff {sec n : ℕ} (hn : n < 1000000000) :
    RoundsDown (sec * second + n) ↔ 1000000000 * 2 ^ Nat.log 2 sec < (1000000000 - n) * 2 ^ 53 := by
  have hdiv : (sec * second + n : ℤ) / second = sec := by
    unfold second
    omega
  have hmod : (sec * second + n : ℤ) % second = n := by
    unfold second
    omega
  rw [RoundsDown, hdiv, hmod, Int.toNat_natCast, ← Int.ofNat_lt]
  push_cast [Nat.cast_sub hn.le]
  rfl

/-- The seconds that are announced are those of the duration, or one more where the double is. -/
theorem wholeSeconds_eq {d : Int} (hlow : second ≤ d) (hhigh : d < 2 ^ 63) :
    wholeSeconds d = if RoundsDown d then d / second else d / second + 1 := by
  obtain ⟨sec, n, hn, rfl⟩ : ∃ sec n : ℕ, n < 1000000000 ∧ d = sec * second + n :=
    ⟨(d / second).toNat, (d % second).toNat, by unfold second; omega, by unfold second at *; omega⟩
  have hdiv : (sec * second + n : ℤ) / second = sec := by
    unfold second
    omega
  have hsec : 0 < sec ∧ sec < 2 ^ 34 := by
    unfold second at hlow hhigh
    omega
  have hk : Nat.log 2 sec < 34 := Nat.log_lt_of_lt_pow hsec.1.ne' hsec.2
  -- the fraction of the second is less than one
  have hf : (0 : ℚ) ≤ Float64.round (n / 1000000000) := Float64.round_nonneg (by positivity)
  have hf' : Float64.round (n / 1000000000) < 1 := by
    have hle : (n : ℚ) / 1000000000 ≤ ((2 ^ 53 - 1 : ℕ) : ℚ) * 2 ^ (-53 : ℤ) := by
      have hn' : (n : ℚ) ≤ 999999999 := by exact_mod_cast Nat.le_of_lt_succ hn
      rw [div_le_iff₀ (by norm_num)]
      norm_num
      linarith
    exact (Float64.round_le_of_le (by decide) (by positivity) hle).trans_lt (by norm_num)
  have hseconds : durationSeconds (sec * second + n) = Float64.round (sec + Float64.round (n / 1000000000)) := by
    have htdiv : (sec * second + n : ℤ).tdiv second = sec := by
      rw [Int.tdiv_eq_ediv_of_nonneg (by unfold second; omega), hdiv]
    have htmod : (sec * second + n : ℤ).tmod second = n := by
      rw [Int.tmod_eq_emod_of_nonneg (by unfold second; omega)]
      unfold second
      omega
    have hsecond : Float64.ofInt second = 1000000000 := by
      exact_mod_cast Float64.ofInt_natCast (n := 1000000000) (by decide)
    have hofsec : Float64.ofInt sec = sec := Float64.ofInt_natCast (by omega)
    have hofn : Float64.ofInt n = n := Float64.ofInt_natCast (by omega)
    rw [durationSeconds, htdiv, htmod, hsecond, hofsec, hofn]
    rfl
  have hbelow : (sec : ℚ) ≤ Float64.round (sec + Float64.round (n / 1000000000)) := by
    simpa using Float64.le_round_of_le (m := sec) (e := 0) (by omega) (by simpa using hf)
  have habove : Float64.round (sec + Float64.round (n / 1000000000)) ≤ sec + 1 := by
    simpa using Float64.round_le_of_le (m := sec + 1) (e := 0) (by omega) (by positivity) (by simpa using hf'.le)
  have hnext := Float64.add_one_le_round_iff (by omega) (Nat.pow_log_le_self 2 hsec.1.ne')
    (Nat.lt_pow_succ_log_self (by decide) sec) hf hf'
  have hpow : 2 ^ Nat.log 2 sec ≤ 2 ^ 53 := Nat.pow_le_pow_right (by decide) (by omega)
  have hmiddle : (1 : ℚ) - 2 ^ ((Nat.log 2 sec : ℤ) - 53) = ((2 ^ 53 - 2 ^ Nat.log 2 sec : ℕ) : ℚ) * 2 ^ (-53 : ℤ) := by
    rw [Nat.cast_sub hpow, sub_mul, sub_eq_add_neg (Nat.log 2 sec : ℤ), zpow_add₀ two_ne_zero, zpow_natCast]
    push_cast
    norm_num
  have hup : (sec : ℚ) + 1 ≤ Float64.round (sec + Float64.round (n / 1000000000)) ↔ ¬ RoundsDown (sec * second + n) := by
    rw [hnext, hmiddle, le_round_nanoseconds_iff hk hn, roundsDown_iff hn]
    omega
  rw [wholeSeconds, Float64.toInt, hseconds, if_pos ((Nat.cast_nonneg sec).trans hbelow), hdiv, Int.floor_eq_iff]
  split_ifs with hdown
  · have hlt := not_le.mp (mt hup.mp (not_not.mpr hdown))
    exact ⟨by exact_mod_cast hbelow, by exact_mod_cast hlt⟩
  · have hle := hup.mpr hdown
    refine ⟨by exact_mod_cast hle, ?_⟩
    push_cast
    linarith

theorem roundsDown_of_lt {d : Int} (hlow : 0 ≤ d) (hhigh : d < 2 ^ 24 * second) : RoundsDown d := by
  have hmod := Int.emod_lt_of_pos d (show 0 < second by decide)
  have hlog : Nat.log 2 (d / second).toNat ≤ 23 := by
    refine Nat.lt_succ_iff.mp (Nat.log_lt_of_lt_pow' (by decide) ?_)
    unfold second at hhigh ⊢
    omega
  have hpow : (2 : Int) ^ Nat.log 2 (d / second).toNat ≤ 2 ^ 23 := by
    exact_mod_cast Nat.pow_le_pow_right (show 0 < 2 by decide) hlog
  calc second * 2 ^ Nat.log 2 (d / second).toNat ≤ second * 2 ^ 23 := Int.mul_le_mul_of_nonneg_left hpow (by decide)
    _ < 1 * 2 ^ 53 := by decide
    _ ≤ (second - d % second) * 2 ^ 53 := Int.mul_le_mul_of_nonneg_right (by omega) (by decide)

end Registrar
