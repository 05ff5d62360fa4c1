import Mathlib.Algebra.Order.Round
import Mathlib.Data.Int.Log
import Mathlib.Data.Rat.Floor
import Mathlib.Tactic.FieldSimp
import Mathlib.Tactic.Linarith
import Mathlib.Tactic.Positivity

/-!
# Double precision

The values of a double are rationals, and an operation of the machine is the exact operation with its result
rounded: to 53 significant bits, to the nearest value, and to the even one between two. Exponents have no bounds
here, so this is the arithmetic of doubles as long as nothing overflows and nothing becomes subnormal.
-/

namespace Float64

/-- The nearest integer, the even one between two. -/
def roundEven (x : ℚ) : ℤ :=
  if x - ⌊x⌋ < 1 / 2 then ⌊x⌋
  else if x - ⌊x⌋ = 1 / 2 ∧ ⌊x⌋ % 2 = 0 then ⌊x⌋
  else ⌊x⌋ + 1

/-- The unit in the last of the 53 places of `x`. -/
def quantum (x : ℚ) : ℚ := 2 ^ (Int.log 2 |x| - 52)

def round (x : ℚ) : ℚ := roundEven (x / quantum x) * quantum x

/-- An integer as a double. -/
def ofInt (n : ℤ) : ℚ := round n

def add (x y : ℚ) : ℚ := round (x + y)

def mul (x y : ℚ) : ℚ := round (x * y)

def div (x y : ℚ) : ℚ := round (x / y)

/-- The conversion to an integer, which cuts off the fraction. -/
def toInt (x : ℚ) : ℤ := if 0 ≤ x then ⌊x⌋ else ⌈x⌉

/-! ### Rounding to an integer -/

theorem floor_le_roundEven (x : ℚ) : ⌊x⌋ ≤ roundEven x := by
  unfold roundEven
  split_ifs <;> omega

theorem roundEven_le_floor_add_one (x : ℚ) : roundEven x ≤ ⌊x⌋ + 1 := by
  unfold roundEven
  split_ifs <;> omega

theorem le_roundEven_iff (n : ℤ) (x : ℚ) :
    n ≤ roundEven x ↔ (n : ℚ) - 1 / 2 < x ∨ n % 2 = 0 ∧ (n : ℚ) - 1 / 2 = x := by
  have hlow := Int.floor_le x
  have hhigh := Int.lt_floor_add_one x
  obtain hle | hlt := le_or_gt n ⌊x⌋
  · have hcast : (n : ℚ) ≤ ⌊x⌋ := by exact_mod_cast hle
    exact iff_of_true (hle.trans (floor_le_roundEven x)) (.inl (by linarith))
  · obtain hnext | hfar := (Int.add_one_le_of_lt hlt).eq_or_lt
    · have hcast : (⌊x⌋ : ℚ) + 1 = n := by exact_mod_cast hnext
      unfold roundEven
      split_ifs with hhalf htie
      · refine iff_of_false (by omega) ?_
        rintro (h | ⟨-, h⟩)
        · linarith
        · linarith
      · refine iff_of_false (by omega) ?_
        rintro (h | ⟨heven, -⟩)
        · linarith [htie.1]
        · omega
      · refine iff_of_true (by omega) ?_
        obtain hgt | heq := lt_or_eq_of_le (not_lt.mp hhalf)
        · exact .inl (by linarith)
        · refine .inr ⟨?_, by linarith⟩
          by_contra hodd
          exact htie ⟨heq.symm, by omega⟩
    · have hup := roundEven_le_floor_add_one x
      have hcast : (⌊x⌋ : ℚ) + 2 ≤ n := by exact_mod_cast (by omega : ⌊x⌋ + 2 ≤ n)
      refine iff_of_false (by omega) ?_
      rintro (h | ⟨-, h⟩)
      · linarith
      · linarith

theorem le_roundEven_iff_of_even {n : ℤ} (hn : n % 2 = 0) (x : ℚ) : n ≤ roundEven x ↔ (n : ℚ) - 1 / 2 ≤ x := by
  rw [le_roundEven_iff, le_iff_lt_or_eq, and_iff_right hn]

theorem roundEven_mono {x y : ℚ} (hxy : x ≤ y) : roundEven x ≤ roundEven y := by
  obtain hx | ⟨heven, hx⟩ := (le_roundEven_iff _ x).mp le_rfl
  · exact (le_roundEven_iff _ y).mpr (.inl (hx.trans_le hxy))
  · obtain hlt | heq := lt_or_eq_of_le hxy
    · exact (le_roundEven_iff _ y).mpr (.inl (hx.trans_lt hlt))
    · exact (le_roundEven_iff _ y).mpr (.inr ⟨heven, hx.trans heq⟩)

@[simp] theorem roundEven_intCast (n : ℤ) : roundEven n = n := by
  simp [roundEven]

theorem le_roundEven {n : ℤ} {x : ℚ} (h : (n : ℚ) ≤ x) : n ≤ roundEven x := by
  simpa using roundEven_mono h

theorem roundEven_le {n : ℤ} {x : ℚ} (h : x ≤ n) : roundEven x ≤ n := by
  simpa using roundEven_mono h

/-! ### Rounding to 53 bits -/

theorem quantum_pos (x : ℚ) : 0 < quantum x := zpow_pos two_pos _

theorem quantum_of_mem {x : ℚ} {k : ℤ} (hlow : 2 ^ k ≤ x) (hhigh : x < 2 ^ (k + 1)) : quantum x = 2 ^ (k - 52) := by
  have hpos : 0 < x := (zpow_pos two_pos k).trans_le hlow
  have hlog : Int.log 2 x = k := by
    have h := (Int.zpow_le_iff_le_log (b := 2) (by decide) hpos).mp (by exact_mod_cast hlow)
    have h' := (Int.lt_zpow_iff_log_lt (b := 2) (by decide) hpos).mp (by exact_mod_cast hhigh)
    omega
  rw [quantum, abs_of_pos hpos, hlog]

@[simp] theorem round_zero : round 0 = 0 := by
  have hzero : roundEven 0 = 0 := roundEven_intCast 0
  rw [round, zero_div, hzero, Int.cast_zero, zero_mul]

theorem round_of_eq_mul {x : ℚ} {n : ℤ} (h : x = n * quantum x) : round x = x := by
  have hquot : x / quantum x = n := (div_eq_iff (quantum_pos x).ne').mpr h
  rw [round, hquot, roundEven_intCast, ← h]

theorem round_natCast_mul_zpow {m : ℕ} (hm : m < 2 ^ 53) (e : ℤ) : round (m * 2 ^ e) = m * 2 ^ e := by
  obtain rfl | hpos := m.eq_zero_or_pos
  · simp
  · have hlog : Nat.log 2 m ≤ 52 := Nat.lt_succ_iff.mp (Nat.log_lt_of_lt_pow hpos.ne' hm)
    have hlow : ((2 : ℚ) ^ Nat.log 2 m) ≤ m := by exact_mod_cast Nat.pow_log_le_self 2 hpos.ne'
    have hhigh : (m : ℚ) < 2 ^ (Nat.log 2 m + 1) := by exact_mod_cast Nat.lt_pow_succ_log_self (by decide) m
    have he : (0 : ℚ) < 2 ^ e := zpow_pos two_pos e
    have hquantum : quantum (m * 2 ^ e) = 2 ^ ((Nat.log 2 m : ℤ) + e - 52) := by
      apply quantum_of_mem
      · rw [zpow_add₀ two_ne_zero, zpow_natCast]
        exact mul_le_mul_of_nonneg_right hlow he.le
      · rw [add_right_comm, zpow_add₀ two_ne_zero]
        exact mul_lt_mul_of_pos_right (by exact_mod_cast hhigh) he
    refine round_of_eq_mul (n := m * 2 ^ (52 - Nat.log 2 m)) ?_
    rw [hquantum]
    push_cast
    rw [mul_assoc, ← zpow_natCast, ← zpow_add₀ two_ne_zero]
    congr 2
    omega

theorem ofInt_natCast {n : ℕ} (hn : n < 2 ^ 53) : ofInt n = n := by
  simpa [ofInt] using round_natCast_mul_zpow hn 0

theorem round_mem {x : ℚ} {k : ℤ} (hlow : 2 ^ k ≤ x) (hhigh : x < 2 ^ (k + 1)) :
    2 ^ k ≤ round x ∧ round x ≤ 2 ^ (k + 1) := by
  have hq : (0 : ℚ) < 2 ^ (k - 52) := zpow_pos two_pos _
  have hsplit : ∀ n : ℕ, (2 : ℚ) ^ (k - 52 + n) = 2 ^ n * 2 ^ (k - 52) := fun n => by
    rw [zpow_add₀ two_ne_zero, zpow_natCast, mul_comm]
  have hbottom : (2 : ℚ) ^ k = ((2 ^ 52 : ℤ) : ℚ) * 2 ^ (k - 52) := by
    rw [Int.cast_pow, Int.cast_ofNat, ← hsplit]
    congr 1
    omega
  have htop : (2 : ℚ) ^ (k + 1) = ((2 ^ 53 : ℤ) : ℚ) * 2 ^ (k - 52) := by
    rw [Int.cast_pow, Int.cast_ofNat, ← hsplit]
    congr 1
    omega
  rw [round, quantum_of_mem hlow hhigh]
  constructor
  · rw [hbottom]
    refine mul_le_mul_of_nonneg_right ?_ hq.le
    exact_mod_cast le_roundEven ((le_div_iff₀ hq).mpr (hbottom ▸ hlow))
  · rw [htop]
    refine mul_le_mul_of_nonneg_right ?_ hq.le
    exact_mod_cast roundEven_le ((div_le_iff₀ hq).mpr (htop ▸ hhigh.le))

theorem exists_zpow_mem {x : ℚ} (hx : 0 < x) : ∃ k : ℤ, 2 ^ k ≤ x ∧ x < 2 ^ (k + 1) :=
  ⟨Int.log 2 x, by exact_mod_cast Int.zpow_log_le_self (by decide) hx,
    by exact_mod_cast Int.lt_zpow_succ_log_self (by decide) x⟩

theorem round_nonneg {x : ℚ} (hx : 0 ≤ x) : 0 ≤ round x := by
  refine mul_nonneg ?_ (quantum_pos x).le
  exact_mod_cast le_roundEven (n := 0) (by simpa using div_nonneg hx (quantum_pos x).le)

theorem round_mono {x y : ℚ} (hx : 0 ≤ x) (hxy : x ≤ y) : round x ≤ round y := by
  obtain rfl | hx := hx.eq_or_lt
  · simpa using round_nonneg hxy
  · obtain ⟨k, hklow, hkhigh⟩ := exists_zpow_mem hx
    obtain ⟨l, hllow, hlhigh⟩ := exists_zpow_mem (hx.trans_le hxy)
    have hkl : k < l + 1 := (zpow_lt_zpow_iff_right₀ one_lt_two).mp (hklow.trans_lt (hxy.trans_lt hlhigh))
    obtain rfl | hlt := (Int.lt_add_one_iff.mp hkl).eq_or_lt
    · rw [round, round, quantum_of_mem hklow hkhigh, quantum_of_mem hllow hlhigh]
      have hq : (0 : ℚ) < 2 ^ (k - 52) := zpow_pos two_pos _
      refine mul_le_mul_of_nonneg_right ?_ hq.le
      exact_mod_cast roundEven_mono (div_le_div_of_nonneg_right hxy hq.le)
    · calc round x ≤ 2 ^ (k + 1) := (round_mem hklow hkhigh).2
        _ ≤ 2 ^ l := zpow_le_zpow_right₀ one_le_two hlt
        _ ≤ round y := (round_mem hllow hlhigh).1

theorem le_round_of_le {m : ℕ} (hm : m < 2 ^ 53) {e : ℤ} {x : ℚ} (h : m * 2 ^ e ≤ x) : m * 2 ^ e ≤ round x := by
  rw [← round_natCast_mul_zpow hm e]
  exact round_mono (mul_nonneg m.cast_nonneg (zpow_pos two_pos e).le) h

theorem round_le_of_le {m : ℕ} (hm : m < 2 ^ 53) {e : ℤ} {x : ℚ} (hx : 0 ≤ x) (h : x ≤ m * 2 ^ e) :
    round x ≤ m * 2 ^ e := by
  rw [← round_natCast_mul_zpow hm e]
  exact round_mono hx h

/-- Above an integer, the last half unit in the last place before the next one is rounded up to that. -/
theorem add_one_le_round_iff {n k : ℕ} (hk : k ≤ 51) (hlow : 2 ^ k ≤ n) (hhigh : n < 2 ^ (k + 1)) {f : ℚ}
    (hf : 0 ≤ f) (hf' : f < 1) : (n : ℚ) + 1 ≤ round (n + f) ↔ 1 - 2 ^ ((k : ℤ) - 53) ≤ f := by
  have hlow' : (2 : ℚ) ^ (k : ℤ) ≤ n + f := by
    have h : (2 : ℚ) ^ k ≤ n := by exact_mod_cast hlow
    rw [zpow_natCast]
    linarith
  have hhigh' : (n : ℚ) + f < 2 ^ ((k : ℤ) + 1) := by
    have h : (n : ℚ) + 1 ≤ 2 ^ (k + 1) := by exact_mod_cast hhigh
    have hpow : (2 : ℚ) ^ ((k : ℤ) + 1) = 2 ^ (k + 1) := by exact_mod_cast zpow_natCast (2 : ℚ) (k + 1)
    rw [hpow]
    linarith
  have hq : (0 : ℚ) < 2 ^ ((k : ℤ) - 52) := zpow_pos two_pos _
  have hhalf : (2 : ℚ) ^ ((k : ℤ) - 52) = 2 * 2 ^ ((k : ℤ) - 53) := by
    rw [← zpow_one_add₀ two_ne_zero]
    congr 1
    omega
  -- the next integer is an even number of units
  have hnext : (n : ℚ) + 1 = (((n + 1) * 2 ^ (52 - k) : ℤ) : ℚ) * 2 ^ ((k : ℤ) - 52) := by
    have hone : (2 : ℚ) ^ (52 - k) * 2 ^ ((k : ℤ) - 52) = 1 := by
      rw [← zpow_natCast, ← zpow_add₀ two_ne_zero, ← zpow_zero (2 : ℚ)]
      congr 1
      omega
    push_cast
    rw [mul_assoc, hone, mul_one]
  have heven : ((n + 1) * 2 ^ (52 - k) : ℤ) % 2 = 0 := by
    rw [show 52 - k = 51 - k + 1 by omega, pow_succ, ← mul_assoc, Int.mul_emod_left]
  rw [round, quantum_of_mem hlow' hhigh', hnext, mul_le_mul_iff_left₀ hq, Int.cast_le,
    le_roundEven_iff_of_even heven, le_div_iff₀ hq, sub_mul, ← hnext, hhalf]
  constructor
  · intro h
    linarith
  · intro h
    linarith

end Float64
