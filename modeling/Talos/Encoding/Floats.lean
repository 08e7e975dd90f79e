import Talos.Encoding.Decimal

/-!
# Arithmetic of doubles

The operators of Python's `float`, and of numbers in JavaScript, on `Number`: the exact result is
rounded, and infinite where it is too large. Numbers other than NaN have a place in the order of the
rational numbers between two infinite ones (`gt_iff`).
-/

namespace Talos.Encoding

theorem abs_toDouble_le (x : ℚ) : |toDouble x| ≤ 2 * |x| := by
  have near := abs_le.mp (toDouble_error x)
  have size := abs_nonneg x
  have above := le_abs_self x
  have below := neg_abs_le x
  rw [abs_le]
  constructor <;> linarith [near.1, near.2]

theorem toDouble_zero : toDouble 0 = 0 :=
  abs_nonpos_iff.mp (by simpa using abs_toDouble_le 0)

theorem toDouble_one : toDouble 1 = 1 := by decide +kernel

theorem toDouble_nonneg {x : ℚ} (nonneg : 0 ≤ x) : 0 ≤ toDouble x := by
  rcases nonneg.eq_or_lt with rfl | pos
  · rw [toDouble_zero]
  · exact (toDouble_pos pos).le

theorem toDouble_le_toDouble {x y : ℚ} (nonneg : 0 ≤ x) (le : x ≤ y) : toDouble x ≤ toDouble y := by
  rcases nonneg.eq_or_lt with rfl | pos
  · rw [toDouble_zero]
    exact toDouble_nonneg le
  · exact toDouble_mono pos le

theorem toDouble_monotone : Monotone toDouble := by
  intro x y le
  rcases le_total 0 x with nonneg | nonpos
  · exact toDouble_le_toDouble nonneg le
  · rcases le_total 0 y with nonneg | nonpos'
    · have left := toDouble_nonneg (neg_nonneg.mpr nonpos)
      rw [toDouble_neg] at left
      exact (neg_nonneg.mp left).trans (toDouble_nonneg nonneg)
    · have flipped := toDouble_le_toDouble (neg_nonneg.mpr nonpos') (neg_le_neg le)
      rw [toDouble_neg, toDouble_neg] at flipped
      exact neg_le_neg_iff.mp flipped

/-- A number that is rounded is a double. -/
theorem toDouble_toDouble (x : ℚ) : toDouble (toDouble x) = toDouble x := by
  wlog nonneg : 0 ≤ x generalizing x
  · have flipped := this (-x) (neg_nonneg.mpr (not_le.mp nonneg).le)
    rwa [toDouble_neg, toDouble_neg, neg_inj] at flipped
  rcases nonneg.eq_or_lt with rfl | pos
  · rw [toDouble_zero, toDouble_zero]
  have unit := ulp_pos x
  have low : 0 ≤ roundHalfEven (x / ulp x) := by
    have rounded := roundHalfEven_mono (div_nonneg nonneg unit.le)
    rwa [← Int.cast_zero, roundHalfEven_intCast] at rounded
  have high : roundHalfEven (x / ulp x) ≤ 2 ^ 53 := by
    have below : x ≤ 2 ^ 53 * ulp x := by
      have power : (2 : ℚ) ^ 53 * ulp x = 2 ^ (Int.log 2 x + 1) := by
        rw [ulp, abs_of_pos pos, ← zpow_natCast, ← zpow_add₀ (by norm_num)]
        congr 1
        push_cast
        ring
      exact power ▸ (lt_zpow_log x).le
    have rounded := roundHalfEven_mono ((div_le_iff₀ unit).mpr below)
    rwa [roundHalfEven_two_pow] at rounded
  obtain ⟨n, digits⟩ := Int.eq_ofNat_of_zero_le low
  have double : toDouble x = n * 2 ^ (Int.log 2 |x| - 52) := by
    rw [toDouble, digits, Int.cast_natCast, ulp]
  rw [digits] at high
  rw [double, toDouble_mul_zpow, toDouble_natCast (by exact_mod_cast high)]

theorem toDouble_mul_two_pow {x : ℚ} (double : toDouble x = x) (k : ℕ) :
    toDouble (x * 2 ^ k) = x * 2 ^ k := by
  have scaled := toDouble_mul_zpow x k
  rwa [zpow_natCast, double] at scaled

theorem abs_toDouble (x : ℚ) : |toDouble x| = toDouble |x| := by
  rcases le_total 0 x with nonneg | nonpos
  · rw [abs_of_nonneg nonneg, abs_of_nonneg (toDouble_nonneg nonneg)]
  · have nonneg := toDouble_nonneg (neg_nonneg.mpr nonpos)
    rw [abs_of_nonpos nonpos, ← abs_of_nonneg nonneg, toDouble_neg, abs_neg]

namespace Number

/-- The float next to a number, which may be infinite. -/
def ofExact (x : ℚ) : Number :=
  if |toDouble x| < 2 ^ 1024 then .finite (toDouble x) else .infinite (decide (x < 0))

def add : Number → Number → Number
  | .nan, _ | _, .nan => .nan
  | .finite x, .finite y => ofExact (x + y)
  | .infinite s, .infinite t => if s = t then .infinite s else .nan
  | .infinite s, .finite _ | .finite _, .infinite s => .infinite s

def neg : Number → Number
  | .finite x => .finite (-x)
  | .infinite s => .infinite (!s)
  | .nan => .nan

def mul : Number → Number → Number
  | .nan, _ | _, .nan => .nan
  | .finite x, .finite y => ofExact (x * y)
  | .infinite s, .infinite t => .infinite (s != t)
  | .infinite s, .finite x | .finite x, .infinite s =>
      if x = 0 then .nan else .infinite (s != decide (x < 0))

/-- The divisor is not zero. -/
def div : Number → Number → Number
  | .finite x, .finite y => ofExact (x / y)
  | .finite _, .infinite _ => .finite 0
  | .infinite s, .finite y => .infinite (s != decide (y < 0))
  | _, _ => .nan

theorem ofExact_of_lt {x : ℚ} (small : |toDouble x| < 2 ^ 1024) :
    ofExact x = .finite (toDouble x) := if_pos small

theorem ofExact_small {x : ℚ} (nonneg : 0 ≤ x) (small : x ≤ 16) :
    ofExact x = .finite (toDouble x) := by
  refine ofExact_of_lt ((abs_toDouble_le x).trans_lt ?_)
  rw [abs_of_nonneg nonneg]
  calc 2 * x ≤ 2 ^ 5 := by linarith
    _ < 2 ^ 1024 := pow_lt_pow_right₀ (by norm_num) (by norm_num)

theorem ofExact_double {x : ℚ} (pos : 0 < x) (double : toDouble x = x) (small : x < 2 ^ 1024) :
    ofExact x = .finite x := by
  rw [ofExact_of_lt (by rwa [double, abs_of_pos pos]), double]

/-- Rounding keeps the order, up to infinity. -/
theorem ofExact_mono {x y : ℚ} (nonneg : 0 ≤ x) (le : x ≤ y) :
    (ofExact x).gt (ofExact y) = false := by
  have rounded := toDouble_le_toDouble nonneg le
  have nonneg' := toDouble_nonneg nonneg
  rw [ofExact, ofExact, abs_of_nonneg nonneg', abs_of_nonneg (nonneg'.trans rounded)]
  split_ifs with small small'
  · simpa [Number.gt] using rounded
  · have : ¬ y < 0 := not_lt.mpr (nonneg.trans le)
    simp [gt, this]
  · rename_i small'
    exact absurd (rounded.trans_lt small') small
  · simp [gt, not_lt.mpr nonneg, not_lt.mpr (nonneg.trans le)]

theorem ofExact_ne_nan (x : ℚ) : ofExact x ≠ .nan := by
  rw [ofExact]
  split <;> exact nofun

/-- No more than a float is not too large. -/
theorem ofExact_of_abs_le {w x : ℚ} (double : toDouble w = w) (small : |w| < 2 ^ 1024)
    (le : |x| ≤ |w|) : ofExact x = .finite (toDouble x) := by
  refine ofExact_of_lt ?_
  have rounded := toDouble_le_toDouble (abs_nonneg x) le
  rw [← abs_toDouble, ← abs_toDouble, double] at rounded
  exact rounded.trans_lt small

theorem add_finite_ne_nan {a : Number} (number : a ≠ .nan) (y : ℚ) : a.add (.finite y) ≠ .nan := by
  cases a with
  | finite x => exact ofExact_ne_nan _
  | infinite s => exact nofun
  | nan => exact absurd rfl number

/-- The place of a number in their order, for which NaN does not matter. -/
def rank : Number → WithBot (WithTop ℚ)
  | .finite x => ((x : WithTop ℚ) : WithBot (WithTop ℚ))
  | .infinite false => ((⊤ : WithTop ℚ) : WithBot (WithTop ℚ))
  | .infinite true | .nan => ⊥

theorem gt_iff {a b : Number} (left : a ≠ .nan) (right : b ≠ .nan) :
    a.gt b = true ↔ rank b < rank a := by
  rcases a with x | (_ | _) | _ <;> rcases b with y | (_ | _) | _ <;>
    simp [gt, rank] at left right ⊢
  exact WithBot.coe_lt_coe.mpr (WithTop.coe_lt_top _)

end Number

end Talos.Encoding
