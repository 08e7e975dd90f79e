import Mathlib.Data.Int.Log
import Mathlib.Data.Rat.Floor
import Mathlib.Tactic.Linarith
import Mathlib.Tactic.Positivity
import Mathlib.Tactic.FieldSimp
import Mathlib.Tactic.NormNum

/-!
# Numbers of double precision

The double nearest to a rational number, ties to the even one, as `Number` and Python's `float`
read a decimal. Only normal numbers are meant: there is no overflow and no underflow.
-/

namespace Talos.Encoding

/-- The distance of doubles around a number. -/
def ulp (x : ℚ) : ℚ := 2 ^ (Int.log 2 |x| - 52)

def roundHalfEven (x : ℚ) : ℤ :=
  let down := ⌊x⌋
  if x - down < 1 / 2 then down
  else if 1 / 2 < x - down then down + 1
  else if down % 2 = 0 then down
  else down + 1

def toDouble (x : ℚ) : ℚ := roundHalfEven (x / ulp x) * ulp x

theorem ulp_pos (x : ℚ) : 0 < ulp x := zpow_pos (by norm_num) _

theorem roundHalfEven_near (x : ℚ) : |(roundHalfEven x : ℚ) - x| ≤ 1 / 2 := by
  have low := Int.floor_le x
  have high := Int.lt_floor_add_one x
  unfold roundHalfEven
  dsimp only
  split_ifs with below above even
  · rw [abs_le]
    constructor <;> linarith
  · push_cast
    rw [abs_le]
    constructor <;> linarith
  · rw [abs_le]
    constructor <;> linarith
  · push_cast
    rw [abs_le]
    constructor <;> linarith

/-- A double is off by at most half of the distance. -/
theorem toDouble_near (x : ℚ) : |toDouble x - x| ≤ ulp x / 2 := by
  have pos := ulp_pos x
  have scaled : toDouble x - x = (roundHalfEven (x / ulp x) - x / ulp x) * ulp x := by
    rw [toDouble]
    field_simp
  rw [scaled, abs_mul, abs_of_pos pos]
  calc |(roundHalfEven (x / ulp x) : ℚ) - x / ulp x| * ulp x
      ≤ 1 / 2 * ulp x := mul_le_mul_of_nonneg_right (roundHalfEven_near _) pos.le
    _ = ulp x / 2 := by ring

theorem ulp_le (x : ℚ) (ne : x ≠ 0) : ulp x ≤ |x| / 2 ^ 52 := by
  have log := Int.zpow_log_le_self (b := 2) (by norm_num) (abs_pos.mpr ne)
  rw [ulp, zpow_sub₀ (by norm_num)]
  exact div_le_div_of_nonneg_right (by exact_mod_cast log) (by positivity)

/-- So the relative error is at most `2 ^ -53`. -/
theorem toDouble_error (x : ℚ) : |toDouble x - x| ≤ |x| / 2 ^ 53 := by
  by_cases zero : x = 0
  · subst zero
    simp [toDouble, roundHalfEven]
  · have near := toDouble_near x
    have small := ulp_le x zero
    calc |toDouble x - x| ≤ ulp x / 2 := near
      _ ≤ |x| / 2 ^ 52 / 2 := by linarith
      _ = |x| / 2 ^ 53 := by ring

theorem toDouble_pos {x : ℚ} (pos : 0 < x) : 0 < toDouble x := by
  have near := abs_le.mp (toDouble_error x)
  rw [abs_of_pos pos] at near
  linarith [near.1]

theorem roundHalfEven_eq {x : ℚ} {n : ℤ} (near : |x - n| < 1 / 2) : roundHalfEven x = n := by
  have rounded := abs_le.mp (roundHalfEven_near x)
  obtain ⟨low, high⟩ := abs_lt.mp near
  have below : (roundHalfEven x : ℚ) < n + 1 := by linarith [rounded.2]
  have above : (n : ℚ) < roundHalfEven x + 1 := by linarith [rounded.1]
  have below : roundHalfEven x < n + 1 := by exact_mod_cast below
  have above : n < roundHalfEven x + 1 := by exact_mod_cast above
  omega

theorem log_eq {x : ℚ} {e : ℤ} (low : 2 ^ e ≤ x) (high : x < 2 ^ (e + 1)) : Int.log 2 x = e := by
  have pos : 0 < x := (zpow_pos (by norm_num) e).trans_le low
  have atLeast : e ≤ Int.log 2 x :=
    (Int.zpow_le_iff_le_log (b := 2) (by norm_num) pos).mp (by exact_mod_cast low)
  have atMost : Int.log 2 x < e + 1 :=
    (Int.lt_zpow_iff_log_lt (b := 2) (by norm_num) pos).mp (by exact_mod_cast high)
  omega

theorem zpow_log_le {x : ℚ} (pos : 0 < x) : 2 ^ Int.log 2 x ≤ x := by
  exact_mod_cast Int.zpow_log_le_self (b := 2) (by norm_num) pos

theorem lt_zpow_log (x : ℚ) : x < 2 ^ (Int.log 2 x + 1) := by
  exact_mod_cast Int.lt_zpow_succ_log_self (b := 2) (by norm_num) x

/-- The double nearest to a number of known size. -/
theorem toDouble_eq {x : ℚ} {e n : ℤ} (low : 2 ^ e ≤ x) (high : x < 2 ^ (e + 1))
    (near : |x / 2 ^ (e - 52) - n| < 1 / 2) : toDouble x = n * 2 ^ (e - 52) := by
  have pos : 0 < x := (zpow_pos (by norm_num) e).trans_le low
  have log : Int.log 2 x = e := log_eq low high
  have unit : ulp x = 2 ^ (e - 52) := by rw [ulp, abs_of_pos pos, log]
  rw [toDouble, unit, roundHalfEven_eq near]

/-! ### Order and exact numbers -/

theorem roundHalfEven_mono {x y : ℚ} (le : x ≤ y) : roundHalfEven x ≤ roundHalfEven y := by
  have left := abs_le.mp (roundHalfEven_near x)
  have right := abs_le.mp (roundHalfEven_near y)
  by_contra above
  have above : roundHalfEven y + 1 ≤ roundHalfEven x := by omega
  have above' : (roundHalfEven y : ℚ) + 1 ≤ roundHalfEven x := by exact_mod_cast above
  -- Both are off by a half, in opposite directions.
  obtain rfl : x = y := le_antisymm le (by linarith [left.2, right.1])
  omega

theorem roundHalfEven_intCast (n : ℤ) : roundHalfEven n = n :=
  roundHalfEven_eq (by rw [sub_self, abs_zero]; norm_num)

theorem roundHalfEven_two_pow (k : ℕ) : roundHalfEven (2 ^ k) = 2 ^ k := by
  simpa only [Int.cast_pow, Int.cast_ofNat] using roundHalfEven_intCast (2 ^ k)

theorem ulp_mul_zpow {x : ℚ} (ne : x ≠ 0) (k : ℤ) : ulp (x * 2 ^ k) = ulp x * 2 ^ k := by
  have power : (0 : ℚ) < 2 ^ k := zpow_pos (by norm_num) _
  have log : Int.log 2 |x * 2 ^ k| = Int.log 2 |x| + k := by
    rw [abs_mul, abs_of_pos power]
    refine log_eq ?_ ?_
    · rw [zpow_add₀ (by norm_num)]
      exact mul_le_mul_of_nonneg_right (zpow_log_le (abs_pos.mpr ne)) power.le
    · rw [add_right_comm, zpow_add₀ (by norm_num)]
      exact mul_lt_mul_of_pos_right (lt_zpow_log _) power
  rw [ulp, log, ulp, ← zpow_add₀ (by norm_num)]
  congr 1
  ring

/-- Doubles are scaled by powers of two. -/
theorem toDouble_mul_zpow (x : ℚ) (k : ℤ) : toDouble (x * 2 ^ k) = toDouble x * 2 ^ k := by
  by_cases zero : x = 0
  · subst zero
    simp [toDouble, roundHalfEven]
  · have power : (2 : ℚ) ^ k ≠ 0 := zpow_ne_zero _ (by norm_num)
    rw [toDouble, toDouble, ulp_mul_zpow zero, mul_div_mul_right _ _ power, mul_assoc]

/-- A double is at most the power of two above the number, and at least the one below. -/
theorem toDouble_between {x : ℚ} (pos : 0 < x) :
    2 ^ Int.log 2 x ≤ toDouble x ∧ toDouble x ≤ 2 ^ (Int.log 2 x + 1) := by
  have unit := ulp_pos x
  have scale (k : ℤ) : (2 : ℚ) ^ (Int.log 2 x + k) = 2 ^ (52 + k) * ulp x := by
    rw [ulp, abs_of_pos pos, ← zpow_add₀ (by norm_num)]
    congr 1
    ring
  have low := zpow_log_le pos
  have high := (lt_zpow_log x).le
  have bottom := scale 0
  rw [add_zero, add_zero] at bottom
  rw [bottom] at low ⊢
  rw [scale 1] at high ⊢
  rw [toDouble]
  constructor
  · refine mul_le_mul_of_nonneg_right ?_ unit.le
    have rounded := roundHalfEven_mono ((le_div_iff₀ unit).mpr low)
    have power : (2 : ℚ) ^ (52 : ℤ) = 2 ^ 52 := by norm_cast
    rw [power, roundHalfEven_two_pow] at rounded
    exact_mod_cast rounded
  · refine mul_le_mul_of_nonneg_right ?_ unit.le
    have rounded := roundHalfEven_mono ((div_le_iff₀ unit).mpr high)
    have power : (2 : ℚ) ^ (52 + 1 : ℤ) = 2 ^ 53 := by norm_cast
    rw [power, roundHalfEven_two_pow] at rounded
    exact_mod_cast rounded

theorem toDouble_mono {x y : ℚ} (pos : 0 < x) (le : x ≤ y) : toDouble x ≤ toDouble y := by
  have pos' : 0 < y := pos.trans_le le
  rcases (Int.log_mono_right (b := 2) pos le).eq_or_lt with same | less
  · have units : ulp x = ulp y := by rw [ulp, ulp, abs_of_pos pos, abs_of_pos pos', same]
    rw [toDouble, toDouble, units]
    refine mul_le_mul_of_nonneg_right ?_ (ulp_pos y).le
    exact_mod_cast roundHalfEven_mono (div_le_div_of_nonneg_right le (ulp_pos y).le)
  · calc toDouble x ≤ 2 ^ (Int.log 2 x + 1) := (toDouble_between pos).2
      _ ≤ 2 ^ Int.log 2 y := zpow_le_zpow_right₀ (by norm_num) less
      _ ≤ toDouble y := (toDouble_between pos').1

theorem toDouble_natCast {n : ℕ} (small : n ≤ 2 ^ 53) : toDouble n = n := by
  by_cases zero : n = 0
  · subst zero
    simp [toDouble, roundHalfEven]
  have pos : (0 : ℚ) < n := by exact_mod_cast Nat.pos_of_ne_zero zero
  -- A multiple of the unit, or the power of two above.
  by_cases top : n = 2 ^ 53
  · subst top
    have scaled := toDouble_mul_zpow 1 53
    have one : toDouble 1 = 1 := by
      have := toDouble_eq (x := 1) (e := 0) (n := 2 ^ 52) (by norm_num) (by norm_num) (by norm_num)
      rw [this]
      norm_num
    rw [one, one_mul] at scaled
    exact_mod_cast scaled
  · have log : Int.log 2 (n : ℚ) = Nat.log 2 n := Int.log_natCast 2 n
    have width : Nat.log 2 n ≤ 52 := by
      have := Nat.log_lt_of_lt_pow zero (show n < 2 ^ 53 by omega)
      omega
    have unit : (n : ℚ) / ulp n = ((n * 2 ^ (52 - Nat.log 2 n) : ℕ) : ℤ) := by
      rw [ulp, abs_of_pos pos, log, div_eq_mul_inv, ← zpow_neg]
      push_cast
      congr 1
      rw [← zpow_natCast]
      congr 1
      omega
    have ne := (ulp_pos (n : ℚ)).ne'
    rw [toDouble, unit, roundHalfEven_intCast, ← unit, div_mul_cancel₀ _ ne]

theorem roundHalfEven_neg (x : ℚ) : roundHalfEven (-x) = -roundHalfEven x := by
  have low := Int.floor_le x
  have high := Int.lt_floor_add_one x
  by_cases whole : (⌊x⌋ : ℚ) = x
  · rw [← whole, ← Int.cast_neg, roundHalfEven_intCast, roundHalfEven_intCast]
  · have above : (⌊x⌋ : ℚ) < x := lt_of_le_of_ne low whole
    have floor : ⌊-x⌋ = -⌊x⌋ - 1 := by
      rw [Int.floor_eq_iff]
      push_cast
      constructor <;> linarith
    unfold roundHalfEven
    rw [floor]
    push_cast
    split_ifs <;> first | omega | (exfalso; linarith)

theorem toDouble_neg (x : ℚ) : toDouble (-x) = -toDouble x := by
  have unit : ulp (-x) = ulp x := by rw [ulp, ulp, abs_neg]
  rw [toDouble, toDouble, unit, neg_div, roundHalfEven_neg, Int.cast_neg, neg_mul]

/-! ### The shortest decimal -/

/-- A decimal `digits * 10 ^ exponent`. -/
structure Decimal where
  digits : ℕ
  exponent : ℤ
  deriving DecidableEq, Repr

def Decimal.value (d : Decimal) : ℚ := d.digits * 10 ^ d.exponent

/-- The decimals with `width` significant digits next to a positive number, the nearer first. -/
def neighbours (x : ℚ) (width : ℕ) : List Decimal :=
  let exponent := Int.log 10 x + 1 - width
  let scaled := x / 10 ^ exponent
  let floor := ⌊scaled⌋.toNat
  let down : Decimal := ⟨floor, exponent⟩
  let up : Decimal := if floor + 1 = 10 ^ width then ⟨1, exponent + width⟩ else ⟨floor + 1, exponent⟩
  if scaled - floor < 1 / 2 ∨ scaled - floor = 1 / 2 ∧ floor % 2 = 0 then [down, up] else [up, down]

/-- The shortest decimal that reads as the double `x`, and of those the nearest; with 17 digits
there is one. -/
def shortest (x : ℚ) : Decimal :=
  (((List.range 17).flatMap fun n => neighbours x (n + 1)).find? fun d =>
    toDouble d.value = x).getD ⟨⌊x / 10 ^ (Int.log 10 x - 16)⌋.toNat, Int.log 10 x - 16⟩

theorem shortest_near {x : ℚ} (pos : 0 < x) : |(shortest x).value - x| ≤ x / 2 ^ 50 := by
  unfold shortest
  cases found : ((List.range 17).flatMap fun n => neighbours x (n + 1)).find? fun d =>
      toDouble d.value = x with
  | some d =>
      have hit := List.find?_some found
      have reads : toDouble d.value = x := of_decide_eq_true hit
      have error := toDouble_error d.value
      have nonneg : 0 ≤ d.value := by
        exact mul_nonneg (Nat.cast_nonneg _) (zpow_pos (by norm_num) _).le
      rw [reads, abs_of_nonneg nonneg, abs_sub_comm] at error
      rw [Option.getD_some]
      have upper := (abs_le.mp error).2
      refine error.trans ?_
      linarith
  | none =>
      rw [Option.getD_none]
      set unit : ℚ := 10 ^ (Int.log 10 x - 16) with isUnit
      have unitPos : 0 < unit := zpow_pos (by norm_num) _
      have small : unit ≤ x / 10 ^ 16 := by
        have log := Int.zpow_log_le_self (b := 10) (by norm_num) pos
        rw [isUnit, zpow_sub₀ (by norm_num)]
        exact div_le_div_of_nonneg_right (by exact_mod_cast log) (by positivity)
      have nonneg : 0 ≤ ⌊x / unit⌋ := Int.floor_nonneg.mpr (by positivity)
      have floor : ((⌊x / unit⌋.toNat : ℕ) : ℚ) = (⌊x / unit⌋ : ℚ) := by
        exact_mod_cast congrArg (Int.cast (R := ℚ)) (Int.toNat_of_nonneg nonneg)
      have low : (⌊x / unit⌋ : ℚ) * unit ≤ x := (le_div_iff₀ unitPos).mp (Int.floor_le _)
      have high : x < ((⌊x / unit⌋ : ℚ) + 1) * unit :=
        (div_lt_iff₀ unitPos).mp (Int.lt_floor_add_one _)
      rw [Decimal.value, floor, ← isUnit, abs_le]
      constructor <;> linarith

end Talos.Encoding
