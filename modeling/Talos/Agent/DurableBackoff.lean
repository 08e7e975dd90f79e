import Talos.Encoding.Floats

/-!
# Durable backoff

`DurableBackoff` (`packages/prime-agent/src/talos_agent/scheduler/backoff.py`), with the row of its
task in `retry_state`. The term of the exponential is computed before it is capped, and a failure
whose delay can not be computed has counted already but is not stored.

Times are microseconds since 1970 in UTC. The text of a time in the row reads back as the time, and
the statements of the database succeed, except for an integer that SQLite can not hold. The time of
the last update of a row is left out.
-/

namespace Talos.Agent.Retries

open Encoding (Number toDouble roundHalfEven)

/-! ### Numbers in Python -/

/-- An `int`, or a `float`. -/
inductive PyNumber where
  | int (n : ℤ)
  | float (x : Number)
  deriving DecidableEq

namespace PyNumber

/-- `float(x)` -/
def toFloat : PyNumber → Except String Number
  | int n => match Number.ofExact n with
    | .finite x => .ok (.finite x)
    | _ => .error "OverflowError"
  | float x => .ok x

/-- An operator, on floats unless both numbers are integers. -/
def operator (onInt : ℤ → ℤ → ℤ) (onFloat : Number → Number → Number) :
    PyNumber → PyNumber → Except String PyNumber
  | int m, int n => .ok (.int (onInt m n))
  | a, b => do .ok (.float (onFloat (← a.toFloat) (← b.toFloat)))

def add : PyNumber → PyNumber → Except String PyNumber := operator (· + ·) Number.add

def sub : PyNumber → PyNumber → Except String PyNumber :=
  operator (· - ·) fun x y => Number.add x (Number.neg y)

def mul : PyNumber → PyNumber → Except String PyNumber := operator (· * ·) Number.mul

/-- The exact value, by which numbers are compared. -/
def value : PyNumber → Number
  | int n => .finite n
  | float x => x

/-- `a > b` -/
def gt (a b : PyNumber) : Bool := a.value.gt b.value

/-- `min(a, b)` -/
def min (a b : PyNumber) : PyNumber := if a.gt b then b else a

/-- `max(a, b)` -/
def max (a b : PyNumber) : PyNumber := if b.gt a then b else a

def ratio (x : PyNumber) : ℚ := match x.value with
  | .finite x => x
  | _ => 0

end PyNumber

open PyNumber (int float)

/-! ### Configuration -/

/-- `_validate_jitter` -/
def validJitter (jitter : PyNumber) : Bool := match jitter.toFloat with
  | .ok (.finite _) => !(int 0).gt jitter && !jitter.gt (int 1)
  | _ => false

/-- A positive number that a float holds, and an `int` only where floats are that close. -/
def Setting : PyNumber → Prop
  | .int n => 0 < n ∧ n ≤ 2 ^ 53
  | .float (.finite x) => 0 < x ∧ toDouble x = x ∧ x < 2 ^ 1024
  | .float _ => False

instance : DecidablePred Setting
  | .int n => inferInstanceAs (Decidable (0 < n ∧ n ≤ 2 ^ 53))
  | .float (.finite x) => inferInstanceAs (Decidable (0 < x ∧ toDouble x = x ∧ x < 2 ^ 1024))
  | .float (.infinite _) | .float .nan => inferInstanceAs (Decidable False)

structure Config where
  taskName : String
  /-- `jitter_identity or task_name` -/
  jitterIdentity : String
  baseDelay : PyNumber
  initialBackoff : PyNumber := .float (.finite 2)
  maxBackoff : PyNumber := .float (.finite 300)
  /-- The default is the double `0.2`. -/
  jitter : PyNumber := .float (.finite (toDouble (1 / 5)))
  maxAttempts : ℤ := 0
  initial_setting : Setting initialBackoff
  max_setting : Setting maxBackoff
  jitter_valid : validJitter jitter = true

/-- BLAKE2b with a digest of eight bytes, as a number. -/
abbrev Digest := String → Fin (2 ^ 64)

variable (c : Config) (digest : Digest)

/-! ### The delay -/

/-- `0.1` -/
def tenth : PyNumber := .float (.finite (toDouble (1 / 10)))

def material (failCount : ℕ) : String :=
  c.taskName ++ "\x00" ++ c.jitterIdentity ++ "\x00" ++ toString failCount

/-- The digest divided by `(1 << 64) - 1`. -/
def sample (failCount : ℕ) : ℚ := toDouble ((digest (material c failCount)).val / (2 ^ 64 - 1))

/-- `1 - self.jitter + 2 * self.jitter * sample` -/
def factor (failCount : ℕ) : Except String PyNumber := do
  let low ← (int 1).sub c.jitter
  let width ← (int 2).mul c.jitter
  low.add (← width.mul (.float (.finite (sample c digest failCount))))

def nextDelay (failCount : ℕ) : Except String PyNumber :=
  if failCount = 0 then .ok c.baseDelay
  else do
    let delay ← c.initialBackoff.mul (int (2 ^ (failCount - 1)))
    let delay := delay.min c.maxBackoff
    let delay ← if c.jitter.gt (int 0) then delay.mul (← factor c digest failCount) else .ok delay
    .ok (delay.max tenth)

/-! ### The state -/

/-- The last time of a `datetime`, at the end of the year 9999. -/
def lastTime : ℤ := 253402300799999999

/-- `timedelta(seconds=delay)` of a positive float. -/
def microseconds (x : ℚ) : ℤ := ⌊x⌋ * 10 ^ 6 + roundHalfEven (toDouble (10 ^ 6 * Int.fract x))

/-- `now + timedelta(seconds=delay)`. A `timedelta` has no more than 999999999 days, which end after
the year 9999 as well. -/
def addSeconds (now : ℤ) : PyNumber → Except String ℤ
  | .int n => if now + n * 10 ^ 6 ≤ lastTime then .ok (now + n * 10 ^ 6) else .error "OverflowError"
  | .float (.finite x) =>
      if now + microseconds x ≤ lastTime then .ok (now + microseconds x)
      else .error "OverflowError"
  | .float (.infinite _) => .error "OverflowError"
  | .float .nan => .error "ValueError"

structure Backoff where
  failCount : ℕ := 0
  nextAttemptAt : Option ℤ := none
  terminal : Bool := false
  deriving DecidableEq

structure Row where
  attemptCount : ℕ
  nextAttemptAt : ℤ
  terminal : Bool
  deriving DecidableEq

/-- A backoff and the row of its task. -/
structure System where
  backoff : Backoff := {}
  row : Option Row := none
  deriving DecidableEq

/-- `_restore` -/
def restore : Option Row → Backoff
  | none => {}
  | some row =>
      { failCount := row.attemptCount, nextAttemptAt := some row.nextAttemptAt,
        terminal := row.terminal }

/-- `_persist`, where an integer of more than 64 bits is an exception that is caught. -/
def persist (backoff : Backoff) (at' : ℤ) (row : Option Row) : Option Row :=
  if backoff.failCount < 2 ^ 63 then
    some { attemptCount := backoff.failCount, nextAttemptAt := at', terminal := backoff.terminal }
  else row

def success (_ : System) : System := {}

/-- An exception leaves the failure counted, and the row as it is. -/
def failure (now : ℤ) (s : System) : System :=
  let failCount := s.backoff.failCount + 1
  let counted : Backoff :=
    { s.backoff with
      failCount := failCount
      terminal := s.backoff.terminal || (0 < c.maxAttempts && c.maxAttempts ≤ failCount) }
  match (do addSeconds now (← nextDelay c digest failCount)) with
  | .ok at' =>
      let scheduled := { counted with nextAttemptAt := some at' }
      { backoff := scheduled, row := persist scheduled at' s.row }
  | .error _ => { s with backoff := counted }

inductive Event where
  | success
  | failure (now : ℤ)
  /-- A new backoff on the same database. -/
  | restart
  deriving DecidableEq

def step (s : System) : Event → System
  | .success => success s
  | .failure now => failure c digest now s
  | .restart => { s with backoff := restore s.row }

def run (events : List Event) : System := events.foldl (step c digest) {}

/-! ### The delay in closed form -/

/-- `a <= b` -/
def PyNumber.le (a b : PyNumber) : Bool := a.value ≠ .nan && b.value ≠ .nan && !a.gt b

/-- `max_backoff * (1 + jitter)` -/
def upper : Except String PyNumber := do c.maxBackoff.mul (← (int 1).add c.jitter)

/-- The delay is there, and from `0.1` to `max(0.1, max_backoff * (1 + jitter))`. -/
def InBounds (failCount : ℕ) : Prop :=
  ∃ delay high, nextDelay c digest failCount = .ok delay ∧ upper c = .ok high ∧
    tenth.le delay = true ∧ delay.le (tenth.max high) = true

/-- The capped term of the exponential. -/
def term (failCount : ℕ) : ℚ :=
  min (c.initialBackoff.ratio * 2 ^ (failCount - 1)) c.maxBackoff.ratio

/-- What the jitter makes of the term, as floats. -/
def spread (failCount : ℕ) : ℚ :=
  toDouble (toDouble (1 - c.jitter.ratio) +
    toDouble (toDouble (2 * c.jitter.ratio) * sample c digest failCount))

/-- `1 + jitter` as a float. -/
def most : ℚ := toDouble (1 + c.jitter.ratio)

def jittered (failCount : ℕ) : Number :=
  if 0 < c.jitter.ratio then Number.ofExact (term c failCount * spread c digest failCount)
  else .finite (term c failCount)

/-- The delay with its floor. -/
def wait (failCount : ℕ) : Number :=
  ((PyNumber.float (jittered c digest failCount)).max tenth).value

/-- An integer is doubled without end, a float up to the largest power of two that it can be
multiplied with. -/
def Computable (failCount : ℕ) : Prop := match c.initialBackoff with
  | .int _ => True
  | .float _ => failCount ≤ 1024

/-- What a failure has to meet that is counted as the `failCount`-th. -/
structure Meets (failCount : ℕ) (now : ℤ) : Prop where
  computable : Computable c failCount
  /-- The rounded terms of the jitter do not add up to more than `1 + jitter` rounded. -/
  rounding : 0 < c.jitter.ratio → spread c digest failCount ≤ most c
  stored : failCount < 2 ^ 63
  /-- The wait ends before the year 10000. -/
  inTime : ∃ x, wait c digest failCount = .finite x ∧ now + microseconds x ≤ lastTime

variable {c digest} {n : ℕ}

/-! ### Settings -/

theorem setting_spec {x : PyNumber} (setting : Setting x) :
    x.value = .finite x.ratio ∧ x.toFloat = .ok (.finite x.ratio) ∧ 0 < x.ratio ∧
      toDouble x.ratio = x.ratio ∧ x.ratio < 2 ^ 1024 := by
  cases x with
  | int n =>
      obtain ⟨pos, small⟩ := setting
      obtain ⟨n, rfl⟩ := Int.eq_ofNat_of_zero_le pos.le
      have double : toDouble ((n : ℤ) : ℚ) = ((n : ℤ) : ℚ) := by
        rw [Int.cast_natCast]
        exact Encoding.toDouble_natCast (by exact_mod_cast small)
      have pos' : (0 : ℚ) < ((n : ℤ) : ℚ) := by exact_mod_cast pos
      have small' : ((n : ℤ) : ℚ) < 2 ^ 1024 := by
        calc ((n : ℤ) : ℚ) ≤ 2 ^ 53 := by exact_mod_cast small
          _ < 2 ^ 1024 := pow_lt_pow_right₀ (by norm_num) (by norm_num)
      refine ⟨rfl, ?_, pos', double, small'⟩
      rw [PyNumber.toFloat, Number.ofExact_double pos' double small']
      rfl
  | float x =>
      cases x with
      | finite x => exact ⟨rfl, rfl, setting⟩
      | infinite s => exact setting.elim
      | nan => exact setting.elim

theorem setting_shape {x : PyNumber} (setting : Setting x) :
    (∃ n : ℤ, x = .int n ∧ n ≤ 2 ^ 53) ∨ x = .float (.finite x.ratio) := by
  cases x with
  | int n => exact .inl ⟨n, rfl, setting.2⟩
  | float x =>
      cases x with
      | finite x => exact .inr rfl
      | infinite s => exact setting.elim
      | nan => exact setting.elim

theorem jitter_spec {x : PyNumber} (valid : validJitter x = true) :
    x.value = .finite x.ratio ∧ 0 ≤ x.ratio ∧ x.ratio ≤ 1 ∧
      ((∃ m : ℤ, x = .int m ∧ 0 ≤ m ∧ m ≤ 1) ∨ x = .float (.finite x.ratio)) := by
  cases x with
  | int n =>
      rw [validJitter] at valid
      split at valid
      · simp [PyNumber.gt, PyNumber.value, Number.gt] at valid
        have low : (0 : ℚ) ≤ n := by exact_mod_cast valid.1
        have high : (n : ℚ) ≤ 1 := by exact_mod_cast valid.2
        exact ⟨rfl, low, high, .inl ⟨n, rfl, valid.1, by exact_mod_cast valid.2⟩⟩
      · cases valid
  | float x =>
      cases x with
      | finite x =>
          simp [validJitter, PyNumber.toFloat, PyNumber.gt, PyNumber.value, Number.gt] at valid
          exact ⟨rfl, valid.1, valid.2, .inr rfl⟩
      | infinite s => cases valid
      | nan => cases valid

theorem toFloat_small {m : ℤ} (nonneg : 0 ≤ m) (small : m ≤ 16) :
    (int m).toFloat = .ok (.finite (toDouble m)) := by
  rw [PyNumber.toFloat, Number.ofExact_small (by exact_mod_cast nonneg) (by exact_mod_cast small)]

theorem sample_spec (n : ℕ) : 0 ≤ sample c digest n ∧ sample c digest n ≤ 1 := by
  have nonneg : (0 : ℚ) ≤ (digest (material c n)).val / (2 ^ 64 - 1) :=
    div_nonneg (Nat.cast_nonneg _) (by norm_num)
  have small : ((digest (material c n)).val : ℚ) / (2 ^ 64 - 1) ≤ 1 := by
    rw [div_le_one (by norm_num), le_sub_iff_add_le]
    exact_mod_cast (digest (material c n)).isLt
  refine ⟨Encoding.toDouble_nonneg nonneg, ?_⟩
  exact (Encoding.toDouble_le_toDouble nonneg small).trans_eq Encoding.toDouble_one

/-- The sum of the jitter, whose terms are small. -/
theorem terms_spec (n : ℕ) :
    0 ≤ toDouble (1 - c.jitter.ratio) ∧ toDouble (1 - c.jitter.ratio) ≤ 2 ∧
      0 ≤ toDouble (2 * c.jitter.ratio) * sample c digest n ∧
      toDouble (2 * c.jitter.ratio) * sample c digest n ≤ 4 := by
  obtain ⟨-, nonneg, small, -⟩ := jitter_spec c.jitter_valid
  obtain ⟨low, high⟩ := @sample_spec c digest n
  have below := (le_abs_self _).trans (Encoding.abs_toDouble_le (1 - c.jitter.ratio))
  have above := (le_abs_self _).trans (Encoding.abs_toDouble_le (2 * c.jitter.ratio))
  rw [abs_of_nonneg (by linarith)] at below above
  have width := Encoding.toDouble_nonneg (x := 2 * c.jitter.ratio) (by linarith)
  refine ⟨Encoding.toDouble_nonneg (by linarith), by linarith, mul_nonneg width low, ?_⟩
  calc toDouble (2 * c.jitter.ratio) * sample c digest n
      ≤ toDouble (2 * c.jitter.ratio) * 1 := mul_le_mul_of_nonneg_left high width
    _ ≤ 4 := by linarith

theorem toFloat_one : (int 1).toFloat = .ok (.finite 1) := by
  rw [toFloat_small (by norm_num) (by norm_num), Int.cast_one, Encoding.toDouble_one]

theorem toFloat_two : (int 2).toFloat = .ok (.finite 2) := by
  have double := Encoding.toDouble_natCast (n := 2) (by norm_num)
  rw [Nat.cast_ofNat] at double
  rw [toFloat_small (by norm_num) (by norm_num), Int.cast_ofNat, double]

theorem toFloat_of_float {x : PyNumber} {y : Number} (same : x = .float y) : x.toFloat = .ok y := by
  rw [same]
  rfl

/-- An operator on floats, where one number is a float. -/
theorem operator_float (onInt : ℤ → ℤ → ℤ) (onFloat : Number → Number → Number) {a b : PyNumber}
    {x y : Number} (left : a.toFloat = .ok x) (right : b.toFloat = .ok y)
    (either : a = .float x ∨ b = .float y) :
    PyNumber.operator onInt onFloat a b = .ok (.float (onFloat x y)) := by
  rcases either with rfl | rfl
  · simp [PyNumber.operator, left, right]
    rfl
  · cases a with
    | int m =>
        simp [PyNumber.operator, left, right]
        rfl
    | float x' =>
        simp [PyNumber.operator, left, right]
        rfl

theorem factor_eq (n : ℕ) :
    factor c digest n = .ok (.float (.finite (spread c digest n))) := by
  obtain ⟨value, nonneg, small, shape⟩ := jitter_spec c.jitter_valid
  obtain ⟨low, low', high, high'⟩ := @terms_spec c digest n
  have high'' := (le_abs_self _).trans
    (Encoding.abs_toDouble_le (toDouble (2 * c.jitter.ratio) * sample c digest n))
  rw [abs_of_nonneg high] at high''
  have product : Number.mul (.finite (toDouble (2 * c.jitter.ratio)))
      (.finite (sample c digest n)) =
        .finite (toDouble (toDouble (2 * c.jitter.ratio) * sample c digest n)) :=
    Number.ofExact_small high (by linarith)
  have sum : Number.add (.finite (toDouble (1 - c.jitter.ratio)))
      (.finite (toDouble (toDouble (2 * c.jitter.ratio) * sample c digest n))) =
        .finite (spread c digest n) :=
    Number.ofExact_small (add_nonneg low (Encoding.toDouble_nonneg high)) (by linarith)
  have low_term : ∃ a, (int 1).sub c.jitter = .ok a ∧
      a.toFloat = .ok (.finite (toDouble (1 - c.jitter.ratio))) := by
    rcases shape with ⟨m, same, low, high⟩ | same
    · rw [same]
      refine ⟨.int (1 - m), rfl, ?_⟩
      rw [toFloat_small (by omega) (by omega), Int.cast_sub, Int.cast_one]
      rfl
    · have difference : Number.add (.finite 1) (Number.neg (.finite c.jitter.ratio)) =
          .finite (toDouble (1 - c.jitter.ratio)) := by
        rw [sub_eq_add_neg]
        exact Number.ofExact_small (by linarith) (by linarith)
      refine ⟨.float (.finite (toDouble (1 - c.jitter.ratio))), ?_, rfl⟩
      rw [PyNumber.sub, operator_float _ _ toFloat_one (toFloat_of_float same) (.inr same),
        difference]
  have width_term : ∃ b, (int 2).mul c.jitter = .ok b ∧
      b.toFloat = .ok (.finite (toDouble (2 * c.jitter.ratio))) := by
    rcases shape with ⟨m, same, low, high⟩ | same
    · rw [same]
      refine ⟨.int (2 * m), rfl, ?_⟩
      rw [toFloat_small (by omega) (by omega), Int.cast_mul, Int.cast_ofNat]
      rfl
    · have doubled : Number.mul (.finite 2) (.finite c.jitter.ratio) =
          .finite (toDouble (2 * c.jitter.ratio)) :=
        Number.ofExact_small (by linarith) (by linarith)
      refine ⟨.float (.finite (toDouble (2 * c.jitter.ratio))), ?_, rfl⟩
      rw [PyNumber.mul, operator_float _ _ toFloat_two (toFloat_of_float same) (.inr same), doubled]
  obtain ⟨a, first, left⟩ := low_term
  obtain ⟨b, second, right⟩ := width_term
  have scaled : b.mul (.float (.finite (sample c digest n))) =
      .ok (.float (.finite (toDouble (toDouble (2 * c.jitter.ratio) * sample c digest n)))) := by
    rw [PyNumber.mul, operator_float _ _ right rfl (.inr rfl), product]
  rw [factor, first, second]
  change (b.mul (.float (.finite (sample c digest n)))).bind (a.add ·) = _
  rw [scaled]
  change a.add _ = _
  rw [PyNumber.add, operator_float _ _ left rfl (.inr rfl), sum]

/-! ### The delay -/

/-- The capped term is a float, however large the exponential is. -/
theorem capped_eq (computable : Computable c n) : ∃ delay,
    c.initialBackoff.mul (int (2 ^ (n - 1))) = .ok delay ∧
      (delay.min c.maxBackoff).value = .finite (term c n) ∧
      (delay.min c.maxBackoff).toFloat = .ok (.finite (term c n)) := by
  obtain ⟨value, float', pos, double, small⟩ := setting_spec c.initial_setting
  obtain ⟨maxValue, maxFloat, maxPos, maxDouble, maxSmall⟩ := setting_spec c.max_setting
  have scaled := Encoding.toDouble_mul_two_pow double (n - 1)
  have scaledPos : 0 < c.initialBackoff.ratio * 2 ^ (n - 1) := by positivity
  -- The product is exact, as a number that is not above the cap or as one that is.
  have exact' {delay : PyNumber}
      (below : c.initialBackoff.ratio * 2 ^ (n - 1) ≤ c.maxBackoff.ratio →
        delay.value = .finite (c.initialBackoff.ratio * 2 ^ (n - 1)) ∧
          delay.toFloat = .ok (.finite (c.initialBackoff.ratio * 2 ^ (n - 1))))
      (above : c.maxBackoff.ratio < c.initialBackoff.ratio * 2 ^ (n - 1) →
        delay.gt c.maxBackoff = true) :
      (delay.min c.maxBackoff).value = .finite (term c n) ∧
        (delay.min c.maxBackoff).toFloat = .ok (.finite (term c n)) := by
    rcases le_or_gt (c.initialBackoff.ratio * 2 ^ (n - 1)) c.maxBackoff.ratio with le | gt
    · obtain ⟨exactly, asFloat⟩ := below le
      have notAbove : delay.gt c.maxBackoff = false := by
        rw [PyNumber.gt, exactly, maxValue]
        exact decide_eq_false (not_lt.mpr le)
      rw [PyNumber.min, notAbove, if_neg Bool.false_ne_true, term, min_eq_left le]
      exact ⟨exactly, asFloat⟩
    · rw [PyNumber.min, above gt, if_pos rfl, term, min_eq_right gt.le]
      exact ⟨maxValue, maxFloat⟩
  cases shape : c.initialBackoff with
  | int a =>
      have ratio : c.initialBackoff.ratio = a := by rw [shape]; rfl
      have same : ((a * 2 ^ (n - 1) : ℤ) : ℚ) = c.initialBackoff.ratio * 2 ^ (n - 1) := by
        rw [ratio]
        push_cast
        rfl
      refine ⟨int (a * 2 ^ (n - 1)), rfl, exact' (fun le => ⟨?_, ?_⟩) fun gt => ?_⟩
      · rw [PyNumber.value, same]
      · rw [PyNumber.toFloat, same, Number.ofExact_double scaledPos scaled (le.trans_lt maxSmall)]
      · rw [PyNumber.gt, maxValue, PyNumber.value, same]
        exact decide_eq_true gt
  | float x =>
      rw [Computable, shape] at computable
      have power : (int (2 ^ (n - 1))).toFloat = .ok (.finite (2 ^ (n - 1))) := by
        have double := Encoding.toDouble_mul_two_pow Encoding.toDouble_one (n - 1)
        rw [one_mul] at double
        rw [PyNumber.toFloat, Int.cast_pow, Int.cast_ofNat, Number.ofExact_double (by positivity) double
          (pow_lt_pow_right₀ (by norm_num) (by omega))]
      refine ⟨.float (Number.ofExact (c.initialBackoff.ratio * 2 ^ (n - 1))), ?_,
        exact' (fun le => ?_) fun gt => ?_⟩
      · rw [← shape, PyNumber.mul, operator_float _ _ float' power (.inl ?_)]
        · rfl
        · rw [shape] at value ⊢
          exact congrArg PyNumber.float value
      · rw [Number.ofExact_double scaledPos scaled (le.trans_lt maxSmall)]
        exact ⟨rfl, rfl⟩
      · rw [PyNumber.gt, maxValue, PyNumber.value, Number.ofExact, scaled, abs_of_pos scaledPos]
        split_ifs
        · exact decide_eq_true gt
        · rw [decide_eq_false (not_lt.mpr scaledPos.le)]
          rfl

/-- The delay is the jittered term, or the floor. -/
theorem nextDelay_eq (pos : 0 < n) (computable : Computable c n) :
    ∃ delay, nextDelay c digest n = .ok delay ∧ delay.value = wait c digest n := by
  obtain ⟨delay, product, value, asFloat⟩ := capped_eq computable
  obtain ⟨jitterValue, -⟩ := jitter_spec c.jitter_valid
  have jitterGt : c.jitter.gt (int 0) = decide (0 < c.jitter.ratio) := by
    rw [PyNumber.gt, jitterValue, ← Int.cast_zero]
    rfl
  have floored {d : PyNumber} (same : d.value = (PyNumber.float (jittered c digest n)).value) :
      (d.max tenth).value = wait c digest n := by
    rw [wait, PyNumber.max, PyNumber.max, PyNumber.gt, PyNumber.gt, same]
    split_ifs
    · rfl
    · exact same
  rw [nextDelay, if_neg (Nat.ne_of_gt pos), product, jitterGt]
  by_cases jitter : 0 < c.jitter.ratio
  · have spreadOut : (delay.min c.maxBackoff).mul (.float (.finite (spread c digest n))) =
        .ok (.float (Number.ofExact (term c n * spread c digest n))) := by
      rw [PyNumber.mul, operator_float _ _ asFloat rfl (.inr rfl)]
      rfl
    refine ⟨(PyNumber.float (Number.ofExact (term c n * spread c digest n))).max tenth, ?_, ?_⟩
    · rw [factor_eq, decide_eq_true jitter]
      change ((delay.min c.maxBackoff).mul (.float (.finite (spread c digest n)))).bind
        (fun d => .ok (d.max tenth)) = _
      rw [spreadOut]
      rfl
    · refine floored ?_
      rw [jittered, if_pos jitter]
  · refine ⟨(delay.min c.maxBackoff).max tenth, ?_, floored ?_⟩
    · rw [decide_eq_false jitter]
      rfl
    · rw [value, jittered, if_neg jitter]
      rfl

theorem upper_eq : ∃ high, upper c = .ok high ∧
    high.value = Number.ofExact (c.maxBackoff.ratio * most c) := by
  obtain ⟨value, nonneg, small, shape⟩ := jitter_spec c.jitter_valid
  obtain ⟨maxValue, maxFloat, maxPos, maxDouble, maxSmall⟩ := setting_spec c.max_setting
  -- With a float on one side the product is one of floats.
  have rounded {b : PyNumber} (sum : (int 1).add c.jitter = .ok b)
      (asFloat : b.toFloat = .ok (.finite (most c)))
      (either : c.maxBackoff = .float (.finite c.maxBackoff.ratio) ∨
        b = .float (.finite (most c))) :
      ∃ high, upper c = .ok high ∧ high.value = Number.ofExact (c.maxBackoff.ratio * most c) := by
    refine ⟨.float (Number.ofExact (c.maxBackoff.ratio * most c)), ?_, rfl⟩
    rw [upper, sum]
    change c.maxBackoff.mul b = _
    rw [PyNumber.mul, operator_float _ _ maxFloat asFloat either]
    rfl
  rcases shape with ⟨m, same, low, high⟩ | same
  · have sum : (int 1).add c.jitter = .ok (int (1 + m)) := by
      rw [same]
      rfl
    have ratio : c.jitter.ratio = m := by
      rw [same]
      rfl
    have asFloat : (int (1 + m)).toFloat = .ok (.finite (most c)) := by
      rw [toFloat_small (by omega) (by omega), Int.cast_add, Int.cast_one, most, ratio]
    rcases setting_shape c.max_setting with ⟨top, max, small⟩ | max
    · have power : ∃ k : ℕ, k ≤ 1 ∧ 1 + m = 2 ^ k := by
        obtain rfl | rfl : m = 0 ∨ m = 1 := by omega
        · exact ⟨0, by norm_num, by norm_num⟩
        · exact ⟨1, by norm_num, by norm_num⟩
      obtain ⟨k, le, isPower⟩ := power
      have isPower' : (1 + m : ℚ) = 2 ^ k := by exact_mod_cast isPower
      have mostIs : most c = 2 ^ k := by
        have double := Encoding.toDouble_mul_two_pow Encoding.toDouble_one k
        rw [most, ratio, isPower', ← one_mul (2 ^ k), double]
      have double := Encoding.toDouble_mul_two_pow maxDouble k
      have topRatio : c.maxBackoff.ratio = top := by
        rw [max]
        rfl
      refine ⟨int (top * (1 + m)), ?_, ?_⟩
      · rw [upper, sum, max]
        rfl
      · have bounded : c.maxBackoff.ratio * 2 ^ k < 2 ^ 1024 := by
          have small' : (top : ℚ) ≤ 2 ^ 53 := by exact_mod_cast small
          calc c.maxBackoff.ratio * 2 ^ k ≤ 2 ^ 53 * 2 ^ 1 := by
                rw [topRatio]
                exact mul_le_mul small' (pow_le_pow_right₀ (by norm_num) le) (by positivity)
                  (by positivity)
            _ < 2 ^ 1024 := by
                rw [← pow_add]
                exact pow_lt_pow_right₀ (by norm_num) (by norm_num)
        rw [mostIs, Number.ofExact_double (by positivity) double bounded, PyNumber.value, Int.cast_mul,
          topRatio, ← isPower', Int.cast_add, Int.cast_one]
    · exact rounded sum asFloat (.inl max)
  · have sum : Number.add (.finite 1) (.finite c.jitter.ratio) = .finite (most c) :=
      Number.ofExact_small (by linarith) (by linarith)
    refine rounded ?_ rfl (.inr rfl)
    rw [PyNumber.add, operator_float _ _ toFloat_one (toFloat_of_float same) (.inr same), sum]

theorem tenth_ne_nan : tenth.value ≠ .nan := by
  simp [tenth, PyNumber.value]

theorem rank_max {a b : PyNumber} (left : a.value ≠ .nan) (right : b.value ≠ .nan) :
    Number.rank (a.max b).value = Max.max (Number.rank a.value) (Number.rank b.value) ∧ (a.max b).value ≠ .nan := by
  rw [PyNumber.max, PyNumber.gt]
  split_ifs with gt
  · rw [Number.gt_iff right left] at gt
    exact ⟨(max_eq_right gt.le).symm, right⟩
  · rw [Number.gt_iff right left, not_lt] at gt
    exact ⟨(max_eq_left gt).symm, left⟩

theorem le_iff {a b : PyNumber} (left : a.value ≠ .nan) (right : b.value ≠ .nan) :
    a.le b = true ↔ Number.rank a.value ≤ Number.rank b.value := by
  have compare := Number.gt_iff left right
  rw [PyNumber.le, PyNumber.gt, decide_eq_true left, decide_eq_true right, Bool.true_and,
    Bool.true_and, Bool.not_eq_true', ← not_lt, ← compare, Bool.not_eq_true]

/-- The jittered term does not rise above the bound by rounding, if its factor does not. -/
theorem jittered_le (rounding : 0 < c.jitter.ratio → spread c digest n ≤ most c) :
    jittered c digest n ≠ .nan ∧
      (jittered c digest n).gt (Number.ofExact (c.maxBackoff.ratio * most c)) = false := by
  obtain ⟨-, -, pos, -⟩ := setting_spec c.initial_setting
  obtain ⟨-, -, maxPos, maxDouble, maxSmall⟩ := setting_spec c.max_setting
  obtain ⟨-, nonneg, -⟩ := jitter_spec c.jitter_valid
  have termPos : 0 < term c n := lt_min (by positivity) maxPos
  have termLe : term c n ≤ c.maxBackoff.ratio := min_le_right _ _
  rw [jittered]
  split_ifs with jitter
  · obtain ⟨low, -, high, -⟩ := @terms_spec c digest n
    have spreadNonneg : 0 ≤ spread c digest n :=
      Encoding.toDouble_nonneg (add_nonneg low (Encoding.toDouble_nonneg high))
    exact ⟨Number.ofExact_ne_nan _, Number.ofExact_mono (mul_nonneg termPos.le spreadNonneg)
      (mul_le_mul termLe (rounding jitter) spreadNonneg maxPos.le)⟩
  · have none : c.jitter.ratio = 0 := le_antisymm (not_lt.mp jitter) nonneg
    rw [most, none, add_zero, Encoding.toDouble_one, mul_one, Number.ofExact_double maxPos maxDouble maxSmall]
    exact ⟨nofun, decide_eq_false (not_lt.mpr termLe)⟩

theorem inBounds_of (pos : 0 < n) (computable : Computable c n)
    (rounding : 0 < c.jitter.ratio → spread c digest n ≤ most c) : InBounds c digest n := by
  obtain ⟨delay, returned, value⟩ := @nextDelay_eq c digest _ pos computable
  obtain ⟨high, isUpper, highValue⟩ := upper_eq (c := c)
  obtain ⟨number, notAbove⟩ := jittered_le rounding
  have highNumber : high.value ≠ .nan := by
    rw [highValue]
    exact Number.ofExact_ne_nan _
  have waits : Number.rank delay.value = Max.max (Number.rank tenth.value) (Number.rank (jittered c digest n)) ∧
      delay.value ≠ .nan := by
    rw [value, max_comm]
    exact @rank_max (.float (jittered c digest n)) tenth number tenth_ne_nan
  obtain ⟨highRank, highNumber⟩ := @rank_max tenth high tenth_ne_nan highNumber
  have below : Number.rank (jittered c digest n) ≤ Number.rank high.value := by
    rw [← not_lt, ← Number.gt_iff number (highValue ▸ Number.ofExact_ne_nan _), highValue, notAbove]
    exact Bool.false_ne_true
  refine ⟨delay, high, returned, isUpper, ?_, ?_⟩
  · rw [le_iff tenth_ne_nan waits.2, waits.1]
    exact le_max_left _ _
  · rw [le_iff waits.2 highNumber, waits.1, highRank]
    exact max_le_max le_rfl below

/-! ### Runs -/

variable {now : ℤ} {s : System} {events : List Event}

theorem microseconds_intCast (n : ℤ) : microseconds n = n * 10 ^ 6 := by
  have zero := Encoding.roundHalfEven_intCast 0
  rw [Int.cast_zero] at zero
  rw [microseconds, Int.floor_intCast, Int.fract_intCast, mul_zero, Encoding.toDouble_zero, zero, add_zero]

theorem addSeconds_eq {delay : PyNumber} {x : ℚ} (value : delay.value = .finite x)
    (inTime : now + microseconds x ≤ lastTime) :
    addSeconds now delay = .ok (now + microseconds x) := by
  cases delay with
  | int n =>
      obtain rfl : (n : ℚ) = x := Number.finite.inj value
      rw [microseconds_intCast] at inTime ⊢
      exact if_pos inTime
  | float y =>
      obtain rfl : y = .finite x := value
      exact if_pos inTime

/-- A failure that meets the conditions is counted, and its row reads back as the backoff. -/
theorem failure_of_meets (meets : Meets c digest (s.backoff.failCount + 1) now) :
    restore (failure c digest now s).row = (failure c digest now s).backoff ∧
      (failure c digest now s).backoff.failCount = s.backoff.failCount + 1 := by
  obtain ⟨delay, returned, value⟩ := @nextDelay_eq c digest _ (Nat.succ_pos _)
    meets.computable
  obtain ⟨x, finite, inTime⟩ := meets.inTime
  have added : (do addSeconds now (← nextDelay c digest (s.backoff.failCount + 1))) =
      .ok (now + microseconds x) := by
    rw [returned]
    exact addSeconds_eq (value.trans finite) inTime
  rw [failure, added]
  dsimp only
  rw [persist, if_pos meets.stored]
  exact ⟨rfl, rfl⟩

variable (c digest) in
/-- A new backoff would have the same state, and the delay is within its bounds. -/
structure Steady (s : System) : Prop where
  restored : restore s.row = s.backoff
  inBounds : 0 < s.backoff.failCount → InBounds c digest s.backoff.failCount

theorem steady_step (steady : Steady c digest s) {e : Event}
    (meets : ∀ now, e = .failure now → Meets c digest (s.backoff.failCount + 1) now) :
    Steady c digest (step c digest s e) := by
  cases e with
  | success => exact ⟨rfl, fun pos => absurd pos (lt_irrefl 0)⟩
  | failure now =>
      have meets := meets now rfl
      obtain ⟨restored, count⟩ := failure_of_meets meets
      refine ⟨restored, fun pos => ?_⟩
      rw [step, count]
      exact inBounds_of (Nat.succ_pos _) meets.computable meets.rounding
  | restart =>
      rw [step, steady.restored]
      exact steady

variable (c digest) in
/-- Every failure meets the conditions, by the failures that were counted before. -/
def Sound (events : List Event) : Prop := ∀ before now after,
  events = before ++ .failure now :: after →
    Meets c digest ((run c digest before).backoff.failCount + 1) now

theorem run_append (events : List Event) (e : Event) :
    run c digest (events ++ [e]) = step c digest (run c digest events) e := by
  rw [run, List.foldl_append]
  rfl

theorem sound_of_append {later : List Event} (sound : Sound c digest (events ++ later)) :
    Sound c digest events := by
  rintro before now after rfl
  exact sound before now (after ++ later) (by simp)

theorem meets_of_sound {e : Event} (sound : Sound c digest (events ++ [e])) (now : ℤ)
    (same : e = .failure now) : Meets c digest ((run c digest events).backoff.failCount + 1) now :=
  sound events now [] (by rw [same])

theorem steady_run (sound : Sound c digest events) : Steady c digest (run c digest events) := by
  induction events using List.reverseRecOn with
  | nil => exact ⟨rfl, fun pos => absurd pos (lt_irrefl 0)⟩
  | append_singleton events e ih =>
      rw [run_append]
      exact steady_step (ih (sound_of_append sound)) (meets_of_sound sound)

theorem run_filter (sound : Sound c digest events) :
    run c digest events = run c digest (events.filter (· ≠ .restart)) := by
  induction events using List.reverseRecOn with
  | nil => rfl
  | append_singleton events e ih =>
      have earlier := sound_of_append sound
      rw [run_append, List.filter_append]
      by_cases restart : e = .restart
      · subst restart
        rw [step, (steady_run earlier).restored, ih earlier]
        simp
      · rw [List.filter_singleton, decide_eq_true restart, cond_true, run_append, ih earlier]

/-- Where every failure meets the conditions, the restarts of a run change nothing, and the delay
after a failure is within its bounds. -/
theorem survives_restarts (c : Config) (digest : Digest) (events : List Event)
    (sound : Sound c digest events) :
    (run c digest events).backoff =
        (run c digest (events.filter (· ≠ .restart))).backoff ∧
      (0 < (run c digest events).backoff.failCount →
        InBounds c digest (run c digest events).backoff.failCount) :=
  ⟨congrArg System.backoff (run_filter sound), (steady_run sound).inBounds⟩

def polling : Config where
  taskName := "polling"
  jitterIdentity := "polling"
  baseDelay := int 10
  initial_setting := by decide +kernel
  max_setting := by decide +kernel
  jitter_valid := by decide +kernel

/-- No digest is above the middle. -/
def halfDigest : Digest := fun _ => ⟨2 ^ 63, by decide⟩

example : run polling halfDigest [.failure 0, .failure 5000000, .restart] =
    { backoff := { failCount := 2, nextAttemptAt := some 9000000 }
      row := some { attemptCount := 2, nextAttemptAt := 9000000, terminal := false } } := by
  decide +kernel

theorem survives_two : (run polling halfDigest [.failure 0, .restart, .failure 5000000]).backoff =
    (run polling halfDigest [.failure 0, .failure 5000000]).backoff := by
  refine (survives_restarts polling halfDigest [.failure 0, .restart, .failure 5000000] ?_).1
  have checked : spread polling halfDigest 1 ≤ most polling ∧
      spread polling halfDigest 2 ≤ most polling ∧
      (wait polling halfDigest 1 = .finite 2 ∧ 0 + microseconds 2 ≤ lastTime) ∧
      wait polling halfDigest 2 = .finite 4 ∧ 5000000 + microseconds 4 ≤ lastTime ∧
      (run polling halfDigest [.failure 0, .restart]).backoff.failCount = 1 := by
    decide +kernel
  obtain ⟨first, second, soon, later, inTime, count⟩ := checked
  have firstMeets : Meets polling halfDigest 1 0 :=
    { computable := show 1 ≤ 1024 by norm_num, rounding := fun _ => first, stored := by norm_num
      inTime := ⟨2, soon⟩ }
  have secondMeets : Meets polling halfDigest 2 5000000 :=
    { computable := show 2 ≤ 1024 by norm_num, rounding := fun _ => second, stored := by norm_num
      inTime := ⟨4, later, inTime⟩ }
  intro before now after same
  rcases before with _ | ⟨a, _ | ⟨b, _ | ⟨d, before⟩⟩⟩
  · obtain ⟨rfl, -⟩ := List.cons.inj same |>.imp_left Event.failure.inj
    exact firstMeets
  · simp at same
  · simp at same
    obtain ⟨rfl, rfl, rfl, -⟩ := same
    rw [count]
    exact secondMeets
  · simp at same

theorem failCount_replicate (c : Config) (digest : Digest) (k : ℕ) :
    (run c digest (List.replicate k (.failure 0))).backoff.failCount = k := by
  induction k with
  | zero => rfl
  | succ k ih =>
      rw [List.replicate_succ', run_append, step, failure]
      dsimp only
      split <;> exact congrArg (· + 1) ih

theorem delay_overflows : ¬ ∀ (c : Config) (digest : Digest) (events : List Event),
    (run c digest events).backoff = (run c digest (events.filter (· ≠ .restart))).backoff ∧
      (0 < (run c digest events).backoff.failCount →
        InBounds c digest (run c digest events).backoff.failCount) := by
  intro all
  have bounded := (all polling halfDigest (List.replicate 1025 (.failure 0))).2
  rw [failCount_replicate] at bounded
  obtain ⟨delay, -, returned, -⟩ := bounded (by norm_num)
  have overflow : nextDelay polling halfDigest 1025 = .error "OverflowError" := by decide +kernel
  rw [overflow] at returned
  cases returned

end Talos.Agent.Retries
