import Talos.Encoding.Double
import Talos.Encoding.PlainDecimal

/-!
# Canonical amounts

`isValidCanonicalDecimal` of `packages/sdk/src/a2a-validation.ts` and `toCanonicalDecimalAmount` of
`seller-quote.ts`, which pads shorter decimals to six digits by way of a double. So it keeps an
amount exactly if the double next to it rounds back (`toCanonicalDecimalAmount_exact_iff`).
-/

namespace Talos.Sdk

open Encoding

/-- `"0.000000"` -/
def zeroAmount : Utf16 := [48, 46, 48, 48, 48, 48, 48, 48]

/-- `^(?:0|[1-9][0-9]{0,11})\.[0-9]{6}$`, but for `0.000000`. -/
def isValidCanonicalDecimal (amount : Utf16) : Bool :=
  (readPlain amount).any (fun parts => parts.2.length = 6) &&
    amount ≠ zeroAmount

/-- A number is `none` if it is NaN or infinite. -/
inductive Amount where
  | number (amount : Option ℚ)
  | string (amount : Utf16)

/-- `num.toFixed(6)` of a positive double, if that is canonical. From `10 ^ 21` on, where
`toFixed` gives up on digits, it is not. -/
def fixedAmount (num : ℚ) : Option Utf16 :=
  if num ≤ 0 then none
  else
    let fixed := toFixed6 num
    if isValidCanonicalDecimal fixed then some fixed else none

def toCanonicalDecimalAmount : Amount → Option Utf16
  | .number amount => amount.bind fixedAmount
  | .string amount =>
      let text := trimSpace amount
      if text = [] then none
      else if isValidCanonicalDecimal text then some text
      -- Shorter fractional forms and integers.
      else if (readPlain text).any (fun parts => parts.2.length ≤ 6) then
        fixedAmount (toDouble (plainValue text))
      else none

variable {text s r : Utf16} {n : ℕ} {v : ℚ}

theorem isValidCanonicalDecimal_iff : isValidCanonicalDecimal text = true ↔
    (∃ whole fraction, readPlain text = some (whole, fraction) ∧ fraction.length = 6) ∧
      text ≠ zeroAmount := by
  simp [isValidCanonicalDecimal, Option.any_eq_true]

theorem fixed6_zero : fixed6 0 = zeroAmount := by decide

theorem isValidCanonicalDecimal_fixed6 :
    isValidCanonicalDecimal (fixed6 n) = true ↔ 0 < n ∧ n < 10 ^ 18 := by
  have read := readPlain_fixed6 n
  rw [isValidCanonicalDecimal_iff, ← fixed6_zero]
  by_cases lt : n < 10 ^ 18
  · rw [if_pos lt] at read
    obtain ⟨length, -⟩ := fraction_fixed6 (n % 10 ^ 6) (Nat.mod_lt _ (by decide))
    rw [and_iff_left lt, and_iff_right ⟨_, _, read, length⟩, Nat.pos_iff_ne_zero, not_iff_not]
    refine ⟨fun same => ?_, fun same => congrArg fixed6 same⟩
    have values := congrArg plainValue same
    rw [plainValue_fixed6 lt, plainValue_fixed6 (by decide)] at values
    exact_mod_cast (div_left_inj' (by norm_num)).mp values
  · rw [if_neg lt] at read
    refine iff_of_false (fun valid => ?_) fun both => lt both.2
    obtain ⟨⟨_, _, some, -⟩, -⟩ := valid
    cases read.symm.trans some

/-- A canonical decimal is positive. -/
theorem plainValue_pos (valid : isValidCanonicalDecimal text = true) : 0 < plainValue text := by
  obtain ⟨⟨whole, fraction, read, length⟩, other⟩ := isValidCanonicalDecimal_iff.mp valid
  obtain ⟨small, left, right, written⟩ := readPlain_spec read
  have digits : ∀ u ∈ whole ++ fraction, isDigit u = true := fun u mem =>
    (List.mem_append.mp mem).elim (left u) (right u)
  have pos : 0 < digitsValue (whole ++ fraction) := by
    refine Nat.pos_of_ne_zero fun zero => other ?_
    have zeros := digitsValue_eq_zero digits zero
    have front : whole = [48] := by
      refine small.elim id fun ⟨nonempty, notZero, _⟩ => absurd ?_ notZero
      cases whole with
      | nil => exact absurd rfl nonempty
      | cons u rest =>
        rw [List.cons_append, List.length_cons, List.replicate_succ] at zeros
        rw [List.head?_cons, (List.cons.inj zeros).1]
    subst front
    have back : fraction = List.replicate 6 48 := by
      rw [← length]
      exact (List.cons.inj zeros).2
    subst back
    exact written
  rw [plainValue, read]
  dsimp only
  positivity

/-- It is returned as it is. -/
theorem toCanonicalDecimalAmount_of_valid (valid : isValidCanonicalDecimal text = true) :
    toCanonicalDecimalAmount (.string text) = some text := by
  obtain ⟨⟨whole, fraction, read, -⟩, -⟩ := isValidCanonicalDecimal_iff.mp valid
  have nonempty : text ≠ [] := by
    rintro rfl
    cases read
  simp only [toCanonicalDecimalAmount, trimSpace_plain read, if_neg nonempty, if_pos valid]

/-! ### Shorter decimals -/

theorem fixedAmount_eq (pos : 0 < v) : fixedAmount v =
    if 0 < ⌊v * 10 ^ 6 + 1 / 2⌋.toNat ∧ ⌊v * 10 ^ 6 + 1 / 2⌋.toNat < 10 ^ 18 then
      some (toFixed6 v) else none := by
  rw [fixedAmount, if_neg (not_le.mpr pos)]
  exact if_congr isValidCanonicalDecimal_fixed6 rfl rfl

/-- A text of at most six digits after the point stands for so many millionths. -/
theorem exists_millionths {whole fraction : Utf16} (read : readPlain text = some (whole, fraction))
    (le : fraction.length ≤ 6) : ∃ N : ℕ, N < 10 ^ 18 ∧ plainValue text = N / 10 ^ 6 := by
  obtain ⟨small, left, right, -⟩ := readPlain_spec read
  have front := digitsValue_whole_lt small left
  have back := digitsValue_lt right
  refine ⟨digitsValue (whole ++ fraction) * 10 ^ (6 - fraction.length), ?_, ?_⟩
  · have scale : 10 ^ fraction.length * 10 ^ (6 - fraction.length) = 10 ^ 6 := by
      rw [← pow_add, Nat.add_sub_cancel' le]
    rw [digitsValue_append]
    calc (digitsValue whole * 10 ^ fraction.length + digitsValue fraction) *
          10 ^ (6 - fraction.length)
        < (digitsValue whole + 1) * 10 ^ fraction.length * 10 ^ (6 - fraction.length) := by
          refine Nat.mul_lt_mul_of_pos_right ?_ (by positivity)
          rw [Nat.add_mul, Nat.one_mul]
          exact Nat.add_lt_add_left back _
      _ = (digitsValue whole + 1) * 10 ^ 6 := by rw [Nat.mul_assoc, scale]
      _ ≤ 10 ^ 18 := by omega
  · rw [plainValue, read]
    dsimp only
    rw [div_eq_div_iff (by positivity) (by positivity)]
    push_cast
    rw [mul_assoc, ← pow_add, Nat.sub_add_cancel le]

/-- The multiple of a millionth next to the double next to `v` is `v`; of two that are equally
near, the larger counts. -/
def RoundsBack (v : ℚ) : Prop :=
  -(1 / 2) ≤ (toDouble v - v) * 10 ^ 6 ∧ (toDouble v - v) * 10 ^ 6 < 1 / 2

theorem roundsBack_iff {N : ℕ} :
    RoundsBack (N / 10 ^ 6) ↔ ⌊toDouble (N / 10 ^ 6) * 10 ^ 6 + 1 / 2⌋ = N := by
  rw [Int.floor_eq_iff, RoundsBack, sub_mul, div_mul_cancel₀ _ (by norm_num), Int.cast_natCast]
  constructor
  · rintro ⟨low, high⟩
    constructor <;> linarith
  · rintro ⟨low, high⟩
    constructor <;> linarith

/-- Below `2 ^ 33` doubles are close enough. -/
theorem roundsBack_of_lt (pos : 0 < v) (lt : v < 2 ^ 33) : RoundsBack v := by
  have log : Int.log 2 v < 33 :=
    (Int.lt_zpow_iff_log_lt (b := 2) (by norm_num) pos).mp (by exact_mod_cast lt)
  have unit : ulp v ≤ 2 ^ (-20 : ℤ) := by
    rw [ulp, abs_of_pos pos]
    exact zpow_le_zpow_right₀ (by norm_num) (by omega)
  have near := abs_le.mp ((toDouble_near v).trans (div_le_div_of_nonneg_right unit (by norm_num)))
  norm_num at near
  constructor <;> linarith [near.1, near.2]

/-- A result is canonical and positive, stands for the same number and is its own result, and
every positive decimal with at most twelve and six digits has one. -/
structure KeepsValue (s : Utf16) : Prop where
  sound : ∀ r, toCanonicalDecimalAmount (.string s) = some r →
    isValidCanonicalDecimal r = true ∧ plainValue r = plainValue (trimSpace s) ∧
      0 < plainValue r ∧ toCanonicalDecimalAmount (.string r) = some r
  complete : ∀ whole fraction, readPlain (trimSpace s) = some (whole, fraction) →
    fraction.length ≤ 6 → 0 < plainValue (trimSpace s) →
      (toCanonicalDecimalAmount (.string s)).isSome = true

theorem keepsValue_of_valid (valid : isValidCanonicalDecimal (trimSpace s) = true)
    (same : toCanonicalDecimalAmount (.string s) = some (trimSpace s)) : KeepsValue s where
  sound r result := by
    cases same.symm.trans result
    exact ⟨valid, rfl, plainValue_pos valid, toCanonicalDecimalAmount_of_valid valid⟩
  complete _ _ _ _ _ := by
    rw [same]
    rfl

/-- A positive decimal that is not canonical yet is kept if it rounds back. -/
theorem keepsValue_iff_of_shorter {whole fraction : Utf16}
    (read : readPlain (trimSpace s) = some (whole, fraction)) (le : fraction.length ≤ 6)
    (pos : 0 < plainValue (trimSpace s))
    (result : toCanonicalDecimalAmount (.string s) =
      fixedAmount (toDouble (plainValue (trimSpace s)))) :
    KeepsValue s ↔ RoundsBack (plainValue (trimSpace s)) := by
  obtain ⟨N, small, value⟩ := exists_millionths read le
  have positive : 0 < N := by
    rw [value] at pos
    exact_mod_cast (div_pos_iff_of_pos_right (by norm_num)).mp pos
  have amount := fixedAmount_eq (toDouble_pos pos)
  have floor := toNat_floor (x := toDouble (plainValue (trimSpace s)) * 10 ^ 6 + 1 / 2)
    (by have := toDouble_pos pos; positivity)
  generalize hn : ⌊toDouble (plainValue (trimSpace s)) * 10 ^ 6 + 1 / 2⌋.toNat = n at amount floor
  have rounds : RoundsBack (plainValue (trimSpace s)) ↔ n = N := by
    rw [value] at floor ⊢
    rw [roundsBack_iff, ← floor]
    exact Nat.cast_inj
  rw [rounds]
  constructor
  · intro keeps
    have accepted := keeps.complete whole fraction read le pos
    rw [result, amount] at accepted
    split at accepted
    · next bounds =>
      obtain ⟨-, same, -⟩ := keeps.sound _ (by rw [result, amount, if_pos bounds])
      rw [toFixed6, hn, plainValue_fixed6 bounds.2, value] at same
      exact_mod_cast (div_left_inj' (by norm_num)).mp same
    · cases accepted
  · rintro rfl
    have bounds : 0 < n ∧ n < 10 ^ 18 := ⟨positive, small⟩
    rw [if_pos bounds, toFixed6, hn] at amount
    have valid := isValidCanonicalDecimal_fixed6.mpr bounds
    refine ⟨fun r accepted => ?_, fun _ _ _ _ _ => by rw [result, amount]; rfl⟩
    rw [result, amount] at accepted
    cases accepted
    exact ⟨valid, (plainValue_fixed6 small).trans value.symm, plainValue_pos valid,
      toCanonicalDecimalAmount_of_valid valid⟩

/-- There is nothing to keep of other texts. -/
theorem keepsValue_of_none (result : toCanonicalDecimalAmount (.string s) = none)
    (nothing : ∀ whole fraction, readPlain (trimSpace s) = some (whole, fraction) →
      fraction.length ≤ 6 → ¬ 0 < plainValue (trimSpace s)) : KeepsValue s where
  sound r accepted := by cases result.symm.trans accepted
  complete whole fraction read le pos := absurd pos (nothing whole fraction read le)

theorem string_eq (s : Utf16) : toCanonicalDecimalAmount (.string s) =
    if trimSpace s = [] then none
    else if isValidCanonicalDecimal (trimSpace s) then some (trimSpace s)
    else if (readPlain (trimSpace s)).any (fun parts => parts.2.length ≤ 6) then
      fixedAmount (toDouble (plainValue (trimSpace s)))
    else none := rfl

/-- The value of an amount is kept if and only if a decimal with fewer than six digits after the
point rounds back. -/
theorem toCanonicalDecimalAmount_exact_iff (s : Utf16) : KeepsValue s ↔
    ∀ whole fraction, readPlain (trimSpace s) = some (whole, fraction) → fraction.length < 6 →
      RoundsBack (plainValue (trimSpace s)) := by
  have result := string_eq s
  split at result
  · next empty =>
    have unread : readPlain (trimSpace s) = none := by rw [empty]; rfl
    rw [unread]
    exact iff_of_true (keepsValue_of_none result (by rw [unread]; nofun)) nofun
  · split at result
    · next valid =>
      refine iff_of_true (keepsValue_of_valid valid result) fun whole fraction read lt => ?_
      obtain ⟨⟨_, _, found, length⟩, -⟩ := isValidCanonicalDecimal_iff.mp valid
      cases read.symm.trans found
      omega
    · next invalid =>
      split at result
      · next short =>
        obtain ⟨⟨whole, fraction⟩, read, le⟩ := (Option.any_eq_true _ _).mp short
        have le : fraction.length ≤ 6 := of_decide_eq_true le
        by_cases pos : 0 < plainValue (trimSpace s)
        · have lt : fraction.length < 6 := by
            refine lt_of_le_of_ne le fun length => invalid ?_
            refine isValidCanonicalDecimal_iff.mpr ⟨⟨_, _, read, length⟩, fun zero => ?_⟩
            rw [zero, ← fixed6_zero, plainValue_fixed6 (by decide)] at pos
            norm_num at pos
          refine (keepsValue_iff_of_shorter read le pos result).trans ⟨fun back _ _ _ _ => back,
            fun back => back whole fraction read lt⟩
        · obtain ⟨N, -, value⟩ := exists_millionths read le
          have zero : plainValue (trimSpace s) = 0 := by
            refine le_antisymm (not_lt.mp pos) ?_
            rw [value]
            positivity
          have double : toDouble 0 = 0 := by simpa using toDouble_error 0
          rw [zero, double, fixedAmount, if_pos le_rfl] at result
          refine iff_of_true (keepsValue_of_none result fun _ _ _ _ => pos) fun _ _ _ _ => ?_
          rw [zero, RoundsBack, double]
          norm_num
      · next long =>
        have longer : ∀ whole fraction, readPlain (trimSpace s) = some (whole, fraction) →
            ¬ fraction.length ≤ 6 := fun whole fraction read le =>
          long ((Option.any_eq_true _ _).mpr ⟨_, read, decide_eq_true le⟩)
        exact iff_of_true
          (keepsValue_of_none result fun _ _ read le => absurd le (longer _ _ read))
          fun _ _ read lt => absurd lt.le (longer _ _ read)

/-- `99999999999.99999` becomes `99999999999.999985`. -/
theorem toCanonicalDecimalAmount_drifts :
    let s : Utf16 := [57, 57, 57, 57, 57, 57, 57, 57, 57, 57, 57, 46, 57, 57, 57, 57, 57]
    toCanonicalDecimalAmount (.string s) =
      some [57, 57, 57, 57, 57, 57, 57, 57, 57, 57, 57, 46, 57, 57, 57, 57, 56, 53] ∧
    ¬ KeepsValue s := by
  intro s
  have trimmed : trimSpace s = s := by decide
  have read : readPlain s =
      some ([57, 57, 57, 57, 57, 57, 57, 57, 57, 57, 57], [57, 57, 57, 57, 57]) := by decide +kernel
  have value : plainValue s = 9999999999999999 / 10 ^ 5 := by
    have digits : digitsValue (List.replicate 11 57 ++ List.replicate 5 57) = 9999999999999999 := by
      decide
    rw [plainValue, read]
    exact congrArg (fun n : ℕ => (n / 10 ^ 5 : ℚ)) digits
  have double : toDouble (plainValue s) = 6553599999999999 * 2 ^ (36 - 52 : ℤ) := by
    rw [value]
    exact toDouble_eq (e := 36) (n := 6553599999999999) (by norm_num) (by norm_num)
      (by norm_num [abs_lt])
  have result : toCanonicalDecimalAmount (.string s) = fixedAmount (toDouble (plainValue s)) := by
    rw [string_eq, trimmed, if_neg (by decide +kernel), if_neg (by decide),
      if_pos (by decide +kernel)]
  have pos : 0 < plainValue s := by
    rw [value]
    norm_num
  constructor
  · have floor : ⌊toDouble (plainValue s) * 10 ^ 6 + 1 / 2⌋ = 99999999999999985 := by
      rw [double, Int.floor_eq_iff]
      norm_num
    rw [result, fixedAmount_eq (toDouble_pos pos), toFixed6, floor, if_pos (by decide)]
    decide
  · rw [keepsValue_iff_of_shorter (by rw [trimmed, read]) (by decide) (by rwa [trimmed])
      (by rw [trimmed, result]), trimmed, RoundsBack, double, value]
    norm_num

end Talos.Sdk
