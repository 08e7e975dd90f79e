import Talos.Encoding.Double
import Talos.Encoding.SelfDelimiting
import Mathlib.Data.List.TakeWhile

/-!
# Decimal texts

Texts such as `1.05`: what they stand for, and the ones that Python's `str` and JavaScript's
`toFixed` write for a double that is not negative.
-/

namespace Talos.Encoding

/-- The part before the first point. -/
def whole (text : String) : List Char := text.toList.takeWhile (· ≠ '.')

/-- The part after it. -/
def fraction (text : String) : List Char := (text.toList.dropWhile (· ≠ '.')).tail

/-- What a text of digits with a point stands for. -/
def decimalValue (text : String) : ℚ :=
  Nat.ofDigitChars 10 (whole text ++ fraction text) 0 / 10 ^ (fraction text).length

/-- The text of `n / 10 ^ places`. -/
def fixed (n places : ℕ) : String :=
  String.ofList (Nat.toDigits 10 (n / 10 ^ places) ++ '.' :: padded places (n % 10 ^ places))

/-- `x.toFixed(2)` below `10 ^ 21`. -/
def toFixed2 (x : ℚ) : String := fixed ⌊x * 100 + 1 / 2⌋.toNat 2

/-- The digits with a point after the first, and the exponent. -/
def scientific (digits : List Char) (exponent : ℤ) : List Char :=
  digits.take 1 ++ (if digits.length ≤ 1 then [] else '.' :: digits.drop 1) ++
    'e' :: (if exponent < 0 then '-' else '+') :: padded (max 2 (Nat.toDigits 10 exponent.natAbs).length)
      exponent.natAbs

/-- `str` of a float that is not negative. -/
def strFloat (x : ℚ) : String :=
  let d := shortest x
  if d.value = 0 ∨ 1 / 10 ^ 4 ≤ d.value ∧ d.value < 10 ^ 16 then
    let places := max 1 (-d.exponent).toNat
    fixed (d.digits * 10 ^ (d.exponent + places).toNat) places
  else
    let digits := Nat.toDigits 10 d.digits
    String.ofList (scientific digits (d.exponent + digits.length - 1))

/-! ### Digits -/

theorem ofDigitChars_lt {digits : List Char} (all : digits.all Char.isDigit = true) :
    Nat.ofDigitChars 10 digits 0 < 10 ^ digits.length := by
  induction digits using List.reverseRecOn with
  | nil => simp
  | append_singleton digits c ih =>
      rw [List.all_append, Bool.and_eq_true] at all
      have less := ih all.1
      have digit : c.toNat - '0'.toNat < 10 := by
        have isDigit : c.isDigit = true := by simpa using all.2
        simp only [Char.isDigit, Bool.and_eq_true, decide_eq_true_eq, UInt32.le_iff_toNat_le,
          ge_iff_le] at isDigit
        have high : c.val.toNat ≤ 57 := isDigit.2
        change c.val.toNat - 48 < 10
        omega
      rw [Nat.ofDigitChars_append, Nat.ofDigitChars_cons, Nat.ofDigitChars_nil, List.length_append,
        List.length_singleton, pow_succ]
      omega

/-! ### Texts -/

theorem split_point {left right : List Char} (plain : '.' ∉ left) :
    whole (String.ofList (left ++ '.' :: right)) = left ∧
      fraction (String.ofList (left ++ '.' :: right)) = right := by
  have before : ∀ c ∈ left, decide (c ≠ '.') = true := by
    rintro c mem
    refine decide_eq_true ?_
    rintro rfl
    exact plain mem
  unfold whole fraction
  rw [String.toList_ofList, List.takeWhile_append_of_pos before, List.dropWhile_append_of_pos before]
  constructor
  · simp
  · simp

theorem point_notMem_toDigits (n : ℕ) : '.' ∉ Nat.toDigits 10 n := fun mem =>
  absurd (Nat.isDigit_of_mem_toDigits (by decide) (by decide) mem) (by decide)

theorem decimalValue_digits (n : ℕ) : decimalValue (String.ofList (Nat.toDigits 10 n)) = n := by
  have plain : ∀ c ∈ Nat.toDigits 10 n, decide (c ≠ '.') = true := by
    rintro c mem
    refine decide_eq_true ?_
    rintro rfl
    exact point_notMem_toDigits n mem
  unfold decimalValue whole fraction
  rw [String.toList_ofList, List.takeWhile_eq_self_iff.mpr plain, List.dropWhile_eq_nil_iff.mpr plain]
  simp

theorem fixed_parts (n places : ℕ) :
    whole (fixed n places) = Nat.toDigits 10 (n / 10 ^ places) ∧
      fraction (fixed n places) = padded places (n % 10 ^ places) :=
  split_point (point_notMem_toDigits _)

theorem fraction_fixed_length {places : ℕ} (pos : 0 < places) (n : ℕ) :
    (fraction (fixed n places)).length = places := by
  rw [(fixed_parts n places).2]
  exact padded_length pos (Nat.mod_lt _ (by positivity))

theorem decimalValue_fixed {places : ℕ} (pos : 0 < places) (n : ℕ) :
    decimalValue (fixed n places) = n / 10 ^ places := by
  have length := padded_length pos (Nat.mod_lt n (by positivity : 0 < 10 ^ places))
  have digits : Nat.ofDigitChars 10 (whole (fixed n places) ++ fraction (fixed n places)) 0 = n := by
    rw [(fixed_parts n places).1, (fixed_parts n places).2, Nat.ofDigitChars_append,
      Nat.ofDigitChars_eq_ofDigitChars_zero, length, Nat.ofDigitChars_ten_toDigits, value_padded]
    exact Nat.div_add_mod n (10 ^ places)
  rw [decimalValue, digits, fraction_fixed_length pos]

/-- The two decimals of `toFixed` are the nearest. -/
theorem toFixed2_near {x : ℚ} (nonneg : 0 ≤ x) : |decimalValue (toFixed2 x) - x| ≤ 1 / 200 := by
  have rounded : 0 ≤ ⌊x * 100 + 1 / 2⌋ := Int.floor_nonneg.mpr (by positivity)
  have cast : ((⌊x * 100 + 1 / 2⌋.toNat : ℕ) : ℚ) = (⌊x * 100 + 1 / 2⌋ : ℚ) := by
    exact_mod_cast congrArg (Int.cast (R := ℚ)) (Int.toNat_of_nonneg rounded)
  have low := Int.floor_le (x * 100 + 1 / 2)
  have high := Int.lt_floor_add_one (x * 100 + 1 / 2)
  rw [toFixed2, decimalValue_fixed (by decide), cast, abs_le]
  constructor <;> linarith

/-- A float that is written without an exponent is written as its shortest decimal. -/
theorem strFloat_cases (x : ℚ) :
    (∃ places n : ℕ, 0 < places ∧ strFloat x = fixed n places ∧ n / 10 ^ places = (shortest x).value) ∨
      'e' ∈ (strFloat x).toList := by
  unfold strFloat
  dsimp only
  split
  · left
    refine ⟨max 1 (-(shortest x).exponent).toNat, _, by omega, rfl, ?_⟩
    rw [Decimal.value]
    set d := shortest x
    set places := max 1 (-d.exponent).toNat with isPlaces
    have nonneg : 0 ≤ d.exponent + places := by omega
    have shift : ((d.exponent + places).toNat : ℤ) = d.exponent + places :=
      Int.toNat_of_nonneg nonneg
    rw [div_eq_iff (by positivity)]
    push_cast
    rw [mul_assoc, ← zpow_natCast, ← zpow_natCast, shift, ← zpow_add₀ (by norm_num)]
  · right
    rw [String.toList_ofList, scientific]
    simp

end Talos.Encoding

/-!
## Numbers in JavaScript

A number is finite, infinite or `NaN`; the two zeros are one here. Its text has digits, signs, a
point and an exponent, or is a word (`toText_chars`).
-/

namespace Talos.Encoding

inductive Number where
  | finite (x : ℚ)
  | infinite (negative : Bool)
  | nan
  deriving DecidableEq, Repr

namespace Number

/-- `a > b` -/
def gt : Number → Number → Bool
  | finite x, finite y => y < x
  | infinite false, finite _ | infinite false, infinite true => true
  | finite _, infinite true => true
  | _, _ => false

/-- An integer from `low` to `high`. -/
def inRange (low high : ℤ) : Number → Bool
  | finite x => x.den = 1 ∧ low ≤ x.num ∧ x.num ≤ high
  | infinite _ | nan => false

/-- `Number::toString` of a positive number: `digits` have the point after the `n`-th. -/
def positiveText (digits : List Char) (n : ℤ) : List Char :=
  if digits.length ≤ n ∧ n ≤ 21 then digits ++ List.replicate (n - digits.length).toNat '0'
  else if 0 < n ∧ n ≤ 21 then digits.take n.toNat ++ '.' :: digits.drop n.toNat
  else if -6 < n ∧ n ≤ 0 then '0' :: '.' :: (List.replicate (-n).toNat '0' ++ digits)
  else digits.take 1 ++ (if digits.length ≤ 1 then [] else '.' :: digits.drop 1) ++
    'e' :: (if n - 1 < 0 then '-' else '+') :: Nat.toDigits 10 (n - 1).natAbs

def absText (x : ℚ) : List Char :=
  if x = 0 then ['0']
  else
    let d := shortest |x|
    let digits := Nat.toDigits 10 d.digits
    positiveText digits (d.exponent + digits.length)

/-- `String(n)` -/
def toText : Number → String
  | finite x => String.ofList (if x < 0 then '-' :: absText x else absText x)
  | infinite false => "Infinity"
  | infinite true => "-Infinity"
  | nan => "NaN"

/-- A character of a finite number. -/
def isNumberChar (c : Char) : Bool := c.isDigit || c ∈ ['.', 'e', '+', '-']

theorem isNumberChar_toDigits (n : ℕ) : ∀ c ∈ Nat.toDigits 10 n, isNumberChar c = true :=
  fun _ mem =>
    Bool.or_eq_true_iff.mpr (.inl (Nat.isDigit_of_mem_toDigits (by decide) (by decide) mem))

theorem positiveText_chars {digits : List Char} (all : ∀ c ∈ digits, isNumberChar c = true)
    (n : ℤ) : ∀ c ∈ positiveText digits n, isNumberChar c = true := by
  have zeros (k : ℕ) : ∀ c ∈ List.replicate k '0', isNumberChar c = true := fun c mem =>
    List.eq_of_mem_replicate mem ▸ rfl
  have front (k : ℕ) : ∀ c ∈ digits.take k, isNumberChar c = true := fun c mem =>
    all c (List.mem_of_mem_take mem)
  have back (k : ℕ) : ∀ c ∈ '.' :: digits.drop k, isNumberChar c = true :=
    List.forall_mem_cons.mpr ⟨rfl, fun c mem => all c (List.mem_of_mem_drop mem)⟩
  unfold positiveText
  split
  · exact List.forall_mem_append.mpr ⟨all, zeros _⟩
  · split
    · exact List.forall_mem_append.mpr ⟨front _, back _⟩
    · split
      · exact List.forall_mem_cons.mpr ⟨rfl, List.forall_mem_cons.mpr
          ⟨rfl, List.forall_mem_append.mpr ⟨zeros _, all⟩⟩⟩
      · refine List.forall_mem_append.mpr ⟨List.forall_mem_append.mpr ⟨front 1, ?_⟩,
          List.forall_mem_cons.mpr ⟨rfl, List.forall_mem_cons.mpr ⟨?_, isNumberChar_toDigits _⟩⟩⟩
        · split
          · exact fun _ mem => nomatch mem
          · exact back 1
        · split <;> rfl

theorem absText_chars (x : ℚ) : ∀ c ∈ absText x, isNumberChar c = true := by
  unfold absText
  split
  · exact List.forall_mem_singleton.mpr rfl
  · exact positiveText_chars (isNumberChar_toDigits _) _

theorem toText_chars (n : Number) :
    (∀ c ∈ n.toText.toList, isNumberChar c = true) ∨
      n.toText ∈ ["Infinity", "-Infinity", "NaN"] := by
  cases n with
  | finite x =>
    refine .inl ?_
    rw [toText, String.toList_ofList]
    split
    · exact List.forall_mem_cons.mpr ⟨rfl, absText_chars x⟩
    · exact absText_chars x
  | infinite negative => cases negative <;> exact .inr (by simp [toText])
  | nan => exact .inr (by simp [toText])

example : toText (finite (-1 / 8)) = "-0.125" ∧ toText (finite (10 ^ 21)) = "1e+21" := by
  decide +kernel

end Number

end Talos.Encoding
