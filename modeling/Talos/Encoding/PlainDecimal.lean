import Talos.Encoding.Text
import Mathlib.Data.List.TakeWhile
import Mathlib.Data.Rat.Floor
import Mathlib.Tactic.FieldSimp
import Mathlib.Tactic.Linarith
import Mathlib.Tactic.Positivity

/-!
# Plain decimals

Texts of up to twelve digits before the point, without a zero in front, and any number after it,
and what `toFixed(6)` writes. Of the latter there is one for each multiple of a millionth.
-/

namespace Talos.Encoding

/-- `0|[1-9][0-9]{0,11}`, of a text of digits. -/
def IsWhole (digits : Utf16) : Prop :=
  digits = [48] ∨ digits ≠ [] ∧ digits.head? ≠ some 48 ∧ digits.length ≤ 12

instance : DecidablePred IsWhole := fun digits =>
  inferInstanceAs (Decidable (digits = [48] ∨ _ ∧ _ ∧ _))

/-- The digits before and after the point of `(?:0|[1-9][0-9]{0,11})(?:\.[0-9]+)?`. -/
def readPlain (text : Utf16) : Option (Utf16 × Utf16) :=
  let whole := text.takeWhile isDigit
  match text.dropWhile isDigit with
  | [] => if IsWhole whole then some (whole, []) else none
  | u :: fraction =>
      if IsWhole whole ∧ u = 46 ∧ fraction ≠ [] ∧ ∀ v ∈ fraction, isDigit v = true then
        some (whole, fraction)
      else none

def plainValue (text : Utf16) : ℚ :=
  match readPlain text with
  | some (whole, fraction) => digitsValue (whole ++ fraction) / 10 ^ fraction.length
  | none => 0

/-- The text of `n` millionths. -/
def fixed6 (n : ℕ) : Utf16 := decimal (n / 10 ^ 6) ++ 46 :: (decimal (n % 10 ^ 6)).leftpad 6 48

/-- `x.toFixed(6)` for `x` from 0 to `10 ^ 21`: of two multiples of a millionth that are equally
near, the larger. -/
def toFixed6 (x : ℚ) : Utf16 := fixed6 ⌊x * 10 ^ 6 + 1 / 2⌋.toNat

variable {text digits whole fraction : Utf16} {n m : ℕ}

/-! ### Digits -/

theorem digitsValue_append (front back : Utf16) :
    digitsValue (front ++ back) = digitsValue front * 10 ^ back.length + digitsValue back := by
  induction back using List.reverseRecOn with
  | nil => simp [digitsValue]
  | append_singleton back u ih =>
    rw [← List.append_assoc, digitsValue_concat, digitsValue_concat, ih, List.length_append,
      List.length_singleton, pow_succ]
    ring

theorem digitsValue_zeros (k : ℕ) : digitsValue (List.replicate k 48) = 0 := by
  induction k with
  | zero => rfl
  | succ k ih => rw [List.replicate_succ', digitsValue_concat, ih]; rfl

theorem digitsValue_eq_zero (all : ∀ u ∈ digits, isDigit u = true) (zero : digitsValue digits = 0) :
    digits = List.replicate digits.length 48 := by
  induction digits using List.reverseRecOn with
  | nil => rfl
  | append_singleton digits u ih =>
    have digit := isDigit_iff.mp (all u (List.mem_append_right _ List.mem_cons_self))
    rw [digitsValue_concat] at zero
    have last : u = 48 := UInt16.toNat_inj.mp (by simp only [UInt16.reduceToNat]; omega)
    rw [List.length_append, List.length_singleton, List.replicate_succ',
      ← ih (fun v mem => all v (List.mem_append_left _ mem)) (by omega), last]

theorem decimal_zero : decimal 0 = [48] := rfl

theorem decimal_length_le {k : ℕ} (lt : n < 10 ^ (k + 1)) : (decimal n).length ≤ k + 1 :=
  decimalDigits_length lt

theorem head_decimalDigits {fuel : ℕ} (pos : 0 < n) (le : n ≤ fuel) :
    (decimalDigits fuel n).head? ≠ some 48 := by
  induction fuel generalizing n with
  | zero => omega
  | succ fuel ih =>
    rw [decimalDigits]
    split
    · next small =>
      rw [List.head?_cons, ne_eq, Option.some.injEq, ← UInt16.toNat_inj, digit_toNat]
      simp only [UInt16.reduceToNat]
      omega
    · next large =>
      have front := ih (n := n / 10) (by omega) (by omega)
      have value : digitsValue (decimalDigits fuel (n / 10)) = n / 10 :=
        decimalDigits_value (by omega)
      cases digits : decimalDigits fuel (n / 10) with
      | nil =>
        rw [digits] at value
        have : digitsValue [] = 0 := rfl
        omega
      | cons u rest =>
        rw [digits] at front
        exact front

theorem isWhole_decimal : IsWhole (decimal n) ↔ n < 10 ^ 12 := by
  have length_le : n < 10 ^ 12 ↔ (decimal n).length ≤ 12 := by
    refine ⟨fun lt => decimal_length_le lt, fun le => ?_⟩
    have lt := digitsValue_lt (decimal_isDigit n)
    rw [digitsValue_decimal] at lt
    exact lt.trans_le (Nat.pow_le_pow_right (by decide) le)
  rcases Nat.eq_zero_or_pos n with rfl | pos
  · exact iff_of_true (.inl rfl) (by decide)
  · have front : (decimal n).head? ≠ some 48 := head_decimalDigits pos le_rfl
    have other : decimal n ≠ [48] := fun same => front (by rw [same]; rfl)
    rw [IsWhole, or_iff_right other, and_iff_right (decimal_ne_nil n), and_iff_right front,
      length_le]

/-! ### Texts of six decimals -/

theorem fraction_fixed6 (r : ℕ) (lt : r < 10 ^ 6) :
    ((decimal r).leftpad 6 48).length = 6 ∧ (∀ u ∈ (decimal r).leftpad 6 48, isDigit u = true) ∧
      digitsValue ((decimal r).leftpad 6 48) = r := by
  have le := decimal_length_le (k := 5) lt
  refine ⟨?_, ?_, ?_⟩
  · rw [List.length_leftpad]
    omega
  · intro u mem
    rcases List.mem_append.mp mem with zero | digit
    · rw [(List.mem_replicate.mp zero).2]
      rfl
    · exact decimal_isDigit r u digit
  · rw [List.leftpad, digitsValue_append, digitsValue_zeros, digitsValue_decimal, zero_mul,
      zero_add]

theorem span_fixed6 (n : ℕ) : (fixed6 n).takeWhile isDigit = decimal (n / 10 ^ 6) ∧
    (fixed6 n).dropWhile isDigit = 46 :: (decimal (n % 10 ^ 6)).leftpad 6 48 := by
  have stop : isDigit 46 = false := rfl
  have all := decimal_isDigit (n / 10 ^ 6)
  rw [fixed6, List.takeWhile_append_of_pos all, List.dropWhile_append_of_pos all]
  simp [stop]

theorem readPlain_fixed6 (n : ℕ) : readPlain (fixed6 n) = if n < 10 ^ 18 then
    some (decimal (n / 10 ^ 6), (decimal (n % 10 ^ 6)).leftpad 6 48) else none := by
  obtain ⟨whole, rest⟩ := span_fixed6 n
  obtain ⟨length, digits, -⟩ := fraction_fixed6 (n % 10 ^ 6) (Nat.mod_lt _ (by decide))
  have nonempty : (decimal (n % 10 ^ 6)).leftpad 6 48 ≠ [] := by
    intro empty
    rw [empty] at length
    cases length
  have small : IsWhole (decimal (n / 10 ^ 6)) ↔ n < 10 ^ 18 := by
    rw [isWhole_decimal]
    omega
  simp only [readPlain, whole, rest]
  refine if_congr ?_ rfl rfl
  rw [small]
  exact and_iff_left ⟨trivial, nonempty, digits⟩

theorem plainValue_fixed6 (lt : n < 10 ^ 18) : plainValue (fixed6 n) = n / 10 ^ 6 := by
  obtain ⟨length, -, value⟩ := fraction_fixed6 (n % 10 ^ 6) (Nat.mod_lt _ (by decide))
  have sum : n / 10 ^ 6 * 10 ^ 6 + n % 10 ^ 6 = n := Nat.div_add_mod' n (10 ^ 6)
  rw [plainValue, readPlain_fixed6, if_pos lt]
  dsimp only
  rw [digitsValue_append, length, value, digitsValue_decimal, sum]

theorem toNat_floor {x : ℚ} (nonneg : 0 ≤ x) : (⌊x⌋.toNat : ℤ) = ⌊x⌋ :=
  Int.toNat_of_nonneg (Int.floor_nonneg.mpr nonneg)

/-! ### Reading -/

/-- What the text is made of. -/
theorem readPlain_spec (read : readPlain text = some (whole, fraction)) :
    IsWhole whole ∧ (∀ u ∈ whole, isDigit u = true) ∧ (∀ u ∈ fraction, isDigit u = true) ∧
      text = whole ++ if fraction = [] then [] else 46 :: fraction := by
  have digits : ∀ u ∈ text.takeWhile isDigit, isDigit u = true := fun u mem =>
    List.mem_takeWhile_imp mem
  have parts := List.takeWhile_append_dropWhile (p := isDigit) (l := text)
  unfold readPlain at read
  dsimp only at read
  split at read
  · next none =>
    split at read
    · next small =>
      cases read
      refine ⟨small, digits, nofun, ?_⟩
      rw [if_pos rfl, ← none, parts]
    · cases read
  · next u rest found =>
    split at read
    · next fits =>
      obtain ⟨small, rfl, nonempty, all⟩ := fits
      cases read
      refine ⟨small, digits, all, ?_⟩
      rw [if_neg nonempty, ← found, parts]
    · cases read

/-- There are no spaces. -/
theorem trimSpace_plain (read : readPlain text = some (whole, fraction)) :
    trimSpace text = text := by
  obtain ⟨-, left, right, rfl⟩ := readPlain_spec read
  have visible : ∀ u, isDigit u = true → isStrWhiteSpace u = false := by
    intro u digit
    have := isDigit_iff.mp digit
    exact not_isStrWhiteSpace (by omega) (by omega)
  refine trimSpace_eq_self fun u mem => ?_
  rcases List.mem_append.mp mem with front | back
  · exact visible u (left u front)
  · split at back
    · cases back
    · rcases List.mem_cons.mp back with rfl | back
      · rfl
      · exact visible u (right u back)

theorem digitsValue_whole_lt (small : IsWhole whole) (all : ∀ u ∈ whole, isDigit u = true) :
    digitsValue whole < 10 ^ 12 := by
  rcases small with rfl | ⟨-, -, le⟩
  · decide
  · exact (digitsValue_lt all).trans_le (Nat.pow_le_pow_right (by decide) le)

end Talos.Encoding
