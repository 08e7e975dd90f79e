import Talos.Soroban.Outcome

/-!
# Name validation and canonicalization

`talos_name_service/src/validation.rs` over the bytes of a Soroban string. A
valid name has nothing to trim or to lowercase, so it is its own canonical form.
-/

namespace Talos.NameService

open Talos.Soroban

variable {E : Type}

abbrev Bytes := List UInt8

def hyphen : UInt8 := 45

def isAsciiLowercase (b : UInt8) : Bool := decide (97 ≤ b) && decide (b ≤ 122)

def isAsciiDigit (b : UInt8) : Bool := decide (48 ≤ b) && decide (b ≤ 57)

/-- Space, tab, newline and carriage return. -/
def isTrimmed (b : UInt8) : Bool := b == 32 || b == 9 || b == 10 || b == 13

def toAsciiLowercase (b : UInt8) : UInt8 := if 65 ≤ b ∧ b ≤ 90 then b + 32 else b

/-- The character loop of `validate_name`; the flag says whether the previous
character was a hyphen. -/
def validChars (prevHyphen : Bool) : Bytes → Bool
  | [] => true
  | b :: rest =>
    if isAsciiLowercase b || isAsciiDigit b then validChars false rest
    else if b = hyphen then
      if prevHyphen then false else validChars true rest
    else false

def validateName (name : Bytes) : Bool :=
  if name.length < 3 ∨ name.length > 32 then false
  else if name.head? = some hyphen ∨ name.getLast? = some hyphen then false
  else validChars false name

/-- Trim both ends: the two boundary loops of `canonicalize_name`. -/
def trim (name : Bytes) : Bytes := ((name.dropWhile isTrimmed).reverse.dropWhile isTrimmed).reverse

def canonicalizeName (name : Bytes) : Outcome E Bytes := do
  rejectIf (name.length > 64) (.panic "Name exceeds maximum input length for canonicalization")
  let trimmed := trim name
  rejectIf (trimmed = []) (.panic "Name cannot be empty after canonicalization")
  rejectIf (trimmed.length > 32) (.panic "Name exceeds maximum byte length after canonicalization")
  .ok (trimmed.map toAsciiLowercase)

/-! ### Valid names are canonical -/

/-- The characters a valid name is made of. -/
def isNameChar (b : UInt8) : Bool := isAsciiLowercase b || isAsciiDigit b || b == hyphen

theorem isNameChar_of_validChars {name : Bytes} {prev : Bool}
    (valid : validChars prev name = true) : ∀ b ∈ name, isNameChar b = true := by
  induction name generalizing prev with
  | nil => exact fun b mem => nomatch mem
  | cons c rest ih =>
    unfold validChars at valid
    intro b mem
    split at valid
    · next alnum =>
      rcases List.mem_cons.mp mem with rfl | mem
      · simp only [isNameChar, alnum, Bool.true_or]
      · exact ih valid b mem
    · split at valid
      · next isHyphen =>
        split at valid
        · cases valid
        · rcases List.mem_cons.mp mem with rfl | mem
          · simp [isNameChar, isHyphen]
          · exact ih valid b mem
      · cases valid

/-- A name character is neither trimmed nor lowercased. -/
theorem nameChar_canonical (b : UInt8) (h : isNameChar b = true) :
    isTrimmed b = false ∧ toAsciiLowercase b = b := by
  simp only [isNameChar, isAsciiLowercase, isAsciiDigit, hyphen, Bool.or_eq_true, Bool.and_eq_true,
    decide_eq_true_eq, beq_iff_eq, UInt8.le_iff_toNat_le, ← UInt8.toNat_inj,
    UInt8.reduceToNat] at h
  constructor
  · simp only [isTrimmed, Bool.or_eq_false_iff, beq_eq_false_iff_ne, ne_eq, ← UInt8.toNat_inj,
      UInt8.reduceToNat]
    omega
  · rw [toAsciiLowercase, if_neg]
    simp only [UInt8.le_iff_toNat_le, UInt8.reduceToNat]
    omega

theorem dropWhile_isTrimmed_eq_self {name : Bytes} (h : ∀ b ∈ name, isNameChar b = true) :
    name.dropWhile isTrimmed = name := by
  cases name with
  | nil => rfl
  | cons b rest =>
    have kept := (nameChar_canonical b (h b (List.mem_cons_self ..))).1
    rw [List.dropWhile_cons_of_neg (by simp [kept])]

theorem trim_eq_self {name : Bytes} (h : ∀ b ∈ name, isNameChar b = true) : trim name = name := by
  have reversed : ∀ b ∈ name.reverse, isNameChar b = true := fun b mem =>
    h b (List.mem_reverse.mp mem)
  rw [trim, dropWhile_isTrimmed_eq_self h, dropWhile_isTrimmed_eq_self reversed,
    List.reverse_reverse]

theorem map_toAsciiLowercase_eq_self {name : Bytes} (h : ∀ b ∈ name, isNameChar b = true) :
    name.map toAsciiLowercase = name := by
  calc name.map toAsciiLowercase = name.map id :=
        List.map_congr_left fun b mem => (nameChar_canonical b (h b mem)).2
    _ = name := List.map_id name

theorem validateName_iff {name : Bytes} : validateName name = true ↔
    3 ≤ name.length ∧ name.length ≤ 32 ∧ name.head? ≠ some hyphen ∧
      name.getLast? ≠ some hyphen ∧ validChars false name = true := by
  unfold validateName
  by_cases length : name.length < 3 ∨ name.length > 32
  · rw [if_pos length]
    simp only [Bool.false_eq_true, false_iff]
    rintro ⟨long, short, _⟩
    omega
  rw [if_neg length]
  by_cases ends : name.head? = some hyphen ∨ name.getLast? = some hyphen
  · rw [if_pos ends]
    simp only [Bool.false_eq_true, false_iff]
    rintro ⟨_, _, head, last, _⟩
    exact ends.elim head last
  rw [if_neg ends]
  obtain ⟨head, last⟩ := not_or.mp ends
  exact ⟨fun chars => ⟨by omega, by omega, head, last, chars⟩, fun valid => valid.2.2.2.2⟩

theorem canonicalizeName_of_valid {name : Bytes} (valid : validateName name = true) :
    (canonicalizeName name : Outcome E Bytes) = .ok name := by
  obtain ⟨long, short, _, _, chars⟩ := validateName_iff.mp valid
  have nameChars := isNameChar_of_validChars chars
  have nonempty : ¬ name = [] := by
    rintro rfl
    simp at long
  unfold canonicalizeName
  dsimp only
  rw [trim_eq_self nameChars, map_toAsciiLowercase_eq_self nameChars, rejectIf_neg (by omega),
    rejectIf_neg nonempty, rejectIf_neg (by omega)]
  rfl

end Talos.NameService
