import Talos.Encoding.Utf16

/-!
# Name validation in the SDK

`packages/sdk/src/name-validation.ts` over the UTF-16 units of a string.
-/

namespace Talos.Sdk

open Encoding

/-- Space, tab, newline and carriage return. -/
def isAsciiWhitespace (code : UInt16) : Bool :=
  code == 0x20 || code == 0x09 || code == 0x0A || code == 0x0D

def isLetterOrDigit (code : UInt16) : Bool :=
  (decide (97 ≤ code) && decide (code ≤ 122)) || (decide (48 ≤ code) && decide (code ≤ 57))

/-- The loop of `validateName`; the flag says whether the previous unit was a hyphen. -/
def validUnits (prevHyphen : Bool) : Utf16 → Bool
  | [] => true
  | code :: rest =>
      if isLetterOrDigit code then validUnits false rest
      else if code = 45 then
        if prevHyphen then false else validUnits true rest
      else false

def validateName (name : Utf16) : Bool :=
  if name.length < 3 ∨ name.length > 32 then false
  else if name.head? = some 45 ∨ name.getLast? = some 45 then false
  else validUnits false name

/-- Trim both ends: the two loops of `canonicalizeName`. -/
def trim (name : Utf16) : Utf16 :=
  ((name.dropWhile isAsciiWhitespace).reverse.dropWhile isAsciiWhitespace).reverse

def canonicalizeName (table : CaseTable) (name : Utf16) : Except String Utf16 :=
  let trimmed := trim name
  if trimmed = [] then .error "Name cannot be empty after canonicalization"
  else
    let result := toLowerCase table trimmed
    if result.length > 32 then .error "Name exceeds maximum byte length after canonicalization"
    else .ok result

def validateAndCanonicalizeName (table : CaseTable) (name : Utf16) : Except String Utf16 := do
  let canonicalized ← canonicalizeName table name
  if validateName canonicalized = false then
    .error ("Invalid name. Must be 3-32 chars, lowercase alphanumeric + hyphens, " ++
      "no consecutive hyphens.")
  else .ok canonicalized

variable {table : CaseTable} {name c t : Utf16} {prev : Bool} {u : UInt16}

theorem ascii_of_letterOrDigit (letterOrDigit : isLetterOrDigit u = true) : u.toNat < 0x80 := by
  simp only [isLetterOrDigit, Bool.or_eq_true, Bool.and_eq_true, decide_eq_true_eq,
    UInt16.le_iff_toNat_le, UInt16.reduceToNat] at letterOrDigit
  omega

theorem ascii_of_validUnits (valid : validUnits prev t = true) : ∀ u ∈ t, u.toNat < 0x80 := by
  induction t generalizing prev with
  | nil => exact fun u mem => nomatch mem
  | cons code rest ih =>
      unfold validUnits at valid
      intro u mem
      split at valid
      · next letterOrDigit =>
          rcases List.mem_cons.mp mem with rfl | mem
          · exact ascii_of_letterOrDigit letterOrDigit
          · exact ih valid u mem
      · split at valid
        · next hyphen =>
            split at valid
            · cases valid
            · rcases List.mem_cons.mp mem with rfl | mem
              · rw [hyphen]
                decide
              · exact ih valid u mem
        · cases valid

theorem validateName_units (valid : validateName t = true) :
    t.length ≤ 32 ∧ t ≠ [] ∧ validUnits false t = true := by
  unfold validateName at valid
  split at valid
  · cases valid
  · next length =>
      split at valid
      · cases valid
      · refine ⟨by omega, ?_, valid⟩
        rintro rfl
        simp at length

theorem ascii_of_validateName (valid : validateName t = true) : ∀ u ∈ t, u.toNat < 0x80 :=
  ascii_of_validUnits (validateName_units valid).2.2

theorem canonicalizeName_ok :
    canonicalizeName table name = .ok c ↔
      trim name ≠ [] ∧ c = toLowerCase table (trim name) ∧ c.length ≤ 32 := by
  unfold canonicalizeName
  dsimp only
  constructor
  · intro ok
    split at ok
    · cases ok
    · next nonempty =>
        split at ok
        · cases ok
        · next short =>
            cases ok
            exact ⟨nonempty, rfl, Nat.le_of_not_gt short⟩
  · rintro ⟨nonempty, rfl, short⟩
    rw [if_neg nonempty, if_neg (Nat.not_lt.mpr short)]

/-- A name is accepted as its lower case if that is valid: the other checks are implied. -/
theorem validateAndCanonicalizeName_ok :
    validateAndCanonicalizeName table name = .ok c ↔
      trim name ≠ [] ∧ c = toLowerCase table (trim name) ∧ validateName c = true := by
  constructor
  · intro ok
    unfold validateAndCanonicalizeName at ok
    cases canonical : canonicalizeName table name with
    | error text =>
        rw [canonical] at ok
        cases ok
    | ok result =>
        obtain ⟨nonempty, lower, -⟩ := canonicalizeName_ok.mp canonical
        have checked : (if validateName result = false then _ else .ok result) = Except.ok c :=
          (congrArg (· >>= _) canonical).symm.trans ok
        split at checked
        · cases checked
        · next valid =>
            cases checked
            exact ⟨nonempty, lower, Bool.of_not_eq_false valid⟩
  · rintro ⟨nonempty, lower, valid⟩
    have canonical : canonicalizeName table name = .ok c :=
      canonicalizeName_ok.mpr ⟨nonempty, lower, (validateName_units valid).1⟩
    unfold validateAndCanonicalizeName
    rw [canonical]
    exact if_neg (by simp [valid])

end Talos.Sdk
