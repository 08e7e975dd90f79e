import Talos.Sdk.NameValidation
import Talos.NameService.Validation
import Mathlib.Data.List.TakeWhile

/-!
# The name rules of the SDK and of the name service

The SDK reads a name as UTF-16 units and lowers it with `toLowerCase`; the name service
reads its UTF-8 bytes and lowers ASCII letters. Where the name service accepts a name the
SDK does too, with the same result. The SDK accepts more: it has no limit on the whole
input, of which the contract takes 64 bytes, and it takes KELVIN SIGN for a k.
-/

namespace Talos.Sdk

open Encoding Soroban

variable {table : CaseTable} {s c t : Utf16} {b n : NameService.Bytes} {prev : Bool} {u : UInt16}

/-- Both checks of the name service accept the bytes, which it stores as `c`. -/
def Registers (bytes c : NameService.Bytes) : Prop :=
  NameService.canonicalizeName bytes = (.ok c : Outcome Empty NameService.Bytes) ∧
    NameService.validateName c = true

/-- The SDK accepts the string exactly if the name service does, with the same name. -/
structure Mirrors (table : CaseTable) (s : Utf16) : Prop where
  sound : ∀ c, validateAndCanonicalizeName table s = .ok c → Registers (utf8 s) (utf8 c)
  complete : ∀ b, Registers (utf8 s) b →
    ∃ c, validateAndCanonicalizeName table s = .ok c ∧ utf8 c = b

/-- A name of letters in either case, digits and hyphens, with KELVIN SIGN among the letters. -/
def NameLike (t : Utf16) : Prop := validateName (t.map foldLetter) = true

instance : Decidable (NameLike t) := inferInstanceAs (Decidable (_ = true))

/-! ### Both rules on ASCII -/

theorem toNat_toUInt8 (ascii : u.toNat < 0x80) : u.toUInt8.toNat = u.toNat := by
  rw [UInt16.toNat_toUInt8, Nat.mod_eq_of_lt (by omega)]

theorem isTrimmed_toUInt8 (ascii : u.toNat < 0x80) :
    NameService.isTrimmed u.toUInt8 = isAsciiWhitespace u := by
  rw [Bool.eq_iff_iff]
  simp only [NameService.isTrimmed, isAsciiWhitespace, Bool.or_eq_true, beq_iff_eq,
    ← UInt8.toNat_inj, ← UInt16.toNat_inj, toNat_toUInt8 ascii, UInt8.reduceToNat,
    UInt16.reduceToNat]

theorem letterOrDigit_toUInt8 (ascii : u.toNat < 0x80) :
    (NameService.isAsciiLowercase u.toUInt8 || NameService.isAsciiDigit u.toUInt8) =
      isLetterOrDigit u := by
  simp only [NameService.isAsciiLowercase, NameService.isAsciiDigit, isLetterOrDigit,
    UInt8.le_iff_toNat_le, UInt16.le_iff_toNat_le, toNat_toUInt8 ascii, UInt8.reduceToNat,
    UInt16.reduceToNat]

theorem hyphen_toUInt8 (ascii : u.toNat < 0x80) : u.toUInt8 = NameService.hyphen ↔ u = 45 := by
  rw [← UInt8.toNat_inj, ← UInt16.toNat_inj, toNat_toUInt8 ascii]
  rfl

theorem validChars_toUInt8 (ascii : ∀ u ∈ t, u.toNat < 0x80) :
    NameService.validChars prev (t.map UInt16.toUInt8) = validUnits prev t := by
  induction t generalizing prev with
  | nil => rfl
  | cons u rest ih =>
      have head := ascii u List.mem_cons_self
      have tail : ∀ v ∈ rest, v.toNat < 0x80 := fun v mem => ascii v (List.mem_cons_of_mem _ mem)
      rw [List.map_cons]
      simp only [NameService.validChars, validUnits, letterOrDigit_toUInt8 head,
        hyphen_toUInt8 head, ih tail]

theorem head_toUInt8 (ascii : ∀ u ∈ t, u.toNat < 0x80) :
    (t.map UInt16.toUInt8).head? = some NameService.hyphen ↔ t.head? = some 45 := by
  cases t with
  | nil => simp
  | cons u rest => simp [hyphen_toUInt8 (ascii u List.mem_cons_self)]

theorem validateName_toUInt8 (ascii : ∀ u ∈ t, u.toNat < 0x80) :
    NameService.validateName (t.map UInt16.toUInt8) = validateName t := by
  have last : (t.map UInt16.toUInt8).getLast? = some NameService.hyphen ↔
      t.getLast? = some 45 := by
    rw [← List.head?_reverse, ← List.head?_reverse, ← List.map_reverse]
    exact head_toUInt8 fun u mem => ascii u (List.mem_reverse.mp mem)
  simp only [NameService.validateName, validateName, List.length_map, head_toUInt8 ascii, last,
    validChars_toUInt8 ascii]

theorem dropWhile_toUInt8 (ascii : ∀ u ∈ s, u.toNat < 0x80) :
    (s.map UInt16.toUInt8).dropWhile NameService.isTrimmed =
      (s.dropWhile isAsciiWhitespace).map UInt16.toUInt8 := by
  induction s with
  | nil => rfl
  | cons u rest ih =>
      rw [List.map_cons, List.dropWhile_cons, List.dropWhile_cons,
        isTrimmed_toUInt8 (ascii u List.mem_cons_self),
        ih fun v mem => ascii v (List.mem_cons_of_mem _ mem)]
      split <;> rfl

theorem trim_toUInt8 (ascii : ∀ u ∈ s, u.toNat < 0x80) :
    NameService.trim (s.map UInt16.toUInt8) = (trim s).map UInt16.toUInt8 := by
  have rest : ∀ u ∈ (s.dropWhile isAsciiWhitespace).reverse, u.toNat < 0x80 := fun u mem =>
    ascii u ((List.dropWhile_suffix _).mem (List.mem_reverse.mp mem))
  rw [NameService.trim, trim, dropWhile_toUInt8 ascii, ← List.map_reverse, dropWhile_toUInt8 rest,
    ← List.map_reverse]

theorem toAsciiLowercase_toUInt8 (ascii : u.toNat < 0x80) :
    NameService.toAsciiLowercase u.toUInt8 = (foldLetter u).toUInt8 := by
  have notKelvin : u ≠ 0x212A := by
    rintro rfl
    exact absurd ascii (by decide)
  unfold NameService.toAsciiLowercase foldLetter
  simp only [UInt8.le_iff_toNat_le, toNat_toUInt8 ascii, UInt8.reduceToNat, notKelvin, if_false]
  split
  · exact (UInt16.toUInt8_add u 0x20).symm
  · rfl

/-! ### What each side accepts -/

theorem mem_dropWhile_or {α : Type} {p : α → Bool} {l : List α} {x : α} (mem : x ∈ l) :
    x ∈ l.dropWhile p ∨ p x = true := by
  rw [← List.takeWhile_append_dropWhile (p := p) (l := l)] at mem
  rcases List.mem_append.mp mem with taken | dropped
  · exact .inr (List.mem_takeWhile_imp taken)
  · exact .inl dropped

/-- What is not left after trimming was trimmed. -/
theorem mem_trim_or {α : Type} {p : α → Bool} {l : List α} {x : α} (mem : x ∈ l) :
    x ∈ ((l.dropWhile p).reverse.dropWhile p).reverse ∨ p x = true := by
  rcases mem_dropWhile_or (p := p) mem with kept | trimmed
  · rcases mem_dropWhile_or (p := p) (List.mem_reverse.mpr kept) with kept | trimmed
    · exact .inl (List.mem_reverse.mpr kept)
    · exact .inr trimmed
  · exact .inr trimmed

theorem mem_of_mem_trim (mem : u ∈ trim s) : u ∈ s :=
  (List.dropWhile_suffix _).mem (List.mem_reverse.mp
    ((List.dropWhile_suffix _).mem (List.mem_reverse.mp mem)))

theorem ascii_of_trim (ascii : ∀ u ∈ trim s, u.toNat < 0x80) : ∀ u ∈ s, u.toNat < 0x80 := by
  intro u mem
  rcases mem_trim_or mem with kept | space
  · exact ascii u kept
  · simp only [isAsciiWhitespace, Bool.or_eq_true, beq_iff_eq] at space
    rcases space with ((rfl | rfl) | rfl) | rfl <;> decide

theorem registers_iff : Registers b n ↔
    b.length ≤ 64 ∧ NameService.trim b ≠ [] ∧
      n = (NameService.trim b).map NameService.toAsciiLowercase ∧
      NameService.validateName n = true := by
  have canonical : NameService.canonicalizeName b = (.ok n : Outcome Empty NameService.Bytes) ↔
      b.length ≤ 64 ∧ NameService.trim b ≠ [] ∧ (NameService.trim b).length ≤ 32 ∧
        (NameService.trim b).map NameService.toAsciiLowercase = n := by
    simp [NameService.canonicalizeName]
  unfold Registers
  rw [canonical]
  constructor
  · rintro ⟨⟨raw, nonempty, -, lower⟩, valid⟩
    exact ⟨raw, nonempty, lower.symm, valid⟩
  · rintro ⟨raw, nonempty, rfl, valid⟩
    have short := (NameService.validateName_iff.mp valid).2.1
    rw [List.length_map] at short
    exact ⟨⟨raw, nonempty, short, rfl⟩, valid⟩

/-- Bytes that the name service accepts are ASCII. -/
theorem Registers.ascii (registers : Registers b n) : ∀ x ∈ b, x.toNat < 0x80 := by
  obtain ⟨-, -, rfl, valid⟩ := registers_iff.mp registers
  have chars := NameService.isNameChar_of_validChars (NameService.validateName_iff.mp valid).2.2.2.2
  intro x mem
  rcases mem_trim_or (p := NameService.isTrimmed) mem with kept | space
  · have char := chars _ (List.mem_map_of_mem kept)
    simp only [NameService.toAsciiLowercase, NameService.isNameChar, NameService.isAsciiLowercase,
      NameService.isAsciiDigit, NameService.hyphen, Bool.or_eq_true, Bool.and_eq_true,
      decide_eq_true_eq, beq_iff_eq, UInt8.le_iff_toNat_le, ← UInt8.toNat_inj,
      UInt8.reduceToNat] at char
    split at char
    · omega
    · omega
  · simp only [NameService.isTrimmed, Bool.or_eq_true, beq_iff_eq] at space
    rcases space with ((rfl | rfl) | rfl) | rfl <;> decide

/-- What the SDK accepts, in terms of the trimmed name. -/
theorem accepts_iff : validateAndCanonicalizeName table s = .ok c ↔
    NameLike (trim s) ∧ c = (trim s).map foldLetter := by
  rw [validateAndCanonicalizeName_ok]
  by_cases plain : ∀ u ∈ trim s, u.toNat < 0x80 ∨ u = 0x212A
  · rw [toLowerCase_of_plain plain]
    constructor
    · rintro ⟨-, rfl, valid⟩
      exact ⟨valid, rfl⟩
    · rintro ⟨valid, rfl⟩
      refine ⟨fun empty => ?_, rfl, valid⟩
      exact (validateName_units valid).2.1 (by rw [empty]; rfl)
  · obtain ⟨u, mem, outside, other⟩ : ∃ u ∈ trim s, 0x80 ≤ u.toNat ∧ u ≠ 0x212A := by
      simpa using plain
    constructor
    · rintro ⟨-, rfl, valid⟩
      obtain ⟨v, found, high⟩ := exists_toLowerCase table mem outside other
      exact absurd (ascii_of_validateName valid v found) (by omega)
    · rintro ⟨valid, -⟩
      have kept : foldLetter u = u := by
        rw [foldLetter, if_neg (by omega), if_neg other]
      have low := ascii_of_validateName valid _ (List.mem_map_of_mem mem)
      rw [kept] at low
      omega

theorem ascii_foldLetter (ascii : ∀ u ∈ t, u.toNat < 0x80) :
    ∀ u ∈ t.map foldLetter, u.toNat < 0x80 := by
  intro v mem
  obtain ⟨u, found, rfl⟩ := List.mem_map.mp mem
  have low := ascii u found
  unfold foldLetter
  split
  · rw [UInt16.toNat_add]
    simp
    omega
  · split
    · decide
    · exact low

/-- On ASCII both sides accept the same names, up to the limit on the bytes. -/
theorem registers_utf8_iff (ascii : ∀ u ∈ s, u.toNat < 0x80) :
    Registers (utf8 s) n ↔
      s.length ≤ 64 ∧ NameLike (trim s) ∧ n = utf8 ((trim s).map foldLetter) := by
  have trimmed : ∀ u ∈ trim s, u.toNat < 0x80 := fun u mem =>
    ascii u (mem_of_mem_trim mem)
  have folded := ascii_foldLetter trimmed
  have lowered : ((trim s).map UInt16.toUInt8).map NameService.toAsciiLowercase =
      ((trim s).map foldLetter).map UInt16.toUInt8 := by
    rw [List.map_map, List.map_map]
    exact List.map_congr_left fun u mem => toAsciiLowercase_toUInt8 (trimmed u mem)
  rw [registers_iff, utf8_of_ascii ascii, trim_toUInt8 ascii, lowered, utf8_of_ascii folded,
    List.length_map]
  constructor
  · rintro ⟨raw, -, rfl, valid⟩
    rw [validateName_toUInt8 folded] at valid
    exact ⟨raw, valid, rfl⟩
  · rintro ⟨raw, valid, rfl⟩
    refine ⟨raw, fun empty => ?_, rfl, (validateName_toUInt8 folded).trans valid⟩
    exact (validateName_units valid).2.1 (by rw [List.map_eq_nil_iff.mp empty]; rfl)

/-! ### Agreement -/

/-- The SDK and the name service agree on a string exactly if it is not a name that is
longer than 64 units with its padding or has a KELVIN SIGN among its letters. -/
theorem mirrors_iff : Mirrors table s ↔
    (NameLike (trim s) → s.length ≤ 64 ∧ 0x212A ∉ s) := by
  constructor
  · intro mirrors nameLike
    have registers := mirrors.sound _ (accepts_iff.mpr ⟨nameLike, rfl⟩)
    have ascii := ascii_of_utf8 registers.ascii
    obtain ⟨raw, -, -⟩ := (registers_utf8_iff ascii).mp registers
    exact ⟨raw, fun kelvin => absurd (ascii _ kelvin) (by decide)⟩
  · intro condition
    constructor
    · intro c accepted
      obtain ⟨nameLike, rfl⟩ := accepts_iff.mp accepted
      obtain ⟨raw, noKelvin⟩ := condition nameLike
      have ascii : ∀ u ∈ s, u.toNat < 0x80 := by
        apply ascii_of_trim
        intro u mem
        by_contra outside
        have other : u ≠ 0x212A := by
          rintro rfl
          exact noKelvin (mem_of_mem_trim mem)
        have kept : foldLetter u = u := by
          rw [foldLetter, if_neg (by omega), if_neg other]
        have low := ascii_of_validateName nameLike _ (List.mem_map_of_mem mem)
        rw [kept] at low
        omega
      exact (registers_utf8_iff ascii).mpr ⟨raw, nameLike, rfl⟩
    · intro b registers
      have ascii := ascii_of_utf8 registers.ascii
      obtain ⟨-, nameLike, rfl⟩ := (registers_utf8_iff ascii).mp registers
      exact ⟨_, accepts_iff.mpr ⟨nameLike, rfl⟩, rfl⟩

/-- "king" with a KELVIN SIGN. -/
def king : Utf16 := [0x212A, 105, 110, 103]

/-- "abc" after 62 spaces. -/
def padded : Utf16 := List.replicate 62 0x20 ++ [97, 98, 99]

/-- The SDK accepts both names, the name service neither. -/
theorem accepted_only_by_sdk :
    validateAndCanonicalizeName .caseless king = .ok [107, 105, 110, 103] ∧
      validateAndCanonicalizeName .caseless padded = .ok [97, 98, 99] ∧
      (∀ n, ¬ Registers (utf8 king) n) ∧ (∀ n, ¬ Registers (utf8 padded) n) ∧
      ¬ Mirrors .caseless king ∧ ¬ Mirrors .caseless padded := by
  have kingAccepted : validateAndCanonicalizeName .caseless king = .ok [107, 105, 110, 103] :=
    accepts_iff.mpr ⟨by decide, by decide⟩
  have paddedAccepted : validateAndCanonicalizeName .caseless padded = .ok [97, 98, 99] :=
    accepts_iff.mpr ⟨by decide, by decide⟩
  have kingRejected : ∀ n, ¬ Registers (utf8 king) n := by
    intro n registers
    exact absurd (registers.ascii 0xE2 (by decide)) (by decide)
  have paddedRejected : ∀ n, ¬ Registers (utf8 padded) n := by
    intro n registers
    exact absurd (registers_iff.mp registers).1 (by decide)
  exact ⟨kingAccepted, paddedAccepted, kingRejected, paddedRejected,
    fun mirrors => kingRejected _ (mirrors.sound _ kingAccepted),
    fun mirrors => paddedRejected _ (mirrors.sound _ paddedAccepted)⟩

end Talos.Sdk
