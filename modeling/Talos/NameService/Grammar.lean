import Talos.NameService.Buffers
import Talos.NameService.Availability
import Talos.Encoding.Segments

/-!
# The grammar of names

What canonicalization and validation mean, in their own terms. A canonical form is what lies between
the whitespace at both ends, lowercased; a valid name is a word of `[a-z0-9]+(-[a-z0-9]+)*` of 3 to
32 bytes. The functions over stack buffers compute exactly this, on every byte string.
-/

namespace Talos.NameService

open Talos.Soroban Talos.Encoding

variable {E : Type} {raw kept name word : Bytes} {b : UInt8}

/-! ### Canonical forms -/

/-- `kept` is `raw` without its leading and trailing whitespace. -/
structure Trims (raw kept : Bytes) : Prop where
  parts : ∃ lead trail, raw = lead ++ kept ++ trail ∧ (∀ b ∈ lead, isTrimmed b = true) ∧
    ∀ b ∈ trail, isTrimmed b = true
  head : ∀ b, kept.head? = some b → isTrimmed b = false
  last : ∀ b, kept.getLast? = some b → isTrimmed b = false

/-- The four ways canonicalization may end. -/
inductive Canonicalization (raw : Bytes) : Outcome E Bytes → Prop where
  | longInput : 64 < raw.length → Canonicalization raw
      (.error (.panic "Name exceeds maximum input length for canonicalization"))
  | blank : raw.length ≤ 64 → Trims raw [] → Canonicalization raw
      (.error (.panic "Name cannot be empty after canonicalization"))
  | long (kept : Bytes) : raw.length ≤ 64 → Trims raw kept → 32 < kept.length →
      Canonicalization raw
        (.error (.panic "Name exceeds maximum byte length after canonicalization"))
  | canonical (kept : Bytes) : raw.length ≤ 64 → Trims raw kept → kept ≠ [] → kept.length ≤ 32 →
      Canonicalization raw (.ok (kept.map toAsciiLowercase))

theorem head_dropWhile (raw : Bytes) (h : (raw.dropWhile isTrimmed).head? = some b) :
    isTrimmed b = false := by
  have untrimmed := List.head?_dropWhile_not isTrimmed raw
  rw [h] at untrimmed
  simpa using untrimmed

theorem dropWhile_of_head (h : ∀ b, raw.head? = some b → isTrimmed b = false) :
    raw.dropWhile isTrimmed = raw := by
  cases raw with
  | nil => rfl
  | cons b rest =>
    rw [List.dropWhile_cons_of_neg]
    rw [h b rfl]
    exact Bool.false_ne_true

theorem trims_trim (raw : Bytes) : Trims raw (trim raw) where
  parts := by
    refine ⟨raw.takeWhile isTrimmed, (raw.dropWhile isTrimmed).rtakeWhile isTrimmed, ?_, ?_, ?_⟩
    · rw [Buffers.trim_eq_rdropWhile, List.append_assoc, List.rdropWhile_append_rtakeWhile,
        List.takeWhile_append_dropWhile]
    · exact fun b mem => List.mem_takeWhile_imp mem
    · exact fun b mem => List.mem_rtakeWhile_imp mem
  head := by
    intro b h
    obtain ⟨rest, joined⟩ := List.rdropWhile_prefix isTrimmed (raw.dropWhile isTrimmed)
    apply head_dropWhile raw
    rw [← joined, ← Buffers.trim_eq_rdropWhile, List.head?_append, h, Option.some_or]
  last := by
    intro b h
    rw [trim, List.getLast?_reverse] at h
    exact head_dropWhile _ h

/-- Nothing else lies between the whitespace at both ends. -/
theorem trims_iff : Trims raw kept ↔ kept = trim raw := by
  constructor
  · rintro ⟨⟨lead, trail, rfl, leading, trailing⟩, head, last⟩
    have backward : ∀ b, kept.reverse.head? = some b → isTrimmed b = false := by
      intro b h
      exact last b (List.head?_reverse ▸ h)
    cases kept with
    | nil =>
      symm
      rw [List.append_nil, trim_eq_nil_iff]
      intro b mem
      exact (List.mem_append.mp mem).elim (leading b) (trailing b)
    | cons c rest =>
      have front : (c :: rest ++ trail).dropWhile isTrimmed = c :: rest ++ trail :=
        dropWhile_of_head head
      have behind : ∀ b ∈ trail.reverse, isTrimmed b = true := fun b mem =>
        trailing b (List.mem_reverse.mp mem)
      rw [trim, List.append_assoc, List.dropWhile_append_of_pos leading, front, List.reverse_append,
        List.dropWhile_append_of_pos behind, dropWhile_of_head backward, List.reverse_reverse]
  · rintro rfl
    exact trims_trim raw

theorem canonicalizeName_spec (raw : Bytes) :
    Canonicalization raw (Buffers.canonicalizeName raw : Outcome E Bytes) := by
  rw [Buffers.canonicalizeName_eq, canonicalizeName]
  by_cases long : raw.length > 64
  · rw [rejectIf_pos long, bind_error]
    exact .longInput long
  have short : raw.length ≤ 64 := Nat.not_lt.mp long
  rw [rejectIf_neg long, bind_ok]
  dsimp only
  by_cases blank : trim raw = []
  · rw [rejectIf_pos blank, bind_error]
    exact .blank short (blank ▸ trims_trim raw)
  rw [rejectIf_neg blank, bind_ok]
  by_cases wide : (trim raw).length > 32
  · rw [rejectIf_pos wide, bind_error]
    exact .long (trim raw) short (trims_trim raw) wide
  rw [rejectIf_neg wide, bind_ok]
  exact .canonical (trim raw) short (trims_trim raw) blank (Nat.not_lt.mp wide)

/-! ### Canonicalizing twice -/

/-- An uppercase letter and the letter it becomes are no whitespace, and the latter stays. -/
theorem lowercase_of_uppercase (upper : 65 ≤ b ∧ b ≤ 90) :
    isTrimmed b = false ∧ isTrimmed (b + 32) = false ∧ ¬ (65 ≤ b + 32 ∧ b + 32 ≤ 90) := by
  simp only [UInt8.le_iff_toNat_le, UInt8.reduceToNat] at upper
  have shifted : (b + 32).toNat = b.toNat + 32 := by
    rw [UInt8.toNat_add]
    exact Nat.mod_eq_of_lt (by simp only [UInt8.reduceToNat]; omega)
  simp only [isTrimmed, Bool.or_eq_false_iff, beq_eq_false_iff_ne, ne_eq, ← UInt8.toNat_inj,
    UInt8.le_iff_toNat_le, UInt8.reduceToNat, shifted]
  omega

theorem isTrimmed_toAsciiLowercase (b : UInt8) : isTrimmed (toAsciiLowercase b) = isTrimmed b := by
  by_cases upper : 65 ≤ b ∧ b ≤ 90
  · obtain ⟨before, behind, _⟩ := lowercase_of_uppercase upper
    rw [toAsciiLowercase, if_pos upper, before, behind]
  · rw [toAsciiLowercase, if_neg upper]

theorem toAsciiLowercase_idempotent (b : UInt8) :
    toAsciiLowercase (toAsciiLowercase b) = toAsciiLowercase b := by
  by_cases upper : 65 ≤ b ∧ b ≤ 90
  · obtain ⟨_, _, lower⟩ := lowercase_of_uppercase upper
    rw [toAsciiLowercase.eq_1 b, if_pos upper, toAsciiLowercase, if_neg lower]
  · rw [toAsciiLowercase.eq_1 b, if_neg upper, toAsciiLowercase, if_neg upper]

/-- A canonical form has nothing left to trim. -/
theorem trims_lowercase (trims : Trims raw kept) :
    Trims (kept.map toAsciiLowercase) (kept.map toAsciiLowercase) where
  parts := ⟨[], [], by rw [List.append_nil, List.nil_append], nofun, nofun⟩
  head := by
    intro b h
    rw [List.head?_map, Option.map_eq_some_iff] at h
    obtain ⟨c, first, rfl⟩ := h
    rw [isTrimmed_toAsciiLowercase]
    exact trims.head c first
  last := by
    intro b h
    rw [List.getLast?_map, Option.map_eq_some_iff] at h
    obtain ⟨c, final, rfl⟩ := h
    rw [isTrimmed_toAsciiLowercase]
    exact trims.last c final

theorem canonicalizeName_again (canonical : canonicalizeName raw = (.ok name : Outcome E Bytes)) :
    canonicalizeName name = (.ok name : Outcome E Bytes) := by
  simp only [canonicalizeName, bind_eq_ok, rejectIf_eq_ok, Except.ok.injEq, Nat.not_lt] at canonical
  obtain ⟨_, _, _, blank, _, short, rfl⟩ := canonical
  have settled : trim ((trim raw).map toAsciiLowercase) = (trim raw).map toAsciiLowercase :=
    (trims_iff.mp (trims_lowercase (trims_trim raw))).symm
  have lowered : ((trim raw).map toAsciiLowercase).map toAsciiLowercase =
      (trim raw).map toAsciiLowercase := by
    rw [List.map_map]
    exact List.map_congr_left fun b _ => toAsciiLowercase_idempotent b
  have nonempty : ¬ (trim raw).map toAsciiLowercase = [] := fun empty =>
    blank (List.map_eq_nil_iff.mp empty)
  rw [canonicalizeName]
  dsimp only
  rw [settled, lowered, List.length_map, rejectIf_neg (by omega), bind_ok, rejectIf_neg nonempty,
    bind_ok, rejectIf_neg (by omega), bind_ok]

/-! ### The grammar -/

def isAlphanumeric (b : UInt8) : Bool := isAsciiLowercase b || isAsciiDigit b

/-- `[a-z0-9]+(-[a-z0-9]+)*` -/
def nameGrammar : Language UInt8 := segments isAlphanumeric (· == hyphen)

/-- A word ends in a hyphen if what follows its first byte does, or if the hyphen is all of it. -/
theorem getLast?_cons_ne (b : UInt8) (rest : Bytes) : (b :: rest).getLast? ≠ some hyphen ↔
    (rest = [] → b ≠ hyphen) ∧ rest.getLast? ≠ some hyphen := by
  cases rest with
  | nil => simp
  | cons c rest => simp [List.getLast?_cons_cons]

theorem not_isAlphanumeric_hyphen : isAlphanumeric hyphen = false := by decide

/-- The character loop decides the grammar, once the last byte is known to be no hyphen: from the
start of a segment, and from behind one of its bytes. -/
theorem validChars_iff (word : Bytes) :
    (word ∈ nameGrammar ↔
      word ≠ [] ∧ validChars true word = true ∧ word.getLast? ≠ some hyphen) ∧
    (word ∈ afterItem isAlphanumeric (· == hyphen) ↔
      validChars false word = true ∧ word.getLast? ≠ some hyphen) := by
  induction word with
  | nil => simp [nameGrammar, validChars]
  | cons b rest ih =>
    obtain ⟨before, behind⟩ := ih
    rw [nameGrammar] at before
    rw [nameGrammar, cons_mem_segments, cons_mem_afterItem, before, behind, getLast?_cons_ne,
      validChars, validChars]
    by_cases isHyphen : b = hyphen
    · have noItem : (isAsciiLowercase hyphen || isAsciiDigit hyphen) = false :=
        not_isAlphanumeric_hyphen
      simp [isHyphen, not_isAlphanumeric_hyphen, noItem, and_left_comm]
    · cases alnum : isAlphanumeric b with
      | true =>
        have item : (isAsciiLowercase b || isAsciiDigit b) = true := alnum
        simp [isHyphen, item]
      | false =>
        have noItem : (isAsciiLowercase b || isAsciiDigit b) = false := alnum
        simp [isHyphen, noItem]

/-- The validator accepts the words of the grammar of 3 to 32 bytes. -/
theorem validateName_iff_grammar : validateName name = true ↔
    3 ≤ name.length ∧ name.length ≤ 32 ∧ name ∈ nameGrammar := by
  rw [validateName_iff, (validChars_iff name).1]
  cases name with
  | nil => simp
  | cons b rest =>
    have first : (b :: rest).head? ≠ some hyphen ∧ validChars false (b :: rest) = true ↔
        validChars true (b :: rest) = true := by
      rw [List.head?_cons, validChars, validChars]
      by_cases isHyphen : b = hyphen
      · have noItem : (isAsciiLowercase hyphen || isAsciiDigit hyphen) = false :=
          not_isAlphanumeric_hyphen
        simp [isHyphen, noItem]
      · simp [isHyphen]
    rw [← first]
    tauto

/-- Canonicalization traps in three ways or returns the canonical form, which it returns again;
validation answers, and accepts the words of the grammar. -/
theorem names_canonical_and_grammatical :
    (∀ raw, Canonicalization raw (Buffers.canonicalizeName raw : Outcome E Bytes)) ∧
    (∀ raw, (Buffers.canonicalizeName raw >>= Buffers.canonicalizeName : Outcome E Bytes) =
      Buffers.canonicalizeName raw) ∧
    ∀ name, ∃ accepted, (Buffers.validateName name : Outcome E Bool) = .ok accepted ∧
      (accepted = true ↔ 3 ≤ name.length ∧ name.length ≤ 32 ∧ name ∈ nameGrammar) := by
  refine ⟨canonicalizeName_spec, ?_, ?_⟩
  · intro raw
    rw [Buffers.canonicalizeName_eq]
    cases canonical : (canonicalizeName raw : Outcome E Bytes) with
    | error trap => rfl
    | ok name => rw [bind_ok, Buffers.canonicalizeName_eq, canonicalizeName_again canonical]
  · intro name
    exact ⟨validateName name, Buffers.validateName_eq name, validateName_iff_grammar⟩

end Talos.NameService
