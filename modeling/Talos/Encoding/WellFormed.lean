import Talos.Encoding.JsonText
import Talos.Encoding.SelfDelimiting

/-!
# Well-formed strings

UTF-8 has no encoding for a surrogate without its partner: `TextEncoder` writes U+FFFD for it,
as `toWellFormed` does in the string. So two strings have the same encoding exactly if they
become the same well-formed string (`utf8_eq_iff`).
-/

namespace Talos.Encoding

def replaceSurrogate (c : CodePoint) : CodePoint :=
  if 0xD800 ≤ c.val ∧ c.val < 0xE000 then 0xFFFD else c

def toWellFormed (s : Utf16) : Utf16 := (codePoints s).flatMap fun c => units (replaceSurrogate c)

/-- No surrogate without its partner. -/
def WellFormed (s : Utf16) : Prop := toWellFormed s = s

instance (s : Utf16) : Decidable (WellFormed s) := inferInstanceAs (Decidable (toWellFormed s = s))

variable {s s' x : Utf16} {u v : UInt16} {c : CodePoint}

theorem replaceSurrogate_plain (c : CodePoint) :
    ¬ (0xD800 ≤ (replaceSurrogate c).val ∧ (replaceSurrogate c).val < 0xE000) := by
  unfold replaceSurrogate
  split
  · decide
  · assumption

theorem scalar_eq (c : CodePoint) : scalar c = (replaceSurrogate c).val := by
  unfold scalar replaceSurrogate
  split <;> rfl

/-! ### Code points of a text that goes on -/

theorem codePoints_cons (single : isLeading u = false) (s : Utf16) :
    codePoints (u :: s) = .ofUnit u :: codePoints s := by
  cases s with
  | nil => rfl
  | cons v s =>
      rw [codePoints, if_neg]
      simp [single]

theorem codePoints_units (plain : ¬ (0xD800 ≤ c.val ∧ c.val < 0xE000)) (s : Utf16) :
    codePoints (units c ++ s) = c :: codePoints s := by
  rcases units_cases c plain with ⟨u, rfl, unit, single⟩ | ⟨u, v, leading, trailing, rfl, pair⟩
  · rw [unit]
    exact codePoints_cons single s
  · rw [pair]
    simp [codePoints, leading, trailing]

theorem codePoints_toWellFormed (s : Utf16) :
    codePoints (toWellFormed s) = (codePoints s).map replaceSurrogate := by
  unfold toWellFormed
  induction codePoints s with
  | nil => rfl
  | cons c cs ih =>
      rw [List.flatMap_cons, codePoints_units (replaceSurrogate_plain c), ih, List.map_cons]

/-- A unit below the surrogates separates what stands before it from what stands after it. -/
theorem codePoints_append_cons (low : u.toNat < 0xD800) (x y : Utf16) :
    codePoints (x ++ u :: y) = codePoints x ++ .ofUnit u :: codePoints y := by
  have single : isLeading u = false := by
    rw [isLeading, decide_eq_false (Nat.not_le.mpr low), Bool.false_and]
  have notTrailing : isTrailing u = false := by
    rw [isTrailing, decide_eq_false (Nat.not_le.mpr (by omega)), Bool.false_and]
  induction x using codePoints.induct with
  | case1 => exact codePoints_cons single y
  | case2 v =>
      have lone : ¬ (isLeading v && isTrailing u) = true := by
        rw [notTrailing, Bool.and_false]
        exact Bool.false_ne_true
      rw [List.cons_append, List.nil_append, codePoints.eq_3, if_neg lone, codePoints_cons single]
      rfl
  | case3 v w rest pair ih =>
      rw [List.cons_append, List.cons_append, codePoints, if_pos pair, codePoints, if_pos pair, ih]
      rfl
  | case4 v w rest lone ih =>
      rw [List.cons_append, List.cons_append, codePoints, if_neg lone, codePoints, if_neg lone,
        ← List.cons_append, ih]
      rfl

theorem toWellFormed_append_cons (low : u.toNat < 0xD800) (x y : Utf16) :
    toWellFormed (x ++ u :: y) = toWellFormed x ++ u :: toWellFormed y := by
  have kept : replaceSurrogate (.ofUnit u) = .ofUnit u :=
    if_neg fun surrogate => absurd surrogate.1 (Nat.not_le.mpr low)
  rw [toWellFormed, codePoints_append_cons low, List.flatMap_append, List.flatMap_cons, kept,
    units_ofUnit]
  rfl

theorem toWellFormed_of_lt (below : ∀ u ∈ s, u.toNat < 0xD800) : toWellFormed s = s := by
  induction s with
  | nil => rfl
  | cons u s ih =>
      obtain ⟨low, rest⟩ := List.forall_mem_cons.mp below
      have split := toWellFormed_append_cons low [] s
      rw [ih rest] at split
      exact split

/-- `toWellFormed` puts no unit below the surrogates into a text. -/
theorem mem_of_mem_toWellFormed (low : u.toNat < 0xD800) (mem : u ∈ toWellFormed s) : u ∈ s := by
  by_contra none
  obtain ⟨c, found, unit⟩ := List.mem_flatMap.mp mem
  unfold replaceSurrogate at unit
  split at unit
  · cases List.mem_singleton.mp unit
    exact absurd low (by decide)
  · refine none ?_
    rw [← flatMap_units s]
    exact List.mem_flatMap.mpr ⟨c, found, unit⟩

/-! ### UTF-8 -/

/-- The number of bytes that a first byte announces. -/
def utf8Width (b : Nat) : Nat :=
  if b < 0x80 then 1 else if b < 0xE0 then 2 else if b < 0xF0 then 3 else 4

theorem utf8Bytes_start (c : CodePoint) :
    ∃ b rest, utf8Bytes c.val = b :: rest ∧ (utf8Bytes c.val).length = utf8Width b.toNat ∧
      b ≠ 0xFF := by
  have lt := c.isLt
  have first : ∀ {n : Nat}, n < 0xFF → (UInt8.ofNat n).toNat = n ∧ UInt8.ofNat n ≠ 0xFF := by
    intro n small
    have same : (UInt8.ofNat n).toNat = n := UInt8.toNat_ofNat_of_lt' (Nat.lt_succ_of_lt small)
    refine ⟨same, fun full => ?_⟩
    rw [full] at same
    exact absurd same (Nat.ne_of_gt small)
  unfold utf8Bytes
  split_ifs with one two three <;> refine ⟨_, _, rfl, ?_, (first (by omega)).2⟩
  all_goals
    rw [(first (by omega)).1]
    simp only [utf8Width, List.length_cons, List.length_nil]
    split_ifs <;> omega

theorem utf8Bytes_injective {c d : CodePoint} (same : utf8Bytes c.val = utf8Bytes d.val) :
    c = d := by
  have ltC := c.isLt
  have ltD := d.isLt
  apply Fin.ext
  unfold utf8Bytes at same
  split_ifs at same <;>
    simp only [List.cons.injEq, reduceCtorEq, and_true, and_false, ← UInt8.toNat_inj,
      UInt8.toNat_ofNat'] at same <;>
    omega

theorem utf8Bytes_selfDelimiting : SelfDelimiting fun c : CodePoint => utf8Bytes c.val := by
  intro c d r r' same
  obtain ⟨b, rest, start, width, -⟩ := utf8Bytes_start c
  obtain ⟨b', rest', start', width', -⟩ := utf8Bytes_start d
  have first : b = b' := by
    simp only [start, start', List.cons_append] at same
    exact (List.cons.inj same).1
  obtain ⟨code, remaining⟩ := List.append_inj same (by rw [width, width', first])
  exact ⟨utf8Bytes_injective code, remaining⟩

theorem utf8_eq (s : Utf16) :
    utf8 s = ((codePoints s).map replaceSurrogate).flatMap fun c => utf8Bytes c.val := by
  simp only [utf8, List.flatMap_map, scalar_eq]

/-- `TextEncoder` forgets what an unpaired surrogate was, and nothing else. -/
theorem utf8_eq_iff : utf8 s = utf8 s' ↔ toWellFormed s = toWellFormed s' := by
  have code := utf8Bytes_selfDelimiting.sequence (t := 0xFF) fun c =>
    let ⟨b, rest, start, _, other⟩ := utf8Bytes_start c
    ⟨b, rest, start, other⟩
  rw [← codePoints_injective.eq_iff, codePoints_toWellFormed, codePoints_toWellFormed, utf8_eq,
    utf8_eq]
  constructor
  · intro same
    exact code.injective (congrArg (· ++ [0xFF]) same)
  · intro same
    rw [same]

theorem utf8_injective (plain : WellFormed s) (plain' : WellFormed s') (same : utf8 s = utf8 s') :
    s = s' := by
  rw [← plain, ← plain', utf8_eq_iff.mp same]

end Talos.Encoding
