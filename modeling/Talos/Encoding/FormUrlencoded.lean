import Talos.Encoding.WellFormed
import Talos.Encoding.Words

/-!
# `application/x-www-form-urlencoded`

The serializer of `URLSearchParams`: bytes of the UTF-8 encoding stand for themselves, a space is
`+`, and every other one is percent-encoded. The text of a list of pairs determines the pairs.
-/

namespace Talos.Encoding

/-- ASCII letters and digits, `*`, `-`, `.` and `_`. -/
def isFormByte (b : UInt8) : Bool :=
  (48 ≤ b && b ≤ 57) || (65 ≤ b && b ≤ 90) || (97 ≤ b && b ≤ 122) || b == 42 || b == 45 ||
    b == 46 || b == 95

def upperHexUnit (n : Nat) : UInt16 := UInt16.ofNat (if n < 10 then 48 + n else 55 + n)

def formByte (b : UInt8) : Utf16 :=
  if isFormByte b then [b.toUInt16]
  else if b = 0x20 then [43]
  else [37, upperHexUnit (b.toNat / 16), upperHexUnit (b.toNat % 16)]

def formText (s : Utf16) : Utf16 := (utf8 s).flatMap formByte

/-- `new URLSearchParams(pairs).toString()` -/
def formSerialize (pairs : List (Utf16 × Utf16)) : Utf16 :=
  [38].intercalate (pairs.map fun p => formText p.1 ++ 61 :: formText p.2)

variable {s s' : Utf16} {pairs pairs' : List (Utf16 × Utf16)} {u : UInt16}

theorem isFormByte_spec {b : UInt8} (kept : isFormByte b = true) :
    0x20 < b.toNat ∧ b.toNat < 0x7F ∧ b.toNat ∉ [37, 38, 43, 61] := by
  simp only [isFormByte, Bool.or_eq_true, Bool.and_eq_true, decide_eq_true_iff, beq_iff_eq,
    UInt8.le_iff_toNat_le, ← UInt8.toNat_inj, UInt8.reduceToNat] at kept
  simp only [List.mem_cons, List.not_mem_nil, or_false]
  omega

theorem upperHexUnit_spec : ∀ n < 16, 0x20 < (upperHexUnit n).toNat ∧
    (upperHexUnit n).toNat < 0x7F ∧ (upperHexUnit n).toNat ∉ [37, 38, 43, 61] := by
  decide

theorem upperHexUnit_injective : ∀ m < 16, ∀ n < 16, upperHexUnit m = upperHexUnit n → m = n := by
  decide

theorem mem_formByte {b : UInt8} (mem : u ∈ formByte b) :
    0x20 < u.toNat ∧ u.toNat < 0x7F ∧ u.toNat ∉ [38, 61] := by
  have lt := b.toNat_lt
  have part : ∀ {n : Nat}, 0x20 < n ∧ n < 0x7F ∧ n ∉ [37, 38, 43, 61] →
      0x20 < n ∧ n < 0x7F ∧ n ∉ [38, 61] := by
    rintro n ⟨low, high, other⟩
    refine ⟨low, high, fun among => other ?_⟩
    exact List.Sublist.subset (by decide) among
  unfold formByte at mem
  split at mem
  · rename_i kept
    cases List.mem_singleton.mp mem
    exact part (isFormByte_spec kept)
  · split at mem
    · cases List.mem_singleton.mp mem
      decide
    · simp only [List.mem_cons, List.not_mem_nil, or_false] at mem
      rcases mem with rfl | rfl | rfl
      · decide
      · exact part (upperHexUnit_spec _ (by omega))
      · exact part (upperHexUnit_spec _ (by omega))

/-- The first unit tells how a byte is written. -/
theorem formByte_selfDelimiting : SelfDelimiting formByte := by
  intro a b r r' same
  have ltA := a.toNat_lt
  have ltB := b.toNat_lt
  have first : ∀ {c : UInt8} {n : UInt16}, isFormByte c = true → n.toNat ∈ [37, 43] →
      c.toUInt16 ≠ n := by
    rintro c n kept among rfl
    exact (isFormByte_spec kept).2.2 (List.Sublist.subset (by decide) among)
  unfold formByte at same
  split_ifs at same with keptA keptB spaceB spaceA keptB spaceB keptB spaceB
  all_goals simp only [List.cons_append, List.nil_append, List.cons.injEq] at same
  · exact ⟨UInt8.toNat_inj.mp (congrArg UInt16.toNat same.1), same.2⟩
  · exact absurd same.1 (first keptA (by decide))
  · exact absurd same.1 (first keptA (by decide))
  · exact absurd same.1.symm (first keptB (by decide))
  · exact ⟨spaceA.trans spaceB.symm, same.2⟩
  · exact absurd same.1 (by decide)
  · exact absurd same.1.symm (first keptB (by decide))
  · exact absurd same.1 (by decide)
  · have high := upperHexUnit_injective _ (by omega) _ (by omega) same.2.1
    have low := upperHexUnit_injective _ (by omega) _ (by omega) same.2.2.1
    exact ⟨UInt8.toNat_inj.mp (by omega), same.2.2.2⟩

theorem mem_formText (mem : u ∈ formText s) :
    0x20 < u.toNat ∧ u.toNat < 0x7F ∧ u.toNat ∉ [38, 61] :=
  let ⟨_, _, part⟩ := List.mem_flatMap.mp mem
  mem_formByte part

theorem formText_injective (plain : WellFormed s) (plain' : WellFormed s')
    (same : formText s = formText s') : s = s' := by
  -- No byte is written with a line feed in front.
  have code := formByte_selfDelimiting.sequence (t := 10) fun b => by
    cases text : formByte b with
    | nil =>
        unfold formByte at text
        split_ifs at text
    | cons u rest =>
        refine ⟨u, rest, rfl, ?_⟩
        rintro rfl
        exact absurd (mem_formByte (text ▸ List.mem_cons_self)).1 (by decide)
  exact utf8_injective plain plain' (code.injective (congrArg (· ++ [10]) same))

/-! ### Pairs -/

theorem mem_formSerialize (mem : u ∈ formSerialize pairs) : 0x20 < u.toNat ∧ u.toNat < 0x7F := by
  rcases mem_joined mem with separator | ⟨w, found, part⟩
  · cases List.mem_singleton.mp separator
    decide
  · obtain ⟨p, _, rfl⟩ := List.mem_map.mp found
    rcases List.mem_append.mp part with name | value
    · exact ⟨(mem_formText name).1, (mem_formText name).2.1⟩
    · rcases List.mem_cons.mp value with rfl | value
      · decide
      · exact ⟨(mem_formText value).1, (mem_formText value).2.1⟩

theorem formText_free (s : Utf16) : 38 ∉ formText s ∧ 61 ∉ formText s :=
  ⟨fun mem => (mem_formText mem).2.2 (by decide), fun mem => (mem_formText mem).2.2 (by decide)⟩

theorem formSerialize_injective (plain : ∀ p ∈ pairs, WellFormed p.1 ∧ WellFormed p.2)
    (plain' : ∀ p ∈ pairs', WellFormed p.1 ∧ WellFormed p.2)
    (same : formSerialize pairs = formSerialize pairs') : pairs = pairs' := by
  have each : ∀ p : Utf16 × Utf16, formText p.1 ++ 61 :: formText p.2 ≠ [] ∧
      38 ∉ formText p.1 ++ 61 :: formText p.2 := by
    intro p
    refine ⟨List.append_ne_nil_of_right_ne_nil _ (List.cons_ne_nil _ _), fun mem => ?_⟩
    rcases List.mem_append.mp mem with name | value
    · exact (formText_free p.1).1 name
    · exact (formText_free p.2).1 (List.mem_of_ne_of_mem (by decide) value)
  refine joined_map_inj (fun p _ => each p) (fun p _ => each p) ?_ same
  intro p mem p' mem' texts
  obtain ⟨names, values⟩ := (append_sep_inj (formText_free p.1).2 (formText_free p'.1).2).mp texts
  exact Prod.ext (formText_injective (plain p mem).1 (plain' p' mem').1 names)
    (formText_injective (plain p mem).2 (plain' p' mem').2 values)

end Talos.Encoding
