import Mathlib.Computability.Language

/-!
# Words in segments

The language `item⁺ (sep item⁺)*` over two classes of letters, `item` and `sep`. It is written with
the operations of Kleene algebra; its residuals by one letter make it a two-state automaton: after
an item, and before one.
-/

namespace Talos.Encoding

open Computability

variable {α : Type} {p item sep : α → Bool} {b : α} {word : List α} {L : Language α}

/-- The words of one letter of the class. -/
def letter (p : α → Bool) : Language α := {word | ∃ b, p b = true ∧ word = [b]}

/-- One item or more. -/
def segment (item : α → Bool) : Language α := letter item * (letter item)∗

/-- Segments with one separator between two of them. -/
def segments (item sep : α → Bool) : Language α :=
  segment item * (letter sep * segment item)∗

/-- What may follow an item of a segmented word. -/
def afterItem (item sep : α → Bool) : Language α :=
  (letter item)∗ * (letter sep * segment item)∗

theorem nil_notMem_letter_mul : [] ∉ letter p * L := by
  intro mem
  obtain ⟨first, ⟨b, _, rfl⟩, rest, _, joined⟩ := Language.mem_mul.mp mem
  exact List.cons_ne_nil _ _ joined

theorem cons_mem_letter_mul : b :: word ∈ letter p * L ↔ p b = true ∧ word ∈ L := by
  rw [Language.mem_mul]
  constructor
  · rintro ⟨first, ⟨c, ofClass, rfl⟩, rest, mem, joined⟩
    obtain ⟨rfl, rfl⟩ := List.cons.inj joined
    exact ⟨ofClass, mem⟩
  · rintro ⟨ofClass, mem⟩
    exact ⟨[b], ⟨b, ofClass, rfl⟩, word, mem, rfl⟩

/-! ### The two equations -/

theorem segments_eq : segments item sep = letter item * afterItem item sep := by
  calc segments item sep
      = letter item * (letter item)∗ * (letter sep * segment item)∗ := rfl
    _ = letter item * afterItem item sep := by rw [mul_assoc, afterItem]

theorem afterItem_eq :
    afterItem item sep = 1 + letter sep * segments item sep + letter item * afterItem item sep := by
  have blocks : (letter sep * segment item)∗ = 1 + letter sep * segments item sep := by
    conv_lhs => rw [← Language.one_add_self_mul_kstar_eq_kstar]
    rw [mul_assoc, segments]
  calc afterItem item sep
      = (1 + letter item * (letter item)∗) * (letter sep * segment item)∗ := by
        rw [Language.one_add_self_mul_kstar_eq_kstar, afterItem]
    _ = (letter sep * segment item)∗ + letter item * afterItem item sep := by
        rw [add_mul, one_mul, mul_assoc, afterItem]
    _ = 1 + letter sep * segments item sep + letter item * afterItem item sep := by
        rw [blocks]

/-! ### The automaton -/

@[simp] theorem nil_notMem_segments : [] ∉ segments item sep := by
  rw [segments_eq]
  exact nil_notMem_letter_mul

@[simp] theorem cons_mem_segments :
    b :: word ∈ segments item sep ↔ item b = true ∧ word ∈ afterItem item sep := by
  rw [segments_eq]
  exact cons_mem_letter_mul

@[simp] theorem nil_mem_afterItem : [] ∈ afterItem item sep := by
  rw [afterItem_eq, Language.mem_add, Language.mem_add]
  exact Or.inl (Or.inl Language.nil_mem_one)

@[simp] theorem cons_mem_afterItem : b :: word ∈ afterItem item sep ↔
    sep b = true ∧ word ∈ segments item sep ∨ item b = true ∧ word ∈ afterItem item sep := by
  conv_lhs => rw [afterItem_eq]
  rw [Language.mem_add, Language.mem_add, cons_mem_letter_mul, cons_mem_letter_mul,
    Language.mem_one]
  simp only [reduceCtorEq, false_or]

end Talos.Encoding
