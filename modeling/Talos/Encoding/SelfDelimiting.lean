import Mathlib.Logic.Function.Basic
import Mathlib.Data.Nat.Digits.Defs

/-!
# Self-delimiting codes

A code is self-delimiting when a reader who knows it can split off one code word
from whatever follows it. Self-delimiting codes are injective, stay so when
written one after the other, and are how a concatenation of fields is shown to
determine the fields.
-/

namespace Talos.Encoding

variable {α β γ : Type}

/-- No two different inputs have code words that agree up to what follows them. -/
def SelfDelimiting (enc : α → List β) : Prop :=
  ∀ ⦃a b : α⦄ ⦃r r' : List β⦄, enc a ++ r = enc b ++ r' → a = b ∧ r = r'

namespace SelfDelimiting

theorem injective {enc : α → List β} (code : SelfDelimiting enc) : Function.Injective enc := by
  intro a b same
  exact (@code a b [] [] (by rw [same])).1

/-- A reader that gives back the input and the rest. -/
theorem of_reader {enc : α → List β} (read : List β → Option (α × List β))
    (reads : ∀ a r, read (enc a ++ r) = some (a, r)) : SelfDelimiting enc := by
  intro a b r r' same
  have both : some (a, r) = some (b, r') := by rw [← reads a r, ← reads b r', same]
  exact Prod.mk.inj (Option.some.inj both)

theorem comp {enc : α → List β} (code : SelfDelimiting enc) {f : γ → α}
    (inj : Function.Injective f) : SelfDelimiting fun c => enc (f c) := by
  intro a b r r' same
  obtain ⟨left, right⟩ := code same
  exact ⟨inj left, right⟩

/-- A fixed text in front. -/
theorem literal {enc : α → List β} (code : SelfDelimiting enc) (w : List β) :
    SelfDelimiting fun a => w ++ enc a := by
  intro a b r r' same
  rw [List.append_assoc, List.append_assoc] at same
  exact code (List.append_cancel_left same)

/-- An injective code closed by a symbol it never uses. -/
theorem closed_by {enc : α → List β} (inj : Function.Injective enc) {t : β}
    (unused : ∀ a, t ∉ enc a) : SelfDelimiting fun a => enc a ++ [t] := by
  have split : ∀ {u v r r' : List β}, t ∉ u → t ∉ v → u ++ t :: r = v ++ t :: r' →
      u = v ∧ r = r' := by
    intro u
    induction u with
    | nil =>
        intro v r r' _ free same
        cases v with
        | nil => exact ⟨rfl, (List.cons.inj same).2⟩
        | cons y v => exact absurd ((List.cons.inj same).1 ▸ List.mem_cons_self) free
    | cons x u ih =>
        intro v r r' freeU freeV same
        cases v with
        | nil => exact absurd ((List.cons.inj same).1 ▸ List.mem_cons_self) freeU
        | cons y v =>
            obtain ⟨head, tail⟩ := List.cons.inj same
            obtain ⟨words, rests⟩ := ih (fun m => freeU (List.mem_cons_of_mem _ m))
              (fun m => freeV (List.mem_cons_of_mem _ m)) tail
            exact ⟨by rw [head, words], rests⟩
  intro a b r r' same
  simp only [List.append_assoc, List.singleton_append] at same
  obtain ⟨words, rests⟩ := split (unused a) (unused b) same
  exact ⟨inj words, rests⟩

/-- A sequence of code words closed by a symbol none of them starts with. -/
theorem sequence {enc : α → List β} (code : SelfDelimiting enc) {t : β}
    (starts : ∀ a, ∃ x w, enc a = x :: w ∧ x ≠ t) :
    SelfDelimiting fun l : List α => l.flatMap enc ++ [t] := by
  intro l
  induction l with
  | nil =>
      intro l' r r' same
      cases l' with
      | nil => exact ⟨rfl, (List.cons.inj same).2⟩
      | cons b l' =>
          obtain ⟨x, w, first, differs⟩ := starts b
          simp only [List.flatMap_cons, first, List.cons_append] at same
          exact absurd (List.cons.inj same).1.symm differs
  | cons a l ih =>
      intro l' r r' same
      cases l' with
      | nil =>
          obtain ⟨x, w, first, differs⟩ := starts a
          simp only [List.flatMap_cons, first, List.cons_append] at same
          exact absurd (List.cons.inj same).1 differs
      | cons b l' =>
          simp only [List.flatMap_cons, List.append_assoc] at same
          obtain ⟨heads, rest⟩ := code same
          obtain ⟨tails, rests⟩ := @ih l' r r' (by simpa only [List.append_assoc] using rest)
          exact ⟨by rw [heads, tails], rests⟩

/-- An optional field whose absence is written as a word that no present value
starts like. -/
theorem option {enc : α → List β} (code : SelfDelimiting enc) {x : β} {w : List β}
    (starts : ∀ a, ∃ y v, enc a = y :: v ∧ y ≠ x) :
    SelfDelimiting fun o : Option α => o.elim (x :: w) enc := by
  intro o o' r r' same
  cases o with
  | none =>
      cases o' with
      | none => exact ⟨rfl, List.append_cancel_left same⟩
      | some b =>
          obtain ⟨y, v, first, differs⟩ := starts b
          simp only [Option.elim, first, List.cons_append] at same
          exact absurd (List.cons.inj same).1.symm differs
  | some a =>
      cases o' with
      | none =>
          obtain ⟨y, v, first, differs⟩ := starts a
          simp only [Option.elim, first, List.cons_append] at same
          exact absurd (List.cons.inj same).1 differs
      | some b =>
          obtain ⟨words, rests⟩ := code same
          exact ⟨by rw [words], rests⟩

end SelfDelimiting

/-! ### Decimal digits -/

theorem toDigits_injective : Function.Injective (Nat.toDigits 10) := by
  intro m n same
  rw [← @Nat.ofDigitChars_ten_toDigits m, same, Nat.ofDigitChars_ten_toDigits]

/-- Zeros in front of the digits up to a width: `padStart(width, "0")`. -/
def padded (width n : Nat) : List Char :=
  List.replicate (width - (Nat.toDigits 10 n).length) '0' ++ Nat.toDigits 10 n

theorem padded_length {width n : Nat} (pos : 0 < width) (small : n < 10 ^ width) :
    (padded width n).length = width := by
  have fits := Nat.toDigits_length 10 n width pos small
  simp only [padded, List.length_append, List.length_replicate]
  omega

theorem value_padded (width n : Nat) : Nat.ofDigitChars 10 (padded width n) 0 = n := by
  have zeros : ∀ k l, Nat.ofDigitChars 10 (List.replicate k '0' ++ l) 0 =
      Nat.ofDigitChars 10 l 0 := by
    intro k l
    induction k with
    | zero => rfl
    | succ k ih => simpa [List.replicate_succ, Nat.ofDigitChars] using ih
  rw [padded, zeros, Nat.ofDigitChars_ten_toDigits]

theorem padded_injective (width : Nat) : Function.Injective (padded width) := by
  intro m n same
  rw [← value_padded width m, same, value_padded]

/-- Two numbers their width can hold are told apart whatever follows them. -/
theorem padded_append_inj {width m n : Nat} (pos : 0 < width) (fitsM : m < 10 ^ width)
    (fitsN : n < 10 ^ width) {r r' : List Char}
    (same : padded width m ++ r = padded width n ++ r') :
    m = n ∧ r = r' := by
  have widths : (padded width m).length = (padded width n).length := by
    rw [padded_length pos fitsM, padded_length pos fitsN]
  obtain ⟨left, right⟩ := List.append_inj same widths
  exact ⟨padded_injective width left, right⟩

theorem isDigit_of_mem_padded {width n : Nat} {c : Char} (mem : c ∈ padded width n) :
    c.isDigit := by
  rcases List.mem_append.mp mem with zero | digit
  · rw [List.eq_of_mem_replicate zero]
    decide
  · exact Nat.isDigit_of_mem_toDigits (by decide) (by decide) digit

end Talos.Encoding
