import Talos.Encoding.Segments
import Mathlib.Data.List.Forall2

/-!
# Patterns of letters and wildcards

A pattern is a list of elements, each of which stands for one letter of a class or for any number
of such letters. Its shortest words have one letter for each element of the first kind, and tell the
classes of these elements (`classes_eq_or_empty`).
-/

namespace Talos.Encoding

open Computability

variable {α : Type}

inductive Wildcard (α : Type) where
  | one (p : α → Bool)
  | many (p : α → Bool)

namespace Wildcard

def language : Wildcard α → Language α
  | one p => letter p
  | many p => (letter p)∗

/-- The words of a pattern. -/
def words (pattern : List (Wildcard α)) : Language α := (pattern.map language).prod

/-- Letters of the class, as many as there have to be for the rest of the word to be accepted. -/
def acceptsAfter (p : α → Bool) (accepts : List α → Bool) : List α → Bool
  | [] => accepts []
  | a :: word => accepts (a :: word) || (p a && acceptsAfter p accepts word)

def accepts : List (Wildcard α) → List α → Bool
  | [], word => word.isEmpty
  | one _ :: _, [] => false
  | one p :: pattern, a :: word => p a && accepts pattern word
  | many p :: pattern, word => acceptsAfter p (accepts pattern) word

/-- The classes of the elements that stand for one letter. -/
def classes : List (Wildcard α) → List (α → Bool)
  | [] => []
  | one p :: pattern => p :: classes pattern
  | many _ :: pattern => classes pattern

/-- The letters of the classes, in order. -/
def Fits (ps : List (α → Bool)) (word : List α) : Prop :=
  List.Forall₂ (fun p a => p a = true) ps word

variable {p : α → Bool} {pattern : List (Wildcard α)} {word : List α} {a : α}
  {L : Language α}

theorem words_cons (w : Wildcard α) (pattern : List (Wildcard α)) :
    words (w :: pattern) = w.language * words pattern := by
  rw [words, words, List.map_cons, List.prod_cons]

theorem words_append (front back : List (Wildcard α)) :
    words (front ++ back) = words front * words back := by
  rw [words, List.map_append, List.prod_append, words, words]

/-! ### The words that are accepted -/

theorem kstar_mul_eq : (letter p)∗ * L = L + letter p * ((letter p)∗ * L) := by
  conv_lhs => rw [← Language.one_add_self_mul_kstar_eq_kstar]
  rw [add_mul, one_mul, mul_assoc]

theorem cons_mem_kstar_mul :
    a :: word ∈ (letter p)∗ * L ↔ a :: word ∈ L ∨ p a = true ∧ word ∈ (letter p)∗ * L := by
  conv_lhs => rw [kstar_mul_eq]
  rw [Language.mem_add, cons_mem_letter_mul]

theorem nil_mem_kstar_mul : [] ∈ (letter p)∗ * L ↔ [] ∈ L := by
  rw [kstar_mul_eq, Language.mem_add, or_iff_left nil_notMem_letter_mul]

theorem acceptsAfter_iff {accepts : List α → Bool} (same : ∀ word, accepts word = true ↔ word ∈ L) :
    acceptsAfter p accepts word = true ↔ word ∈ (letter p)∗ * L := by
  induction word with
  | nil => rw [acceptsAfter, same, nil_mem_kstar_mul]
  | cons a word ih =>
      rw [acceptsAfter, Bool.or_eq_true, Bool.and_eq_true, same, ih, cons_mem_kstar_mul]

theorem accepts_iff : accepts pattern word = true ↔ word ∈ words pattern := by
  induction pattern generalizing word with
  | nil =>
      rw [accepts, List.isEmpty_iff, words, List.map_nil, List.prod_nil, Language.mem_one]
  | cons w pattern ih =>
      rw [words_cons]
      cases w with
      | one p =>
          cases word with
          | nil => exact iff_of_false nofun nil_notMem_letter_mul
          | cons a word =>
              rw [accepts, Bool.and_eq_true, ih, language, cons_mem_letter_mul]
      | many p => exact acceptsAfter_iff fun word => ih

instance : DecidablePred (· ∈ words pattern) := fun _ => decidable_of_iff _ accepts_iff

theorem cons_mem_one : a :: word ∈ words (one p :: pattern) ↔ p a = true ∧ word ∈ words pattern := by
  rw [words_cons, language, cons_mem_letter_mul]

theorem mem_many_of_mem (mem : word ∈ words pattern) : word ∈ words (many p :: pattern) := by
  rw [words_cons, language, kstar_mul_eq, Language.mem_add]
  exact .inl mem

/-- Any letters of the class in front. -/
theorem append_mem_many {front : List α} (letters : ∀ a ∈ front, p a = true)
    (mem : word ∈ words pattern) : front ++ word ∈ words (many p :: pattern) := by
  induction front with
  | nil => exact mem_many_of_mem mem
  | cons a front ih =>
      have rest := ih fun b inside => letters b (.tail _ inside)
      rw [words_cons] at rest ⊢
      exact cons_mem_kstar_mul.mpr (.inr ⟨letters a List.mem_cons_self, rest⟩)

theorem mem_one (mem : word ∈ words (one p :: pattern)) :
    ∃ a rest, word = a :: rest ∧ p a = true ∧ rest ∈ words pattern := by
  cases word with
  | nil =>
      rw [words_cons, language] at mem
      exact absurd mem nil_notMem_letter_mul
  | cons a rest => exact ⟨a, rest, rfl, cons_mem_one.mp mem⟩

theorem mem_many (mem : word ∈ words (many p :: pattern)) :
    ∃ front rest, word = front ++ rest ∧ rest ∈ words pattern := by
  rw [words_cons, Language.mem_mul] at mem
  obtain ⟨front, -, rest, inner, rfl⟩ := mem
  exact ⟨front, rest, rfl, inner⟩

/-! ### The shortest words -/

theorem length_classes_le (mem : word ∈ words pattern) :
    (classes pattern).length ≤ word.length := by
  induction pattern generalizing word with
  | nil => exact Nat.zero_le _
  | cons w pattern ih =>
      cases w with
      | one p =>
          obtain ⟨a, rest, rfl, -, inner⟩ := mem_one mem
          exact Nat.succ_le_succ (ih inner)
      | many p =>
          obtain ⟨front, rest, rfl, inner⟩ := mem_many mem
          rw [classes, List.length_append]
          exact (ih inner).trans (Nat.le_add_left _ _)

/-- A word of the least length has one letter of each class. -/
theorem mem_words_shortest (length : word.length = (classes pattern).length) :
    word ∈ words pattern ↔ Fits (classes pattern) word := by
  induction pattern generalizing word with
  | nil =>
      obtain rfl := List.length_eq_zero_iff.mp length
      exact iff_of_true Language.nil_mem_one List.Forall₂.nil
  | cons w pattern ih =>
      cases w with
      | one p =>
          cases word with
          | nil => cases length
          | cons a word =>
              rw [cons_mem_one, classes, Fits, List.forall₂_cons, ih (Nat.succ.inj length), Fits]
      | many p =>
          rw [classes, ← ih length]
          refine ⟨fun mem => ?_, mem_many_of_mem⟩
          obtain ⟨front, rest, rfl, inner⟩ := mem_many mem
          have least := length_classes_le inner
          rw [classes, List.length_append] at length
          obtain rfl : front = [] := List.length_eq_zero_iff.mp (by omega)
          exact inner

/-! ### Patterns with the same words -/

variable {ps qs : List (α → Bool)}

theorem exists_fits (inhabited : ∀ p ∈ ps, ∃ a, p a = true) : ∃ word, Fits ps word := by
  induction ps with
  | nil => exact ⟨[], .nil⟩
  | cons p ps ih =>
      obtain ⟨a, holds⟩ := inhabited p List.mem_cons_self
      obtain ⟨word, fits⟩ := ih fun q mem => inhabited q (List.mem_cons_of_mem _ mem)
      exact ⟨a :: word, .cons holds fits⟩

/-- Where one word fits, the classes can be told from the words that fit. -/
theorem classes_eq {word : List α} (fits : Fits ps word) (fits' : Fits qs word)
    (same : ∀ word, Fits ps word ↔ Fits qs word) : ps = qs := by
  induction fits generalizing qs with
  | nil =>
      cases fits'
      rfl
  | @cons p a ps word holds rest ih =>
      obtain ⟨q, qs, holds', rest', rfl⟩ := List.forall₂_cons_right_iff.mp fits'
      have first : p = q := by
        funext b
        have words := same (b :: word)
        rw [Fits, Fits, List.forall₂_cons, List.forall₂_cons, and_iff_left rest,
          and_iff_left rest'] at words
        exact Bool.eq_iff_iff.mpr words
      have later : ps = qs := ih rest' fun w => by
        have words := same (a :: w)
        rwa [Fits, Fits, List.forall₂_cons, List.forall₂_cons, and_iff_right holds,
          and_iff_right holds'] at words
      rw [first, later]

theorem classes_eq_or_empty (same : ∀ word, Fits ps word ↔ Fits qs word) :
    ps = qs ∨ (∃ p ∈ ps, ∀ a, p a = false) ∧ ∃ q ∈ qs, ∀ a, q a = false := by
  by_cases some : ∃ word, Fits ps word
  · obtain ⟨word, fits⟩ := some
    exact .inl (classes_eq fits ((same word).mp fits) same)
  · have empty {rs : List (α → Bool)} (none : ¬ ∃ word, Fits rs word) :
        ∃ p ∈ rs, ∀ a, p a = false := by
      by_contra all
      refine none (exists_fits fun p mem => ?_)
      by_contra never
      exact all ⟨p, mem, fun a => Bool.eq_false_iff.mpr fun holds => never ⟨a, holds⟩⟩
    exact .inr ⟨empty some, empty fun ⟨word, fits⟩ => some ⟨word, (same word).mpr fits⟩⟩

/-- A pattern has a word exactly if none of its classes is empty. -/
theorem exists_mem_words_iff :
    (∃ word, word ∈ words pattern) ↔ ¬ ∃ p ∈ classes pattern, ∀ a, p a = false := by
  constructor
  · rintro ⟨word, mem⟩ empty
    induction pattern generalizing word with
    | nil =>
        obtain ⟨p, inside, -⟩ := empty
        cases inside
    | cons w pattern ih =>
        cases w with
        | one q =>
            obtain ⟨a, rest, rfl, holds, inner⟩ := mem_one mem
            obtain ⟨p, inside, never⟩ := empty
            rcases List.mem_cons.mp inside with rfl | later
            · rw [never a] at holds
              cases holds
            · exact ih rest inner ⟨p, later, never⟩
        | many q =>
            obtain ⟨front, rest, rfl, inner⟩ := mem_many mem
            exact ih rest inner empty
  · intro inhabited
    have each (p : α → Bool) (mem : p ∈ classes pattern) : ∃ a, p a = true := by
      by_contra never
      exact inhabited ⟨p, mem, fun a => Bool.eq_false_iff.mpr fun holds => never ⟨a, holds⟩⟩
    obtain ⟨word, fits⟩ := exists_fits each
    exact ⟨word, (mem_words_shortest fits.length_eq.symm).mpr fits⟩

/-- An element for one letter whose class is empty. -/
def Never : Wildcard α → Prop
  | one p => ∀ a, p a = false
  | many _ => False

theorem mem_classes : p ∈ classes pattern ↔ one p ∈ pattern := by
  induction pattern with
  | nil => exact iff_of_false nofun nofun
  | cons w pattern ih => cases w <;> simp [classes, ih]

theorem exists_never_iff : (∃ w ∈ pattern, w.Never) ↔ ¬ ∃ word, word ∈ words pattern := by
  rw [exists_mem_words_iff, not_not]
  constructor
  · rintro ⟨w, mem, never⟩
    cases w with
    | one p => exact ⟨p, mem_classes.mpr mem, never⟩
    | many p => exact never.elim
  · rintro ⟨p, mem, never⟩
    exact ⟨one p, mem_classes.mp mem, never⟩

/-- The elements are of one kind, and stars have the same class. -/
def Alike : Wildcard α → Wildcard α → Prop
  | one _, one _ => True
  | many p, many q => p = q
  | _, _ => False

variable {other : List (Wildcard α)}

theorem length_classes_of_alike (alike : List.Forall₂ Alike pattern other) :
    (classes pattern).length = (classes other).length := by
  induction alike with
  | nil => rfl
  | @cons w w' pattern other head _ ih =>
      cases w <;> cases w' <;> first | exact head.elim | exact congrArg (· + 1) ih | exact ih

theorem eq_of_classes (alike : List.Forall₂ Alike pattern other)
    (same : classes pattern = classes other) : pattern = other := by
  induction alike with
  | nil => rfl
  | @cons w w' pattern other head _ ih =>
      cases w with
      | one p =>
          cases w' with
          | one q =>
              obtain ⟨rfl, rest⟩ := List.cons.inj same
              rw [ih rest]
          | many q => exact head.elim
      | many p =>
          cases w' with
          | one q => exact head.elim
          | many q => rw [show p = q from head, ih same]

end Wildcard

end Talos.Encoding
