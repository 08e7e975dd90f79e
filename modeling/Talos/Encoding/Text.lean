import Talos.Encoding.Utf16
import Mathlib.Data.List.Basic
import Mathlib.Data.List.Induction
import Mathlib.Algebra.Group.Nat.Defs
import Mathlib.Data.List.Lex
import Mathlib.Data.List.Sort

/-!
# Functions on strings

`split`, `trim` and `parseInt` of JavaScript, `strip` of Python, decimal and hexadecimal text. A
list of units is split at its separators, which decimal and hexadecimal text does not contain.
-/

namespace Talos.Encoding

/-- A literal of ASCII characters. -/
def ascii (s : String) : Utf16 := s.toList.map fun c => UInt16.ofNat c.toNat

/-- A literal unifies with the list of its characters. -/
theorem ascii_ofList {l : List Char} :
    ascii (String.ofList l) = l.map fun c => UInt16.ofNat c.toNat := by
  rw [ascii, String.toList_ofList]

/-! ### Splitting -/

/-- `split(sep)` for one unit: all parts but the last, and the last. -/
def split (sep : UInt16) : Utf16 → List Utf16 × Utf16
  | [] => ([], [])
  | u :: rest =>
      let (parts, last) := split sep rest
      if u = sep then ([] :: parts, last)
      else match parts with
        | [] => ([], u :: last)
        | part :: parts => ((u :: part) :: parts, last)

/-- All parts. -/
def splitAll (sep : UInt16) (text : Utf16) : List Utf16 :=
  (split sep text).1 ++ [(split sep text).2]

/-! ### Spaces -/

/-- White space and line terminators, as `trim` and `parseInt` skip them. -/
def isStrWhiteSpace (u : UInt16) : Bool :=
  (9 ≤ u && u ≤ 13) || u == 0x20 || u == 0xA0 || u == 0x1680 || (0x2000 ≤ u && u ≤ 0x200A) ||
    u == 0x2028 || u == 0x2029 || u == 0x202F || u == 0x205F || u == 0x3000 || u == 0xFEFF

def trimSpace (text : Utf16) : Utf16 :=
  ((text.dropWhile isStrWhiteSpace).reverse.dropWhile isStrWhiteSpace).reverse

/-- The white space of Python's strings, by code points. -/
def isPythonSpace (c : Char) : Bool :=
  let n := c.toNat
  (9 ≤ n && n ≤ 13) || (28 ≤ n && n ≤ 32) || (0x2000 ≤ n && n ≤ 0x200A) ||
    [0x85, 0xA0, 0x1680, 0x2028, 0x2029, 0x202F, 0x205F, 0x3000].contains n

/-- `str.strip` -/
def strip (text : List Char) : List Char :=
  ((text.dropWhile isPythonSpace).reverse.dropWhile isPythonSpace).reverse

/-! ### Decimal text -/

def isDigit (u : UInt16) : Bool := 48 ≤ u && u ≤ 57

def digitsValue (digits : Utf16) : Nat := digits.foldl (fun n u => n * 10 + (u.toNat - 48)) 0

/-- `parseInt(text, 10)`, `none` for NaN, before the number is rounded. -/
def parseInt (text : Utf16) : Option Int :=
  let text := text.dropWhile isStrWhiteSpace
  let negative := text.head? = some 0x2D
  let text := if text.head? = some 0x2D ∨ text.head? = some 0x2B then text.tail else text
  let digits := text.takeWhile isDigit
  if digits = [] then none
  else if negative then some (-digitsValue digits) else some (digitsValue digits)

def digit (n : Nat) : UInt16 := UInt16.ofNat (48 + n % 10)

/-- The digits of a number, with `fuel` for all but the last. -/
def decimalDigits : Nat → Nat → Utf16
  | 0, n => [digit n]
  | fuel + 1, n => if n < 10 then [digit n] else decimalDigits fuel (n / 10) ++ [digit n]

def decimal (n : Nat) : Utf16 := decimalDigits n n

/-! ### Hexadecimal text -/

def isHexDigit (u : UInt16) : Bool :=
  isDigit u || (65 ≤ u && u ≤ 70) || (97 ≤ u && u ≤ 102)

def ofHexDigit (u : UInt16) : Nat :=
  if u ≤ 57 then u.toNat - 48 else if u ≤ 70 then u.toNat - 55 else u.toNat - 87

def hexUnit (n : Nat) : UInt16 := UInt16.ofNat (if n < 10 then 48 + n else 87 + n)

/-- `digest("hex")`. -/
def hex (bytes : List UInt8) : Utf16 :=
  bytes.flatMap fun b => [hexUnit (b.toNat / 16), hexUnit (b.toNat % 16)]

/-- The bytes of pairs of hexadecimal digits, up to the first that is none. -/
def hexPairs : Utf16 → List UInt8
  | u :: v :: rest =>
      if isHexDigit u && isHexDigit v then UInt8.ofNat (ofHexDigit u * 16 + ofHexDigit v) :: hexPairs rest
      else []
  | _ => []

variable {text x y : Utf16} {u sep : UInt16} {n m : Nat} {bytes : List UInt8}

/-! ### Splitting two texts -/

theorem split_append (sep : UInt16) (x y : Utf16) :
    split sep (x ++ y) =
      ((split sep x).1 ++ (split sep ((split sep x).2 ++ y)).1,
        (split sep ((split sep x).2 ++ y)).2) := by
  induction x with
  | nil => rfl
  | cons u x ih =>
      rw [List.cons_append, split, split]
      by_cases separator : u = sep
      · simp only [separator, if_true, ih, List.cons_append]
      · simp only [separator, if_false, ih]
        rcases split sep x with ⟨_ | ⟨part, parts⟩, last⟩
        · simp only [List.nil_append, List.cons_append]
          rw [split]
          simp only [separator, if_false]
        · rfl

theorem mem_split_last (mem : u ∈ (split sep x).2) : u ∈ x ∧ u ≠ sep := by
  induction x with
  | nil => cases mem
  | cons v x ih =>
      unfold split at mem
      by_cases separator : v = sep
      · simp only [separator, if_true] at mem
        obtain ⟨found, other⟩ := ih mem
        exact ⟨List.mem_cons_of_mem _ found, other⟩
      · simp only [separator, if_false] at mem
        revert ih mem
        rcases split sep x with ⟨_ | ⟨part, parts⟩, last⟩
        · intro ih mem
          rcases List.mem_cons.mp mem with rfl | later
          · exact ⟨List.mem_cons_self, separator⟩
          · obtain ⟨found, other⟩ := ih later
            exact ⟨List.mem_cons_of_mem _ found, other⟩
        · intro ih mem
          obtain ⟨found, other⟩ := ih mem
          exact ⟨List.mem_cons_of_mem _ found, other⟩

theorem split_of_notMem (none : sep ∉ x) : split sep x = ([], x) := by
  induction x with
  | nil => rfl
  | cons u x ih =>
      obtain ⟨other, rest⟩ := not_or.mp (mt List.mem_cons.mpr none)
      rw [split, ih rest]
      exact if_neg fun same => other same.symm

theorem splitAll_of_notMem (none : sep ∉ x) : splitAll sep x = [x] := by
  rw [splitAll, split_of_notMem none]
  rfl

/-- The parts of a text that goes on after a separator. -/
theorem splitAll_cons (none : sep ∉ x) (y : Utf16) :
    splitAll sep (x ++ sep :: y) = x :: splitAll sep y := by
  have rest : split sep (x ++ sep :: y) = (x :: (split sep y).1, (split sep y).2) := by
    induction x with
    | nil =>
        rw [List.nil_append, split]
        exact if_pos rfl
    | cons u x ih =>
        obtain ⟨other, notIn⟩ := not_or.mp (mt List.mem_cons.mpr none)
        rw [List.cons_append, split, ih notIn]
        exact if_neg fun same => other same.symm
  rw [splitAll, rest]
  rfl

/-- Up to the first separator, and from it on. -/
theorem cut_at (none : sep ∉ x) (y : Utf16) :
    (x ++ sep :: y).takeWhile (· ≠ sep) = x ∧ (x ++ sep :: y).dropWhile (· ≠ sep) = sep :: y := by
  induction x with
  | nil => simp
  | cons u x ih =>
      obtain ⟨other, notIn⟩ := not_or.mp (mt List.mem_cons.mpr none)
      obtain ⟨front, rest⟩ := ih notIn
      have keep : (fun v => decide (v ≠ sep)) u = true := decide_eq_true fun same => other same.symm
      rw [List.cons_append, List.takeWhile_cons, List.dropWhile_cons, if_pos keep, if_pos keep,
        front, rest]
      exact ⟨rfl, rfl⟩

theorem append_sep_inj {x' y' : Utf16} (none : sep ∉ x) (none' : sep ∉ x') :
    x ++ sep :: y = x' ++ sep :: y' ↔ x = x' ∧ y = y' := by
  constructor
  · intro same
    obtain ⟨front, rest⟩ := cut_at none y
    obtain ⟨front', rest'⟩ := cut_at none' y'
    rw [same] at front rest
    exact ⟨front.symm.trans front', (List.cons.inj (rest.symm.trans rest')).2⟩
  · rintro ⟨rfl, rfl⟩
    rfl

/-! ### Spaces -/

theorem not_isStrWhiteSpace (low : 0x20 < u.toNat) (high : u.toNat < 0x80) :
    isStrWhiteSpace u = false := by
  simp only [isStrWhiteSpace, Bool.or_eq_false_iff, Bool.and_eq_false_iff, decide_eq_false_iff_not,
    beq_eq_false_iff_ne, ne_eq, UInt16.le_iff_toNat_le, ← UInt16.toNat_inj, UInt16.reduceToNat]
  omega

theorem trimSpace_eq_self (plain : ∀ u ∈ text, isStrWhiteSpace u = false) :
    trimSpace text = text := by
  have kept : ∀ l : Utf16, (∀ u ∈ l, isStrWhiteSpace u = false) →
      l.dropWhile isStrWhiteSpace = l := by
    intro l plain
    cases l with
    | nil => rfl
    | cons u l =>
        exact List.dropWhile_cons_of_neg (by simp [plain u List.mem_cons_self])
  rw [trimSpace, kept text plain, kept text.reverse fun u mem => plain u (List.mem_reverse.mp mem),
    List.reverse_reverse]

/-! ### Digits -/

theorem digit_toNat (n : Nat) : (digit n).toNat = 48 + n % 10 :=
  UInt16.toNat_ofNat_of_lt' (by simp [UInt16.size]; omega)

theorem isDigit_iff : isDigit u = true ↔ 48 ≤ u.toNat ∧ u.toNat ≤ 57 := by
  simp [isDigit, UInt16.le_iff_toNat_le]

theorem isDigit_digit (n : Nat) : isDigit (digit n) = true := by
  rw [isDigit_iff, digit_toNat]
  omega

theorem digitsValue_concat (digits : Utf16) (u : UInt16) :
    digitsValue (digits ++ [u]) = digitsValue digits * 10 + (u.toNat - 48) := by
  rw [digitsValue, List.foldl_append]
  rfl

theorem digitsValue_lt {digits : Utf16} (all : ∀ u ∈ digits, isDigit u = true) :
    digitsValue digits < 10 ^ digits.length := by
  induction digits using List.reverseRecOn with
  | nil => exact Nat.one_pos
  | append_singleton digits u ih =>
      have front := ih fun v mem => all v (List.mem_append_left _ mem)
      have last := isDigit_iff.mp (all u (List.mem_append_right _ List.mem_cons_self))
      rw [digitsValue_concat, List.length_append, List.length_singleton, Nat.pow_succ]
      omega

theorem decimalDigits_isDigit (fuel n : Nat) : ∀ u ∈ decimalDigits fuel n, isDigit u = true := by
  induction fuel generalizing n with
  | zero =>
      intro u mem
      cases List.mem_singleton.mp mem
      exact isDigit_digit n
  | succ fuel ih =>
      intro u mem
      unfold decimalDigits at mem
      split at mem
      · cases List.mem_singleton.mp mem
        exact isDigit_digit n
      · rcases List.mem_append.mp mem with front | last
        · exact ih (n / 10) u front
        · cases List.mem_singleton.mp last
          exact isDigit_digit n

theorem digitsValue_digit (small : n < 10) : digitsValue [digit n] = n := by
  rw [← List.nil_append [digit n], digitsValue_concat, digit_toNat, digitsValue, List.foldl_nil]
  omega

theorem decimalDigits_value {fuel : Nat} (le : n ≤ fuel) :
    digitsValue (decimalDigits fuel n) = n := by
  induction fuel generalizing n with
  | zero => exact digitsValue_digit (by omega)
  | succ fuel ih =>
      unfold decimalDigits
      split
      · next small => exact digitsValue_digit small
      · rw [digitsValue_concat, ih (by omega), digit_toNat]
        omega

theorem decimal_isDigit (n : Nat) : ∀ u ∈ decimal n, isDigit u = true :=
  decimalDigits_isDigit n n

theorem digitsValue_decimal (n : Nat) : digitsValue (decimal n) = n :=
  decimalDigits_value (Nat.le_refl n)

theorem decimal_injective (same : decimal n = decimal m) : n = m := by
  rw [← digitsValue_decimal n, same, digitsValue_decimal]

theorem decimal_ne_nil (n : Nat) : decimal n ≠ [] := by
  cases n with
  | zero => exact List.cons_ne_nil _ _
  | succ n =>
      rw [decimal, decimalDigits]
      split
      · exact List.cons_ne_nil _ _
      · exact List.concat_ne_nil _ _

theorem decimalDigits_length {fuel k : Nat} (lt : n < 10 ^ (k + 1)) :
    (decimalDigits fuel n).length ≤ k + 1 := by
  induction fuel generalizing n k with
  | zero => exact Nat.le_add_left 1 k
  | succ fuel ih =>
      unfold decimalDigits
      split
      · exact Nat.le_add_left 1 k
      · next large =>
          cases k with
          | zero => omega
          | succ k =>
              have shorter : n / 10 < 10 ^ (k + 1) := by
                rw [Nat.pow_succ] at lt
                omega
              rw [List.length_append]
              exact Nat.add_le_add_right (ih shorter) 1

/-! ### Hexadecimal digits -/

theorem hexUnit_spec :
    ∀ n < 16, isHexDigit (hexUnit n) = true ∧ ofHexDigit (hexUnit n) = n := by
  decide

/-- Reading back the text of bytes. -/
theorem hexPairs_hex (bytes : List UInt8) : hexPairs (hex bytes) = bytes := by
  induction bytes with
  | nil => rfl
  | cons b bytes ih =>
      have max := b.toNat_lt
      obtain ⟨high, highValue⟩ := hexUnit_spec (b.toNat / 16) (by omega)
      obtain ⟨low, lowValue⟩ := hexUnit_spec (b.toNat % 16) (by omega)
      have pair : hex (b :: bytes) =
          hexUnit (b.toNat / 16) :: hexUnit (b.toNat % 16) :: hex bytes := rfl
      rw [pair, hexPairs, high, low, highValue, lowValue, ih]
      have whole : b.toNat / 16 * 16 + b.toNat % 16 = b.toNat := by omega
      rw [whole]
      simp

theorem hex_isHexDigit (bytes : List UInt8) : ∀ u ∈ hex bytes, isHexDigit u = true := by
  intro u mem
  obtain ⟨b, -, digits⟩ := List.mem_flatMap.mp mem
  have max := b.toNat_lt
  rcases List.mem_cons.mp digits with rfl | last
  · exact (hexUnit_spec _ (by omega)).1
  · cases List.mem_singleton.mp last
    exact (hexUnit_spec _ (by omega)).1

theorem isHexDigit_range (isHex : isHexDigit u = true) : 0x30 ≤ u.toNat ∧ u.toNat ≤ 0x66 := by
  simp only [isHexDigit, isDigit, Bool.or_eq_true, Bool.and_eq_true, decide_eq_true_eq,
    UInt16.le_iff_toNat_le, UInt16.reduceToNat] at isHex
  omega

theorem hex_length (bytes : List UInt8) : (hex bytes).length = 2 * bytes.length := by
  rw [hex, List.length_flatMap]
  simp
  omega

end Talos.Encoding

/-!
## Sorting strings

`sort` without a comparison, and `<` on strings, compare UTF-16 units.
-/

namespace Talos.Encoding

def ordinalLE (a b : Utf16) : Prop := a.map UInt16.toNat ≤ b.map UInt16.toNat

instance : DecidableRel ordinalLE := fun a b =>
  inferInstanceAs (Decidable (a.map UInt16.toNat ≤ b.map UInt16.toNat))

instance : Std.Total ordinalLE := ⟨fun _ _ => le_total _ _⟩

instance : IsTrans Utf16 ordinalLE := ⟨fun _ _ _ => le_trans⟩

instance : Std.Antisymm ordinalLE :=
  ⟨fun _ _ le ge => List.map_injective_iff.mpr (fun _ _ => UInt16.toNat_inj.mp) (le_antisymm le ge)⟩

/-- Sorting forgets the order, and nothing else. -/
theorem insertionSort_eq_iff {α : Type} {r : α → α → Prop} [DecidableRel r] [Std.Total r]
    [IsTrans α r] [Std.Antisymm r] {l l' : List α} :
    l.insertionSort r = l'.insertionSort r ↔ l.Perm l' := by
  constructor
  · intro same
    exact (List.perm_insertionSort r l).symm.trans (same ▸ List.perm_insertionSort r l')
  · intro perm
    refine List.Perm.eq_of_pairwise' (List.pairwise_insertionSort r l)
      (List.pairwise_insertionSort r l') ?_
    exact ((List.perm_insertionSort r l).trans perm).trans (List.perm_insertionSort r l').symm

end Talos.Encoding
