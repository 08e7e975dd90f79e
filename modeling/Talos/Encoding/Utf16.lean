import Mathlib.Tactic.Common

/-!
# JavaScript strings

A string is a list of UTF-16 units. `codePoints` reads it as code points, where a surrogate
without its partner stands for itself; `utf8` encodes it, with U+FFFD for such a surrogate.

`toLowerCase` maps code points by the Unicode case data, in context. The data is a
parameter: of it only the ASCII letters are spelled out, the one other code point that
becomes ASCII (KELVIN SIGN), and that every other one keeps a code point outside ASCII.
-/

namespace Talos.Encoding

abbrev CodePoint := Fin 0x110000

instance codePoints_neZero : @NeZero Nat Zero.ofOfNat0 0x110000 := ⟨by decide⟩

abbrev Utf16 := List UInt16

instance : LawfulBEq Utf16 := inferInstance

/-- A test of all units of a string goes through the string, not through all units there are. -/
instance (text : Utf16) (p : UInt16 → Prop) [DecidablePred p] : Decidable (∀ u, u ∈ text → p u) :=
  List.decidableBAll p text

/-! ### Code points -/

def isLeading (u : UInt16) : Bool := decide (0xD800 ≤ u.toNat) && decide (u.toNat < 0xDC00)

def isTrailing (u : UInt16) : Bool := decide (0xDC00 ≤ u.toNat) && decide (u.toNat < 0xE000)

def CodePoint.ofUnit (u : UInt16) : CodePoint := ⟨u.toNat, by have := u.toNat_lt; omega⟩

def CodePoint.ofPair (u v : UInt16) : CodePoint :=
  ⟨0x10000 + u.toNat % 0x400 * 0x400 + v.toNat % 0x400, by omega⟩

def codePoints : Utf16 → List CodePoint
  | [] => []
  | [u] => [.ofUnit u]
  | u :: v :: rest =>
      if isLeading u && isTrailing v then .ofPair u v :: codePoints rest
      else .ofUnit u :: codePoints (v :: rest)

def units (c : CodePoint) : Utf16 :=
  if c.val < 0x10000 then [UInt16.ofNat c.val]
  else [UInt16.ofNat (0xD800 + (c.val - 0x10000) / 0x400),
    UInt16.ofNat (0xDC00 + (c.val - 0x10000) % 0x400)]

/-! ### UTF-8 -/

/-- A surrogate that stands for itself has no encoding. -/
def scalar (c : CodePoint) : Nat :=
  if 0xD800 ≤ c.val ∧ c.val < 0xE000 then 0xFFFD else c.val

def utf8Bytes (c : Nat) : List UInt8 :=
  if c < 0x80 then [UInt8.ofNat c]
  else if c < 0x800 then [UInt8.ofNat (0xC0 + c / 0x40), UInt8.ofNat (0x80 + c % 0x40)]
  else if c < 0x10000 then
    [UInt8.ofNat (0xE0 + c / 0x1000), UInt8.ofNat (0x80 + c / 0x40 % 0x40),
      UInt8.ofNat (0x80 + c % 0x40)]
  else
    [UInt8.ofNat (0xF0 + c / 0x40000), UInt8.ofNat (0x80 + c / 0x1000 % 0x40),
      UInt8.ofNat (0x80 + c / 0x40 % 0x40), UInt8.ofNat (0x80 + c % 0x40)]

def utf8 (s : Utf16) : List UInt8 := (codePoints s).flatMap fun c => utf8Bytes (scalar c)

/-! ### Lower case -/

def kelvinSign : CodePoint := 0x212A

/-- The lower case of the code points outside ASCII, by what stands before (nearest first)
and after them. -/
structure CaseTable where
  lower : (before : List CodePoint) → CodePoint → (after : List CodePoint) → List CodePoint
  outside : ∀ before c after, 0x80 ≤ c.val → c ≠ kelvinSign →
    ∃ d ∈ lower before c after, 0x80 ≤ d.val

/-- The lower case of an ASCII code point or KELVIN SIGN. -/
def foldCodePoint (c : CodePoint) : CodePoint :=
  if 0x41 ≤ c.val ∧ c.val ≤ 0x5A then c + 0x20 else if c = kelvinSign then 0x6B else c

def lowerCodePoint (table : CaseTable) (before : List CodePoint) (c : CodePoint)
    (after : List CodePoint) : List CodePoint :=
  if c.val < 0x80 ∨ c = kelvinSign then [foldCodePoint c] else table.lower before c after

def lowerAll (table : CaseTable) (before : List CodePoint) : List CodePoint → List CodePoint
  | [] => []
  | c :: after => lowerCodePoint table before c after ++ lowerAll table (c :: before) after

def toLowerCase (table : CaseTable) (s : Utf16) : Utf16 :=
  (lowerAll table [] (codePoints s)).flatMap units

/-- A table in which no code point has a lower case. -/
def CaseTable.caseless : CaseTable where
  lower _ c _ := [c]
  outside _ c _ outside _ := ⟨c, List.mem_singleton_self c, outside⟩

variable {table : CaseTable} {s : Utf16} {u : UInt16} {c : CodePoint}
  {before cs : List CodePoint}

@[simp] theorem ofUnit_val (u : UInt16) : (CodePoint.ofUnit u).val = u.toNat := rfl

@[simp] theorem units_ofUnit (u : UInt16) : units (.ofUnit u) = [u] := by
  rw [units, ofUnit_val, if_pos u.toNat_lt, UInt16.ofNat_toNat]

/-! ### Strings of ASCII -/

/-- A unit of a string is one of its code points or half of one. -/
theorem exists_codePoint (mem : u ∈ s) :
    ∃ c ∈ codePoints s, c.val = u.toNat ∨ 0x10000 ≤ c.val := by
  induction s using codePoints.induct with
  | case1 => cases mem
  | case2 v =>
      cases List.mem_singleton.mp mem
      exact ⟨.ofUnit u, List.mem_singleton_self _, .inl rfl⟩
  | case3 v w rest pair ih =>
      rw [codePoints, if_pos pair]
      refine ⟨.ofPair v w, List.mem_cons_self, .inr ?_⟩
      simp only [CodePoint.ofPair]
      omega
  | case4 v w rest single ih =>
      rw [codePoints, if_neg single]
      rcases List.mem_cons.mp mem with rfl | mem
      · exact ⟨.ofUnit u, List.mem_cons_self, .inl rfl⟩
      · obtain ⟨c, found, unit⟩ := ih mem
        exact ⟨c, List.mem_cons_of_mem _ found, unit⟩

theorem codePoints_of_lt (below : ∀ u ∈ s, u.toNat < 0xD800) :
    codePoints s = s.map CodePoint.ofUnit := by
  induction s using codePoints.induct with
  | case1 => rfl
  | case2 v => rfl
  | case3 v w rest pair ih =>
      have leading := (Bool.and_eq_true_iff.mp (Bool.and_eq_true_iff.mp pair).1).1
      exact absurd (of_decide_eq_true leading) (by have := below v List.mem_cons_self; omega)
  | case4 v w rest single ih =>
      rw [codePoints, if_neg single, List.map_cons,
        ih fun u mem => below u (List.mem_cons_of_mem _ mem)]

theorem exists_utf8Byte {n : Nat} (outside : 0x80 ≤ n) (max : n < 0x110000) :
    ∃ b ∈ utf8Bytes n, 0x80 ≤ b.toNat := by
  unfold utf8Bytes
  rw [if_neg (by omega)]
  split
  · refine ⟨_, List.mem_cons_self, ?_⟩
    rw [UInt8.toNat_ofNat_of_lt' (by simp [UInt8.size]; omega)]
    omega
  · split
    · refine ⟨_, List.mem_cons_self, ?_⟩
      rw [UInt8.toNat_ofNat_of_lt' (by simp [UInt8.size]; omega)]
      omega
    · refine ⟨_, List.mem_cons_self, ?_⟩
      rw [UInt8.toNat_ofNat_of_lt' (by simp [UInt8.size]; omega)]
      omega

theorem scalar_outside (outside : 0x80 ≤ c.val) : 0x80 ≤ scalar c ∧ scalar c < 0x110000 := by
  have := c.isLt
  unfold scalar
  split <;> omega

/-- A string with an ASCII encoding is ASCII. -/
theorem ascii_of_utf8 (ascii : ∀ b ∈ utf8 s, b.toNat < 0x80) : ∀ u ∈ s, u.toNat < 0x80 := by
  intro u mem
  by_contra outside
  obtain ⟨c, found, unit⟩ := exists_codePoint mem
  obtain ⟨le, lt⟩ := scalar_outside (c := c) (by omega)
  obtain ⟨b, byte, high⟩ := exists_utf8Byte le lt
  have low := ascii b (List.mem_flatMap.mpr ⟨c, found, byte⟩)
  omega

theorem flatMap_eq_map {α β : Type} {f : α → List β} {g : α → β} {l : List α}
    (single : ∀ x ∈ l, f x = [g x]) : l.flatMap f = l.map g := by
  induction l with
  | nil => rfl
  | cons x l ih =>
      rw [List.flatMap_cons, single x List.mem_cons_self, List.map_cons,
        ih fun y mem => single y (List.mem_cons_of_mem _ mem)]
      rfl

theorem utf8_of_ascii (ascii : ∀ u ∈ s, u.toNat < 0x80) : utf8 s = s.map UInt16.toUInt8 := by
  rw [utf8, codePoints_of_lt fun u mem => Nat.lt_trans (ascii u mem) (by omega), List.flatMap_map]
  apply flatMap_eq_map
  intro u mem
  have lt : (CodePoint.ofUnit u).val < 0x80 := ascii u mem
  rw [scalar, if_neg (by omega), utf8Bytes, if_pos lt]
  rfl

/-! ### Lower case of ASCII letters and KELVIN SIGN -/

def foldLetter (u : UInt16) : UInt16 :=
  if 0x41 ≤ u.toNat ∧ u.toNat ≤ 0x5A then u + 0x20 else if u = 0x212A then 0x6B else u

theorem units_foldCodePoint (u : UInt16) : units (foldCodePoint (.ofUnit u)) = [foldLetter u] := by
  by_cases letter : 0x41 ≤ u.toNat ∧ u.toNat ≤ 0x5A
  · have lowered : foldCodePoint (.ofUnit u) = .ofUnit (u + 0x20) := by
      rw [foldCodePoint, ofUnit_val, if_pos letter]
      apply Fin.ext
      rw [Fin.val_add, ofUnit_val, ofUnit_val, UInt16.toNat_add]
      simp
      omega
    rw [lowered, units_ofUnit, foldLetter, if_pos letter]
  · have same : CodePoint.ofUnit u = kelvinSign ↔ u = 0x212A := by
      rw [Fin.ext_iff, ← UInt16.toNat_inj]
      rfl
    rw [foldCodePoint, ofUnit_val, if_neg letter, foldLetter, if_neg letter]
    by_cases kelvin : u = 0x212A
    · rw [if_pos kelvin, if_pos (same.mpr kelvin)]
      rfl
    · rw [if_neg kelvin, if_neg (mt same.mp kelvin), units_ofUnit]

theorem lowerAll_of_plain (plain : ∀ c ∈ cs, c.val < 0x80 ∨ c = kelvinSign) :
    lowerAll table before cs = cs.map foldCodePoint := by
  induction cs generalizing before with
  | nil => rfl
  | cons c after ih =>
      rw [lowerAll, lowerCodePoint, if_pos (plain c List.mem_cons_self),
        ih fun d mem => plain d (List.mem_cons_of_mem _ mem)]
      rfl

theorem exists_lowerAll (table : CaseTable) (before : List CodePoint) (mem : c ∈ cs)
    (outside : 0x80 ≤ c.val) (other : c ≠ kelvinSign) :
    ∃ d ∈ lowerAll table before cs, 0x80 ≤ d.val := by
  induction cs generalizing before with
  | nil => cases mem
  | cons e after ih =>
      rw [lowerAll]
      rcases List.mem_cons.mp mem with rfl | mem
      · obtain ⟨d, found, high⟩ := table.outside before c after outside other
        refine ⟨d, List.mem_append_left _ ?_, high⟩
        rwa [lowerCodePoint, if_neg (not_or.mpr ⟨by omega, other⟩)]
      · obtain ⟨d, found, high⟩ := ih (e :: before) mem
        exact ⟨d, List.mem_append_right _ found, high⟩

theorem exists_unit (outside : 0x80 ≤ c.val) : ∃ u ∈ units c, 0x80 ≤ u.toNat := by
  have max := c.isLt
  unfold units
  split
  · refine ⟨_, List.mem_cons_self, ?_⟩
    rw [UInt16.toNat_ofNat_of_lt' (by simp [UInt16.size]; omega)]
    exact outside
  · refine ⟨_, List.mem_cons_self, ?_⟩
    rw [UInt16.toNat_ofNat_of_lt' (by simp [UInt16.size]; omega)]
    omega

/-- Only ASCII and KELVIN SIGN have ASCII for their lower case. -/
theorem exists_toLowerCase (table : CaseTable) (mem : u ∈ s) (outside : 0x80 ≤ u.toNat)
    (other : u ≠ 0x212A) :
    ∃ v ∈ toLowerCase table s, 0x80 ≤ v.toNat := by
  obtain ⟨c, found, unit⟩ := exists_codePoint mem
  have notKelvin : c ≠ kelvinSign := by
    rintro rfl
    rcases unit with unit | unit
    · exact other (UInt16.toNat_inj.mp unit.symm)
    · exact absurd unit (by decide)
  obtain ⟨d, lowered, high⟩ := exists_lowerAll table [] found (by omega) notKelvin
  obtain ⟨v, part, le⟩ := exists_unit high
  exact ⟨v, List.mem_flatMap.mpr ⟨d, lowered, part⟩, le⟩

theorem toLowerCase_of_plain (plain : ∀ u ∈ s, u.toNat < 0x80 ∨ u = 0x212A) :
    toLowerCase table s = s.map foldLetter := by
  have below : ∀ u ∈ s, u.toNat < 0xD800 := by
    intro u mem
    rcases plain u mem with ascii | rfl
    · omega
    · decide
  rw [toLowerCase, codePoints_of_lt below, lowerAll_of_plain, List.flatMap_map, List.flatMap_map]
  · exact flatMap_eq_map fun u _ => units_foldCodePoint u
  · intro c mem
    obtain ⟨u, found, rfl⟩ := List.mem_map.mp mem
    rcases plain u found with ascii | rfl
    · exact .inl ascii
    · exact .inr rfl

end Talos.Encoding
