import Talos.Encoding.Text
import Talos.Encoding.Words
import Mathlib.Data.List.Dedup

/-!
# `Headers`

The header lists of the Fetch standard: names are tokens, compared without case, values are byte
strings without NUL and line breaks. `entries` gives the names in lower case and in order, and the
values of one name joined by `, `, but for `set-cookie`.
-/

namespace Talos.Encoding

def isTokenUnit (u : UInt16) : Bool :=
  isDigit u || (65 ≤ u && u ≤ 90) || (97 ≤ u && u ≤ 122) ||
    [33, 35, 36, 37, 38, 39, 42, 43, 45, 46, 94, 95, 96, 124, 126].contains u

def isHttpSpace (u : UInt16) : Bool := u == 9 || u == 10 || u == 13 || u == 0x20

def isHeaderName (name : Utf16) : Bool := name ≠ [] && name.all isTokenUnit

def isHeaderValue (value : Utf16) : Bool :=
  value.all fun u => u ≤ 0xFF && u != 0 && u != 10 && u != 13

structure Headers where
  list : List (Utf16 × Utf16)
  valid : ∀ h ∈ list, isHeaderName h.1 = true ∧ isHeaderValue h.2 = true

namespace Headers

/-- `new Headers(init)`, `none` when it throws. White space around a value is dropped. -/
def ofInit (init : List (Utf16 × Utf16)) : Option Headers :=
  let list := init.map fun h => (h.1, (h.2.dropWhile isHttpSpace).rdropWhile isHttpSpace)
  if valid : ∀ h ∈ list, isHeaderName h.1 = true ∧ isHeaderValue h.2 = true then some ⟨list, valid⟩
  else none

variable (h : Headers)

/-- The names, in lower case. -/
def names : List Utf16 :=
  (h.list.map fun e => e.1.map foldLetter).dedup.insertionSort ordinalLE

/-- The values of a name in lower case. -/
def values (name : Utf16) : List Utf16 :=
  (h.list.filter fun e => e.1.map foldLetter = name).map Prod.snd

/-- `headers.get(name)`, empty where there is none. -/
def get (name : Utf16) : Utf16 := (ascii ", ").intercalate (h.values name)

def entries : List (Utf16 × Utf16) :=
  h.names.flatMap fun name =>
    if name = ascii "set-cookie" then (h.values name).map fun value => (name, value)
    else [(name, h.get name)]

variable {h} {name : Utf16} {u : UInt16}

theorem isTokenUnit_spec (token : isTokenUnit u = true) :
    0x20 < u.toNat ∧ u.toNat < 0x7F ∧ u.toNat ≠ 58 := by
  simp only [isTokenUnit, isDigit, Bool.or_eq_true, Bool.and_eq_true, decide_eq_true_iff,
    List.contains_cons, List.contains_nil, beq_iff_eq, Bool.or_false, UInt16.le_iff_toNat_le,
    ← UInt16.toNat_inj, UInt16.reduceToNat] at token
  omega

/-- Folding the letters of a token gives a token in lower case. -/
theorem foldLetter_spec (token : isTokenUnit u = true) : 0x20 < (foldLetter u).toNat ∧
    (foldLetter u).toNat < 0x7F ∧ (foldLetter u).toNat ≠ 58 ∧
    foldLetter (foldLetter u) = foldLetter u := by
  obtain ⟨low, high, other⟩ := isTokenUnit_spec token
  have kelvin : u ≠ 0x212A := by
    rintro rfl
    exact absurd high (by decide)
  by_cases letter : 0x41 ≤ u.toNat ∧ u.toNat ≤ 0x5A
  · have lower : (u + 0x20).toNat = u.toNat + 0x20 := by
      rw [UInt16.toNat_add]
      simp only [UInt16.reduceToNat]
      omega
    have notKelvin : u + 0x20 ≠ 0x212A := by
      intro same
      rw [same] at lower
      simp only [UInt16.reduceToNat] at lower
      omega
    simp only [foldLetter, if_pos letter, lower]
    rw [if_neg (by omega), if_neg notKelvin]
    exact ⟨by omega, by omega, by omega, rfl⟩
  · simp only [foldLetter, if_neg letter, if_neg kelvin]
    exact ⟨low, high, other, trivial⟩

/-! ### The names of a header list -/

theorem mem_names : name ∈ h.names ↔ ∃ e ∈ h.list, e.1.map foldLetter = name := by
  rw [names, List.mem_insertionSort, List.mem_dedup, List.mem_map]

theorem names_sorted (h : Headers) : h.names.Pairwise ordinalLE := List.pairwise_insertionSort _ _

theorem names_nodup (h : Headers) : h.names.Nodup :=
  (List.perm_insertionSort _ _).nodup_iff.mpr (List.nodup_dedup _)

theorem names_spec (mem : name ∈ h.names) : name ≠ [] ∧ name.map foldLetter = name ∧
    ∀ u ∈ name, 0x20 < u.toNat ∧ u.toNat < 0x7F ∧ u.toNat ≠ 58 := by
  obtain ⟨e, found, rfl⟩ := mem_names.mp mem
  obtain ⟨nonempty, tokens⟩ := Bool.and_eq_true_iff.mp (h.valid e found).1
  have token := List.all_eq_true.mp tokens
  refine ⟨fun none => of_decide_eq_true nonempty (List.map_eq_nil_iff.mp none), ?_, ?_⟩
  · rw [List.map_map]
    exact List.map_congr_left fun u part => (foldLetter_spec (token u part)).2.2.2
  · rintro _ part
    obtain ⟨u, inside, rfl⟩ := List.mem_map.mp part
    obtain ⟨low, high, other, -⟩ := foldLetter_spec (token u inside)
    exact ⟨low, high, other⟩

theorem mem_get (mem : u ∈ h.get name) : u.toNat ≤ 0xFF := by
  rcases mem_joined mem with separator | ⟨value, among, part⟩
  · have low : ∀ u ∈ ascii ", ", u.toNat ≤ 0xFF := by decide
    exact low u separator
  · obtain ⟨e, found, rfl⟩ := List.mem_map.mp among
    have units := List.all_eq_true.mp (h.valid e (List.mem_filter.mp found).1).2 u part
    simp only [Bool.and_eq_true, decide_eq_true_iff] at units
    exact UInt16.le_iff_toNat_le.mp units.1.1.1

end Headers

end Talos.Encoding
