import Talos.Encoding.Text
import Mathlib.Data.List.Basic
import Mathlib.Data.List.DropRight

/-!
# Base64

Encoding with padding, and decoding as Python's `base64.b64decode` does it: characters
outside the alphabet are passed over, and a complete padding ends the text.
-/

namespace Talos.Encoding

def base64Alphabet : List Char :=
  "ABCDEFGHIJKLMNOPQRSTUVWXYZabcdefghijklmnopqrstuvwxyz0123456789+/".toList

def base64Char (n : Nat) : Char := base64Alphabet.getD n '='

def base64Value (c : Char) : Option Nat :=
  let i := base64Alphabet.idxOf c
  if i < 64 then some i else none

/-- `base64.b64encode`. -/
def base64 : List UInt8 → List Char
  | [] => []
  | [a] => [base64Char (a.toNat / 4), base64Char (a.toNat % 4 * 16), '=', '=']
  | [a, b] =>
      [base64Char (a.toNat / 4), base64Char (a.toNat % 4 * 16 + b.toNat / 16),
        base64Char (b.toNat % 16 * 4), '=']
  | a :: b :: c :: rest =>
      base64Char (a.toNat / 4) :: base64Char (a.toNat % 4 * 16 + b.toNat / 16) ::
        base64Char (b.toNat % 16 * 4 + c.toNat / 64) :: base64Char (c.toNat % 64) :: base64 rest

/-- What is left of the four characters being read: their number, the bits that are not in a
byte yet, and how many characters of padding came. -/
structure Quad where
  pos : Nat
  left : Nat
  pads : Nat

/-- One more character of the alphabet: the byte it completes, if any. -/
def Quad.next (quad : Quad) (value : Nat) : Option UInt8 × Quad :=
  match quad.pos with
  | 0 => (none, ⟨1, value, 0⟩)
  | 1 => (some (UInt8.ofNat (quad.left * 4 + value / 16)), ⟨2, value % 16, 0⟩)
  | 2 => (some (UInt8.ofNat (quad.left * 16 + value / 4)), ⟨3, value % 4, 0⟩)
  | _ => (some (UInt8.ofNat (quad.left * 64 + value)), ⟨0, 0, 0⟩)

def base64Decode (quad : Quad) : List Char → Option (List UInt8)
  | [] => if quad.pos = 0 then some [] else none
  | c :: rest =>
      if c = '=' then
        if 2 ≤ quad.pos then
          if 4 ≤ quad.pos + (quad.pads + 1) then some []
          else base64Decode { quad with pads := quad.pads + 1 } rest
        else base64Decode quad rest
      else match base64Value c with
        | none => base64Decode quad rest
        | some value =>
            let (byte, quad) := quad.next value
            (base64Decode quad rest).map (byte.toList ++ ·)

/-- `base64.b64decode`, `none` when it raises. -/
def b64decode (text : String) : Option (List UInt8) :=
  if text.toList.all (·.toNat < 128) then base64Decode ⟨0, 0, 0⟩ text.toList else none

def b64encode (bytes : List UInt8) : String := String.ofList (base64 bytes)

theorem base64Char_read : ∀ n < 64, base64Char n ≠ '=' ∧ base64Value (base64Char n) = some n ∧
    (base64Char n).toNat < 128 := by
  decide +kernel

theorem base64Decode_char {quad : Quad} {n : Nat} (lt : n < 64) (rest : List Char) :
    base64Decode quad (base64Char n :: rest) =
      (base64Decode (quad.next n).2 rest).map ((quad.next n).1.toList ++ ·) := by
  obtain ⟨notPad, value, -⟩ := base64Char_read n lt
  rw [base64Decode, if_neg notPad, value]

theorem base64Decode_pads {left : Nat} :
    base64Decode ⟨2, left, 0⟩ ['=', '='] = some [] ∧ base64Decode ⟨3, left, 0⟩ ['='] = some [] :=
  ⟨rfl, rfl⟩

/-- Bytes are read back from their sextets. -/
theorem byte_of_parts (a : UInt8) {high low : Nat} (parts : a.toNat = high + low) :
    UInt8.ofNat (high + low) = a := by
  rw [← parts, UInt8.ofNat_toNat]

theorem base64Decode_base64 (bytes : List UInt8) :
    base64Decode ⟨0, 0, 0⟩ (base64 bytes) = some bytes := by
  induction bytes using base64.induct with
  | case1 => rfl
  | case2 a =>
      have top := a.toNat_lt
      rw [base64, base64Decode_char (by omega), base64Decode_char (by omega)]
      simp only [Quad.next, base64Decode_pads, Option.map_some, Option.toList, List.nil_append,
        List.cons_append]
      rw [byte_of_parts a (by omega)]
  | case3 a b =>
      have top := a.toNat_lt
      have top' := b.toNat_lt
      rw [base64, base64Decode_char (by omega), base64Decode_char (by omega),
        base64Decode_char (by omega)]
      simp only [Quad.next, base64Decode_pads, Option.map_some, Option.toList, List.nil_append,
        List.cons_append]
      rw [byte_of_parts a (by omega), byte_of_parts b (by omega)]
  | case4 a b c rest ih =>
      have top := a.toNat_lt
      have top' := b.toNat_lt
      have top'' := c.toNat_lt
      rw [base64, base64Decode_char (by omega), base64Decode_char (by omega),
        base64Decode_char (by omega), base64Decode_char (by omega)]
      simp only [Quad.next, ih, Option.map_some, Option.toList, List.nil_append, List.cons_append]
      rw [byte_of_parts a (by omega), byte_of_parts b (by omega), byte_of_parts c (by omega)]

theorem base64_ascii (bytes : List UInt8) : ∀ c ∈ base64 bytes, c.toNat < 128 := by
  have read {n : Nat} (lt : n < 64) : (base64Char n).toNat < 128 := (base64Char_read n lt).2.2
  induction bytes using base64.induct with
  | case1 => exact List.forall_mem_nil _
  | case2 a =>
      have top := a.toNat_lt
      simp only [base64, List.forall_mem_cons]
      exact ⟨read (by omega), read (by omega), by decide, by decide, List.forall_mem_nil _⟩
  | case3 a b =>
      have top := a.toNat_lt
      have top' := b.toNat_lt
      simp only [base64, List.forall_mem_cons]
      exact ⟨read (by omega), read (by omega), read (by omega), by decide, List.forall_mem_nil _⟩
  | case4 a b c rest ih =>
      have top := a.toNat_lt
      have top' := b.toNat_lt
      have top'' := c.toNat_lt
      simp only [base64, List.forall_mem_cons]
      exact ⟨read (by omega), read (by omega), read (by omega), read (by omega), ih⟩

theorem b64decode_b64encode (bytes : List UInt8) : b64decode (b64encode bytes) = some bytes := by
  have ascii : (b64encode bytes).toList.all (·.toNat < 128) = true := by
    rw [b64encode, String.toList_ofList, List.all_eq_true]
    intro c mem
    exact decide_eq_true (base64_ascii bytes c mem)
  rw [b64decode, if_pos ascii, b64encode, String.toList_ofList, base64Decode_base64]

end Talos.Encoding

/-!
## Base64 for URLs

Base64 with `-` and `_` for `+` and `/` and without the padding, which the number of the other
characters tells.
-/

namespace Talos.Encoding

/-- `.replace(/\+/g, "-").replace(/\//g, "_")` on one character. -/
def base64UrlUnit (c : Char) : UInt16 :=
  if c = '+' then 45 else if c = '/' then 95 else UInt16.ofNat c.toNat

def base64Url (bytes : List UInt8) : Utf16 :=
  ((base64 bytes).map base64UrlUnit).rdropWhile (· = 61)

example : base64Url [0xFB, 0xEF, 0xFF, 1] = [45, 45, 95, 95, 65, 81] := by decide

/-- A character of the alphabet, read back from its unit. -/
def ofBase64UrlUnit (u : UInt16) : Char :=
  if u = 45 then '+' else if u = 95 then '/' else Char.ofNat u.toNat

theorem base64UrlUnit_spec : ∀ n < 64,
    ofBase64UrlUnit (base64UrlUnit (base64Char n)) = base64Char n ∧
      0x20 < (base64UrlUnit (base64Char n)).toNat ∧
      (base64UrlUnit (base64Char n)).toNat < 0x7F ∧ base64UrlUnit (base64Char n) ≠ 61 := by
  decide +kernel

/-- A text in whole quadruples, with at most two characters of padding. -/
theorem base64_shape (bytes : List UInt8) :
    ∃ core k, base64 bytes = core ++ List.replicate k '=' ∧ k ≤ 2 ∧ (core.length + k) % 4 = 0 ∧
      ∀ c ∈ core, ∃ n < 64, c = base64Char n := by
  have char : ∀ {n : Nat}, n < 64 → ∃ m < 64, base64Char n = base64Char m :=
    fun {n} lt => ⟨n, lt, rfl⟩
  induction bytes using base64.induct with
  | case1 => exact ⟨[], 0, rfl, by decide, rfl, List.forall_mem_nil _⟩
  | case2 a =>
      have top := a.toNat_lt
      refine ⟨[_, _], 2, rfl, by decide, by simp, ?_⟩
      simp only [List.forall_mem_cons]
      exact ⟨char (by omega), char (by omega), List.forall_mem_nil _⟩
  | case3 a b =>
      have top := a.toNat_lt
      have top' := b.toNat_lt
      refine ⟨[_, _, _], 1, rfl, by decide, by simp, ?_⟩
      simp only [List.forall_mem_cons]
      exact ⟨char (by omega), char (by omega), char (by omega), List.forall_mem_nil _⟩
  | case4 a b c rest ih =>
      have top := a.toNat_lt
      have top' := b.toNat_lt
      have top'' := c.toNat_lt
      obtain ⟨core, k, text, few, whole, chars⟩ := ih
      refine ⟨_ :: _ :: _ :: _ :: core, k, by rw [base64, text]; rfl, few, ?_, ?_⟩
      · simp only [List.length_cons]
        omega
      · simp only [List.forall_mem_cons]
        exact ⟨char (by omega), char (by omega), char (by omega), char (by omega), chars⟩

theorem base64_injective {bytes bytes' : List UInt8} (same : base64 bytes = base64 bytes') :
    bytes = bytes' := by
  apply Option.some.inj
  rw [← base64Decode_base64 bytes, same, base64Decode_base64]

/-- The padding is dropped, and only that. -/
theorem base64Url_eq {bytes : List UInt8} {core : List Char} {k : Nat}
    (text : base64 bytes = core ++ List.replicate k '=')
    (chars : ∀ c ∈ core, ∃ n < 64, c = base64Char n) :
    base64Url bytes = core.map base64UrlUnit := by
  have unpadded : (core.map base64UrlUnit).rdropWhile (· = 61) = core.map base64UrlUnit := by
    refine List.rdropWhile_eq_self_iff.mpr fun ne => ?_
    obtain ⟨c, mem, unit⟩ := List.mem_map.mp (List.getLast_mem ne)
    obtain ⟨n, lt, rfl⟩ := chars c mem
    rw [← unit]
    exact fun pad => (base64UrlUnit_spec n lt).2.2.2 (of_decide_eq_true pad)
  have pads : ∀ u ∈ (List.replicate k (base64UrlUnit '=')).reverse, decide (u = 61) = true := by
    intro u mem
    rw [List.eq_of_mem_replicate (List.mem_reverse.mp mem)]
    rfl
  rw [base64Url, text, List.map_append, List.map_replicate, List.rdropWhile, List.reverse_append,
    List.dropWhile_append_of_pos pads]
  exact unpadded

theorem mem_base64Url {bytes : List UInt8} {u : UInt16} (mem : u ∈ base64Url bytes) :
    0x20 < u.toNat ∧ u.toNat < 0x7F := by
  obtain ⟨core, k, text, -, -, chars⟩ := base64_shape bytes
  rw [base64Url_eq text chars] at mem
  obtain ⟨c, found, rfl⟩ := List.mem_map.mp mem
  obtain ⟨n, lt, rfl⟩ := chars c found
  exact ⟨(base64UrlUnit_spec n lt).2.1, (base64UrlUnit_spec n lt).2.2.1⟩

theorem base64Url_injective : Function.Injective base64Url := by
  intro bytes bytes' same
  obtain ⟨core, k, text, few, whole, chars⟩ := base64_shape bytes
  obtain ⟨core', k', text', few', whole', chars'⟩ := base64_shape bytes'
  have read : ∀ {l : List Char}, (∀ c ∈ l, ∃ n < 64, c = base64Char n) →
      (l.map base64UrlUnit).map ofBase64UrlUnit = l := by
    intro l chars
    rw [List.map_map]
    conv_rhs => rw [← List.map_id l]
    refine List.map_congr_left fun c mem => ?_
    obtain ⟨n, lt, rfl⟩ := chars c mem
    exact (base64UrlUnit_spec n lt).1
  have cores : core = core' := by
    rw [← read chars, ← base64Url_eq text chars, same, base64Url_eq text' chars', read chars']
  have pads : k = k' := by
    rw [cores] at whole
    omega
  exact base64_injective (by rw [text, text', cores, pads])

end Talos.Encoding
