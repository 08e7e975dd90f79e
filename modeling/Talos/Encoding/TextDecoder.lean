import Talos.Encoding.Utf16

/-!
# `TextDecoder` for UTF-8

The UTF-8 decoder of the Encoding standard as a machine over bytes, and `decode` with
`stream: true`: a character cut by the end of one chunk is finished in the next. A byte that
cannot go on with a character ends it with U+FFFD and is read again. The first character
is dropped if it is a byte order mark.
-/

namespace Talos.Encoding

/-- The decoder within a character: how many bytes are missing, the value so far and the
bounds of the next byte. -/
structure Utf8Decoder where
  missing : Nat
  value : Nat
  lower : Nat
  upper : Nat
  deriving DecidableEq

def Utf8Decoder.fresh : Utf8Decoder := ⟨0, 0, 0x80, 0xBF⟩

/-- The first byte of a character. -/
def firstByte (b : Nat) : List Nat × Utf8Decoder :=
  if b < 0x80 then ([b], .fresh)
  else if 0xC2 ≤ b ∧ b ≤ 0xDF then ([], ⟨1, b - 0xC0, 0x80, 0xBF⟩)
  else if 0xE0 ≤ b ∧ b ≤ 0xEF then
    ([], ⟨2, b - 0xE0, if b = 0xE0 then 0xA0 else 0x80, if b = 0xED then 0x9F else 0xBF⟩)
  else if 0xF0 ≤ b ∧ b ≤ 0xF4 then
    ([], ⟨3, b - 0xF0, if b = 0xF0 then 0x90 else 0x80, if b = 0xF4 then 0x8F else 0xBF⟩)
  else ([0xFFFD], .fresh)

def Utf8Decoder.step (d : Utf8Decoder) (b : Nat) : List Nat × Utf8Decoder :=
  if d.missing = 0 then firstByte b
  else if b < d.lower ∨ d.upper < b then
    let (characters, next) := firstByte b
    (0xFFFD :: characters, next)
  else
    let value := d.value * 0x40 + (b - 0x80)
    if d.missing = 1 then ([value], .fresh) else ([], ⟨d.missing - 1, value, 0x80, 0xBF⟩)

def Utf8Decoder.run (d : Utf8Decoder) : List UInt8 → List Nat × Utf8Decoder
  | [] => ([], d)
  | b :: bytes =>
      let (characters, d) := d.step b.toNat
      let (rest, d) := d.run bytes
      (characters ++ rest, d)

/-- Drop a byte order mark that is the first character of the stream. -/
def dropBom (bomSeen : Bool) : List Nat → List Nat × Bool
  | [] => ([], bomSeen)
  | c :: rest => (if bomSeen = false ∧ c = 0xFEFF then rest else c :: rest, true)

structure TextDecoder where
  decoder : Utf8Decoder
  bomSeen : Bool
  deriving DecidableEq

def TextDecoder.fresh : TextDecoder := ⟨.fresh, false⟩

def charUnits (c : Nat) : Utf16 := units ⟨c % 0x110000, Nat.mod_lt _ (by omega)⟩

/-- `decode(value, { stream: true })`. -/
def TextDecoder.decode (t : TextDecoder) (value : List UInt8) : Utf16 × TextDecoder :=
  let (characters, decoder) := t.decoder.run value
  let (characters, bomSeen) := dropBom t.bomSeen characters
  (characters.flatMap charUnits, ⟨decoder, bomSeen⟩)

/-- `new TextDecoder().decode(value)`: an unfinished character ends with U+FFFD. -/
def decodeAll (value : List UInt8) : Utf16 :=
  let (characters, decoder) := Utf8Decoder.fresh.run value
  let characters := if decoder.missing = 0 then characters else characters ++ [0xFFFD]
  (dropBom false characters).1.flatMap charUnits

/-! ### Cuts -/

theorem Utf8Decoder.run_append (d : Utf8Decoder) (a b : List UInt8) :
    d.run (a ++ b) = ((d.run a).1 ++ ((d.run a).2.run b).1, ((d.run a).2.run b).2) := by
  induction a generalizing d with
  | nil => rfl
  | cons x a ih =>
      simp only [List.cons_append, Utf8Decoder.run]
      rw [ih, List.append_assoc]

theorem dropBom_append (bomSeen : Bool) (a b : List Nat) :
    dropBom bomSeen (a ++ b) =
      ((dropBom bomSeen a).1 ++ (dropBom (dropBom bomSeen a).2 b).1,
        (dropBom (dropBom bomSeen a).2 b).2) := by
  cases a with
  | nil => rfl
  | cons c rest =>
      have seen : dropBom true b = (b, true) := by
        cases b with
        | nil => rfl
        | cons d rest => exact congrArg (·, true) (if_neg fun both => Bool.noConfusion both.1)
      have first : dropBom bomSeen (c :: rest) =
          (if bomSeen = false ∧ c = 0xFEFF then rest else c :: rest, true) := rfl
      rw [first]
      dsimp only
      rw [seen, List.cons_append, dropBom]
      split <;> rfl

/-- Decoding in two chunks is decoding at once. -/
theorem TextDecoder.decode_append (t : TextDecoder) (a b : List UInt8) :
    t.decode (a ++ b) =
      ((t.decode a).1 ++ ((t.decode a).2.decode b).1, ((t.decode a).2.decode b).2) := by
  simp only [TextDecoder.decode]
  rw [Utf8Decoder.run_append]
  simp only
  rw [dropBom_append, List.flatMap_append]

theorem TextDecoder.decode_nil (t : TextDecoder) : t.decode [] = ([], t) := rfl

end Talos.Encoding
