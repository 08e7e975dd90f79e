import Talos.Encoding.SelfDelimiting
import Talos.Encoding.Words

/-!
# JSON values and their text

`JSON.stringify` on a JSON value. A value can be read back from its text: the text of a string ends
at its closing quote, that of a number where something else than a number goes on, and the first
unit tells which kind of value comes (`text_injective`).
-/

namespace Talos.Encoding

/-! ### Strings -/

/-- The one-letter escapes. -/
def shortEscapes : List (Nat × UInt16) :=
  [(34, 34), (92, 92), (8, 98), (12, 102), (10, 110), (13, 114), (9, 116)]

def unicodeEscape (n : Nat) : Utf16 :=
  [92, 117, hexUnit (n / 4096 % 16), hexUnit (n / 256 % 16), hexUnit (n / 16 % 16), hexUnit (n % 16)]

/-- A surrogate without its partner is written in hexadecimal. -/
def quoteCodePoint (c : CodePoint) : Utf16 :=
  match shortEscapes.lookup c.val with
  | some letter => [92, letter]
  | none =>
    if c.val < 0x20 ∨ 0xD800 ≤ c.val ∧ c.val < 0xE000 then unicodeEscape c.val else units c

/-- `QuoteJSONString` -/
def quoteString (s : Utf16) : Utf16 := 34 :: ((codePoints s).flatMap quoteCodePoint ++ [34])

/-- Reads one code point back. -/
def unquote : Utf16 → Option (CodePoint × Utf16)
  | [] => none
  | 92 :: letter :: rest =>
      if letter = 117 then some (.ofUnit (.ofNat (ofHexDigit (rest.getD 0 0) * 4096 +
        ofHexDigit (rest.getD 1 0) * 256 + ofHexDigit (rest.getD 2 0) * 16 +
        ofHexDigit (rest.getD 3 0))), rest.drop 4)
      else ((shortEscapes.map Prod.swap).lookup letter).map fun n => (.ofUnit (.ofNat n), rest)
  | [u] => some (.ofUnit u, [])
  | u :: v :: rest =>
      if isLeading u && isTrailing v then some (.ofPair u v, rest)
      else some (.ofUnit u, v :: rest)

theorem lt_size {n : Nat} (lt : n < 0x10000) : n < UInt16.size := lt

theorem units_ofPair {u v : UInt16} (leading : isLeading u = true) (trailing : isTrailing v = true) :
    units (.ofPair u v) = [u, v] := by
  simp only [isLeading, isTrailing, Bool.and_eq_true, decide_eq_true_iff] at leading trailing
  have high : 0xD800 + (0x10000 + u.toNat % 0x400 * 0x400 + v.toNat % 0x400 - 0x10000) / 0x400 =
      u.toNat := by omega
  have low : 0xDC00 + (0x10000 + u.toNat % 0x400 * 0x400 + v.toNat % 0x400 - 0x10000) % 0x400 =
      v.toNat := by omega
  rw [units, CodePoint.ofPair, if_neg (by simp only; omega), high, low, UInt16.ofNat_toNat,
    UInt16.ofNat_toNat]

theorem flatMap_units (s : Utf16) : (codePoints s).flatMap units = s := by
  induction s using codePoints.induct with
  | case1 => rfl
  | case2 u => exact (List.flatMap_singleton _ _).trans (units_ofUnit u)
  | case3 u v rest pair ih =>
    obtain ⟨leading, trailing⟩ := Bool.and_eq_true_iff.mp pair
    rw [codePoints, if_pos pair, List.flatMap_cons, ih, units_ofPair leading trailing]
    rfl
  | case4 u v rest single ih =>
    rw [codePoints, if_neg single, List.flatMap_cons, ih, units_ofUnit]
    rfl

theorem codePoints_injective : Function.Injective codePoints :=
  Function.LeftInverse.injective flatMap_units

/-- A code point that is no surrogate, or half of a pair and the other half. -/
theorem units_cases (c : CodePoint) (plain : ¬ (0xD800 ≤ c.val ∧ c.val < 0xE000)) :
    (∃ u : UInt16, c = .ofUnit u ∧ units c = [u] ∧ isLeading u = false) ∨
    ∃ u v, isLeading u = true ∧ isTrailing v = true ∧ c = .ofPair u v ∧ units c = [u, v] := by
  by_cases small : c.val < 0x10000
  · have same : (UInt16.ofNat c.val).toNat = c.val := UInt16.toNat_ofNat_of_lt' small
    refine .inl ⟨UInt16.ofNat c.val, Fin.ext same.symm, if_pos small, ?_⟩
    simp only [isLeading, same, Bool.and_eq_false_iff, decide_eq_false_iff_not]
    omega
  · have lt := c.isLt
    have high : (UInt16.ofNat (0xD800 + (c.val - 0x10000) / 0x400)).toNat =
        0xD800 + (c.val - 0x10000) / 0x400 := UInt16.toNat_ofNat_of_lt' (lt_size (by omega))
    have low : (UInt16.ofNat (0xDC00 + (c.val - 0x10000) % 0x400)).toNat =
        0xDC00 + (c.val - 0x10000) % 0x400 := UInt16.toNat_ofNat_of_lt' (lt_size (by omega))
    refine .inr ⟨_, _, ?_, ?_, ?_, if_neg small⟩
    · simp only [isLeading, high, Bool.and_eq_true, decide_eq_true_iff]
      omega
    · simp only [isTrailing, low, Bool.and_eq_true, decide_eq_true_iff]
      omega
    · refine Fin.ext ?_
      simp only [CodePoint.ofPair, high, low]
      omega

theorem ofUnit_ofNat {c : CodePoint} (small : c.val < 0x10000) :
    CodePoint.ofUnit (.ofNat c.val) = c :=
  Fin.ext (UInt16.toNat_ofNat_of_lt' (lt_size small))

theorem shortEscapes_read : ∀ p ∈ shortEscapes,
    p.2 ≠ 117 ∧ (shortEscapes.map Prod.swap).lookup p.2 = some p.1 ∧ p.1 < 0x10000 := by decide

theorem unquote_quoteCodePoint (c : CodePoint) (rest : Utf16) :
    unquote (quoteCodePoint c ++ rest) = some (c, rest) := by
  unfold quoteCodePoint
  split
  · next letter found =>
    obtain ⟨_, _, split, -⟩ := List.lookup_eq_some_iff.mp found
    have listed : (c.val, letter) ∈ shortEscapes := by
      rw [split]
      exact List.mem_append_right _ List.mem_cons_self
    obtain ⟨notHex, read⟩ := shortEscapes_read _ listed
    obtain ⟨notHex, read, small⟩ := shortEscapes_read _ listed
    simp only [List.cons_append, List.nil_append, unquote, if_neg notHex, read, Option.map_some,
      ofUnit_ofNat small]
  · next plain =>
    split
    · next escaped =>
      have digit (n : Nat) : ofHexDigit (hexUnit (n % 16)) = n % 16 :=
        (hexUnit_spec _ (Nat.mod_lt _ (by decide))).2
      have lt := c.isLt
      have value : c.val / 4096 % 16 * 4096 + c.val / 256 % 16 * 256 + c.val / 16 % 16 * 16 +
          c.val % 16 = c.val := by omega
      have back := ofUnit_ofNat (c := c) (by omega)
      simp only [unicodeEscape, List.cons_append, List.nil_append, unquote, if_true,
        List.getD_cons_zero, List.getD_cons_succ, digit, value, back, List.drop_succ_cons,
        List.drop_zero]
    · next verbatim =>
      have notSlash : c ≠ .ofUnit 92 := by
        rintro rfl
        exact absurd plain (by decide)
      obtain ⟨u, rfl, written, single⟩ | ⟨u, v, leading, trailing, rfl, written⟩ :=
        units_cases c fun surrogate => verbatim (.inr surrogate)
      · have other : u ≠ 92 := fun same => notSlash (congrArg _ same)
        rw [written]
        cases rest with
        | nil => simp [unquote]
        | cons v rest => simp [unquote, single]
      · have other : u ≠ 92 := by
          rintro rfl
          exact absurd leading (by decide)
        rw [written]
        simp [unquote, leading, trailing]

theorem quoteCodePoint_start (c : CodePoint) : ∃ u rest, quoteCodePoint c = u :: rest ∧ u ≠ 34 := by
  unfold quoteCodePoint
  split
  · exact ⟨92, _, rfl, by decide⟩
  · next plain =>
    split
    · exact ⟨92, _, rfl, by decide⟩
    · next verbatim =>
      obtain ⟨u, rfl, written, -⟩ | ⟨u, v, leading, -, -, written⟩ :=
        units_cases c fun surrogate => verbatim (.inr surrogate)
      · refine ⟨u, [], written, ?_⟩
        rintro rfl
        exact absurd plain (by decide)
      · refine ⟨u, [v], written, ?_⟩
        rintro rfl
        exact absurd leading (by decide)

theorem quoteString_selfDelimiting : SelfDelimiting quoteString := by
  have body := SelfDelimiting.sequence (.of_reader unquote unquote_quoteCodePoint)
    quoteCodePoint_start
  exact (body.comp codePoints_injective).literal [34]

/-! ### Values -/

/-- A digit, a sign, the point or `e`. -/
def isNumberUnit (u : UInt16) : Bool := isDigit u || u == 43 || u == 45 || u == 46 || u == 101

/-- A finite number by its text, `"0"` for both zeros. -/
structure JsonNumber where
  text : Utf16
  nonempty : text ≠ []
  units : ∀ u ∈ text, isNumberUnit u = true

/-- The members of an object, in the order of its properties. -/
inductive Json where
  | null
  | bool (b : Bool)
  | number (n : JsonNumber)
  | string (s : Utf16)
  | array (items : List Json)
  | object (members : List (Utf16 × Json))

abbrev Members := List (Utf16 × Json)

namespace Json

@[elab_as_elim]
theorem induct {motive : Json → Prop} (null : motive null) (bool : ∀ b, motive (bool b))
    (number : ∀ n, motive (number n)) (string : ∀ s, motive (string s))
    (array : ∀ items, (∀ v ∈ items, motive v) → motive (array items))
    (object : ∀ members : Members, (∀ m ∈ members, motive m.2) → motive (object members))
    (v : Json) : motive v :=
  v.rec (motive_2 := fun items => ∀ v ∈ items, motive v)
    (motive_3 := fun members => ∀ m ∈ members, motive m.2) (motive_4 := fun m => motive m.2)
    null bool number string array object (fun _ h => nomatch h)
    (fun _ _ head tail => List.forall_mem_cons.mpr ⟨head, tail⟩) (fun _ h => nomatch h)
    (fun _ _ head tail => List.forall_mem_cons.mpr ⟨head, tail⟩) fun _ _ value => value

mutual

def text : Json → Utf16
  | null => [110, 117, 108, 108]
  | bool true => [116, 114, 117, 101]
  | bool false => [102, 97, 108, 115, 101]
  | number n => n.text
  | string s => quoteString s
  | array items => 91 :: ([44].intercalate (itemTexts items) ++ [93])
  | object members => 123 :: ([44].intercalate (memberTexts members) ++ [125])

def itemTexts : List Json → List Utf16
  | [] => []
  | v :: rest => v.text :: itemTexts rest

def memberTexts : Members → List Utf16
  | [] => []
  | (k, v) :: rest => (quoteString k ++ 58 :: v.text) :: memberTexts rest

end

def memberText (m : Utf16 × Json) : Utf16 := quoteString m.1 ++ 58 :: m.2.text

theorem itemTexts_eq (items : List Json) : itemTexts items = items.map text := by
  induction items with
  | nil => rfl
  | cons v rest ih => rw [itemTexts, ih, List.map_cons]

theorem memberTexts_eq (members : Members) : memberTexts members = members.map memberText := by
  induction members with
  | nil => rfl
  | cons m rest ih => rw [memberTexts, ih, List.map_cons, memberText]

/-! ### Reading a value back -/

inductive Kind where
  | null | bool | number | string | array | object
  deriving DecidableEq

def kind : Json → Kind
  | null => .null
  | bool _ => .bool
  | number _ => .number
  | string _ => .string
  | array _ => .array
  | object _ => .object

/-- What kind of value begins with a unit. -/
def Kind.ofUnit (u : UInt16) : Kind :=
  if u = 110 then .null
  else if u = 116 ∨ u = 102 then .bool
  else if u = 34 then .string
  else if u = 91 then .array
  else if u = 123 then .object
  else .number

theorem text_start (v : Json) : ∃ u rest, v.text = u :: rest ∧ Kind.ofUnit u = v.kind ∧
    u ≠ 93 := by
  cases v with
  | null => exact ⟨110, _, rfl, rfl, by decide⟩
  | bool b =>
    cases b with
    | true => exact ⟨116, _, rfl, rfl, by decide⟩
    | false => exact ⟨102, _, rfl, rfl, by decide⟩
  | number n =>
    obtain ⟨text, nonempty, units⟩ := n
    obtain ⟨u, rest, rfl⟩ := List.exists_cons_of_ne_nil nonempty
    have unit := units u List.mem_cons_self
    have other : ∀ w, isNumberUnit w = false → u ≠ w := by
      rintro w none rfl
      exact Bool.noConfusion (none.symm.trans unit)
    refine ⟨u, rest, rfl, ?_, other 93 (by decide)⟩
    rw [Kind.ofUnit, if_neg (other 110 (by decide)), if_neg (not_or.mpr
      ⟨other 116 (by decide), other 102 (by decide)⟩), if_neg (other 34 (by decide)),
      if_neg (other 91 (by decide)), if_neg (other 123 (by decide)), kind]
  | string s => exact ⟨34, _, rfl, rfl, by decide⟩
  | array items => exact ⟨91, _, rfl, rfl, by decide⟩
  | object members => exact ⟨123, _, rfl, rfl, by decide⟩

/-- Nothing follows that a number could contain. -/
def Stops (r : Utf16) : Prop := ∀ u ∈ r.head?, isNumberUnit u = false

/-- A code word can be split off where nothing goes on that a number could contain. -/
def Delimited {α : Type} (enc : α → Utf16) (x : α) : Prop :=
  ∀ ⦃y r r'⦄, Stops r → Stops r' → enc x ++ r = enc y ++ r' → x = y ∧ r = r'

section

variable {α : Type} {enc : α → Utf16} {xs ys : List α} {r r' : Utf16} {close : UInt16}

theorem stops_cons {u : UInt16} (none : isNumberUnit u = false) : Stops (u :: r) := by
  rintro _ ⟨⟩
  exact none

theorem stops_rest (stop : isNumberUnit close = false) :
    Stops ((xs.map enc).flatMap (44 :: ·) ++ close :: r) := by
  cases xs with
  | nil => exact stops_cons stop
  | cons x xs => exact stops_cons (by decide)

theorem rest_inj (stop : isNumberUnit close = false) (other : close ≠ 44)
    (each : ∀ x ∈ xs, Delimited enc x)
    (same : (xs.map enc).flatMap (44 :: ·) ++ close :: r =
      (ys.map enc).flatMap (44 :: ·) ++ close :: r') : xs = ys ∧ r = r' := by
  induction xs generalizing ys with
  | nil =>
    cases ys with
    | nil => exact ⟨rfl, (List.cons.inj same).2⟩
    | cons y ys => exact absurd (List.cons.inj same).1 other
  | cons x xs ih =>
    cases ys with
    | nil => exact absurd (List.cons.inj same).1.symm other
    | cons y ys =>
      simp only [List.map_cons, List.flatMap_cons, List.cons_append, List.append_assoc,
        List.cons.injEq, true_and] at same
      obtain ⟨rfl, rests⟩ := each x List.mem_cons_self (stops_rest stop) (stops_rest stop) same
      obtain ⟨rfl, rfl⟩ := ih (fun x mem => each x (List.mem_cons_of_mem _ mem)) rests
      exact ⟨rfl, rfl⟩

/-- What is separated by commas and closed can be read back. -/
theorem separated_inj (stop : isNumberUnit close = false) (other : close ≠ 44)
    (starts : ∀ y, ∃ u rest, enc y = u :: rest ∧ u ≠ close) (each : ∀ x ∈ xs, Delimited enc x)
    (same : [44].intercalate (xs.map enc) ++ close :: r =
      [44].intercalate (ys.map enc) ++ close :: r') : xs = ys ∧ r = r' := by
  cases xs with
  | nil =>
    cases ys with
    | nil => exact ⟨rfl, (List.cons.inj same).2⟩
    | cons y ys =>
      obtain ⟨u, rest, start, differs⟩ := starts y
      rw [List.map_cons, joined_cons, start] at same
      exact absurd (List.cons.inj same).1.symm differs
  | cons x xs =>
    cases ys with
    | nil =>
      obtain ⟨u, rest, start, differs⟩ := starts x
      rw [List.map_cons, joined_cons, start] at same
      exact absurd (List.cons.inj same).1 differs
    | cons y ys =>
      rw [List.map_cons, List.map_cons, joined_cons, joined_cons, List.append_assoc,
        List.append_assoc] at same
      obtain ⟨rfl, rests⟩ := each x List.mem_cons_self (stops_rest stop) (stops_rest stop) same
      obtain ⟨rfl, rfl⟩ :=
        rest_inj stop other (fun x mem => each x (List.mem_cons_of_mem _ mem)) rests
      exact ⟨rfl, rfl⟩

end

theorem kind_eq {v w : Json} {r r' : Utf16} (same : v.text ++ r = w.text ++ r') :
    v.kind = w.kind := by
  obtain ⟨u, rest, start, kind, -⟩ := text_start v
  obtain ⟨u', rest', start', kind', -⟩ := text_start w
  rw [start, start'] at same
  rw [← kind, ← kind', (List.cons.inj same).1]

theorem takeWhile_number {x r : Utf16} (units : ∀ u ∈ x, isNumberUnit u = true) (stops : Stops r) :
    (x ++ r).takeWhile isNumberUnit = x := by
  rw [List.takeWhile_append_of_pos units]
  cases r with
  | nil => rw [List.takeWhile_nil, List.append_nil]
  | cons u r => rw [List.takeWhile_cons_of_neg (by rw [stops u rfl]; exact Bool.false_ne_true),
      List.append_nil]

theorem delimited_member {m : Utf16 × Json} (value : Delimited text m.2) :
    Delimited memberText m := by
  intro m' r r' stops stops' same
  rw [memberText, memberText, List.append_assoc, List.append_assoc] at same
  obtain ⟨keys, rest⟩ := quoteString_selfDelimiting same
  obtain ⟨values, rests⟩ := value stops stops' (List.cons.inj rest).2
  exact ⟨Prod.ext keys values, rests⟩

theorem delimited_text (v : Json) : Delimited text v := by
  induction v using induct with
  | null =>
    intro w r r' _ _ same
    cases w <;> cases kind_eq same
    exact ⟨rfl, List.append_cancel_left same⟩
  | bool b =>
    intro w r r' _ _ same
    cases w <;> cases kind_eq same
    next b' =>
    cases b <;> cases b'
    · exact ⟨rfl, List.append_cancel_left same⟩
    · cases (List.cons.inj same).1
    · cases (List.cons.inj same).1
    · exact ⟨rfl, List.append_cancel_left same⟩
  | number n =>
    intro w r r' stops stops' same
    cases w <;> cases kind_eq same
    next n' =>
    obtain ⟨x, nonempty, units⟩ := n
    obtain ⟨x', nonempty', units'⟩ := n'
    have texts : x = x' := by
      rw [← takeWhile_number units stops, ← takeWhile_number units' stops']
      exact congrArg _ same
    subst texts
    exact ⟨rfl, List.append_cancel_left same⟩
  | string s =>
    intro w r r' _ _ same
    cases w <;> cases kind_eq same
    obtain ⟨strings, rests⟩ := quoteString_selfDelimiting same
    exact ⟨congrArg string strings, rests⟩
  | array items ih =>
    intro w r r' stops stops' same
    cases w <;> cases kind_eq same
    simp only [text, itemTexts_eq, List.cons_append, List.append_assoc, List.nil_append] at same
    obtain ⟨lists, rests⟩ := separated_inj (by decide) (by decide)
      (fun y => (text_start y).imp fun _ => .imp fun _ h => ⟨h.1, h.2.2⟩) ih (List.cons.inj same).2
    exact ⟨congrArg array lists, rests⟩
  | object members ih =>
    intro w r r' stops stops' same
    cases w <;> cases kind_eq same
    simp only [text, memberTexts_eq, List.cons_append, List.append_assoc, List.nil_append] at same
    obtain ⟨lists, rests⟩ := separated_inj (by decide) (by decide)
      (fun y => ⟨34, _, rfl, by decide⟩) (fun m mem => delimited_member (ih m mem))
      (List.cons.inj same).2
    exact ⟨congrArg object lists, rests⟩

/-- A value can be read back from its text. -/
theorem text_injective : Function.Injective text := by
  intro v w same
  have stops : Stops [] := nofun
  have both : v.text ++ [] = w.text ++ [] := by rw [same]
  exact (delimited_text v stops stops both).1

end Json

end Talos.Encoding

/-!
## JSON values in JavaScript

What JavaScript makes of a JSON value, or of a property that is missing (`none`): whether it is
truthy, and its string. An object with a property `toString` of its own has no string, since that
property is no function.
-/

namespace Talos.Encoding

namespace Json

/-- A property of an object; the other values have none of those that are asked for. -/
def get (v : Json) (key : String) : Option Json :=
  match v with
  | object members => members.lookup (ascii key)
  | null | bool _ | number _ | string _ | array _ => none

def isTruthy : Option Json → Bool
  | none | some null => false
  | some (bool b) => b
  | some (number n) => n.text ≠ ascii "0"
  | some (string s) => s ≠ []
  | some (array _) | some (object _) => true

mutual

/-- `String(v)`, or a `TypeError`. -/
def toText : Json → Option Utf16
  | null => some (ascii "null")
  | bool true => some (ascii "true")
  | bool false => some (ascii "false")
  | number n => some n.text
  | string s => some s
  | array items => (joinTexts items).map ([44].intercalate ·)
  | object members =>
      if (members.lookup (ascii "toString")).isSome then none else some (ascii "[object Object]")

/-- `null` is left out by `join`. -/
def joinTexts : List Json → Option (List Utf16)
  | [] => some []
  | null :: rest => (joinTexts rest).map ([] :: ·)
  | v :: rest => do
      let text ← v.toText
      let texts ← joinTexts rest
      return text :: texts

end

def textOf (v : Option Json) : Option Utf16 := v.elim (some (ascii "undefined")) toText

/-- `v === text` -/
def isString (v : Option Json) (text : Utf16) : Bool :=
  match v with
  | some (string s) => s = text
  | _ => false

theorem isString_iff {v : Option Json} {text : Utf16} :
    isString v text = true ↔ v = some (string text) := by
  unfold isString
  split
  · next s => simp [eq_comm]
  · next other => exact iff_of_false nofun fun same => other _ same

end Json

end Talos.Encoding
