import Talos.Encoding.SelfDelimiting

/-!
# JSON text of strings and integers, ISO dates

`JSON.stringify` on the values a flat record holds, as lists of characters, and
`Date.prototype.toISOString`. Strings are Unicode scalar values, which is what a
database text column can hold; unpaired surrogates do not occur.
-/

namespace Talos.Encoding

/-! ### Strings -/

def hexDigit (n : Nat) : Char := Nat.digitChar n

/-- The one-letter escapes. -/
def escapeLetters : List (Char × Char) :=
  [('"', '"'), ('\\', '\\'), ('\n', 'n'), ('\r', 'r'), ('\t', 't'), (Char.ofNat 8, 'b'),
    (Char.ofNat 12, 'f')]

/-- `QuoteJSONString`: the text one character becomes. -/
def escape (c : Char) : List Char :=
  match escapeLetters.lookup c with
  | some letter => ['\\', letter]
  | none =>
      if c.toNat < 32 then
        ['\\', 'u', '0', '0', hexDigit (c.toNat / 16), hexDigit (c.toNat % 16)]
      else [c]

def hexValue (c : Char) : Nat := if c.isDigit then c.toNat - 48 else c.toNat - 87

/-- The character a one-letter escape stands for. -/
def escaped (letter : Char) : Char :=
  ((escapeLetters.map Prod.swap).lookup letter).getD letter

/-- Reads one character back. -/
def unescape : List Char → Option (Char × List Char)
  | [] => none
  | c :: r =>
      if c ≠ '\\' then some (c, r)
      else match r with
        | [] => none
        | c :: r =>
            if c = 'u' then some
              (Char.ofNat (16 * hexValue (r.getD 2 '0') + hexValue (r.getD 3 '0')), r.drop 4)
            else some (escaped c, r)

theorem hexValue_hexDigit : ∀ n < 16, hexValue (hexDigit n) = n := by decide

theorem escapeLetters_read : ∀ p ∈ escapeLetters, p.2 ≠ 'u' ∧ escaped p.2 = p.1 := by decide

theorem unescape_escape (c : Char) (r : List Char) : unescape (escape c ++ r) = some (c, r) := by
  unfold escape
  split
  · next letter found =>
      obtain ⟨_, _, split, -⟩ := List.lookup_eq_some_iff.mp found
      have listed : (c, letter) ∈ escapeLetters := by rw [split]; simp
      obtain ⟨notHex, read⟩ := escapeLetters_read _ listed
      have step : unescape (['\\', letter] ++ r) = some (escaped letter, r) := if_neg notHex
      rw [step, read]
  · next plain =>
      have notSlash : c ≠ '\\' := by
        rintro rfl
        exact absurd plain (by decide)
      split
      · next control =>
          have high := hexValue_hexDigit (c.toNat / 16) (by omega)
          have low := hexValue_hexDigit (c.toNat % 16) (by omega)
          have value : 16 * hexValue (hexDigit (c.toNat / 16)) +
              hexValue (hexDigit (c.toNat % 16)) = c.toNat := by rw [high, low, Nat.div_add_mod]
          have read : unescape (['\\', 'u', '0', '0', hexDigit (c.toNat / 16),
              hexDigit (c.toNat % 16)] ++ r) = some (Char.ofNat
                (16 * hexValue (hexDigit (c.toNat / 16)) + hexValue (hexDigit (c.toNat % 16))),
              r) :=
            rfl
          rw [read, value, Char.ofNat_toNat]
      · exact if_pos notSlash

theorem escape_selfDelimiting : SelfDelimiting escape := .of_reader unescape unescape_escape

theorem escape_start (c : Char) : ∃ x w, escape c = x :: w ∧ x ≠ '"' := by
  unfold escape
  split
  · exact ⟨_, _, rfl, by decide⟩
  · next plain =>
      split
      · exact ⟨_, _, rfl, by decide⟩
      · refine ⟨c, [], rfl, ?_⟩
        rintro rfl
        exact absurd plain (by decide)

/-- A string in quotes. -/
def jsonString (s : String) : List Char := '"' :: (s.toList.flatMap escape ++ ['"'])

theorem jsonString_selfDelimiting : SelfDelimiting jsonString := by
  have body := SelfDelimiting.sequence escape_selfDelimiting escape_start
  have quoted := (body.comp fun _ _ same => String.toList_inj.mp same).literal ['"']
  exact quoted

example : jsonString "a\"\n" = ['"', 'a', '\\', '"', '\\', 'n', '"'] := by decide

/-- A string, or the word `null`. -/
def jsonNullable (s : Option String) : List Char := s.elim ['n', 'u', 'l', 'l'] jsonString

theorem jsonNullable_selfDelimiting : SelfDelimiting jsonNullable :=
  jsonString_selfDelimiting.option fun _ => ⟨'"', _, rfl, by decide⟩

/-! ### Integers -/

/-- An integer, written as every integer of absolute value below `10 ^ 21` is. -/
def jsonInteger : Int → List Char
  | .ofNat n => Nat.toDigits 10 n
  | .negSucc n => '-' :: Nat.toDigits 10 (n + 1)

theorem not_mem_toDigits {c : Char} (notDigit : c.isDigit = false) (n : Nat) :
    c ∉ Nat.toDigits 10 n := by
  intro mem
  have digit := Nat.isDigit_of_mem_toDigits (by decide) (by decide) mem
  rw [notDigit] at digit
  exact Bool.noConfusion digit

theorem jsonInteger_injective : Function.Injective jsonInteger := by
  intro a b same
  cases a with
  | ofNat m =>
      cases b with
      | ofNat n => exact congrArg Int.ofNat (toDigits_injective same)
      | negSucc n =>
          have digits : Nat.toDigits 10 m = '-' :: Nat.toDigits 10 (n + 1) := same
          have mem : '-' ∈ Nat.toDigits 10 m := digits ▸ List.mem_cons_self
          exact absurd mem (not_mem_toDigits (by decide) m)
  | negSucc m =>
      cases b with
      | ofNat n =>
          have digits : '-' :: Nat.toDigits 10 (m + 1) = Nat.toDigits 10 n := same
          have mem : '-' ∈ Nat.toDigits 10 n := digits ▸ List.mem_cons_self
          exact absurd mem (not_mem_toDigits (by decide) n)
      | negSucc n =>
          have digits := toDigits_injective (List.cons.inj same).2
          exact congrArg Int.negSucc (Nat.succ.inj digits)

theorem comma_not_mem_jsonInteger (n : Int) : ',' ∉ jsonInteger n := by
  cases n with
  | ofNat n => exact not_mem_toDigits (by decide) n
  | negSucc n =>
      intro mem
      cases mem with
      | tail _ mem => exact not_mem_toDigits (by decide) (n + 1) mem

/-- A number is told from what follows it by the comma between two members. -/
theorem jsonInteger_comma_selfDelimiting : SelfDelimiting fun n => jsonInteger n ++ [','] :=
  .closed_by jsonInteger_injective comma_not_mem_jsonInteger

/-! ### Dates -/

/-- A valid time value by its UTC calendar fields; months and days count from zero. -/
structure Date where
  year : Int
  month : Fin 12
  day : Fin 31
  hour : Fin 24
  minute : Fin 60
  second : Fin 60
  millisecond : Fin 1000
  inRange : -271821 ≤ year ∧ year ≤ 275760
  deriving DecidableEq

/-- Four digits, or a sign and six digits outside the years 0 to 9999. -/
def isoYear (year : Int) : List Char :=
  if 0 ≤ year ∧ year ≤ 9999 then padded 4 year.toNat
  else if year < 0 then '-' :: padded 6 year.natAbs
  else '+' :: padded 6 year.natAbs

def Date.toISOChars (d : Date) : List Char :=
  isoYear d.year ++ '-' :: (padded 2 (d.month + 1) ++ '-' :: (padded 2 (d.day + 1) ++
    'T' :: (padded 2 d.hour ++ ':' :: (padded 2 d.minute ++ ':' :: (padded 2 d.second ++
      '.' :: (padded 3 d.millisecond ++ ['Z']))))))

/-- `Date.prototype.toISOString`. -/
def Date.toISOString (d : Date) : String := String.ofList d.toISOChars

def readYear : List Char → Int × List Char
  | '-' :: r => (-(Nat.ofDigitChars 10 (r.take 6) 0 : Int), r.drop 6)
  | '+' :: r => (Nat.ofDigitChars 10 (r.take 6) 0, r.drop 6)
  | r => (Nat.ofDigitChars 10 (r.take 4) 0, r.drop 4)

theorem readYear_of_digit {c : Char} (digit : c.isDigit) (w : List Char) :
    readYear (c :: w) = (↑(Nat.ofDigitChars 10 ((c :: w).take 4) 0), (c :: w).drop 4) := by
  unfold readYear
  split
  · next same => exact absurd digit (by rw [(List.cons.inj same).1]; decide)
  · next same => exact absurd digit (by rw [(List.cons.inj same).1]; decide)
  · rfl

theorem take_padded {width n : Nat} (pos : 0 < width) (fits : n < 10 ^ width) (r : List Char) :
    (padded width n ++ r).take width = padded width n ∧
      (padded width n ++ r).drop width = r := by
  have length := padded_length pos fits
  exact ⟨List.take_left' length, List.drop_left' length⟩

theorem readYear_isoYear {year : Int} (inRange : -271821 ≤ year ∧ year ≤ 275760)
    (r : List Char) : readYear (isoYear year ++ r) = (year, r) := by
  unfold isoYear
  split_ifs with plain negative
  · obtain ⟨take, drop⟩ := @take_padded 4 year.toNat (by decide) (by omega) r
    have length := @padded_length 4 year.toNat (by decide) (by omega)
    cases shape : padded 4 year.toNat with
    | nil => rw [shape] at length; exact absurd length (by decide)
    | cons c w =>
        have digit : c.isDigit := isDigit_of_mem_padded (shape ▸ List.mem_cons_self)
        rw [shape, List.cons_append] at take drop
        rw [List.cons_append, readYear_of_digit digit, take, drop, ← shape, value_padded]
        exact Prod.ext (by simp only; omega) rfl
  · obtain ⟨take, drop⟩ := @take_padded 6 year.natAbs (by decide) (by omega) r
    rw [List.cons_append, readYear, take, drop, value_padded]
    exact Prod.ext (by simp only; omega) rfl
  · obtain ⟨take, drop⟩ := @take_padded 6 year.natAbs (by decide) (by omega) r
    rw [List.cons_append, readYear, take, drop, value_padded]
    exact Prod.ext (by simp only; omega) rfl

theorem isoYear_append_inj {a b : Int} (inA : -271821 ≤ a ∧ a ≤ 275760)
    (inB : -271821 ≤ b ∧ b ≤ 275760) {r r' : List Char}
    (same : isoYear a ++ r = isoYear b ++ r') : a = b ∧ r = r' := by
  have both : (a, r) = (b, r') := by
    rw [← readYear_isoYear inA r, ← readYear_isoYear inB r', same]
  exact Prod.mk.inj both

/-- Reading off one field after the other. -/
theorem toISOString_injective : Function.Injective Date.toISOString := by
  intro d e same
  have chars : d.toISOChars = e.toISOChars := String.ofList_injective same
  unfold Date.toISOChars at chars
  obtain ⟨year, rest⟩ := isoYear_append_inj d.inRange e.inRange chars
  obtain ⟨month, rest⟩ :=
    padded_append_inj (by decide) (by omega) (by omega) (List.cons.inj rest).2
  obtain ⟨day, rest⟩ :=
    padded_append_inj (by decide) (by omega) (by omega) (List.cons.inj rest).2
  obtain ⟨hour, rest⟩ :=
    padded_append_inj (by decide) (by omega) (by omega) (List.cons.inj rest).2
  obtain ⟨minute, rest⟩ :=
    padded_append_inj (by decide) (by omega) (by omega) (List.cons.inj rest).2
  obtain ⟨second, rest⟩ :=
    padded_append_inj (by decide) (by omega) (by omega) (List.cons.inj rest).2
  obtain ⟨millisecond, _⟩ :=
    padded_append_inj (by decide) (by omega) (by omega) (List.cons.inj rest).2
  cases d
  cases e
  simp only [Date.mk.injEq]
  exact ⟨year, Fin.ext (Nat.succ.inj month), Fin.ext (Nat.succ.inj day), Fin.ext hour,
    Fin.ext minute, Fin.ext second, Fin.ext millisecond⟩

end Talos.Encoding
