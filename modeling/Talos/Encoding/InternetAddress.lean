import Mathlib.Algebra.Group.Nat.Defs
import Mathlib.Data.List.Infix
import Mathlib.Data.List.TakeWhile
import Mathlib.Tactic.Common

/-!
# Internet addresses

IPv4 and IPv6 addresses, the text that `inet_ntop` gives them and the one that Python's
`ipaddress.ip_address` reads, and networks. What is written is read back (`ipAddress_inetNtop`).
-/

namespace Talos.Internet

/-! ### Addresses -/

structure V4 where
  a : Fin 256
  b : Fin 256
  c : Fin 256
  d : Fin 256
  deriving DecidableEq, Repr

/-- For the literals of groups. -/
scoped instance groupNeZero : @NeZero ℕ Zero.ofOfNat0 65536 := Nat.instNeZeroSucc

structure V6 where
  groups : List (Fin 65536)
  length : groups.length = 8
  deriving DecidableEq

inductive Address where
  | v4 (address : V4)
  | v6 (address : V6)
  deriving DecidableEq

def V4.octets (x : V4) : List (Fin 256) := [x.a, x.b, x.c, x.d]

/-- An address as a number. -/
def V4.value (x : V4) : ℕ := x.octets.foldl (fun n octet => n * 256 + octet.val) 0

def V6.value (x : V6) : ℕ := x.groups.foldl (fun n group => n * 65536 + group.val) 0

/-- The last two groups. -/
def V6.tail (x : V6) : V4 :=
  let high : ℕ := x.groups.getD 6 0
  let low : ℕ := x.groups.getD 7 0
  ⟨Fin.ofNat 256 (high / 256), Fin.ofNat 256 high, Fin.ofNat 256 (low / 256), Fin.ofNat 256 low⟩

/-- The IPv4 address in `::ffff:a.b.c.d`. -/
def V6.mapped (x : V6) : Option V4 :=
  if x.groups.take 6 = [0, 0, 0, 0, 0, 0xffff] then some x.tail else none

/-! ### Networks -/

/-- A network of addresses of `width` bits: those that have the first `bits` of `base`. -/
structure Net (width : ℕ) where
  base : ℕ
  bits : ℕ

/-- `ip in net` -/
def Net.contains {width : ℕ} (net : Net width) (value : ℕ) : Bool :=
  value / 2 ^ (width - net.bits) = net.base / 2 ^ (width - net.bits)

/-! ### Texts -/

def decimalText (n : ℕ) : List Char := Nat.toDigits 10 n

def hexText (n : ℕ) : List Char := Nat.toDigits 16 n

def V4.text (x : V4) : List Char :=
  ['.'].intercalate (x.octets.map fun octet => decimalText octet.val)

/-- The number of groups from the `i`-th on that are 0. -/
def runLength (groups : List (Fin 65536)) (i : ℕ) : ℕ := ((groups.drop i).takeWhile (· = 0)).length

/-- The start of the longest run, the first of such. -/
def longestRun (groups : List (Fin 65536)) : ℕ :=
  (List.range groups.length).foldl
    (fun best i => if runLength groups best < runLength groups i then i else best) 0

/-- The parts at an end of a text, which has nothing there if there is no group. -/
def ending (parts : List (List Char)) : List (List Char) := if parts = [] then [[]] else parts

/-- The parts between colons: from two groups on, the longest run of zeros is left out. -/
def V6.parts (x : V6) : List (List Char) :=
  let start := longestRun x.groups
  let length := runLength x.groups start
  let texts := x.groups.map fun group => hexText group.val
  if length < 2 then texts
  else ending (texts.take start) ++ [] :: ending (texts.drop (start + length))

/-- Whether the last two groups are written as an IPv4 address. -/
def V6.isDotted (x : V6) : Bool :=
  let start := longestRun x.groups
  let length := runLength x.groups start
  start = 0 ∧ (length = 6 ∨ length = 5 ∧ x.groups.getD 5 0 = 0xffff)

/-- The parts as they are written. -/
def V6.written (x : V6) : List (List Char) :=
  if x.isDotted then x.parts.dropLast.dropLast ++ [x.tail.text] else x.parts

def V6.text (x : V6) : List Char := [':'].intercalate x.written

def inetNtop : Address → String
  | .v4 x => String.ofList x.text
  | .v6 x => String.ofList x.text

/-! ### `ipaddress.ip_address` -/

/-- `_parse_octet` -/
def parseOctet (text : List Char) : Option (Fin 256) :=
  if text = [] ∨ !text.all Char.isDigit ∨ 3 < text.length then none
  else if text ≠ ['0'] ∧ text.head? = some '0' then none
  else
    let value := Nat.ofDigitChars 10 text 0
    if small : value < 256 then some ⟨value, small⟩ else none

/-- `IPv4Address` -/
def parseV4 (text : List Char) : Option V4 :=
  match (text.splitOn '.').map parseOctet with
  | [some a, some b, some c, some d] => some ⟨a, b, c, d⟩
  | _ => none

def hexDigit (c : Char) : Option ℕ :=
  if '0' ≤ c ∧ c ≤ '9' then some (c.toNat - 48)
  else if 'a' ≤ c ∧ c ≤ 'f' then some (c.toNat - 87)
  else if 'A' ≤ c ∧ c ≤ 'F' then some (c.toNat - 55)
  else none

def hexValue (text : List Char) : Option ℕ :=
  text.foldlM (fun n c => (hexDigit c).map (n * 16 + ·)) 0

/-- `_parse_hextet` -/
def parseHextet (text : List Char) : Option (Fin 65536) :=
  if text = [] ∨ 4 < text.length then none
  else (hexValue text).bind fun value => if small : value < 65536 then some ⟨value, small⟩ else none

/-- The parts with an IPv4 address at the end as two groups. -/
def expandTail (parts : List (List Char)) : Option (List (List Char)) :=
  match parts.getLast? with
  | none => none
  | some last =>
      if '.' ∈ last then
        (parseV4 last).map fun x => parts.dropLast ++
          [hexText (x.a * 256 + x.b : ℕ), hexText (x.c * 256 + x.d : ℕ)]
      else some parts

/-- The parts before or after `::`, where the end may be empty if it is all there is. -/
def trimEnd (parts : List (List Char)) (outer : Option (List Char)) : Option (List (List Char)) :=
  if outer = some [] then if parts.length = 1 then some [] else none else some parts

/-- `_ip_int_from_string`, once it has the parts. -/
def parseParts (parts : List (List Char)) : Option (List (Fin 65536)) :=
  let inner := parts.tail.dropLast
  if inner.count [] = 0 then
    if parts.length = 8 then parts.mapM parseHextet else none
  else if inner.count [] = 1 then do
    let before := parts.take 1 ++ inner.takeWhile (· ≠ [])
    let after := (inner.dropWhile (· ≠ [])).tail ++ parts.getLast?.toList
    let hi ← trimEnd before before.head?
    let lo ← trimEnd after after.getLast?
    if 7 < hi.length + lo.length then none
    else do
      let first ← hi.mapM parseHextet
      let last ← lo.mapM parseHextet
      return first ++ List.replicate (8 - (hi.length + lo.length)) 0 ++ last
  else none

/-- `IPv6Address`, without its zone. -/
def parseV6 (text : List Char) : Option V6 :=
  let zone := text.dropWhile (· ≠ '%')
  if '/' ∈ text ∨ zone = ['%'] ∨ '%' ∈ zone.tail then none
  else do
    let parts := (text.takeWhile (· ≠ '%')).splitOn ':'
    if parts.length < 3 then none
    else do
      let parts ← expandTail parts
      if 9 < parts.length then none
      else do
        let groups ← parseParts parts
        if length : groups.length = 8 then some ⟨groups, length⟩ else none

def ipAddress (text : String) : Option Address :=
  match parseV4 text.toList with
  | some x => some (.v4 x)
  | none => (parseV6 text.toList).map .v6

/-! ### Digits -/

variable {c s : Char} {n b : ℕ} {x y : V4} {z : V6} {parts front back : List (List Char)}

theorem exists_digit (base : 1 < b) : c ∈ Nat.toDigits b n → ∃ d < b, c = Nat.digitChar d := by
  induction n using Nat.strongRecOn with
  | _ n ih =>
      intro mem
      by_cases small : n < b
      · rw [Nat.toDigits_of_lt_base small, List.mem_singleton] at mem
        exact ⟨n, small, mem⟩
      · rw [Nat.toDigits_of_base_le base (by omega), List.mem_append, List.mem_singleton] at mem
        rcases mem with mem | rfl
        · exact ih (n / b) (Nat.div_lt_self (by omega) base) mem
        · exact ⟨n % b, Nat.mod_lt n (by omega), rfl⟩

theorem digitChar_free : ∀ d < 16, Nat.digitChar d ≠ '.' ∧ Nat.digitChar d ≠ ':' ∧
    Nat.digitChar d ≠ '%' ∧ Nat.digitChar d ≠ '/' := by
  decide

theorem hexDigit_digitChar : ∀ d < 16, hexDigit (Nat.digitChar d) = some d := by
  decide

/-- The characters of an address that are not digits. -/
def Mark (c : Char) : Prop := c = '.' ∨ c = ':' ∨ c = '%' ∨ c = '/'

theorem notMem_toDigits (base : 1 < b) (le : b ≤ 16) (mark : Mark c) : c ∉ Nat.toDigits b n := by
  intro mem
  obtain ⟨d, small, rfl⟩ := exists_digit base mem
  have free := digitChar_free d (by omega)
  unfold Mark at mark
  tauto

theorem notMem_decimalText (mark : Mark c) : c ∉ decimalText n :=
  notMem_toDigits (by omega) (by omega) mark

theorem notMem_hexText (mark : Mark c) : c ∉ hexText n :=
  notMem_toDigits (by omega) (by omega) mark

theorem hexText_ne_nil : hexText n ≠ [] := Nat.toDigits_ne_nil

theorem hexValue_hexText (n : ℕ) : hexValue (hexText n) = some n := by
  unfold hexText
  induction n using Nat.strongRecOn with
  | _ n ih =>
      by_cases small : n < 16
      · rw [Nat.toDigits_of_lt_base small]
        simp [hexValue, hexDigit_digitChar n small]
      · have shorter := ih (n / 16) (by omega)
        rw [Nat.toDigits_of_base_le (by omega) (by omega)]
        unfold hexValue at shorter ⊢
        rw [List.foldlM_append, shorter]
        have last := hexDigit_digitChar (n % 16) (by omega)
        simp only [Option.bind_eq_bind, Option.bind_some, List.foldlM_cons, List.foldlM_nil, last,
          Option.map_some]
        exact congrArg some (by omega)

theorem parseOctet_decimalText : ∀ n : Fin 256, parseOctet (decimalText n) = some n := by
  decide +kernel

theorem parseHextet_hexText (group : Fin 65536) : parseHextet (hexText group) = some group := by
  have short : (hexText group).length ≤ 4 :=
    (Nat.length_toDigits_le_iff (by omega) (by omega)).2 (by omega)
  unfold parseHextet
  rw [if_neg (by simp only [hexText_ne_nil, false_or]; omega), hexValue_hexText]
  exact dif_pos group.isLt

theorem mapM_hexText (groups : List (Fin 65536)) :
    (groups.map fun group => hexText group.val).mapM parseHextet = some groups := by
  induction groups with
  | nil => rfl
  | cons group groups ih =>
      rw [List.map_cons, List.mapM_cons, parseHextet_hexText, ih]
      rfl

/-! ### IPv4 -/

theorem notMem_intercalate (other : c ≠ s) (free : ∀ part ∈ parts, c ∉ part) :
    c ∉ [s].intercalate parts := by
  induction parts with
  | nil => simp
  | cons part parts ih =>
      have rest := ih fun p mem => free p (List.mem_cons_of_mem _ mem)
      have first := free part List.mem_cons_self
      cases parts with
      | nil => simpa using first
      | cons next parts =>
          rw [List.intercalate_cons_cons]
          simp [first, other, rest]

theorem V4.splitOn_text (x : V4) :
    x.text.splitOn '.' = x.octets.map fun octet => decimalText octet.val := by
  refine List.splitOn_intercalate '.' (fun part mem => ?_) (by simp [V4.octets])
  obtain ⟨octet, -, rfl⟩ := List.mem_map.1 mem
  exact notMem_decimalText (.inl rfl)

theorem parseV4_text (x : V4) : parseV4 x.text = some x := by
  unfold parseV4
  rw [V4.splitOn_text]
  simp only [V4.octets, List.map_cons, List.map_nil, parseOctet_decimalText]

theorem V4.notMem_text (mark : Mark c) (other : c ≠ '.') : c ∉ x.text := by
  refine notMem_intercalate other fun part mem => ?_
  obtain ⟨octet, -, rfl⟩ := List.mem_map.1 mem
  exact notMem_decimalText mark

theorem parseV4_colon {text : List Char} (colon : ':' ∈ text) : parseV4 text = none := by
  have inside : ∃ part ∈ text.splitOn '.', ':' ∈ part := by
    by_contra none
    push Not at none
    have whole : ['.'].intercalate (text.splitOn '.') = text := List.intercalate_splitOn '.'
    rw [← whole] at colon
    exact notMem_intercalate (by decide) none colon
  obtain ⟨part, mem, inPart⟩ := inside
  have bad : none ∈ (text.splitOn '.').map parseOctet := by
    refine List.mem_map.2 ⟨part, mem, ?_⟩
    have digits : part.all Char.isDigit = false :=
      List.all_eq_false.2 ⟨':', inPart, by decide⟩
    simp [parseOctet, digits]
  unfold parseV4
  split
  · rename_i same
    rw [same] at bad
    simp at bad
  · rfl

/-! ### IPv6 -/

theorem take_run (groups : List (Fin 65536)) (i : ℕ) :
    groups.take i ++ List.replicate (runLength groups i) 0 ++ groups.drop (i + runLength groups i) =
      groups := by
  have zeros : (groups.drop i).takeWhile (· = 0) = List.replicate (runLength groups i) 0 :=
    List.eq_replicate_of_mem fun group mem => by simpa using List.mem_takeWhile_imp mem
  have rest : (groups.drop i).dropWhile (· = 0) = groups.drop (i + runLength groups i) := by
    rw [← List.drop_drop]
    conv_rhs => rw [← List.takeWhile_append_dropWhile (p := (· = 0)) (l := groups.drop i)]
    exact List.drop_left.symm
  rw [List.append_assoc, ← zeros, ← rest, List.takeWhile_append_dropWhile, List.take_append_drop]

theorem run_le (groups : List (Fin 65536)) (i : ℕ) :
    runLength groups i ≤ groups.length - i := by
  have shorter :=
    (List.takeWhile_prefix (p := (· = (0 : Fin 65536))) (l := groups.drop i)).length_le
  rwa [List.length_drop] at shorter

theorem ending_ne_nil : ending parts ≠ [] := by
  unfold ending
  split <;> simp_all

theorem ending_free (free : ∀ part ∈ parts, c ∉ part) : ∀ part ∈ ending parts, c ∉ part := by
  unfold ending
  split
  · simp
  · exact free

theorem ending_tail (full : ∀ part ∈ parts, part ≠ []) :
    ∀ part ∈ (ending parts).tail, part ≠ [] := by
  unfold ending
  split
  · simp
  · exact fun part mem => full part (List.mem_of_mem_tail mem)

theorem ending_dropLast (full : ∀ part ∈ parts, part ≠ []) :
    ∀ part ∈ (ending parts).dropLast, part ≠ [] := by
  unfold ending
  split
  · simp
  · exact fun part mem => full part (List.mem_of_mem_dropLast mem)

theorem trimEnd_head (full : ∀ part ∈ parts, part ≠ []) :
    trimEnd (ending parts) (ending parts).head? = some parts := by
  cases parts with
  | nil => rfl
  | cons part parts =>
      have first := full part List.mem_cons_self
      simp [ending, trimEnd, first]

theorem trimEnd_last (full : ∀ part ∈ parts, part ≠ []) :
    trimEnd (ending parts) (ending parts).getLast? = some parts := by
  by_cases none : parts = []
  · subst none
    rfl
  · have last := full (parts.getLast none) (List.getLast_mem none)
    simp [ending, none, trimEnd, List.getLast?_eq_some_getLast none, last]

theorem parseParts_apart {first last : List (Fin 65536)} (fullFront : ∀ part ∈ front, part ≠ [])
    (fullBack : ∀ part ∈ back, part ≠ []) (short : front.length + back.length ≤ 7)
    (hi : front.mapM parseHextet = some first) (lo : back.mapM parseHextet = some last) :
    parseParts (ending front ++ [] :: ending back) =
      some (first ++ List.replicate (8 - (front.length + back.length)) 0 ++ last) := by
  obtain ⟨head, tail, frontEq⟩ := List.exists_cons_of_ne_nil
    (show ending front ≠ [] from ending_ne_nil)
  have inner : (ending front ++ [] :: ending back).tail.dropLast =
      tail ++ [] :: (ending back).dropLast := by
    rw [frontEq, List.cons_append, List.tail_cons, List.dropLast_append_cons,
      List.dropLast_cons_of_ne_nil ending_ne_nil]
  have fullTail : ∀ part ∈ tail, part ≠ [] := by
    simpa [frontEq] using ending_tail fullFront
  have fullInit := ending_dropLast fullBack
  have once : (tail ++ [] :: (ending back).dropLast).count [] = 1 := by
    rw [List.count_append, List.count_cons_self,
      List.count_eq_zero.2 fun mem => fullTail [] mem rfl,
      List.count_eq_zero.2 fun mem => fullInit [] mem rfl]
  have before : (tail ++ [] :: (ending back).dropLast).takeWhile (· ≠ []) = tail := by
    rw [List.takeWhile_append_of_pos (by simpa using fullTail)]
    simp
  have after : (tail ++ [] :: (ending back).dropLast).dropWhile (· ≠ []) =
      [] :: (ending back).dropLast := by
    rw [List.dropWhile_append_of_pos (by simpa using fullTail)]
    simp
  have firstPart : (ending front ++ [] :: ending back).take 1 = [head] := by
    rw [frontEq]
    rfl
  have lastPart : (ending front ++ [] :: ending back).getLast? =
      some ((ending back).getLast ending_ne_nil) := by
    rw [List.getLast?_append, List.getLast?_cons, List.getLast?_eq_some_getLast ending_ne_nil]
    rfl
  have whole : (ending back).dropLast ++ [(ending back).getLast ending_ne_nil] = ending back :=
    List.dropLast_append_getLast ending_ne_nil
  have cut : [head] ++ tail = ending front := frontEq.symm
  unfold parseParts
  simp only [inner, once, before, after, firstPart, lastPart, List.tail_cons, Option.toList_some,
    whole, cut, Nat.one_ne_zero, if_false, if_true, trimEnd_head fullFront, trimEnd_last fullBack,
    Option.bind_eq_bind, Option.bind_some, hi, lo, Option.pure_def]
  rw [if_neg (by omega)]

theorem texts_full (groups : List (Fin 65536)) :
    ∀ part ∈ groups.map (fun group => hexText group.val), part ≠ [] := by
  intro part mem
  obtain ⟨group, -, rfl⟩ := List.mem_map.1 mem
  exact hexText_ne_nil

theorem texts_free (mark : Mark c) (groups : List (Fin 65536)) :
    ∀ part ∈ groups.map (fun group => hexText group.val), c ∉ part := by
  intro part mem
  obtain ⟨group, -, rfl⟩ := List.mem_map.1 mem
  exact notMem_hexText mark

theorem V6.parts_free (mark : Mark c) (z : V6) : ∀ part ∈ z.parts, c ∉ part := by
  have free := texts_free mark z.groups
  simp only [V6.parts]
  split
  · exact free
  · intro part mem
    rw [List.mem_append, List.mem_cons] at mem
    rcases mem with mem | rfl | mem
    · exact ending_free (fun p inside => free p (List.mem_of_mem_take inside)) part mem
    · simp
    · exact ending_free (fun p inside => free p (List.mem_of_mem_drop inside)) part mem

theorem V6.parse_parts (z : V6) : parseParts z.parts = some z.groups := by
  have length := z.length
  have run := run_le z.groups (longestRun z.groups)
  have split := take_run z.groups (longestRun z.groups)
  simp only [V6.parts]
  split_ifs with short
  · have full : (z.groups.map fun group => hexText group.val).tail.dropLast.count [] = 0 :=
      List.count_eq_zero.2 fun mem => texts_full z.groups []
        (List.mem_of_mem_tail (List.mem_of_mem_dropLast mem)) rfl
    unfold parseParts
    simp only [full, if_true, List.length_map, length, mapM_hexText]
  · simp only [← List.map_take, ← List.map_drop]
    rw [parseParts_apart (texts_full _) (texts_full _) _ (mapM_hexText _) (mapM_hexText _)]
    · refine congrArg some (Eq.trans ?_ split)
      simp only [List.length_map, List.length_take, List.length_drop, length]
      congr 3
      omega
    · simp only [List.length_map, List.length_take, List.length_drop, length]
      omega

theorem V6.length_parts (z : V6) : 3 ≤ z.parts.length ∧ z.parts.length ≤ 9 := by
  have length := z.length
  have run := run_le z.groups (longestRun z.groups)
  simp only [V6.parts]
  split_ifs with short
  · simp [length]
  · unfold ending
    split_ifs with none none' none' <;>
      simp only [List.map_eq_nil_iff, List.take_eq_nil_iff, List.drop_eq_nil_iff, ← List.map_take,
        ← List.map_drop, List.length_append, List.length_cons, List.length_nil, List.length_map,
        List.length_take, List.length_drop, length] at * <;>
      omega

theorem V6.exists_groups (z : V6) : ∃ g₀ g₁ g₂ g₃ g₄ g₅ g₆ g₇ : Fin 65536,
    z.groups = [g₀, g₁, g₂, g₃, g₄, g₅, g₆, g₇] := by
  obtain ⟨groups, length⟩ := z
  match groups, length with
  | [g₀, g₁, g₂, g₃, g₄, g₅, g₆, g₇], _ => exact ⟨g₀, g₁, g₂, g₃, g₄, g₅, g₆, g₇, rfl⟩

/-- The two groups that may be written as an IPv4 address. -/
theorem V6.tail_groups (z : V6) :
    (z.tail.a * 256 + z.tail.b : ℕ) = z.groups.getD 6 0 ∧
      (z.tail.c * 256 + z.tail.d : ℕ) = z.groups.getD 7 0 := by
  have high := (z.groups.getD 6 0).isLt
  have low := (z.groups.getD 7 0).isLt
  simp only [V6.tail, Fin.ofNat]
  omega

theorem V6.parts_dotted (dotted : z.isDotted = true) : ∃ between, between.length ≤ 1 ∧
    z.parts =
      [] :: [] :: (between ++ [hexText (z.groups.getD 6 0), hexText (z.groups.getD 7 0)]) := by
  obtain ⟨g₀, g₁, g₂, g₃, g₄, g₅, g₆, g₇, groups⟩ := z.exists_groups
  simp only [V6.isDotted, decide_eq_true_eq] at dotted
  obtain ⟨start, run⟩ := dotted
  rw [start] at run
  obtain run | ⟨run, -⟩ := run
  · refine ⟨[], by simp, ?_⟩
    simp only [V6.parts, start, run]
    simp [groups, ending]
  · refine ⟨[hexText g₅], by simp, ?_⟩
    simp only [V6.parts, start, run]
    simp [groups, ending]

theorem V4.dot_mem_text (x : V4) : '.' ∈ x.text := by
  simp [V4.text, V4.octets, List.intercalate_cons_cons]

theorem V6.expandTail_written (z : V6) : expandTail z.written = some z.parts := by
  unfold V6.written
  split_ifs with dotted
  · obtain ⟨between, -, parts⟩ := V6.parts_dotted dotted
    obtain ⟨high, low⟩ := z.tail_groups
    simp only [expandTail, List.getLast?_concat, if_pos (V4.dot_mem_text _), parseV4_text,
      Option.map_some, List.dropLast_concat, high, low]
    rw [parts]
    simp [List.dropLast_append_of_ne_nil, List.dropLast_cons_of_ne_nil]
  · have long := z.length_parts.1
    have some : z.parts ≠ [] := List.ne_nil_of_length_pos (by omega)
    have plain := z.parts_free (.inl rfl) _ (List.getLast_mem some)
    simp only [expandTail, List.getLast?_eq_some_getLast some, if_neg plain]

theorem V6.written_free (z : V6) (mark : Mark c) (other : c ≠ '.') :
    ∀ part ∈ z.written, c ∉ part := by
  have free := z.parts_free mark
  unfold V6.written
  split_ifs with dotted
  · intro part mem
    rw [List.mem_append, List.mem_singleton] at mem
    rcases mem with mem | rfl
    · exact free part (List.mem_of_mem_dropLast (List.mem_of_mem_dropLast mem))
    · exact V4.notMem_text mark other
  · exact free

theorem V6.length_written (z : V6) : 3 ≤ z.written.length := by
  unfold V6.written
  split_ifs with dotted
  · obtain ⟨between, -, parts⟩ := V6.parts_dotted dotted
    rw [parts]
    simp [List.dropLast_append_of_ne_nil, List.dropLast_cons_of_ne_nil]
  · exact z.length_parts.1

theorem V6.splitOn_text (z : V6) : z.text.splitOn ':' = z.written :=
  List.splitOn_intercalate ':' (z.written_free (.inr (.inl rfl)) (by decide))
    (List.ne_nil_of_length_pos (by have := z.length_written; omega))

theorem V6.notMem_text (mark : Mark c) (noDot : c ≠ '.') (noColon : c ≠ ':') : c ∉ z.text :=
  notMem_intercalate noColon (z.written_free mark noDot)

theorem V6.colon_mem_text (z : V6) : ':' ∈ z.text := by
  by_contra none
  have one := List.splitOn_eq_singleton none
  have long := z.length_written
  rw [z.splitOn_text] at one
  simp [one] at long

theorem parseV6_text (z : V6) : parseV6 z.text = some z := by
  have noZone : '%' ∉ z.text := V6.notMem_text (.inr (.inr (.inl rfl))) (by decide) (by decide)
  have noMask : '/' ∉ z.text := V6.notMem_text (.inr (.inr (.inr rfl))) (by decide) (by decide)
  have all : ∀ c ∈ z.text, decide (c ≠ '%') = true := fun c mem =>
    decide_eq_true fun same => noZone (same ▸ mem)
  have zone : z.text.dropWhile (· ≠ '%') = [] := List.dropWhile_eq_nil_iff.2 all
  have whole : z.text.takeWhile (· ≠ '%') = z.text := List.takeWhile_eq_self_iff.2 all
  have long := z.length_written
  have short := z.length_parts.2
  unfold parseV6
  simp only [zone, whole, noMask, z.splitOn_text, z.expandTail_written, Option.bind_eq_bind,
    Option.bind_some, z.parse_parts, z.length, List.tail_nil, List.not_mem_nil]
  rw [if_neg (by simp), if_neg (by omega), if_neg (by omega)]
  rfl

/-! ### The start of a text -/

/-- Up to a separator. -/
theorem separated_prefix {first part rest text : List Char} (freeFirst : c ∉ first ∧ s ∉ first)
    (freePart : c ∉ part ∧ s ∉ part) :
    first ++ c :: rest <+: part ++ s :: text ↔ first = part ∧ c = s ∧ rest <+: text := by
  induction first generalizing part with
  | nil =>
      cases part with
      | nil => simp [List.cons_prefix_cons]
      | cons d part =>
          have other : c ≠ d := fun same => freePart.1 (same ▸ List.mem_cons_self)
          simp [List.cons_prefix_cons, other]
  | cons b first ih =>
      cases part with
      | nil =>
          have other : b ≠ s := fun same => freeFirst.2 (same ▸ List.mem_cons_self)
          simp [List.cons_prefix_cons, other]
      | cons d part =>
          have inner := @ih part
            ⟨fun mem => freeFirst.1 (.tail _ mem), fun mem => freeFirst.2 (.tail _ mem)⟩
            ⟨fun mem => freePart.1 (.tail _ mem), fun mem => freePart.2 (.tail _ mem)⟩
          rw [List.cons_append, List.cons_append, List.cons_prefix_cons, inner, List.cons.injEq,
            and_assoc]

theorem V4.text_eq (x : V4) : x.text = decimalText x.a ++ '.' :: (decimalText x.b ++ '.' ::
    (decimalText x.c ++ '.' :: decimalText x.d)) := by
  simp [V4.text, V4.octets, List.intercalate_cons_cons]

/-- The first part is that of the first group, or it is empty as the run starts there. -/
theorem V6.text_eq (z : V6) : ∃ first rest, z.text = first ++ ':' :: rest ∧
    (first = hexText (z.groups.getD 0 0).val ∨ first = [] ∧ z.groups.getD 0 0 = 0) := by
  obtain ⟨g₀, g₁, g₂, g₃, g₄, g₅, g₆, g₇, groups⟩ := z.exists_groups
  have long := z.length_written
  have head : ∃ first rest, z.written = first :: rest ∧
      (first = hexText (z.groups.getD 0 0).val ∨ first = [] ∧ z.groups.getD 0 0 = 0) := by
    have started : longestRun z.groups = 0 → ¬ runLength z.groups (longestRun z.groups) < 2 →
        z.groups.getD 0 0 = 0 := by
      intro start run
      have split := take_run z.groups 0
      obtain ⟨more, enough⟩ := Nat.exists_eq_succ_of_ne_zero
        (show runLength z.groups 0 ≠ 0 by rw [start] at run; omega)
      rw [enough, List.replicate_succ] at split
      rw [← split]
      simp
    unfold V6.written
    split_ifs with dotted
    · obtain ⟨between, -, parts⟩ := V6.parts_dotted dotted
      simp only [V6.isDotted, decide_eq_true_eq] at dotted
      refine ⟨[], [] :: (between ++ [z.tail.text]), ?_, .inr ⟨rfl, started dotted.1 (by omega)⟩⟩
      rw [parts]
      simp [List.dropLast_append_of_ne_nil, List.dropLast_cons_of_ne_nil]
    · simp only [V6.parts]
      split_ifs with short
      · exact ⟨hexText g₀, _, by rw [groups]; rfl, .inl (by rw [groups]; rfl)⟩
      · by_cases start : longestRun z.groups = 0
        · exact ⟨[], _, by rw [start]; rfl, .inr ⟨rfl, started start short⟩⟩
        · obtain ⟨more, later⟩ := Nat.exists_eq_succ_of_ne_zero start
          exact ⟨hexText g₀, _, by rw [later, groups]; rfl, .inl (by rw [groups]; rfl)⟩
  obtain ⟨first, rest, written, start⟩ := head
  rw [written, List.length_cons] at long
  obtain ⟨next, parts, rfl⟩ := List.exists_cons_of_ne_nil (List.ne_nil_of_length_pos
    (show 0 < rest.length by omega))
  exact ⟨first, [':'].intercalate (next :: parts), by
    rw [V6.text, written, List.intercalate_cons_cons, List.append_assoc, List.singleton_append],
    start⟩

/-! ### Networks of groups -/

theorem V6.value_spec (z : V6) :
    z.value / 2 ^ 112 = z.groups.getD 0 0 ∧
      (z.value = 1 ↔ z.groups = [0, 0, 0, 0, 0, 0, 0, 1]) := by
  obtain ⟨g₀, g₁, g₂, g₃, g₄, g₅, g₆, g₇, groups⟩ := z.exists_groups
  simp only [V6.value, groups, List.foldl_cons, List.foldl_nil, List.cons.injEq, Fin.ext_iff,
    List.getD_cons_zero, and_true]
  refine ⟨by omega, ?_⟩
  simp only [Fin.val_zero, Fin.val_one]
  omega

/-! ### What is written is read back -/

theorem ipAddress_inetNtop (a : Address) : ipAddress (inetNtop a) = some a := by
  cases a with
  | v4 x => simp [inetNtop, ipAddress, parseV4_text]
  | v6 z => simp [inetNtop, ipAddress, parseV4_colon z.colon_mem_text, parseV6_text]

theorem inetNtop_injective : Function.Injective inetNtop := fun a b same =>
  Option.some.inj ((ipAddress_inetNtop a).symm.trans (same ▸ ipAddress_inetNtop b))

end Talos.Internet
