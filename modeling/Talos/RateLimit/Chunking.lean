import Talos.Arrival
import Talos.Encoding.Double
import Talos.Encoding.Text
import Mathlib.Data.List.TakeWhile

/-!
# The Redis client of the rate limiter

`MinRedisClient` writes its commands into a fresh connection and looks at all that has
arrived after each `data` event. The socket decodes UTF-8, so an event delivers text. Of the
promise there is what settles it; timeouts and errors of the socket are left out.
-/

namespace Talos.RateLimit

open Encoding

def cr : UInt16 := 0x0D
def lf : UInt16 := 0x0A
def colon : UInt16 := 0x3A
def minus : UInt16 := 0x2D
def plus : UInt16 := 0x2B

/-! ### Replies -/

/-- The text of a reply is on one line. -/
def LineText := { text : Utf16 // ∀ u ∈ text, u ≠ cr ∧ u ≠ lf }

inductive Reply where
  | status (text : LineText)
  | integer (n : Int)
  | error (text : LineText)

def integerText (n : Int) : Utf16 :=
  if n < 0 then minus :: decimal n.natAbs else decimal n.natAbs

def Reply.line : Reply → Utf16
  | .status text => plus :: text.val
  | .integer n => colon :: integerText n
  | .error text => minus :: text.val

def Reply.encode (reply : Reply) : Utf16 := reply.line ++ [cr, lf]

def encodeAll (replies : List Reply) : Utf16 := replies.flatMap Reply.encode

inductive Command where
  | auth
  | select
  | incr
  | pexpireat
  | pttl
  deriving DecidableEq

/-- AUTH and SELECT answer with a status, the other commands with an integer; any may fail. -/
def Command.Answers : Command → Reply → Prop
  | _, .error _ => True
  | .auth, .status _ => True
  | .select, .status _ => True
  | .incr, .integer _ => True
  | .pexpireat, .integer _ => True
  | .pttl, .integer _ => True
  | _, _ => False

/-- The commands before those of a request, with a password and with a database. -/
def preamble (password db : Bool) : List Command :=
  (if password then [.auth] else []) ++ if db then [.select] else []

def incrCommands (password db : Bool) : List Command := preamble password db ++ [.incr, .pexpireat]

def pttlCommands (password db : Bool) : List Command := preamble password db ++ [.pttl]

/-! ### The handlers -/

/-- `buf.split("\\r\\n")`. -/
def splitLines : Utf16 → List Utf16
  | [] => [[]]
  | [u] => [[u]]
  | u :: v :: rest =>
      if u = cr ∧ v = lf then [] :: splitLines rest
      else match splitLines (v :: rest) with
        | [] => [[u]]
        | line :: lines => (u :: line) :: lines

/-- How the promise is settled: a number, or the text behind "Redis error: ". -/
inductive Settlement where
  | resolve (n : ℚ)
  | reject (message : Utf16)
  deriving DecidableEq

/-- `parseInt(line.slice(1), 10)`, `none` for NaN. -/
def readInteger (line : Utf16) : Option ℚ := (parseInt line.tail).map fun n => toDouble n

/-- The loop over the lines in `incrWithExpire`. -/
def incrLoop (incrValue : Option ℚ) : List Utf16 → Option Settlement
  | [] => incrValue.map .resolve
  | line :: lines =>
      let incrValue :=
        if line.head? = some colon then incrValue.or (readInteger line) else incrValue
      if line.head? = some minus then some (.reject line.tail) else incrLoop incrValue lines

/-- The `data` event of `incrWithExpire`. -/
def incrData (buf : Utf16) : Option Settlement := incrLoop none (splitLines buf)

/-- The loop in `pttl`. What comes after the first settlement has no effect. -/
def pttlLoop : List Utf16 → Option Settlement
  | [] => none
  | line :: lines =>
      if line.head? = some colon then
        match readInteger line with
        | some n => some (.resolve n)
        | none => pttlLoop lines
      else if line.head? = some minus then some (.reject line.tail)
      else pttlLoop lines

/-- The `data` event of `pttl`. -/
def pttlData (buf : Utf16) : Option Settlement := pttlLoop (splitLines buf)

end Talos.RateLimit

/-!
## Replies in chunks

`split` gives an unfinished line like a finished one. So a `data` event that ends inside the
first number, or inside an error, settles the promise with what there is of it, and one that
ends between INCR's reply and an error of PEXPIREAT settles it before the error is there.
Elsewhere the stream may be cut at will (`chunking_iff`).
-/

namespace Talos.RateLimit

open Encoding Arrival

variable {replies : List Reply} {reply : Reply} {line text rest : Utf16} {lines : List Utf16}
  {n : Int} {p : Nat}

/-! ### Lines -/

theorem splitLines_cons (none : cr ∉ line) (rest : Utf16) :
    splitLines (line ++ cr :: lf :: rest) = line :: splitLines rest := by
  induction line with
  | nil =>
      rw [List.nil_append, splitLines]
      exact if_pos ⟨rfl, rfl⟩
  | cons u line ih =>
      obtain ⟨other, notIn⟩ := not_or.mp (mt List.mem_cons.mpr none)
      have later := ih notIn
      have apart : ∀ v, ¬ (u = cr ∧ v = lf) := fun v both => other both.1.symm
      cases line with
      | nil =>
          simp only [List.nil_append, List.cons_append] at later ⊢
          rw [splitLines, if_neg (apart cr), later]
      | cons v line =>
          simp only [List.cons_append] at later ⊢
          rw [splitLines, if_neg (apart v), later]

/-- A text without a line feed is a line. -/
theorem splitLines_single (none : lf ∉ text) : splitLines text = [text] := by
  induction text with
  | nil => rfl
  | cons u text ih =>
      obtain ⟨-, notIn⟩ := not_or.mp (mt List.mem_cons.mpr none)
      have later := ih notIn
      cases text with
      | nil => rfl
      | cons v text =>
          have apart : ¬ (u = cr ∧ v = lf) := fun both => notIn (both.2 ▸ List.mem_cons_self)
          rw [splitLines, if_neg apart, later]

theorem mem_integerText {u : UInt16} (mem : u ∈ integerText n) : u = minus ∨ isDigit u = true := by
  unfold integerText at mem
  split at mem
  · exact (List.mem_cons.mp mem).imp_right (decimal_isDigit _ u)
  · exact .inr (decimal_isDigit _ u mem)

theorem Reply.line_plain (reply : Reply) : cr ∉ reply.line ∧ lf ∉ reply.line := by
  have text : ∀ (u : UInt16) (text : LineText), u ≠ cr ∧ u ≠ lf →
      cr ∉ u :: text.val ∧ lf ∉ u :: text.val := by
    intro u text other
    constructor
    · intro mem
      rcases List.mem_cons.mp mem with same | mem
      · exact other.1 same.symm
      · exact (text.property cr mem).1 rfl
    · intro mem
      rcases List.mem_cons.mp mem with same | mem
      · exact other.2 same.symm
      · exact (text.property lf mem).2 rfl
  cases reply with
  | status t => exact text plus t ⟨by decide, by decide⟩
  | error t => exact text minus t ⟨by decide, by decide⟩
  | integer n =>
      constructor
      · intro mem
        rcases List.mem_cons.mp mem with same | mem
        · cases same
        · rcases mem_integerText mem with same | digit
          · cases same
          · cases digit
      · intro mem
        rcases List.mem_cons.mp mem with same | mem
        · cases same
        · rcases mem_integerText mem with same | digit
          · cases same
          · cases digit

/-! ### What a line settles -/

/-- What a line settles by itself. -/
def settlement (line : Utf16) : Option Settlement :=
  if line.head? = some colon then (readInteger line).map .resolve
  else if line.head? = some minus then some (.reject line.tail)
  else none

def Settlement.isReject : Settlement → Bool
  | .resolve _ => false
  | .reject _ => true

theorem pttlLoop_eq (lines : List Utf16) :
    pttlLoop lines = (lines.filterMap settlement).head? := by
  induction lines with
  | nil => rfl
  | cons line lines ih =>
      unfold pttlLoop
      by_cases integer : line.head? = some colon
      · rw [if_pos integer]
        cases read : readInteger line with
        | none =>
            have settles : settlement line = none := by rw [settlement, if_pos integer, read]; rfl
            rw [List.filterMap_cons_none settles]
            exact ih
        | some n =>
            have settles : settlement line = some (.resolve n) := by
              rw [settlement, if_pos integer, read]
              rfl
            rw [List.filterMap_cons_some settles]
            rfl
      · rw [if_neg integer]
        by_cases error : line.head? = some minus
        · have settles : settlement line = some (.reject line.tail) := by
            rw [settlement, if_neg integer, if_pos error]
          rw [if_pos error, List.filterMap_cons_some settles]
          rfl
        · have settles : settlement line = none := by
            rw [settlement, if_neg integer, if_neg error]
          rw [if_neg error, List.filterMap_cons_none settles]
          exact ih

/-- An error goes before what has been read, and that before what follows. -/
theorem incrLoop_eq (lines : List Utf16) (incrValue : Option ℚ) :
    incrLoop incrValue lines =
      ((lines.filterMap settlement).find? Settlement.isReject).or
        ((incrValue.map Settlement.resolve).or (lines.filterMap settlement).head?) := by
  induction lines generalizing incrValue with
  | nil =>
      rw [incrLoop]
      cases incrValue <;> rfl
  | cons line lines ih =>
      unfold incrLoop
      dsimp only
      by_cases error : line.head? = some minus
      · have notInteger : ¬ line.head? = some colon := by
          rw [error]
          exact fun same => absurd (Option.some.inj same) (by decide)
        have settles : settlement line = some (.reject line.tail) := by
          rw [settlement, if_neg notInteger, if_pos error]
        rw [if_pos error, List.filterMap_cons_some settles]
        rfl
      · rw [if_neg error, ih]
        by_cases integer : line.head? = some colon
        · rw [if_pos integer]
          cases read : readInteger line with
          | none =>
              have settles : settlement line = none := by rw [settlement, if_pos integer, read]; rfl
              rw [List.filterMap_cons_none settles, Option.or_none]
          | some n =>
              have settles : settlement line = some (.resolve n) := by
                rw [settlement, if_pos integer, read]
                rfl
              rw [List.filterMap_cons_some settles]
              cases incrValue <;> rfl
        · have settles : settlement line = none := by
            rw [settlement, if_neg integer, if_neg error]
          rw [if_neg integer, List.filterMap_cons_none settles]

/-- What the lines of a text settle, in their order. -/
def settlements (buf : Utf16) : List Settlement := (splitLines buf).filterMap settlement

theorem pttlData_eq (buf : Utf16) : pttlData buf = (settlements buf).head? := pttlLoop_eq _

theorem incrData_eq (buf : Utf16) :
    incrData buf = ((settlements buf).find? Settlement.isReject).or (settlements buf).head? :=
  incrLoop_eq _ none

/-! ### Integers -/

theorem parseInt_digit {d : UInt16} (digit : isDigit d = true) (rest : Utf16) :
    parseInt (d :: rest) = some (digitsValue ((d :: rest).takeWhile isDigit) : Int) := by
  obtain ⟨low, high⟩ := isDigit_iff.mp digit
  have visible : isStrWhiteSpace d = false := not_isStrWhiteSpace (by omega) (by omega)
  have unsigned : ¬ (some d = some (0x2D : UInt16)) := by
    intro same
    cases Option.some.inj same
    cases digit
  have notPlus : ¬ (some d = some (0x2B : UInt16)) := by
    intro same
    cases Option.some.inj same
    cases digit
  unfold parseInt
  simp only [List.dropWhile_cons_of_neg (Bool.eq_false_iff.mp visible), List.head?_cons, unsigned,
    notPlus, or_self, if_false, List.takeWhile_cons_of_pos digit, reduceCtorEq]

theorem parseInt_minus {d : UInt16} (digit : isDigit d = true) (rest : Utf16) :
    parseInt (minus :: d :: rest) =
      some (-(digitsValue ((d :: rest).takeWhile isDigit) : Int)) := by
  have visible : ¬ isStrWhiteSpace minus = true := by decide
  have signed : some minus = some (0x2D : UInt16) := rfl
  unfold parseInt
  simp only [List.dropWhile_cons_of_neg visible, List.head?_cons, signed, true_or, if_true,
    List.tail_cons, List.takeWhile_cons_of_pos digit, reduceCtorEq, if_false]

/-- The digits of a number have a first one. -/
theorem decimal_cons (n : Nat) : ∃ d ds, decimal n = d :: ds ∧ isDigit d = true := by
  obtain ⟨d, ds, same⟩ := List.exists_cons_of_ne_nil (decimal_ne_nil n)
  exact ⟨d, ds, same, decimal_isDigit n d (same ▸ List.mem_cons_self)⟩

theorem digitsValue_takeWhile_decimal (n : Nat) :
    digitsValue ((decimal n).takeWhile isDigit) = n := by
  rw [List.takeWhile_eq_self_iff.mpr (decimal_isDigit n), digitsValue_decimal]

theorem parseInt_integerText (n : Int) : parseInt (integerText n) = some n := by
  obtain ⟨d, ds, same, digit⟩ := decimal_cons n.natAbs
  have value := digitsValue_takeWhile_decimal n.natAbs
  unfold integerText
  split
  · rw [same, parseInt_minus digit, ← same, value]
    exact congrArg some (by omega)
  · rw [same, parseInt_digit digit, ← same, value]
    exact congrArg some (by omega)

/-- How much of an integer reply has to be there until a number can be read. -/
def integerOnset (n : Int) : Nat := if n < 0 then 3 else 2

/-- A cut integer reply is a number as soon as its first digit is there. -/
theorem settlement_cut_integer (n : Int) (p : Nat) :
    if p < integerOnset n then settlement ((Reply.integer n).encode.take p) = none
    else ∃ value, settlement ((Reply.integer n).encode.take p) = some (.resolve value) := by
  change if p < integerOnset n then
      settlement ((colon :: (integerText n ++ [cr, lf])).take p) = none
    else
      ∃ value, settlement ((colon :: (integerText n ++ [cr, lf])).take p) = some (.resolve value)
  obtain ⟨d, ds, same, digit⟩ := decimal_cons n.natAbs
  have reads : ∀ {text : Utf16} {value : Int}, parseInt text = some value →
      settlement (colon :: text) = some (.resolve (toDouble value)) := by
    intro text value parses
    rw [settlement, if_pos List.head?_cons, readInteger, List.tail_cons, parses]
    rfl
  unfold integerOnset integerText
  by_cases negative : n < 0
  · simp only [if_pos negative]
    rw [same]
    match p with
    | 0 => exact rfl
    | 1 => exact rfl
    | 2 => exact rfl
    | p + 3 => exact ⟨_, reads (parseInt_minus digit _)⟩
  · simp only [if_neg negative]
    rw [same]
    match p with
    | 0 => exact rfl
    | 1 => exact rfl
    | p + 2 => exact ⟨_, reads (parseInt_digit digit _)⟩

/-! ### Cut streams -/

/-- How much has to be there until something can be read. -/
def onset : List Reply → Nat
  | [] => 0
  | .status text :: replies => (Reply.status text).encode.length + onset replies
  | .integer n :: _ => integerOnset n
  | .error _ :: _ => 1

/-- The end of the first reply that is no status. -/
def answerEnd : List Reply → Nat
  | [] => 0
  | .status text :: replies => (Reply.status text).encode.length + answerEnd replies
  | reply :: _ => reply.encode.length

/-- The end of the first error. -/
def errorEnd : List Reply → Option Nat
  | [] => none
  | .error text :: _ => some (Reply.error text).encode.length
  | reply :: replies => (errorEnd replies).map (reply.encode.length + ·)

/-- The end of the reply that decides in `incrWithExpire`: an error, or else the number. -/
def incrNeeded (replies : List Reply) : Nat := (errorEnd replies).getD (answerEnd replies)

def Reply.isStatus : Reply → Bool
  | .status _ => true
  | _ => false

/-- What the replies settle. -/
def readAll (replies : List Reply) : List Settlement :=
  replies.filterMap fun reply => settlement reply.line

theorem readAll_cons (reply : Reply) (replies : List Reply) :
    readAll (reply :: replies) = (settlement reply.line).toList ++ readAll replies := by
  unfold readAll
  rw [List.filterMap_cons]
  cases settlement reply.line <;> rfl

/-- What is read of a stream of which `p` units are there. -/
def readCut (replies : List Reply) (p : Nat) : List Settlement :=
  settlements ((encodeAll replies).take p)

theorem settlement_error (text : Utf16) : settlement (minus :: text) = some (.reject text) := rfl

theorem settlement_integer (n : Int) :
    settlement (Reply.integer n).line = some (.resolve (toDouble n)) := by
  rw [Reply.line, settlement, if_pos List.head?_cons, readInteger, List.tail_cons,
    parseInt_integerText]
  rfl

theorem Reply.encode_length (reply : Reply) : reply.encode.length = reply.line.length + 2 :=
  List.length_append

theorem Reply.encode_pos (reply : Reply) : 0 < reply.encode.length := by
  rw [reply.encode_length]
  omega

theorem readCut_nil (p : Nat) : readCut [] p = [] := by
  unfold readCut encodeAll
  rw [List.flatMap_nil, List.take_nil]
  rfl

/-- A reply that is there as a whole is a line, and a cut one is the last. -/
theorem readCut_cons (reply : Reply) (replies : List Reply) (p : Nat) :
    readCut (reply :: replies) p =
      if p < reply.encode.length then (settlement (reply.encode.take p)).toList
      else (settlement reply.line).toList ++ readCut replies (p - reply.encode.length) := by
  obtain ⟨noCr, noLf⟩ := reply.line_plain
  unfold readCut settlements
  rw [encodeAll, List.flatMap_cons, List.take_append]
  split
  · next cut =>
      have noLf : lf ∉ reply.encode.take p := by
        have length := reply.encode_length
        have shorter : reply.encode.take p = (reply.line ++ [cr]).take p := by
          have split : reply.encode = (reply.line ++ [cr]) ++ [lf] := by
            rw [Reply.encode, List.append_assoc]
            rfl
          rw [split, List.take_append_of_le_length]
          rw [List.length_append, List.length_singleton]
          omega
        rw [shorter]
        intro mem
        rcases List.mem_append.mp (List.mem_of_mem_take mem) with mem | mem
        · exact noLf mem
        · exact absurd (List.mem_singleton.mp mem) (by decide)
      have nothing : p - reply.encode.length = 0 := by omega
      rw [nothing, List.take_zero, List.append_nil, splitLines_single noLf]
      cases settles : settlement (reply.encode.take p) with
      | none => exact List.filterMap_cons_none settles
      | some b => exact List.filterMap_cons_some settles
  · next whole =>
      rw [List.take_of_length_le (by omega), Reply.encode, List.append_assoc, List.cons_append,
        List.cons_append, List.nil_append, splitLines_cons noCr, encodeAll]
      cases settles : settlement reply.line with
      | none => rw [List.filterMap_cons_none settles]; rfl
      | some b => rw [List.filterMap_cons_some settles]; rfl

theorem integerOnset_le (n : Int) : integerOnset n ≤ (Reply.integer n).encode.length := by
  obtain ⟨d, ds, same, -⟩ := decimal_cons n.natAbs
  unfold integerOnset Reply.encode Reply.line integerText
  split
  · simp [same]
  · simp [same]

/-- A reply of which less is there than can be read settles nothing. -/
theorem readCut_early (early : p < onset replies) : readCut replies p = [] := by
  induction replies generalizing p with
  | nil => exact absurd early (Nat.not_lt_zero p)
  | cons reply replies ih =>
      rw [readCut_cons]
      cases reply with
      | status text =>
          split
          · cases p <;> rfl
          · next whole =>
              have rest := ih (p := p - (Reply.status text).encode.length) (by
                unfold onset at early
                omega)
              rw [rest]
              rfl
      | integer n =>
          have inside := Nat.lt_of_lt_of_le early (integerOnset_le n)
          have cut := settlement_cut_integer n p
          rw [if_pos (show p < integerOnset n from early)] at cut
          rw [if_pos inside]
          exact congrArg Option.toList cut
      | error text =>
          cases Nat.lt_one_iff.mp early
          rw [if_pos (Reply.encode_pos _)]
          rfl

/-- Once something can be read, something is. -/
theorem readCut_late (late : onset replies ≤ p) (some : ∃ reply ∈ replies, reply.isStatus = false) :
    readCut replies p ≠ [] := by
  induction replies generalizing p with
  | nil =>
      obtain ⟨reply, mem, -⟩ := some
      cases mem
  | cons reply replies ih =>
      rw [readCut_cons]
      cases reply with
      | status text =>
          have whole : ¬ p < (Reply.status text).encode.length := by
            unfold onset at late
            omega
          rw [if_neg whole]
          obtain ⟨reply, mem, answers⟩ := some
          rcases List.mem_cons.mp mem with rfl | mem
          · cases answers
          · refine ih ?_ ⟨reply, mem, answers⟩
            unfold onset at late
            omega
      | integer n =>
          split
          · have cut := settlement_cut_integer n p
            rw [if_neg (show ¬ p < integerOnset n from Nat.not_lt.mpr late)] at cut
            obtain ⟨value, cut⟩ := cut
            rw [cut]
            exact List.cons_ne_nil _ _
          · rw [settlement_integer]
            exact List.cons_ne_nil _ _
      | error text =>
          split
          · match p, late with
            | p + 1, _ => exact List.cons_ne_nil _ _
          · exact List.cons_ne_nil _ _

/-- The first answer is read as soon as it is there. -/
theorem readCut_head? (late : answerEnd replies ≤ p) :
    (readCut replies p).head? = (readAll replies).head? := by
  induction replies generalizing p with
  | nil =>
      rw [readCut_nil]
      rfl
  | cons reply replies ih =>
      rw [readCut_cons]
      cases reply with
      | status text =>
          have le : (Reply.status text).encode.length ≤ p := by
            unfold answerEnd at late
            omega
          rw [if_neg (Nat.not_lt.mpr le)]
          refine ih ?_
          unfold answerEnd at late
          omega
      | integer n =>
          have whole : ¬ p < (Reply.integer n).encode.length := Nat.not_lt.mpr late
          rw [if_neg whole, readAll_cons, settlement_integer]
          rfl
      | error text =>
          have whole : ¬ p < (Reply.error text).encode.length := Nat.not_lt.mpr late
          rw [if_neg whole]
          rfl

/-- The first error is read as soon as it is there. -/
theorem readCut_error {e : Nat} (first : errorEnd replies = some e) (late : e ≤ p) :
    (readCut replies p).find? Settlement.isReject =
      (readAll replies).find? Settlement.isReject := by
  induction replies generalizing p e with
  | nil => cases first
  | cons reply replies ih =>
      rw [readCut_cons]
      cases reply with
      | status text =>
          obtain ⟨e', later, rfl⟩ := Option.map_eq_some_iff.mp first
          rw [if_neg (Nat.not_lt.mpr (Nat.le_of_add_right_le late)), readAll_cons]
          exact ih later (by omega)
      | integer n =>
          obtain ⟨e', later, rfl⟩ := Option.map_eq_some_iff.mp first
          rw [if_neg (Nat.not_lt.mpr (Nat.le_of_add_right_le late)), readAll_cons,
            settlement_integer]
          exact ih later (by omega)
      | error text =>
          cases first
          rw [if_neg (Nat.not_lt.mpr late)]
          rfl

/-- Without an error none is read. -/
theorem readCut_no_error (none : errorEnd replies = none) :
    (readCut replies p).find? Settlement.isReject = .none := by
  induction replies generalizing p with
  | nil =>
      rw [readCut_nil]
      rfl
  | cons reply replies ih =>
      rw [readCut_cons]
      cases reply with
      | status text =>
          split
          · cases p <;> rfl
          · exact ih (Option.map_eq_none_iff.mp none)
      | integer n =>
          split
          · have cut := settlement_cut_integer n p
            split at cut
            · rw [cut]
              rfl
            · obtain ⟨value, cut⟩ := cut
              rw [cut]
              rfl
          · rw [settlement_integer]
            exact ih (Option.map_eq_none_iff.mp none)
      | error text => cases none

/-! ### Where the answers end -/

theorem encodeAll_cons (reply : Reply) (replies : List Reply) :
    (encodeAll (reply :: replies)).length = reply.encode.length + (encodeAll replies).length := by
  rw [encodeAll, List.flatMap_cons, List.length_append]
  rfl

theorem answerEnd_le (replies : List Reply) : answerEnd replies ≤ (encodeAll replies).length := by
  induction replies with
  | nil => exact Nat.le_refl _
  | cons reply replies ih =>
      rw [encodeAll_cons]
      cases reply with
      | status text =>
          unfold answerEnd
          omega
      | integer n => exact Nat.le_add_right _ _
      | error text => exact Nat.le_add_right _ _

theorem answerEnd_pos (some : ∃ reply ∈ replies, reply.isStatus = false) :
    0 < answerEnd replies := by
  obtain ⟨reply, mem, -⟩ := some
  cases replies with
  | nil => cases mem
  | cons reply replies =>
      have pos := reply.encode_pos
      cases reply with
      | status text =>
          unfold answerEnd
          omega
      | integer n => exact pos
      | error text => exact pos

theorem errorEnd_bounds {e : Nat} (first : errorEnd replies = some e) :
    0 < e ∧ e ≤ (encodeAll replies).length := by
  induction replies generalizing e with
  | nil => cases first
  | cons reply replies ih =>
      rw [encodeAll_cons]
      have pos := reply.encode_pos
      cases reply with
      | error text =>
          cases first
          exact ⟨pos, Nat.le_add_right _ _⟩
      | status text | integer n =>
          obtain ⟨e', later, rfl⟩ := Option.map_eq_some_iff.mp first
          have := ih later
          omega

/-- An error is no status. -/
theorem answerEnd_le_errorEnd {e : Nat} (first : errorEnd replies = some e) :
    answerEnd replies ≤ e := by
  induction replies generalizing e with
  | nil => cases first
  | cons reply replies ih =>
      cases reply with
      | status text =>
          obtain ⟨e', later, rfl⟩ := Option.map_eq_some_iff.mp first
          exact Nat.add_le_add_left (ih later) _
      | integer n =>
          obtain ⟨e', later, rfl⟩ := Option.map_eq_some_iff.mp first
          exact Nat.le_add_right _ _
      | error text =>
          cases first
          exact Nat.le_refl _

theorem incrNeeded_bounds (some : ∃ reply ∈ replies, reply.isStatus = false) :
    0 < incrNeeded replies ∧ incrNeeded replies ≤ (encodeAll replies).length := by
  unfold incrNeeded
  cases first : errorEnd replies with
  | none => exact ⟨answerEnd_pos some, answerEnd_le replies⟩
  | some e => exact errorEnd_bounds first

/-! ### Chunks -/

theorem incrData_take (replies : List Reply) (p : Nat) :
    incrData ((encodeAll replies).take p) =
      ((readCut replies p).find? Settlement.isReject).or (readCut replies p).head? :=
  incrData_eq _

theorem pttlData_take (replies : List Reply) (p : Nat) :
    pttlData ((encodeAll replies).take p) = (readCut replies p).head? := pttlData_eq _

theorem readAll_ne_nil (some : ∃ reply ∈ replies, reply.isStatus = false) :
    readAll replies ≠ [] := by
  obtain ⟨reply, mem, answers⟩ := some
  have settles : ∃ b, settlement reply.line = .some b := by
    cases reply with
    | status => cases answers
    | integer n => exact ⟨_, settlement_integer n⟩
    | error text => exact ⟨_, settlement_error text.val⟩
  obtain ⟨b, settles⟩ := settles
  exact List.ne_nil_of_mem (List.mem_filterMap.mpr ⟨reply, mem, settles⟩)

/-- From where it has all it needs, `incrWithExpire` settles alike. -/
theorem incrData_settled (some : ∃ reply ∈ replies, reply.isStatus = false) :
    ∃ b, ∀ p, incrNeeded replies ≤ p → incrData ((encodeAll replies).take p) = .some b := by
  obtain ⟨first, rest, all⟩ := List.exists_cons_of_ne_nil (readAll_ne_nil some)
  cases error : errorEnd replies with
  | some e =>
      have head : ∀ p, e ≤ p → (readCut replies p).head? = .some first := by
        intro p late
        rw [readCut_head? (Nat.le_trans (answerEnd_le_errorEnd error) late), all]
        rfl
      cases found : (readAll replies).find? Settlement.isReject with
      | some b =>
          refine ⟨b, fun p late => ?_⟩
          rw [incrNeeded, error] at late
          rw [incrData_take, readCut_error error late, found, Option.some_or]
      | none =>
          refine ⟨first, fun p late => ?_⟩
          rw [incrNeeded, error] at late
          rw [incrData_take, readCut_error error late, found, Option.none_or, head p late]
  | none =>
      refine ⟨first, fun p late => ?_⟩
      rw [incrNeeded, error] at late
      rw [incrData_take, readCut_no_error error, readCut_head? late, all, Option.none_or]
      rfl

theorem pttlData_settled (some : ∃ reply ∈ replies, reply.isStatus = false) :
    ∃ b, ∀ p, answerEnd replies ≤ p → pttlData ((encodeAll replies).take p) = .some b := by
  obtain ⟨first, rest, all⟩ := List.exists_cons_of_ne_nil (readAll_ne_nil some)
  refine ⟨first, fun p late => ?_⟩
  rw [pttlData_take, readCut_head? late, all]
  rfl

/-- Something is read exactly from the onset on. -/
theorem readCut_eq_nil (some : ∃ reply ∈ replies, reply.isStatus = false) :
    readCut replies p = [] ↔ p < onset replies := by
  constructor
  · intro nothing
    by_contra late
    exact readCut_late (Nat.le_of_not_lt late) some nothing
  · exact readCut_early

theorem pttlData_eq_none (p : Nat) :
    pttlData ((encodeAll replies).take p) = none ↔ readCut replies p = [] := by
  rw [pttlData_take, List.head?_eq_none_iff]

theorem incrData_eq_none (p : Nat) :
    incrData ((encodeAll replies).take p) = none ↔ readCut replies p = [] := by
  rw [incrData_take, Option.or_eq_none_iff, List.head?_eq_none_iff]
  constructor
  · exact And.right
  · intro nothing
    exact ⟨by rw [nothing]; rfl, nothing⟩

/-- No data event ends between the onset of what is read first and the end of the reply that
decides. -/
def Uncut (replies : List Reply) (needed : Nat) (chunks : List Utf16) : Prop :=
  ∀ p ∈ ends 0 chunks, p < onset replies ∨ needed ≤ p

instance (replies : List Reply) (needed : Nat) (chunks : List Utf16) :
    Decidable (Uncut replies needed chunks) := inferInstanceAs (Decidable (∀ _ ∈ _, _ ∨ _))

theorem uncut_iff {needed : Nat} {chunks : List Utf16} {f : Utf16 → Option Settlement}
    (nothing : ∀ p, f ((encodeAll replies).take p) = none ↔ readCut replies p = [])
    (some : ∃ reply ∈ replies, reply.isStatus = false) :
    (∀ p ∈ ends 0 chunks, p < needed → f ((encodeAll replies).take p) = none) ↔
      Uncut replies needed chunks := by
  refine forall₂_congr fun p _ => ?_
  rw [nothing, readCut_eq_nil some, ← not_lt, or_comm, ← imp_iff_not_or]

theorem answers_some {commands : List Command} {command : Command} (mem : command ∈ commands)
    (other : command ≠ .auth ∧ command ≠ .select)
    (answers : List.Forall₂ Command.Answers commands replies) :
    ∃ reply ∈ replies, reply.isStatus = false := by
  induction answers with
  | nil => cases mem
  | @cons first reply _ _ here _ ih =>
      rcases List.mem_cons.mp mem with rfl | later
      · refine ⟨reply, List.mem_cons_self, ?_⟩
        cases reply with
        | status text => cases command <;> simp [Command.Answers] at here other
        | integer n => rfl
        | error text => rfl
      · obtain ⟨reply, mem, answer⟩ := ih later
        exact ⟨reply, List.mem_cons_of_mem _ mem, answer⟩

/-- How the replies are cut into data events does not matter if and only if no event ends
within what decides. -/
theorem chunking_iff (password db : Bool) (replies : List Reply) (chunks : List Utf16)
    (cut : chunks.flatten = encodeAll replies) :
    (List.Forall₂ Command.Answers (incrCommands password db) replies →
      (Whole incrData (incrNeeded replies) chunks ↔ Uncut replies (incrNeeded replies) chunks)) ∧
    (List.Forall₂ Command.Answers (pttlCommands password db) replies →
      (Whole pttlData (answerEnd replies) chunks ↔ Uncut replies (answerEnd replies) chunks)) := by
  constructor
  · intro answers
    have sent : .incr ∈ incrCommands password db := List.mem_append_right _ List.mem_cons_self
    have some := answers_some sent (by decide) answers
    obtain ⟨pos, le⟩ := incrNeeded_bounds some
    obtain ⟨b, settled⟩ := incrData_settled some
    rw [whole_iff cut pos le settled]
    exact uncut_iff incrData_eq_none some
  · intro answers
    have sent : .pttl ∈ pttlCommands password db := List.mem_append_right _ List.mem_cons_self
    have some := answers_some sent (by decide) answers
    obtain ⟨b, settled⟩ := pttlData_settled some
    rw [whole_iff cut (answerEnd_pos some) (answerEnd_le replies) settled]
    exact uncut_iff pttlData_eq_none some

/-- 12 calls so far, with an expiry. -/
def twelve : List Reply := [.integer 12, .integer 1]

/-- The rest of 1.5 seconds. -/
def remaining : List Reply := [.integer 1500]

theorem chunking_iff_twelve :
    Whole incrData (incrNeeded twelve) [[58], [49, 50, 13, 10], [58, 49, 13], [10]] ∧
      Whole pttlData (answerEnd remaining) [[58], [49, 53, 48, 48, 13, 10]] :=
  ⟨((chunking_iff false false twelve _ (by decide)).1
      (.cons trivial (.cons trivial .nil))).mpr (by decide),
    ((chunking_iff false false remaining _ (by decide)).2 (.cons trivial .nil)).mpr (by decide)⟩

/-- An event that ends after the first digit: the count of 12 calls is 1, and the rest of 1.5
seconds is 1 ms. -/
theorem digits_cut :
    [[58, 49], [50, 13, 10, 58, 49, 13, 10]].flatten = encodeAll twelve ∧
      answer incrData [] [[58, 49], [50, 13, 10, 58, 49, 13, 10]] = some (2, .resolve 1) ∧
      incrData (encodeAll twelve) = some (.resolve 12) ∧
      [[58, 49], [53, 48, 48, 13, 10]].flatten = encodeAll remaining ∧
      answer pttlData [] [[58, 49], [53, 48, 48, 13, 10]] = some (2, .resolve 1) ∧
      pttlData (encodeAll remaining) = some (.resolve 1500) := by
  decide +kernel

end Talos.RateLimit
