import Talos.Agent.PolicyEngine
import Talos.Encoding.Wildcards

/-!
# Globs in conditions

`_match_glob` (`packages/prime-agent/src/talos_agent/policy/engine.py`) writes a glob as a regular
expression. `readRegex` reads such expressions as `re` does. Its classes start with the characters
of the brackets, unescaped, and `$` also matches before a line feed at the end of the text.
-/

namespace Talos.Agent.Policies

open Encoding (Wildcard)

/-! ### Regular expressions -/

/-- What `re` knows of characters: the categories `\d`, `\s` and `\w`, and characters by name. -/
structure CharacterData where
  isDecimal : Char → Bool
  isSpace : Char → Bool
  isWord : Char → Bool
  named : List Char → Option Nat

/-- An element of a class. Characters are given by their code points. -/
inductive ClassElement where
  | char (code : Nat)
  | range (lo hi : Nat)
  | category (holds : Char → Bool)

def ClassElement.holds (c : Char) : ClassElement → Bool
  | char code => c.toNat = code
  | range lo hi => lo ≤ c.toNat && c.toNat ≤ hi
  | category holds => holds c

def hexDigit (c : Char) : Option Nat :=
  if '0' ≤ c ∧ c ≤ '9' then some (c.toNat - 48)
  else if 'a' ≤ c ∧ c ≤ 'f' then some (c.toNat - 87)
  else if 'A' ≤ c ∧ c ≤ 'F' then some (c.toNat - 55)
  else none

/-- The number in the first `n` characters, which are hexadecimal digits. -/
def hexCode : Nat → Nat → List Char → Option (Nat × List Char)
  | 0, code, rest => some (code, rest)
  | _, _, [] => none
  | n + 1, code, c :: rest => do hexCode n (code * 16 + (← hexDigit c)) rest

/-- Up to `n` octal digits. -/
def octalCode : Nat → Nat → List Char → Nat × List Char
  | n + 1, code, c :: rest =>
      if '0' ≤ c ∧ c ≤ '7' then octalCode n (code * 8 + (c.toNat - 48)) rest else (code, c :: rest)
  | _, code, rest => (code, rest)

variable (data : CharacterData)

/-- `_class_escape`, after the backslash; `none` is an error. -/
def classEscape (c : Char) (rest : List Char) : Option (ClassElement × List Char) :=
  let char (code : Nat) : Option (ClassElement × List Char) := some (.char code, rest)
  let category (holds : Char → Bool) : Option (ClassElement × List Char) :=
    some (.category holds, rest)
  let hex (n : Nat) : Option (ClassElement × List Char) := do
    let (code, rest) ← hexCode n 0 rest
    if code ≤ 0x10FFFF then some (.char code, rest) else none
  match c with
  | 'a' => char 7
  | 'b' => char 8
  | 'f' => char 12
  | 'n' => char 10
  | 'r' => char 13
  | 't' => char 9
  | 'v' => char 11
  | 'd' => category data.isDecimal
  | 'D' => category fun c => !data.isDecimal c
  | 's' => category data.isSpace
  | 'S' => category fun c => !data.isSpace c
  | 'w' => category data.isWord
  | 'W' => category fun c => !data.isWord c
  | 'x' => hex 2
  | 'u' => hex 4
  | 'U' => hex 8
  | 'N' => match rest with
    | '{' :: name => do
        let letters := name.takeWhile (· ≠ '}')
        let code ← data.named letters
        match name.drop letters.length with
        | [] => none
        | _ :: rest => some (.char code, rest)
    | _ => none
  | c =>
      if '0' ≤ c ∧ c ≤ '7' then
        let (code, rest) := octalCode 2 (c.toNat - 48) rest
        if code ≤ 0o377 then some (.char code, rest) else none
      else if c.isAlphanum then none
      else char c.toNat

def classElement : List Char → Option (ClassElement × List Char)
  | [] => none
  | '\\' :: [] => none
  | '\\' :: c :: rest => classEscape data c rest
  | c :: rest => some (.char c.toNat, rest)

/-- The elements of a class. A hyphen makes a range unless it is the first or the last character. -/
def classElements : Nat → List Char → Option (List ClassElement)
  | _, [] => some []
  | 0, _ => none
  | fuel + 1, body => do
      let (element, rest) ← classElement data body
      match rest with
      | ['-'] => some [element, .char '-'.toNat]
      | '-' :: rest => do
          let (last, rest) ← classElement data rest
          match element, last with
          | .char lo, .char hi =>
              if lo ≤ hi then (classElements fuel rest).map (.range lo hi :: ·) else none
          | _, _ => none
      | rest => (classElements fuel rest).map (element :: ·)

/-- The characters of a class up to its bracket, and what follows. -/
def classEnd : List Char → Option (List Char × List Char)
  | [] => none
  | ']' :: rest => some ([], rest)
  | '\\' :: [] => none
  | '\\' :: c :: rest => (classEnd rest).map fun (body, after) => ('\\' :: c :: body, after)
  | c :: rest => (classEnd rest).map fun (body, after) => (c :: body, after)

/-- A bracket in the first place does not end the class. -/
def classBody : List Char → Option (List Char × List Char)
  | ']' :: rest => (classEnd rest).map fun (body, after) => (']' :: body, after)
  | text => classEnd text

/-- A class after its opening bracket: the characters in it, and what follows. -/
def readClass (text : List Char) : Option ((Char → Bool) × List Char) := do
  let negated := text.head? = some '^'
  let (body, after) ← classBody (if negated then text.tail else text)
  let elements ← classElements data body.length body
  some (fun c => elements.any (·.holds c) != negated, after)

/-- A class with the star after it, if there is one. -/
def quantified (p : Char → Bool) : List Char → Wildcard Char × List Char
  | '*' :: after => (.many p, after)
  | after => (.one p, after)

/-- The elements before the final `$`, `none` where `re` raises. Outside of classes only escaped
characters, characters without a meaning of their own, and stars after classes are written. -/
def readRegex : Nat → List Char → Option (List (Wildcard Char))
  | 0, _ | _, [] => none
  | fuel + 1, char :: rest =>
      if char = '$' ∧ rest = [] then some []
      else if char = '[' then do
        let (p, after) ← readClass data rest
        let (w, after) := quantified p after
        (readRegex fuel after).map (w :: ·)
      else if char = '\\' then
        match rest with
        | [] => none
        | c :: rest => (readRegex fuel rest).map (.one (· == c) :: ·)
      else (readRegex fuel rest).map (.one (· == char) :: ·)

/-- `$` after the elements. -/
def acceptsToEnd (items : List (Wildcard Char)) (text : List Char) : Bool :=
  Wildcard.accepts items text ||
    (text.getLast? = some '\n' && Wildcard.accepts items text.dropLast)

/-- `re.match` with a regular expression from `^` to `$`. -/
def matchStart (regex text : String) : Except PyError Bool :=
  match regex.toList with
  | '^' :: rest => match readRegex data rest.length rest with
    | some items => .ok (acceptsToEnd items text.toList)
    | none => .error .patternError
  | _ => .error (.other "NotImplementedError")

/-! ### Globs -/

/-- A piece of a glob. -/
inductive GlobPiece where
  | star
  | any
  | bracket (negated : Bool) (seq : List Char)
  /-- `[` without a bracket that closes it. -/
  | unclosed
  | char (c : Char)
  deriving DecidableEq

/-- The bracket expression after its opening bracket, and what follows. -/
def closedBracket (rest : List Char) : Option (Bool × List Char × List Char) :=
  let negated := rest.head? = some '!'
  let body := if negated then rest.tail else rest
  let seq := body.takeWhile (· ≠ ']')
  match body.drop seq.length with
  | _ :: after => some (negated, seq, after)
  | [] => none

def globPieces : Nat → List Char → List GlobPiece
  | 0, _ | _, [] => []
  | fuel + 1, char :: rest =>
      if char = '*' then .star :: globPieces fuel rest
      else if char = '?' then .any :: globPieces fuel rest
      else if char = '[' then match closedBracket rest with
        | some (negated, seq, after) => .bracket negated seq :: globPieces fuel after
        | none => .unclosed :: globPieces fuel rest
      else .char char :: globPieces fuel rest

def pieces (pattern : String) : List GlobPiece := globPieces pattern.length pattern.toList

/-- What the docstring says of a piece. -/
def GlobPiece.documented : GlobPiece → Wildcard Char
  | star => .many (· != '/')
  | any => .one (· != '/')
  | bracket negated seq => .one (fun c => seq.contains c != negated)
  | unclosed => .one (· == '[')
  | char c => .one (· == c)

/-- The texts that a glob is documented to match. -/
def Documented (pattern : String) : Language Char :=
  Wildcard.words ((pieces pattern).map GlobPiece.documented)

/-! ### What is written for a piece -/

def isSpecial (c : Char) : Bool :=
  decide (c.toNat ∈ [92, 46, 94, 36, 43, 123, 125, 40, 41, 124])

def GlobPiece.regex : GlobPiece → List Char
  | star => "[^/]*".toList
  | any => "[^/]".toList
  | bracket negated seq => (if negated then "[^".toList else "[".toList) ++ seq ++ [']']
  | unclosed => ['[']
  | char c => if isSpecial c then ['\\', c] else [c]

/-- The characters of the class that `re` reads, and whether it is negated. -/
def classChars (negated : Bool) (seq : List Char) : Bool × List Char :=
  if negated then (true, seq)
  else match seq with
    | '^' :: seq => (true, seq)
    | seq => (false, seq)

/-- No backslash at the end is without its character. -/
def complete : List Char → Bool
  | [] => true
  | ['\\'] => false
  | '\\' :: _ :: rest => complete rest
  | _ :: rest => complete rest

/-- Every bracket expression is closed, and `re` takes its closing bracket for the end of the
class. -/
def GlobPiece.Aligned : GlobPiece → Prop
  | bracket negated seq =>
      (classChars negated seq).2 ≠ [] ∧ complete (classChars negated seq).2 = true
  | unclosed => False
  | _ => True

/-- What `re` makes of a piece by itself. -/
def GlobPiece.compiled : GlobPiece → Option (Wildcard Char)
  | bracket negated seq =>
      (classElements data (classChars negated seq).2.length (classChars negated seq).2).map
        fun elements => .one fun c => elements.any (·.holds c) != (classChars negated seq).1
  | unclosed => none
  | p => some p.documented

def compile : List GlobPiece → Option (List (Wildcard Char))
  | [] => some []
  | p :: ps => do
      let w ← p.compiled data
      (compile ps).map (w :: ·)

/-- What the pieces of a pattern are made of. -/
def GlobPiece.Written : GlobPiece → Prop
  | char c => c ≠ '*' ∧ c ≠ '['
  | bracket _ seq => ']' ∉ seq
  | _ => True

variable {data} {fuel : Nat} {rest after seq body : List Char} {negated : Bool}
  {ps : List GlobPiece}

/-- The characters after an opening bracket and a negation. -/
def bracketChars (rest : List Char) : List Char := if rest.head? = some '!' then rest.tail else rest

theorem closedBracket_eq (closed : closedBracket rest = some (negated, seq, after)) :
    negated = decide (rest.head? = some '!') ∧ seq = (bracketChars rest).takeWhile (· ≠ ']') ∧
      ∃ c, (bracketChars rest).drop seq.length = c :: after := by
  simp only [closedBracket] at closed
  split at closed
  · next c after' dropped =>
    obtain ⟨same, same', same''⟩ := Prod.mk.inj (Option.some.inj closed) |>.imp_right Prod.mk.inj
    subst same same' same''
    exact ⟨rfl, rfl, c, dropped⟩
  · cases closed

theorem not_closedBracket (unclosed : closedBracket rest = none) :
    (bracketChars rest).drop ((bracketChars rest).takeWhile (· ≠ ']')).length = [] := by
  simp only [closedBracket] at unclosed
  split at unclosed
  · cases unclosed
  · next dropped => exact dropped

theorem notMem_seq (rest : List Char) : ']' ∉ (bracketChars rest).takeWhile (· ≠ ']') := by
  intro mem
  simpa using List.mem_takeWhile_imp mem

theorem regex_special {c : Char} (special : isSpecial c = true) :
    GlobPiece.regex (.char c) = ['\\', c] := by
  rw [GlobPiece.regex, if_pos special]

theorem regex_plain {c : Char} (plain : isSpecial c = false) :
    GlobPiece.regex (.char c) = [c] := by
  rw [GlobPiece.regex, if_neg (by rw [plain]; exact Bool.false_ne_true)]

/-- The sign of a negated class. -/
def sign (negated : Bool) : List Char := if negated then ['^'] else []

theorem regex_bracket (negated : Bool) (seq : List Char) :
    GlobPiece.regex (.bracket negated seq) = '[' :: (sign negated ++ seq ++ [']']) := by
  cases negated <;> rfl

/-- What is written for the first character, or for the bracket expression that it opens. -/
theorem glob_cons (fuel : Nat) (char : Char) (rest : List Char) :
    (∃ p after, globPieces (fuel + 1) (char :: rest) = p :: globPieces fuel after ∧
      globRegex (fuel + 1) (char :: rest) = p.regex ++ globRegex fuel after ∧
      p.Written ∧ p ≠ .unclosed) ∨
    ∃ negated seq, globPieces (fuel + 1) (char :: rest) = .unclosed :: globPieces fuel rest ∧
      globRegex (fuel + 1) (char :: rest) =
        '[' :: (sign negated ++ seq ++ '[' :: globRegex fuel rest) ∧ ']' ∉ seq := by
  rw [globPieces, globRegex]
  by_cases star : char = '*'
  · rw [if_pos star, if_pos star]
    exact .inl ⟨.star, rest, rfl, rfl, trivial, nofun⟩
  rw [if_neg star, if_neg star]
  by_cases any : char = '?'
  · rw [if_pos any, if_pos any]
    exact .inl ⟨.any, rest, rfl, rfl, trivial, nofun⟩
  rw [if_neg any, if_neg any]
  by_cases bracket : char = '['
  · rw [if_pos bracket, if_pos bracket]
    cases found : closedBracket rest with
    | some p =>
        obtain ⟨negated, seq, after⟩ := p
        obtain ⟨same, chars, c, dropped⟩ := closedBracket_eq found
        have free := notMem_seq rest
        simp only [bracketChars] at chars dropped free
        refine .inl ⟨.bracket negated seq, after, rfl, ?_, chars ▸ free, nofun⟩
        simp only [← chars, dropped, GlobPiece.regex, same, decide_eq_true_eq, List.append_assoc,
          List.cons_append, List.nil_append]
    | none =>
        have dropped := not_closedBracket found
        have free := notMem_seq rest
        simp only [bracketChars] at dropped free
        refine .inr ⟨decide (rest.head? = some '!'), _, rfl, ?_, free⟩
        simp only [dropped, sign, decide_eq_true_eq]
        split_ifs <;> simp
  rw [if_neg bracket, if_neg bracket]
  refine .inl ⟨.char char, rest, rfl, ?_, ⟨star, bracket⟩, nofun⟩
  split_ifs with special
  · rw [regex_special (decide_eq_true special)]
    rfl
  · rw [regex_plain (decide_eq_false special)]
    rfl

/-! ### The ends of classes -/

/-- No class that is open ends in these characters, and no backslash at the end is without its
character. -/
def noEnd : List Char → Bool
  | [] => true
  | ['\\'] => false
  | '\\' :: _ :: rest => noEnd rest
  | c :: rest => c != ']' && noEnd rest

theorem noEnd_append {front : List Char} (skip : noEnd front = true) (later : noEnd rest = true) :
    noEnd (front ++ rest) = true := by
  induction front using noEnd.induct with
  | case1 => exact later
  | case2 => cases skip
  | case3 c front ih => exact ih skip
  | case4 c front notLast notEscape ih =>
      have other : c ≠ '\\' := by
        rintro rfl
        cases front with
        | nil => exact notLast rfl rfl
        | cons d front => exact notEscape d front rfl rfl
      rw [noEnd, Bool.and_eq_true] at skip
      · rw [List.cons_append, noEnd, Bool.and_eq_true]
        · exact ⟨skip.1, ih skip.2⟩
        · exact fun same => absurd same other
        · exact fun _ _ same => absurd same other
      all_goals assumption

/-- A text without closing brackets ends no class, with the character that its last backslash
takes. -/
theorem noEnd_of_free (free : ']' ∉ seq) :
    if complete seq then noEnd seq = true else ∀ c, noEnd (seq ++ [c]) = true := by
  induction seq using complete.induct with
  | case1 => rfl
  | case2 => exact fun _ => rfl
  | case3 c rest ih =>
      exact ih fun mem => free (List.mem_cons_of_mem _ (List.mem_cons_of_mem _ mem))
  | case4 c rest notLast notEscape ih =>
      have here : (c != ']') = true := bne_iff_ne.mpr fun same => free (same ▸ List.mem_cons_self)
      have other : c ≠ '\\' := by
        rintro rfl
        cases rest with
        | nil => exact notLast rfl rfl
        | cons d rest => exact notEscape d rest rfl rfl
      have later := ih fun mem => free (List.mem_cons_of_mem _ mem)
      have noEnd_cons (text : List Char) : noEnd (c :: text) = noEnd text := by
        rw [noEnd, here, Bool.true_and]
        · exact fun same => absurd same other
        · exact fun _ _ same => absurd same other
      have complete_cons : complete (c :: rest) = complete rest := by
        rw [complete]
        all_goals assumption
      simpa only [complete_cons, noEnd_cons, List.cons_append] using later

theorem classEnd_noEnd {front : List Char} (skip : noEnd front = true) :
    classEnd (front ++ rest) = (classEnd rest).map fun found => (front ++ found.1, found.2) := by
  induction front using noEnd.induct with
  | case1 => exact Option.map_id'.symm
  | case2 => cases skip
  | case3 c front ih =>
      simp only [List.cons_append, classEnd, ih skip, Option.map_map]
      rfl
  | case4 c front notLast notEscape ih =>
      have other : c ≠ '\\' := by
        rintro rfl
        cases front with
        | nil => exact notLast rfl rfl
        | cons d front => exact notEscape d front rfl rfl
      rw [noEnd, Bool.and_eq_true, bne_iff_ne] at skip
      · rw [List.cons_append, classEnd, ih skip.2, Option.map_map]
        · rfl
        · exact skip.1
        · exact fun same => absurd same other
        · exact fun _ _ same => absurd same other
      all_goals assumption

theorem exists_classEnd (front : List Char) (skip : noEnd front = true)
    (found : classEnd (front ++ rest) = some (body, after)) :
    ∃ body, classEnd rest = some (body, after) := by
  rw [classEnd_noEnd skip] at found
  obtain ⟨⟨body, later⟩, ended, same⟩ := Option.map_eq_some_iff.mp found
  obtain ⟨-, rfl⟩ := Prod.mk.inj same
  exact ⟨body, ended⟩

theorem classBody_cons {c : Char} (other : c ≠ ']') (text : List Char) :
    classBody (c :: text) = classEnd (c :: text) := by
  rw [classBody]
  exact fun _ same => other (List.cons.inj same).1

theorem classBody_append (free : ']' ∉ body) (started : body ≠ []) (whole : complete body = true) :
    classBody (body ++ ']' :: after) = some (body, after) := by
  have skip := noEnd_of_free free
  rw [if_pos whole] at skip
  cases body with
  | nil => exact absurd rfl started
  | cons c body =>
      rw [List.cons_append, classBody_cons fun same => free (same ▸ List.mem_cons_self),
        ← List.cons_append, classEnd_noEnd skip]
      exact congrArg (fun text => some (text, after)) (List.append_nil _)

theorem classChars_cases (negated : Bool) (seq : List Char) :
    negated = true ∧ classChars negated seq = (true, seq) ∨
      negated = false ∧ (∃ tail, seq = '^' :: tail ∧ classChars negated seq = (true, tail)) ∨
      negated = false ∧ seq.head? ≠ some '^' ∧ classChars negated seq = (false, seq) := by
  cases negated with
  | true => exact .inl ⟨rfl, rfl⟩
  | false =>
      refine .inr ?_
      by_cases caret : seq.head? = some '^'
      · obtain ⟨tail, rfl⟩ := List.head?_eq_some_iff.mp caret
        exact .inl ⟨rfl, tail, rfl, rfl⟩
      · refine .inr ⟨rfl, caret, ?_⟩
        cases seq with
        | nil => rfl
        | cons c seq =>
            rw [classChars, if_neg Bool.false_ne_true]
            exact fun _ same => caret (congrArg List.head? same)

theorem notMem_classChars (free : ']' ∉ seq) : ']' ∉ (classChars negated seq).2 := by
  rcases classChars_cases negated seq with ⟨-, same⟩ | ⟨-, tail, rfl, same⟩ | ⟨-, -, same⟩
  · rwa [same]
  · rw [same]
    exact fun mem => free (List.mem_cons_of_mem _ mem)
  · rwa [same]

/-- A class is read from the characters after its sign, which may be the first of them. -/
theorem readClass_chars {x : Char} (other : x ≠ '^') :
    readClass data (sign negated ++ seq ++ x :: rest) =
      (classBody ((classChars negated seq).2 ++ x :: rest)).bind fun found =>
        (classElements data found.1.length found.1).map fun elements =>
          (fun c => elements.any (·.holds c) != (classChars negated seq).1, found.2) := by
  have unfolded (negated : Bool) (text body : List Char)
      (head : decide (text.head? = some '^') = negated)
      (same : (if negated then text.tail else text) = body) :
      readClass data text = (classBody body).bind fun found =>
        (classElements data found.1.length found.1).map fun elements =>
          (fun c => elements.any (·.holds c) != negated, found.2) := by
    subst head same
    simp only [readClass, decide_eq_true_eq, Option.map_eq_bind]
    rfl
  rcases classChars_cases negated seq with ⟨rfl, same⟩ | ⟨rfl, tail, rfl, same⟩ | ⟨rfl, caret, same⟩
  · rw [same]
    exact unfolded _ _ _ rfl rfl
  · rw [same]
    exact unfolded _ _ _ rfl rfl
  · rw [same]
    refine unfolded _ _ _ (decide_eq_false ?_) rfl
    cases seq with
    | nil => exact fun first => other (Option.some.inj first)
    | cons c seq => exact fun first => caret first

theorem readClass_append (free : ']' ∉ seq) (started : (classChars negated seq).2 ≠ [])
    (whole : complete (classChars negated seq).2 = true) :
    readClass data (sign negated ++ seq ++ ']' :: after) =
      (classElements data (classChars negated seq).2.length (classChars negated seq).2).map
        fun elements =>
          (fun c => elements.any (·.holds c) != (classChars negated seq).1, after) := by
  rw [readClass_chars (by decide), classBody_append (notMem_classChars free) started whole]
  rfl

/-- A class that is not closed where the glob closes it ends in what is written later. -/
theorem exists_classEnd_of_readClass {x : Char} {p : Char → Bool} (free : ']' ∉ seq)
    (misaligned : x = '[' ∨ x = ']' ∧ ¬ (GlobPiece.bracket negated seq).Aligned)
    (read : readClass data (sign negated ++ seq ++ x :: rest) = some (p, after)) :
    ∃ body, classEnd rest = some (body, after) := by
  have other : x ≠ '^' := by
    rcases misaligned with rfl | ⟨rfl, -⟩ <;> decide
  rw [readClass_chars other] at read
  obtain ⟨⟨body, later⟩, ended, same⟩ := Option.bind_eq_some_iff.mp read
  obtain ⟨elements, -, same⟩ := Option.map_eq_some_iff.mp same
  obtain rfl : later = after := congrArg Prod.snd same
  have free : ']' ∉ (classChars negated seq).2 := notMem_classChars free
  have skip := noEnd_of_free free
  rw [GlobPiece.Aligned] at misaligned
  generalize (classChars negated seq).2 = chars at *
  cases chars with
  | nil =>
      rcases misaligned with rfl | ⟨rfl, -⟩
      · exact exists_classEnd ['['] (by decide) ended
      · obtain ⟨found, inner, same⟩ := Option.map_eq_some_iff.mp ended
        obtain rfl : found.2 = later := congrArg Prod.snd same
        exact ⟨found.1, inner⟩
  | cons c chars =>
      have started : c ≠ ']' := fun same => free (same ▸ List.mem_cons_self)
      rw [List.cons_append, classBody_cons started, ← List.cons_append,
        List.append_cons] at ended
      refine exists_classEnd _ ?_ ended
      cases whole : complete (c :: chars) with
      | false =>
          rw [whole, if_neg Bool.false_ne_true] at skip
          exact skip x
      | true =>
          rw [whole, if_pos rfl] at skip
          rcases misaligned with rfl | ⟨-, misaligned⟩
          · exact noEnd_append skip (by decide)
          · exact absurd ⟨List.cons_ne_nil _ _, whole⟩ misaligned

theorem slash_class : (fun c : Char => [ClassElement.char '/'.toNat].any (·.holds c) != true) =
    (· != '/') := by
  funext c
  have same : decide (c.toNat = '/'.toNat) = (c == '/') :=
    Bool.eq_iff_iff.mpr (by rw [decide_eq_true_iff, beq_iff_eq, Char.toNat_inj])
  rw [List.any_cons, List.any_nil, Bool.or_false, ClassElement.holds, same, Bool.bne_true]
  rfl

/-- The class `[^/]`. -/
theorem readClass_slash :
    readClass data ('^' :: '/' :: ']' :: after) = some ((· != '/'), after) := by
  have read := @readClass_append data after ['/'] true (by decide) (by decide) (by decide)
  rw [← slash_class]
  exact read

theorem readRegex_class {p : Char → Bool} (read : readClass data rest = some (p, after)) :
    readRegex data (fuel + 1) ('[' :: rest) =
      (readRegex data fuel (quantified p after).2).map ((quantified p after).1 :: ·) := by
  simp only [readRegex, read]
  rfl

theorem readRegex_class_none (read : readClass data rest = none) :
    readRegex data (fuel + 1) ('[' :: rest) = none := by
  simp only [readRegex, read]
  rfl

theorem quantified_eq {p : Char → Bool} (single : after.head? ≠ some '*') :
    quantified p after = (.one p, after) := by
  cases after with
  | nil => rfl
  | cons c after =>
      rw [quantified]
      exact fun _ same => single (congrArg List.head? same)

theorem readRegex_char {c : Char} (written : (GlobPiece.char c).Written) (text : List Char) :
    readRegex data (fuel + 1) (GlobPiece.regex (.char c) ++ text) =
      (readRegex data fuel text).map (.one (· == c) :: ·) := by
  cases special : isSpecial c with
  | true =>
      rw [regex_special special]
      rfl
  | false =>
      have dollar : c ≠ '$' := by
        rintro rfl
        cases special
      have escape : c ≠ '\\' := by
        rintro rfl
        cases special
      rw [regex_plain special]
      simp only [List.cons_append, List.nil_append, readRegex, dollar, written.2, escape, false_and,
        if_false]

theorem regex_length_pos (p : GlobPiece) : 0 < p.regex.length := by
  cases p with
  | star | any | unclosed => decide
  | bracket negated seq => simp [regex_bracket]
  | char c => cases special : isSpecial c <;> simp [GlobPiece.regex, special]

/-- `re` reads an aligned piece by itself. -/
theorem readRegex_piece {p : GlobPiece} (written : p.Written) (aligned : p.Aligned)
    (single : rest.head? ≠ some '*') :
    readRegex data (fuel + 1) (p.regex ++ rest) =
      (p.compiled data).bind fun w => (readRegex data fuel rest).map (w :: ·) := by
  cases p with
  | star => exact readRegex_class readClass_slash
  | any =>
      have read := @readRegex_class data fuel _ _ _ (@readClass_slash data rest)
      rw [quantified_eq single] at read
      exact read
  | bracket negated seq =>
      have text : GlobPiece.regex (.bracket negated seq) ++ rest =
          '[' :: (sign negated ++ seq ++ ']' :: rest) := by
        simp [regex_bracket]
      have read := @readClass_append data rest seq negated written aligned.1 aligned.2
      rw [text, GlobPiece.compiled]
      cases parsed : classElements data (classChars negated seq).2.length
          (classChars negated seq).2 with
      | none =>
          rw [parsed] at read
          exact readRegex_class_none read
      | some elements =>
          rw [parsed] at read
          refine (readRegex_class read).trans ?_
          rw [quantified_eq single]
          rfl
  | unclosed => cases aligned
  | char c => exact readRegex_char written rest

theorem head_globRegex (fuel : Nat) (pattern : List Char) :
    (globRegex fuel pattern ++ ['$']).head? ≠ some '*' := by
  cases fuel with
  | zero => simp [globRegex]
  | succ fuel =>
      cases pattern with
      | nil => simp [globRegex]
      | cons char rest =>
          rcases glob_cons fuel char rest with
            ⟨p, after, -, regex, written, -⟩ | ⟨negated, seq, -, regex, -⟩
          · rw [regex]
            cases p with
            | star | any | unclosed => simp [GlobPiece.regex]
            | bracket negated seq => simp [regex_bracket]
            | char c =>
                by_cases special : isSpecial c = true
                · simp [GlobPiece.regex, special]
                · simpa [GlobPiece.regex, special] using written.1
          · simp [regex]

/-- `re` reads an aligned glob piece by piece. -/
theorem readRegex_glob {f : Nat} {pattern : List Char}
    (aligned : ∀ p ∈ globPieces fuel pattern, p.Aligned)
    (enough : (globRegex fuel pattern).length < f) :
    readRegex data f (globRegex fuel pattern ++ ['$']) =
      compile data (globPieces fuel pattern) := by
  induction fuel generalizing pattern f with
  | zero =>
      obtain ⟨f, rfl⟩ := Nat.exists_eq_succ_of_ne_zero (Nat.ne_of_gt enough)
      rfl
  | succ fuel ih =>
      obtain ⟨f, rfl⟩ := Nat.exists_eq_succ_of_ne_zero (Nat.ne_of_gt (Nat.zero_lt_of_lt enough))
      cases pattern with
      | nil => rfl
      | cons char rest =>
          rcases glob_cons fuel char rest with
            ⟨p, after, pieces, regex, written, -⟩ | ⟨-, -, pieces, -⟩
          · rw [pieces] at aligned ⊢
            obtain ⟨head, later⟩ := List.forall_mem_cons.mp aligned
            have long := regex_length_pos p
            rw [regex, List.length_append] at enough
            rw [regex, List.append_assoc, readRegex_piece written head (head_globRegex _ _),
              ih later (by omega)]
            rfl
          · rw [pieces] at aligned
            exact (aligned _ List.mem_cons_self).elim

/-! ### Globs and what they are documented to match -/

/-- `_match_glob` with `re` as it is above. -/
def globMatches (data : CharacterData) (py : Python String) (pattern text : String) :
    Except PyError Bool :=
  matchGlob { py with matchStart := matchStart data } pattern text

variable {py : Python String} {pattern : String}

variable (data) in
/-- What `re` reads of the expression that is written for a glob. -/
def compiledGlob (pattern : String) : Option (List (Wildcard Char)) :=
  let regex := globRegex pattern.length pattern.toList ++ ['$']
  readRegex data regex.length regex

theorem globMatches_eq (text : String) : globMatches data py pattern text =
    .ok ((compiledGlob data pattern).any (acceptsToEnd · text.toList)) := by
  simp only [globMatches, matchGlob, matchStart, compiledGlob, String.toList_ofList,
    List.cons_append]
  cases readRegex data _ _ <;> rfl

theorem compiledGlob_aligned (aligned : ∀ p ∈ pieces pattern, p.Aligned) :
    compiledGlob data pattern = compile data (pieces pattern) := by
  exact readRegex_glob aligned (by simp)

theorem compile_forall₂ {items : List (Wildcard Char)} (read : compile data ps = some items) :
    List.Forall₂ (fun p w => p.compiled data = some w) ps items := by
  induction ps generalizing items with
  | nil =>
      obtain rfl := Option.some.inj read
      exact .nil
  | cons p ps ih =>
      rw [compile] at read
      cases head : p.compiled data with
      | none =>
          rw [head] at read
          cases read
      | some w =>
          rw [head] at read
          obtain ⟨later, inner, rfl⟩ := Option.map_eq_some_iff.mp read
          exact .cons head (ih inner)

theorem compile_documented (plain : ∀ p ∈ ps, p.compiled data = some p.documented) :
    compile data ps = some (ps.map GlobPiece.documented) := by
  induction ps with
  | nil => rfl
  | cons p ps ih =>
      obtain ⟨head, later⟩ := List.forall_mem_cons.mp plain
      rw [compile, head, ih later]
      rfl

/-! ### Classes that are not closed where the glob closes them -/

/-- The elements of a glob that stand for one character. -/
def singles (ps : List GlobPiece) : Nat := (Wildcard.classes (ps.map GlobPiece.documented)).length

theorem singles_cons (p : GlobPiece) (ps : List GlobPiece) :
    singles (p :: ps) = (Wildcard.classes [p.documented]).length + singles ps := by
  cases p with
  | star => exact (Nat.zero_add _).symm
  | _ => exact Nat.add_comm _ 1

theorem classes_cons (w : Wildcard Char) (items : List (Wildcard Char)) :
    (Wildcard.classes (w :: items)).length =
      (Wildcard.classes [w]).length + (Wildcard.classes items).length := by
  cases w with
  | one p => exact Nat.add_comm _ 1
  | many p => exact (Nat.zero_add _).symm

theorem noEnd_bracket (negated : Bool) {text : List Char} (skip : noEnd text = true) :
    noEnd ('[' :: (sign negated ++ text)) = true := by
  cases negated <;> exact skip

/-- After a class the end of a glob is written, and with the class it has at most `most` elements
for single characters. -/
def EndsWithin (p : Char → Bool) (after : List Char) (fuel most : Nat) : Prop :=
  ∃ fuel' pattern w, fuel' ≤ fuel ∧ quantified p after = (w, globRegex fuel' pattern ++ ['$']) ∧
    (Wildcard.classes [w]).length + singles (globPieces fuel' pattern) ≤ most

/-- A class that is open where a piece starts ends with a later piece. -/
theorem endsWithin {pattern : List Char}
    (found : classEnd (globRegex fuel pattern ++ ['$']) = some (body, after)) (p : Char → Bool) :
    EndsWithin p after fuel (singles (globPieces fuel pattern)) := by
  induction fuel generalizing pattern body with
  | zero => cases found
  | succ fuel ih =>
      cases pattern with
      | nil => cases found
      | cons char rest =>
          have further (front : List Char) {later : List Char} {q : GlobPiece}
              (skip : noEnd front = true)
              (found : classEnd (front ++ (globRegex fuel later ++ ['$'])) = some (body, after))
              (pieces : globPieces (fuel + 1) (char :: rest) = q :: globPieces fuel later) :
              EndsWithin p after (fuel + 1) (singles (globPieces (fuel + 1) (char :: rest))) := by
            obtain ⟨body, ended⟩ := exists_classEnd front skip found
            obtain ⟨fuel', pattern', w, less, same, fewer⟩ := ih ended
            rw [pieces, singles_cons]
            exact ⟨fuel', pattern', w, Nat.le_succ_of_le less, same, by omega⟩
          have here (front : List Char) {later : List Char} {q : GlobPiece}
              (skip : noEnd front = true)
              (found : classEnd (front ++ ']' :: (globRegex fuel later ++ ['$'])) =
                some (body, after))
              (pieces : globPieces (fuel + 1) (char :: rest) = q :: globPieces fuel later)
              (single : (Wildcard.classes [q.documented]).length = 1) :
              EndsWithin p after (fuel + 1) (singles (globPieces (fuel + 1) (char :: rest))) := by
            obtain ⟨body, ended⟩ := exists_classEnd front skip found
            obtain rfl : globRegex fuel later ++ ['$'] = after :=
              congrArg Prod.snd (Option.some.inj ended)
            refine ⟨fuel, later, .one p, Nat.le_succ _, quantified_eq (head_globRegex _ _), ?_⟩
            rw [pieces, singles_cons, single]
            exact Nat.le_refl _
          rcases glob_cons fuel char rest with
            ⟨q, later, pieces, regex, written, closed⟩ | ⟨negated, seq, pieces, regex, free⟩
          · rw [regex, List.append_assoc] at found
            cases q with
            | star =>
                obtain ⟨body, ended⟩ := exists_classEnd ['[', '^', '/'] (by decide) found
                obtain rfl : '*' :: (globRegex fuel later ++ ['$']) = after :=
                  congrArg Prod.snd (Option.some.inj ended)
                refine ⟨fuel, later, .many p, Nat.le_succ _, rfl, ?_⟩
                rw [pieces, singles_cons]
                exact Nat.le_refl _
            | any => exact here ['[', '^', '/'] (by decide) found pieces rfl
            | bracket negated seq =>
                have skip := noEnd_of_free written
                rw [regex_bracket] at found
                cases whole : complete seq with
                | true =>
                    rw [whole, if_pos rfl] at skip
                    refine here _ (noEnd_bracket negated skip) ?_ pieces rfl
                    simpa using found
                | false =>
                    rw [whole, if_neg Bool.false_ne_true] at skip
                    refine further _ (noEnd_bracket negated (skip ']')) ?_ pieces
                    simpa using found
            | unclosed => exact absurd rfl closed
            | char c =>
                cases special : isSpecial c with
                | true =>
                    rw [regex_special special] at found
                    exact further _ rfl found pieces
                | false =>
                    rw [regex_plain special] at found
                    by_cases ends : c = ']'
                    · subst ends
                      exact here [] rfl found pieces rfl
                    · have other : c ≠ '\\' := by
                        rintro rfl
                        cases special
                      refine further [c] ?_ found pieces
                      rw [noEnd, bne_iff_ne.mpr ends]
                      · rfl
                      · exact fun same => absurd same other
                      · exact fun _ _ same => absurd same other
          · rw [regex] at found
            have skip := noEnd_of_free free
            have whole : noEnd (seq ++ ['[']) = true := by
              cases whole : complete seq with
              | true =>
                  rw [whole, if_pos rfl] at skip
                  exact noEnd_append skip (by decide)
              | false =>
                  rw [whole, if_neg Bool.false_ne_true] at skip
                  exact skip '['
            refine further _ (noEnd_bracket negated whole) ?_ pieces
            simpa using found

theorem alike_compiled {p : GlobPiece} {w : Wildcard Char} (read : p.compiled data = some w) :
    Wildcard.Alike w p.documented := by
  cases p with
  | bracket negated seq =>
      obtain ⟨elements, -, rfl⟩ := Option.map_eq_some_iff.mp read
      trivial
  | star =>
      obtain rfl := Option.some.inj read
      rfl
  | unclosed => cases read
  | any | char =>
      obtain rfl := Option.some.inj read
      trivial

/-- No more elements for single characters than the pieces have, and fewer unless every piece is
aligned. -/
def Within (items : List (Wildcard Char)) (ps : List GlobPiece) : Prop :=
  (Wildcard.classes items).length ≤ singles ps ∧
    ((Wildcard.classes items).length = singles ps → ∀ p ∈ ps, p.Aligned)

theorem within_of_lt {items : List (Wildcard Char)}
    (fewer : (Wildcard.classes items).length < singles ps) : Within items ps :=
  ⟨Nat.le_of_lt fewer, fun same => absurd same (Nat.ne_of_lt fewer)⟩

theorem within_cons {items : List (Wildcard Char)} {w : Wildcard Char} {p : GlobPiece}
    (within : Within items ps) (aligned : p.Aligned) (read : p.compiled data = some w) :
    Within (w :: items) (p :: ps) := by
  have same : (Wildcard.classes [w]).length = (Wildcard.classes [p.documented]).length :=
    Wildcard.length_classes_of_alike (.cons (alike_compiled read) .nil)
  rw [Within, classes_cons, singles_cons, same]
  refine ⟨Nat.add_le_add_left within.1 _, fun equal => ?_⟩
  exact List.forall_mem_cons.mpr ⟨aligned, within.2 (Nat.add_left_cancel equal)⟩

/-- The regular expression of a glob has fewer elements for single characters than the glob if a
class ends in another place. -/
theorem within_pieces {pattern : List Char} {items : List (Wildcard Char)} {f : Nat}
    (read : readRegex data f (globRegex fuel pattern ++ ['$']) = some items) :
    Within items (globPieces fuel pattern) := by
  induction fuel using Nat.strongRecOn generalizing pattern items f with
  | ind fuel ih =>
      cases f with
      | zero => cases read
      | succ f =>
          have empty (written : globRegex fuel pattern = []) (none : globPieces fuel pattern = []) :
              Within items (globPieces fuel pattern) := by
            rw [written] at read
            obtain rfl := Option.some.inj read
            rw [none]
            exact ⟨Nat.le_refl _, fun _ => nofun⟩
          cases fuel with
          | zero => exact empty rfl rfl
          | succ fuel =>
              cases pattern with
              | nil => exact empty rfl rfl
              | cons char rest =>
                  -- The class of a piece that is not aligned takes a later element.
                  have misaligned {q : GlobPiece} {later text : List Char}
                      (single : (Wildcard.classes [q.documented]).length = 1)
                      (pieces : globPieces (fuel + 1) (char :: rest) = q :: globPieces fuel later)
                      (read : readRegex data (f + 1) ('[' :: text) = some items)
                      (ends : ∀ p after, readClass data text = some (p, after) →
                        ∃ body, classEnd (globRegex fuel later ++ ['$']) = some (body, after)) :
                      Within items (globPieces (fuel + 1) (char :: rest)) := by
                    cases class' : readClass data text with
                    | none =>
                        rw [readRegex_class_none class'] at read
                        cases read
                    | some found =>
                        obtain ⟨p, after⟩ := found
                        obtain ⟨body, ended⟩ := ends p after class'
                        obtain ⟨fuel', pattern', w, less, same, fewer⟩ := endsWithin ended p
                        rw [readRegex_class class', same] at read
                        obtain ⟨items, inner, rfl⟩ := Option.map_eq_some_iff.mp read
                        have within := (ih fuel' (Nat.lt_succ_of_le less) inner).1
                        refine within_of_lt ?_
                        rw [classes_cons, pieces, singles_cons, single]
                        dsimp only
                        omega
                  rcases glob_cons fuel char rest with
                    ⟨q, later, pieces, regex, written, closed⟩ | ⟨negated, seq, pieces, regex, free⟩
                  · rw [regex, List.append_assoc] at read
                    by_cases aligned : q.Aligned
                    · rw [readRegex_piece written aligned (head_globRegex _ _)] at read
                      obtain ⟨w, first, read⟩ := Option.bind_eq_some_iff.mp read
                      obtain ⟨items, inner, rfl⟩ := Option.map_eq_some_iff.mp read
                      rw [pieces]
                      exact within_cons (ih fuel (Nat.lt_succ_self _) inner) aligned first
                    · cases q with
                      | bracket negated seq =>
                          have read : readRegex data (f + 1) ('[' :: (sign negated ++ seq ++
                              ']' :: (globRegex fuel later ++ ['$']))) = some items := by
                            simpa [regex_bracket] using read
                          exact misaligned rfl pieces read fun p after class' =>
                            exists_classEnd_of_readClass written (.inr ⟨rfl, aligned⟩) class'
                      | unclosed => exact absurd rfl closed
                      | star | any | char => exact absurd trivial aligned
                  · rw [regex] at read
                    have read : readRegex data (f + 1) ('[' :: (sign negated ++ seq ++
                        '[' :: (globRegex fuel rest ++ ['$']))) = some items := by
                      simpa using read
                    exact misaligned rfl pieces read fun p after class' =>
                      exists_classEnd_of_readClass free (.inl rfl) class'

/-! ### The language of a glob -/

instance : DecidablePred (· ∈ Documented pattern) :=
  inferInstanceAs (DecidablePred (· ∈ Wildcard.words _))

theorem acceptsToEnd_iff {items : List (Wildcard Char)} {text : List Char} :
    acceptsToEnd items text = true ↔ text ∈ Wildcard.words items ∨
      ∃ front ∈ Wildcard.words items, text = front ++ ['\n'] := by
  rw [acceptsToEnd, Bool.or_eq_true, Bool.and_eq_true, decide_eq_true_iff, Wildcard.accepts_iff,
    Wildcard.accepts_iff]
  refine or_congr_right ⟨fun ⟨last, mem⟩ => ⟨_, mem, ?_⟩, ?_⟩
  · exact (List.dropLast_append_getLast? _ last).symm
  · rintro ⟨front, mem, rfl⟩
    rw [List.getLast?_concat, List.dropLast_concat]
    exact ⟨rfl, mem⟩

/-- A pattern accepts its shortest words only as they are. -/
theorem acceptsToEnd_shortest {items : List (Wildcard Char)} {text : List Char}
    (length : text.length = (Wildcard.classes items).length) :
    acceptsToEnd items text = true ↔ Wildcard.Fits (Wildcard.classes items) text := by
  rw [acceptsToEnd_iff, ← Wildcard.mem_words_shortest length]
  refine or_iff_left ?_
  rintro ⟨front, mem, rfl⟩
  have least := Wildcard.length_classes_le mem
  rw [List.length_append, List.length_singleton] at length
  omega

/-- Every bracket expression is closed, and `re` reads its characters as they are written. -/
def ReadAsWritten (data : CharacterData) (pattern : String) : Prop :=
  ∀ p ∈ pieces pattern, p.Aligned ∧ p.compiled data = some p.documented

/-- A line feed may follow every text of the language. -/
def Continued (pattern : String) : Prop :=
  ∀ text ∈ Documented pattern, text ++ ['\n'] ∈ Documented pattern

/-- A class is documented to have no characters, and `re` raises or finds such a class as well. -/
def MatchesNothing (data : CharacterData) (pattern : String) : Prop :=
  (∃ p ∈ pieces pattern, p.documented.Never) ∧
    ∀ items ∈ compiledGlob data pattern, ∃ w ∈ items, w.Never

theorem compiledGlob_written (written : ReadAsWritten data pattern) :
    compiledGlob data pattern = some ((pieces pattern).map GlobPiece.documented) := by
  rw [compiledGlob_aligned fun p mem => (written p mem).1]
  exact compile_documented fun p mem => (written p mem).2

theorem forall₂_alike {items : List (Wildcard Char)}
    (each : List.Forall₂ (fun p w => GlobPiece.compiled data p = some w) ps items) :
    List.Forall₂ Wildcard.Alike items (ps.map GlobPiece.documented) := by
  induction each with
  | nil => exact .nil
  | cons read _ ih => exact .cons (alike_compiled read) ih

theorem compiled_of_forall₂
    (each : List.Forall₂ (fun p w => GlobPiece.compiled data p = some w) ps
      (ps.map GlobPiece.documented)) : ∀ p ∈ ps, p.compiled data = some p.documented := by
  induction ps with
  | nil => exact nofun
  | cons p ps ih =>
      rw [List.map_cons, List.forall₂_cons] at each
      exact List.forall_mem_cons.mpr ⟨each.1, ih each.2⟩

/-- Where the same texts are matched, and some text is, the elements are the documented ones. -/
theorem written_of_same {items : List (Wildcard Char)}
    (read : compiledGlob data pattern = some items)
    (same : ∀ text, acceptsToEnd items text = true ↔ text ∈ Documented pattern)
    (inhabited : ∃ text, text ∈ Wildcard.words items) : ReadAsWritten data pattern := by
  have within : Within items (pieces pattern) := within_pieces read
  have shortest : (Wildcard.classes items).length = singles (pieces pattern) := by
    obtain ⟨text, fits⟩ : ∃ text, Wildcard.Fits (Wildcard.classes items) text := by
      refine Wildcard.exists_fits fun p mem => ?_
      by_contra never
      refine Wildcard.exists_never_iff.mp ⟨.one p, Wildcard.mem_classes.mp mem, fun c => ?_⟩
        inhabited
      exact Bool.eq_false_iff.mpr fun holds => never ⟨c, holds⟩
    have accepted := (acceptsToEnd_shortest fits.length_eq.symm).mpr fits
    have least := Wildcard.length_classes_le ((same text).mp accepted)
    rw [← fits.length_eq] at least
    exact Nat.le_antisymm within.1 least
  have aligned := within.2 shortest
  rw [compiledGlob_aligned aligned] at read
  have each := compile_forall₂ read
  have alike := forall₂_alike each
  have classes : Wildcard.classes items =
      Wildcard.classes ((pieces pattern).map GlobPiece.documented) := by
    have fits (text : List Char) : Wildcard.Fits (Wildcard.classes items) text ↔
        Wildcard.Fits (Wildcard.classes ((pieces pattern).map GlobPiece.documented)) text := by
      by_cases length : text.length = (Wildcard.classes items).length
      · rw [← acceptsToEnd_shortest length, same, Documented,
          Wildcard.mem_words_shortest (length.trans shortest)]
      · exact iff_of_false (fun fits => length fits.length_eq.symm)
          fun fits => length (fits.length_eq.symm.trans shortest.symm)
    rcases Wildcard.classes_eq_or_empty fits with equal | ⟨⟨p, mem, never⟩, -⟩
    · exact equal
    · exact absurd inhabited
        (Wildcard.exists_never_iff.mp ⟨.one p, Wildcard.mem_classes.mp mem, never⟩)
  rw [Wildcard.eq_of_classes alike classes] at each
  exact fun p mem => ⟨aligned p mem, compiled_of_forall₂ each p mem⟩

theorem continued_iff (written : ReadAsWritten data pattern) :
    (∀ text, (compiledGlob data pattern).any (acceptsToEnd · text) = true ↔
      text ∈ Documented pattern) ↔ Continued pattern := by
  rw [compiledGlob_written written]
  simp only [Option.any_some, acceptsToEnd_iff]
  constructor
  · exact fun same text mem => (same _).mp (.inr ⟨text, mem, rfl⟩)
  · refine fun continued text => ⟨?_, .inl⟩
    rintro (mem | ⟨front, mem, rfl⟩)
    · exact mem
    · exact continued front mem

theorem matches_iff : (∀ text : String, globMatches data py pattern text =
      .ok (decide (text.toList ∈ Documented pattern))) ↔
    ∀ text, (compiledGlob data pattern).any (acceptsToEnd · text) = true ↔
      text ∈ Documented pattern := by
  have one (text : String) : globMatches data py pattern text =
        .ok (decide (text.toList ∈ Documented pattern)) ↔
      ((compiledGlob data pattern).any (acceptsToEnd · text.toList) = true ↔
        text.toList ∈ Documented pattern) := by
    rw [globMatches_eq, Except.ok.injEq, Bool.eq_iff_iff, decide_eq_true_iff]
  constructor
  · intro all text
    simpa only [String.toList_ofList] using (one (String.ofList text)).mp (all _)
  · exact fun all text => (one text).mpr (all text.toList)

/-- A glob matches exactly its documented language if `re` reads its brackets as they are written
and a line feed may follow the texts, or if nothing is matched or documented to be. -/
theorem globMatches_iff (data : CharacterData) (py : Python String) (pattern : String) :
    (∀ text : String, globMatches data py pattern text =
        .ok (decide (text.toList ∈ Documented pattern))) ↔
      ReadAsWritten data pattern ∧ Continued pattern ∨ MatchesNothing data pattern := by
  rw [matches_iff]
  have documented_empty : (∃ p ∈ pieces pattern, p.documented.Never) ↔
      ¬ ∃ text, text ∈ Documented pattern := by
    rw [Documented, ← Wildcard.exists_never_iff]
    simp only [List.mem_map, exists_exists_and_eq_and]
  constructor
  · intro same
    by_cases some : ∃ text, text ∈ Documented pattern
    · obtain ⟨text, mem⟩ := some
      obtain ⟨items, read, accepted⟩ := (Option.any_eq_true _ _).mp ((same text).mpr mem)
      have inhabited : ∃ text, text ∈ Wildcard.words items := by
        rcases acceptsToEnd_iff.mp accepted with mem | ⟨front, mem, -⟩
        · exact ⟨text, mem⟩
        · exact ⟨front, mem⟩
      have written := written_of_same read (fun text => by rw [← same, read]; rfl) inhabited
      exact .inl ⟨written, (continued_iff written).mp same⟩
    · refine .inr ⟨documented_empty.mpr some, fun items read => ?_⟩
      rw [Wildcard.exists_never_iff]
      rintro ⟨text, mem⟩
      refine some ⟨text, (same text).mp ?_⟩
      rw [Option.mem_def.mp read]
      exact acceptsToEnd_iff.mpr (.inl mem)
  · rintro (⟨written, continued⟩ | ⟨never, refused⟩)
    · exact (continued_iff written).mpr continued
    · intro text
      refine iff_of_false (fun accepted => ?_) fun mem => documented_empty.mp never ⟨text, mem⟩
      obtain ⟨items, read, accepted⟩ := (Option.any_eq_true _ _).mp accepted
      have empty := Wildcard.exists_never_iff.mp (refused items read)
      rcases acceptsToEnd_iff.mp accepted with mem | ⟨front, mem, -⟩
      · exact empty ⟨text, mem⟩
      · exact empty ⟨front, mem⟩

/-- Characters as in ASCII. -/
def asciiData : CharacterData where
  isDecimal := Char.isDigit
  isSpace := Char.isWhitespace
  isWord c := c.isAlphanum || c == '_'
  named _ := none

theorem lineFeed_matched : ¬ ∀ (data : CharacterData) (py : Python String) (pattern text : String),
    globMatches data py pattern text = .ok (decide (text.toList ∈ Documented pattern)) := by
  intro all
  exact absurd (all asciiData textPython "abc" "abc\n") (by decide)

end Talos.Agent.Policies
