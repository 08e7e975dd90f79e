import Talos.Encoding.Text
import Talos.Encoding.Wildcards
import Mathlib.Algebra.Order.Ring.Rat
import Mathlib.Data.List.Sort
import Mathlib.Tactic.Ring

/-!
# Permissions of tools

`packages/prime-agent/src/talos_agent/tools/permissions.py`. A manifest declares what a tool does,
and `check` compares it with the grants and with the arguments of a call. Hosts are patterns of
`fnmatch`: whether the grants cover a pattern is asked by matching its text.

Values of arguments are of any type, with what `Decimal(str(value))` reads. The audit record is left
out: it only reaches a sink, whose errors are caught.
-/

namespace Talos.Agent.Permissions

open Encoding (Wildcard strip)

/-! ### Capabilities -/

inductive DataScope where
  | none
  | readLocal
  | writeLocal
  | readRemote
  | writeRemote
  | readSecrets
  deriving DecidableEq

inductive NetworkScope where
  | none
  | http
  | browser
  deriving DecidableEq

inductive WalletScope where
  | none
  | read
  | transfer
  | tokenIssue
  deriving DecidableEq

inductive SideEffect where
  | none
  | publish
  | commerce
  | stateChange
  deriving DecidableEq

def DataScope.value : DataScope → String
  | .none => "data.none"
  | .readLocal => "data.read_local"
  | .writeLocal => "data.write_local"
  | .readRemote => "data.read_remote"
  | .writeRemote => "data.write_remote"
  | .readSecrets => "data.read_secrets"

def NetworkScope.value : NetworkScope → String
  | .none => "network.none"
  | .http => "network.http"
  | .browser => "network.browser"

def WalletScope.value : WalletScope → String
  | .none => "wallet.none"
  | .read => "wallet.read"
  | .transfer => "wallet.transfer"
  | .tokenIssue => "wallet.token_issue"

def SideEffect.value : SideEffect → String
  | .none => "side_effect.none"
  | .publish => "side_effect.publish"
  | .commerce => "side_effect.commerce"
  | .stateChange => "side_effect.state"

/-! ### Decimals -/

inductive Decimal where
  | finite (negative : Bool) (coefficient : ℕ) (exponent : ℤ)
  | infinite (negative : Bool)
  | nan
  deriving DecidableEq

def Decimal.zero : Decimal := .finite false 0 0

/-- The value of a finite decimal. -/
def decimalValue (negative : Bool) (coefficient : ℕ) (exponent : ℤ) : ℚ :=
  (if negative then -1 else 1) * coefficient * (10 : ℚ) ^ exponent

inductive PyError where
  /-- `decimal.InvalidOperation` -/
  | invalidOperation
  /-- `ManifestValidationError` -/
  | manifest (message : String)
  deriving DecidableEq

/-- `cap or Decimal("0")` -/
def orZero : Option Decimal → Decimal
  | none | some (.finite _ 0 _) => .zero
  | some cap => cap

/-- `x < y`, which NaN has no answer to. -/
def Decimal.lt : Decimal → Decimal → Except PyError Bool
  | nan, _ | _, nan => .error .invalidOperation
  | infinite negative, infinite negative' => .ok (negative && !negative')
  | infinite negative, finite .. => .ok negative
  | finite .., infinite negative => .ok !negative
  | finite n c e, finite n' c' e' => .ok (decide (decimalValue n c e < decimalValue n' c' e'))

/-- `min(x, y)` -/
def Decimal.min (x y : Decimal) : Except PyError Decimal := do
  return if ← y.lt x then y else x

/-! ### Host patterns -/

/-- The ranges of a bracket expression; one whose ends are the wrong way round is dropped. -/
def readSet : List Char → List (Char × Char)
  | lo :: '-' :: hi :: rest => if lo ≤ hi then (lo, hi) :: readSet rest else readSet rest
  | c :: rest => (c, c) :: readSet rest
  | [] => []

/-- A bracket expression after its opening bracket, and what follows. A closing bracket in the first
place is one of its characters. -/
def bracket (rest : List Char) : Option (Bool × List Char × List Char) :=
  let negated := rest.head? = some '!'
  let body := if negated then rest.tail else rest
  let first := if body.head? = some ']' then [']'] else []
  let seq := first ++ (body.drop first.length).takeWhile (· ≠ ']')
  match body.drop seq.length with
  | _ :: after => some (negated, seq, after)
  | [] => none

/-- `fnmatch.translate` -/
def translate : ℕ → List Char → List (Wildcard Char)
  | 0, _ | _, [] => []
  | fuel + 1, char :: rest =>
      if char = '*' then .many (fun _ => true) :: translate fuel rest
      else if char = '?' then .one (fun _ => true) :: translate fuel rest
      else if char = '[' then match bracket rest with
        | some (negated, seq, after) =>
            .one (fun c => (readSet seq).any (fun (lo, hi) => lo ≤ c ∧ c ≤ hi) != negated) ::
              translate fuel after
        | none => .one (· == '[') :: translate fuel rest
      else .one (· == char) :: translate fuel rest

/-- `fnmatch.fnmatch`, where the case of names counts. -/
def fnmatch (name pattern : String) : Bool :=
  Wildcard.accepts (translate pattern.length pattern.toList) name.toList

/-! ### Manifests -/

structure ToolPermissions where
  data : List DataScope := [.none]
  network : List NetworkScope := [.none]
  hosts : List String := []
  wallet : List WalletScope := [.none]
  sideEffects : List SideEffect := [.none]
  maxSpendUsd : Option Decimal := none
  requiresApproval : Bool := false
  deriving DecidableEq

/-- The values of all axes. -/
def ToolPermissions.values (manifest : ToolPermissions) : List String :=
  manifest.data.map (·.value) ++ manifest.network.map (·.value) ++
    manifest.wallet.map (·.value) ++ manifest.sideEffects.map (·.value)

def isNone (value : String) : Bool := ".none".toList.isSuffixOf value.toList

def ToolPermissions.capabilities (manifest : ToolPermissions) : List String :=
  manifest.values.filter fun value => !isNone value

/-- A scope that is none together with others. -/
def mixes (values : List String) : Bool := decide (1 < values.length) && values.any isNone

/-- `repr` is that of a text. -/
def ToolPermissions.validate (repr : String → String) (toolName : String)
    (manifest : ToolPermissions) : Except PyError Unit := do
  if manifest.data = [] ∨ manifest.network = [] ∨ manifest.wallet = [] ∨
      manifest.sideEffects = [] then
    throw (.manifest (toolName ++ ": every manifest axis must declare at least one value " ++
      "(use the explicit .NONE member rather than an empty tuple)"))
  let usesNetwork := manifest.network.any (· ≠ .none)
  if usesNetwork ∧ manifest.hosts = [] then
    throw (.manifest (toolName ++ ": declares a network scope but no host allowlist; " ++
      "'any host' is not expressible"))
  if ¬ usesNetwork ∧ manifest.hosts ≠ [] then
    throw (.manifest (toolName ++ ": declares hosts but no network scope"))
  match manifest.hosts.find? fun host =>
      host = "" ∨ strip host.toList ≠ host.toList ∨ '/' ∈ host.toList with
  | some host =>
      throw (.manifest (toolName ++ ": invalid host pattern " ++ repr host ++
        " (bare hostname or glob only)"))
  | none => pure ()
  let positive ← match manifest.maxSpendUsd with
    | none => pure false
    | some cap => if .transfer ∈ manifest.wallet then Decimal.zero.lt cap else pure true
  if .transfer ∈ manifest.wallet ∧ ¬ positive then
    throw (.manifest (toolName ++
      ": declares wallet.transfer and must set a positive max_spend_usd"))
  let negative ← match manifest.maxSpendUsd with
    | none => pure false
    | some cap => cap.lt .zero
  if negative then throw (.manifest (toolName ++ ": max_spend_usd must not be negative"))
  match [("data", manifest.data.map (·.value)), ("network", manifest.network.map (·.value)),
      ("wallet", manifest.wallet.map (·.value)),
      ("side_effects", manifest.sideEffects.map (·.value))].find? fun axis => mixes axis.2 with
  | some (axis, _) =>
      throw (.manifest (toolName ++ ": " ++ axis ++
        " mixes an explicit .none with concrete scopes"))
  | none => pure ()

/-! ### Grants -/

structure PermissionGrants where
  capabilities : List String := []
  hosts : List String := []
  maxSpendUsd : Decimal := .zero
  escalate : List String := []

def PermissionGrants.allowsHost (grants : PermissionGrants) (host : String) : Bool :=
  grants.hosts.any fun pattern => fnmatch host pattern

/-- What is read of values: `str(value)`, `Decimal(str(value))`, `none` where it raises, and whether
the value is a boolean. -/
structure Reader (Value : Type) where
  str : Value → String
  decimal : Value → Option Decimal
  isBool : Value → Bool

/-- The members of a configuration. -/
structure RawGrants (Value : Type) where
  maxSpendUsd : Option Value := none
  capabilities : List Value := []
  hosts : List Value := []
  escalate : List Value := []

def PermissionGrants.fromMapping {Value : Type} (reader : Reader Value) (raw : RawGrants Value) :
    PermissionGrants where
  capabilities := raw.capabilities.map reader.str
  hosts := raw.hosts.map reader.str
  maxSpendUsd := match raw.maxSpendUsd with
    | none => .zero
    | some value => (reader.decimal value).getD .zero
  escalate := raw.escalate.map reader.str

/-! ### The check -/

inductive EnforcementMode where
  | off
  | audit
  | enforce
  deriving DecidableEq

structure PermissionDecision where
  allowed : Bool
  code : String
  reason : String
  tool : String
  capability : Option String := none
  requiresApproval : Bool := false
  wouldDeny : Bool := false
  deriving DecidableEq

def ALLOWED : String := "PERMISSION_OK"

def CODE_UNDECLARED : String := "PERMISSION_MANIFEST_MISSING"

def CODE_NOT_GRANTED : String := "PERMISSION_NOT_GRANTED"

def CODE_HOST_DENIED : String := "PERMISSION_HOST_NOT_ALLOWED"

def CODE_SPEND_EXCEEDED : String := "PERMISSION_SPEND_LIMIT_EXCEEDED"

def CODE_SPEND_INVALID : String := "PERMISSION_SPEND_AMOUNT_INVALID"

def CODE_APPROVAL_REQUIRED : String := "PERMISSION_APPROVAL_REQUIRED"

section Check

variable {Value : Type} (reader : Reader Value) (showDecimal : Decimal → String)

def amountKeys : List String := ["amount", "amount_usd", "price", "value"]

/-- A finite decimal that is not negative, from a value that is no boolean. -/
def readAmount (raw : Value) : Option Decimal :=
  if reader.isBool raw then none
  else match reader.decimal raw with
    | some (.finite negative coefficient exponent) =>
        if decimalValue negative coefficient exponent < 0 then none
        else some (.finite negative coefficient exponent)
    | _ => none

/-- The value of the first of the amounts that is there. -/
def firstAmount (arguments : List (String × Value)) : Option Value :=
  amountKeys.findSome? fun key => arguments.lookup key

/-- `_extract_amount`: `none` is `_InvalidAmount`. -/
def extractAmount (arguments : List (String × Value)) : Option (Option Decimal) :=
  match firstAmount arguments with
  | none => some none
  | some raw => (readAmount reader raw).map some

/-- The spending part of `_evaluate`: the smaller of the two caps wins. -/
def evaluateSpend (grants : PermissionGrants) (toolName : String) (manifest : ToolPermissions)
    (arguments : List (String × Value)) : Except PyError (Option PermissionDecision) :=
  if .transfer ∈ manifest.wallet then
    match extractAmount reader arguments with
    | none => pure (some
        { allowed := false
          code := CODE_SPEND_INVALID
          reason := toolName ++ " was called with an invalid spend amount"
          tool := toolName
          capability := some WalletScope.transfer.value })
    | some requested => do
        let ceiling ← (orZero manifest.maxSpendUsd).min grants.maxSpendUsd
        match requested with
        | none => pure none
        | some requested =>
            if ← ceiling.lt requested then
              pure (some
                { allowed := false
                  code := CODE_SPEND_EXCEEDED
                  reason := toolName ++ " requested " ++ showDecimal requested ++ " above the " ++
                    showDecimal ceiling ++ " ceiling"
                  tool := toolName
                  capability := some WalletScope.transfer.value })
            else pure none
  else pure none

/-- The end of `_evaluate`. -/
def evaluateApproval (grants : PermissionGrants) (toolName : String) (manifest : ToolPermissions)
    (approved : Bool) : PermissionDecision :=
  let needsApproval := manifest.requiresApproval ∨
    ∃ capability ∈ manifest.capabilities, capability ∈ grants.escalate
  if needsApproval ∧ ¬ approved then
    { allowed := false
      code := CODE_APPROVAL_REQUIRED
      reason := toolName ++ " requires human approval before execution"
      tool := toolName
      requiresApproval := true }
  else
    { allowed := true
      code := ALLOWED
      reason := "granted"
      tool := toolName }

/-- `_evaluate`. The manifest is `none` where it is `UNDECLARED`. -/
def evaluate (grants : PermissionGrants) (toolName : String) (manifest : Option ToolPermissions)
    (arguments : List (String × Value)) (approved : Bool) : Except PyError PermissionDecision :=
  match manifest with
  | none => .ok
      { allowed := false
        code := CODE_UNDECLARED
        reason := toolName ++ " has no permission manifest"
        tool := toolName }
  | some manifest =>
      let missing := manifest.capabilities.filter (· ∉ grants.capabilities)
      match missing.insertionSort (· ≤ ·) with
      | first :: _ => .ok
          { allowed := false
            code := CODE_NOT_GRANTED
            reason := toolName ++ " requires ungranted capability " ++ first
            tool := toolName
            capability := some first }
      | [] => match manifest.hosts.find? fun host => !grants.allowsHost host with
        | some host => .ok
            { allowed := false
              code := CODE_HOST_DENIED
              reason := toolName ++ " may contact " ++ host ++
                ", which the operator has not allowed"
              tool := toolName
              capability := some host }
        | none => do
            match ← evaluateSpend reader showDecimal grants toolName manifest arguments with
            | some decision => return decision
            | none => return evaluateApproval grants toolName manifest approved

def check (grants : PermissionGrants) (mode : EnforcementMode) (toolName : String)
    (manifest : Option ToolPermissions) (arguments : List (String × Value)) (approved : Bool) :
    Except PyError PermissionDecision :=
  if mode = .off then .ok
    { allowed := true
      code := ALLOWED
      reason := "enforcement disabled"
      tool := toolName }
  else do
    let decision ← evaluate reader showDecimal grants toolName manifest arguments approved
    return if ¬ decision.allowed ∧ mode = .audit then
      { decision with
        allowed := true
        wouldDeny := true }
    else decision

end Check

/-! ### The ceiling -/

/-- At most a cap, which NaN is for nothing. -/
def AtMost (q : ℚ) : Decimal → Prop
  | .finite negative coefficient exponent => q ≤ decimalValue negative coefficient exponent
  | .infinite negative => negative = false
  | .nan => False

section Ceiling

variable {Value : Type} (reader : Reader Value) (showDecimal : Decimal → String)

/-- A finite number from 0 to both caps. -/
def InRange (grants : PermissionGrants) (manifest : ToolPermissions) (raw : Value) : Prop :=
  ∃ negative coefficient exponent,
    readAmount reader raw = some (.finite negative coefficient exponent) ∧
      0 ≤ decimalValue negative coefficient exponent ∧
        AtMost (decimalValue negative coefficient exponent) (orZero manifest.maxSpendUsd) ∧
          AtMost (decimalValue negative coefficient exponent) grants.maxSpendUsd

/-- A capability asks for approval. -/
def NeedsApproval (grants : PermissionGrants) (manifest : ToolPermissions) : Prop :=
  manifest.requiresApproval = true ∨
    ∃ capability ∈ manifest.capabilities, capability ∈ grants.escalate

/-- What holds of a call that is allowed. -/
structure Ceiling (grants : PermissionGrants) (manifest : ToolPermissions)
    (arguments : List (String × Value)) (approved : Bool) : Prop where
  granted : ∀ capability ∈ manifest.capabilities, capability ∈ grants.capabilities
  hosts : ∀ pattern ∈ manifest.hosts, ∀ name, fnmatch name pattern = true →
    grants.allowsHost name = true
  approval : NeedsApproval grants manifest → approved = true
  spend : .transfer ∈ manifest.wallet → ∀ key ∈ amountKeys, ∀ raw, arguments.lookup key = some raw →
    InRange reader grants manifest raw

/-- The check answers, and an allowed call stays under the ceiling. -/
def Respected (grants : PermissionGrants) (toolName : String) (manifest : ToolPermissions)
    (arguments : List (String × Value)) (approved : Bool) : Prop :=
  ∃ decision, check reader showDecimal grants .enforce toolName (some manifest) arguments approved =
      .ok decision ∧
    (decision.allowed = true → Ceiling reader grants manifest arguments approved)

/-- Without a wildcard or a bracket. -/
def Plain (pattern : String) : Prop := ∀ c ∈ pattern.toList, c ≠ '*' ∧ c ≠ '?' ∧ c ≠ '['

/-- The host patterns are names, or have no bracket and, if a granted pattern matches their text,
one without question marks and brackets does. -/
def PlainHosts (grants : PermissionGrants) (manifest : ToolPermissions) : Prop :=
  ∀ pattern ∈ manifest.hosts, Plain pattern ∨ '[' ∉ pattern.toList ∧
    (grants.allowsHost pattern = true → ∃ granted ∈ grants.hosts, fnmatch pattern granted = true ∧
      '?' ∉ granted.toList ∧ '[' ∉ granted.toList)

/-- The spending of a transfer escapes the check: the granted cap is NaN, or a later amount is out
of range while the first one is in range. -/
structure Escapes (grants : PermissionGrants) (manifest : ToolPermissions)
    (arguments : List (String × Value)) (approved : Bool) : Prop where
  transfer : .transfer ∈ manifest.wallet
  granted : ∀ capability ∈ manifest.capabilities, capability ∈ grants.capabilities
  hosts : ∀ pattern ∈ manifest.hosts, grants.allowsHost pattern = true
  spend : (grants.maxSpendUsd = .nan ∧ ∀ raw, firstAmount arguments = some raw →
      readAmount reader raw ≠ none) ∨
    (NeedsApproval grants manifest → approved = true) ∧
      (∀ raw, firstAmount arguments = some raw → InRange reader grants manifest raw) ∧
        ∃ key ∈ amountKeys, ∃ raw, arguments.lookup key = some raw ∧
          ¬ InRange reader grants manifest raw

end Ceiling

/-! ### Patterns without brackets -/

def piece (c : Char) : Wildcard Char :=
  if c = '*' then .many fun _ => true else if c = '?' then .one fun _ => true else .one (· == c)

variable {text word : List Char}

theorem translate_eq (free : '[' ∉ text) : translate text.length text = text.map piece := by
  induction text with
  | nil => rfl
  | cons c text ih =>
      rw [List.mem_cons, not_or] at free
      rw [List.length_cons, translate, ih free.2, List.map_cons, piece]
      split
      · rfl
      split
      · rfl
      rw [if_neg (Ne.symm free.1)]

/-- A pattern matched as a text by one of letters and stars only has no other words: its wildcards
stand where a star does. -/
theorem words_covered {granted declared : List Char} (plain : ∀ c ∈ granted, c ≠ '?')
    (matched : declared ∈ Wildcard.words (granted.map piece))
    (mem : word ∈ Wildcard.words (declared.map piece)) :
    word ∈ Wildcard.words (granted.map piece) := by
  induction granted generalizing declared word with
  | nil =>
      rw [List.map_nil, Wildcard.words, List.map_nil, List.prod_nil, Language.mem_one] at matched
      subst matched
      exact mem
  | cons c granted ih =>
      have later : ∀ d ∈ granted, d ≠ '?' := fun d inside => plain d (.tail _ inside)
      rw [List.map_cons] at matched ⊢
      by_cases star : c = '*'
      · rw [piece, if_pos star] at matched ⊢
        obtain ⟨front, rest, rfl, inner⟩ := Wildcard.mem_many matched
        rw [List.map_append, Wildcard.words_append, Language.mem_mul] at mem
        obtain ⟨first, -, last, inRest, rfl⟩ := mem
        exact Wildcard.append_mem_many (fun _ _ => rfl) (ih later inner inRest)
      · have letter : piece c = .one (· == c) := by
          rw [piece, if_neg star, if_neg (plain c List.mem_cons_self)]
        rw [letter] at matched ⊢
        obtain ⟨a, rest, rfl, same, inner⟩ := Wildcard.mem_one matched
        obtain rfl : a = c := by simpa using same
        rw [List.map_cons, letter] at mem
        obtain ⟨b, word, rfl, same', inRest⟩ := Wildcard.mem_one mem
        exact Wildcard.cons_mem_one.mpr ⟨same', ih later inner inRest⟩

theorem fnmatch_iff {name pattern : String} (free : '[' ∉ pattern.toList) :
    fnmatch name pattern = true ↔ name.toList ∈ Wildcard.words (pattern.toList.map piece) := by
  have length : pattern.length = pattern.toList.length := String.length_toList.symm
  rw [fnmatch, Wildcard.accepts_iff, length, translate_eq free]

theorem fnmatch_plain {name pattern : String} (plain : Plain pattern)
    (matched : fnmatch name pattern = true) : name = pattern := by
  have free : '[' ∉ pattern.toList := fun mem => (plain _ mem).2.2 rfl
  rw [fnmatch_iff free] at matched
  have all : ∀ (text word : List Char), (∀ c ∈ text, c ≠ '*' ∧ c ≠ '?' ∧ c ≠ '[') →
      word ∈ Wildcard.words (text.map piece) → word = text := by
    intro text
    induction text with
    | nil =>
        intro word _ mem
        rwa [List.map_nil, Wildcard.words, List.map_nil, List.prod_nil, Language.mem_one] at mem
    | cons c text ih =>
        intro word letters mem
        have first := letters c List.mem_cons_self
        rw [List.map_cons, piece, if_neg first.1, if_neg first.2.1] at mem
        obtain ⟨a, word, rfl, same, inner⟩ := Wildcard.mem_one mem
        obtain rfl : a = c := by simpa using same
        rw [ih word (fun d inside => letters d (.tail _ inside)) inner]
  exact String.toList_inj.mp (all _ _ plain matched)

theorem covered {grants : PermissionGrants} {manifest : ToolPermissions}
    (plain : PlainHosts grants manifest)
    (allowed : ∀ pattern ∈ manifest.hosts, grants.allowsHost pattern = true) :
    ∀ pattern ∈ manifest.hosts, ∀ name, fnmatch name pattern = true →
      grants.allowsHost name = true := by
  intro pattern declared name matched
  rcases plain pattern declared with literal | ⟨free, cover⟩
  · rw [fnmatch_plain literal matched]
    exact allowed pattern declared
  · obtain ⟨granted, mem, same, noAny, noBracket⟩ := cover (allowed pattern declared)
    refine List.any_eq_true.mpr ⟨granted, mem, ?_⟩
    rw [fnmatch_iff noBracket] at same ⊢
    exact words_covered (fun c inside any => noAny (any ▸ inside)) same
      ((fnmatch_iff free).mp matched)

/-! ### Caps -/

theorem lt_finite {cap : Decimal} (number : cap ≠ .nan) (n : Bool) (c : ℕ) (e : ℤ) :
    ∃ exceeded, cap.lt (.finite n c e) = .ok exceeded ∧
      (exceeded = false ↔ AtMost (decimalValue n c e) cap) := by
  cases cap with
  | finite n' c' e' => exact ⟨_, rfl, by simp [AtMost]⟩
  | infinite negative => exact ⟨negative, rfl, Iff.rfl⟩
  | nan => exact absurd rfl number

theorem lt_total {x y : Decimal} (first : x ≠ .nan) (second : y ≠ .nan) :
    ∃ less, x.lt y = .ok less := by
  cases x <;> cases y <;> simp_all [Decimal.lt]

/-- The smaller of two caps. -/
theorem atMost_of_lt {x y : Decimal} {q : ℚ} (less : x.lt y = .ok true) (most : AtMost q x) :
    AtMost q y := by
  cases x with
  | finite n c e =>
      cases y with
      | finite n' c' e' => exact most.trans (by simpa [Decimal.lt] using less : _ < _).le
      | infinite negative => simpa [Decimal.lt, AtMost] using less
      | nan => simp [Decimal.lt] at less
  | infinite negative =>
      cases y <;> simp_all [Decimal.lt, AtMost]
  | nan => exact most.elim

theorem atMost_of_not_lt {x y : Decimal} {q : ℚ} (least : y.lt x = .ok false) (most : AtMost q x) :
    AtMost q y := by
  cases x with
  | finite n c e =>
      cases y with
      | finite n' c' e' => exact most.trans (by simpa [Decimal.lt] using least)
      | infinite negative => simpa [Decimal.lt, AtMost] using least
      | nan => simp [Decimal.lt] at least
  | infinite negative =>
      cases y <;> simp_all [Decimal.lt, AtMost]
  | nan => exact most.elim

theorem min_spec {x y : Decimal} (first : x ≠ .nan) (second : y ≠ .nan) :
    ∃ least, x.min y = .ok least ∧ least ≠ .nan ∧
      ∀ q, AtMost q least ↔ AtMost q x ∧ AtMost q y := by
  obtain ⟨less, answer⟩ := lt_total second first
  cases less with
  | true =>
      refine ⟨y, by simp [Decimal.min, answer], second, fun q => ⟨fun most => ?_, And.right⟩⟩
      exact ⟨atMost_of_lt answer most, most⟩
  | false =>
      refine ⟨x, by simp [Decimal.min, answer], first, fun q => ⟨fun most => ?_, And.left⟩⟩
      exact ⟨most, atMost_of_not_lt answer most⟩

theorem min_nan (x : Decimal) : x.min .nan = .error .invalidOperation := by
  cases x <;> rfl

/-! ### The check under the ceiling -/

section Check

variable {Value : Type} {reader : Reader Value} {showDecimal : Decimal → String}
  {grants : PermissionGrants} {toolName : String} {manifest : ToolPermissions}
  {arguments : List (String × Value)} {approved : Bool}

theorem cap_of_valid {repr : String → String} (valid : manifest.validate repr toolName = .ok ())
    (transfer : .transfer ∈ manifest.wallet) : orZero manifest.maxSpendUsd ≠ .nan := by
  cases declared : manifest.maxSpendUsd with
  | none => exact Decimal.noConfusion
  | some cap =>
      cases cap with
      | finite n c e => cases c <;> exact Decimal.noConfusion
      | infinite negative => exact Decimal.noConfusion
      | nan =>
          have raises : Decimal.zero.lt .nan = .error .invalidOperation := rfl
          exfalso
          revert valid
          simp only [ToolPermissions.validate, declared, transfer, if_true, raises, bind,
            Except.bind, pure, Except.pure, throw, throwThe, MonadExceptOf.throw]
          repeat' split
          all_goals simp_all

variable (reader showDecimal toolName arguments approved) in
theorem check_missing
    (missing : ¬ ∀ capability ∈ manifest.capabilities, capability ∈ grants.capabilities) :
    ∃ decision, check reader showDecimal grants .enforce toolName (some manifest) arguments
      approved = .ok decision ∧ decision.allowed = false := by
  have left : (manifest.capabilities.filter (· ∉ grants.capabilities)).insertionSort (· ≤ ·) ≠
      [] := by
    intro empty
    refine missing fun capability mem => ?_
    by_contra other
    have inside : capability ∈ manifest.capabilities.filter (· ∉ grants.capabilities) :=
      List.mem_filter.mpr ⟨mem, by simpa using other⟩
    rw [← (List.perm_insertionSort (· ≤ ·) _).mem_iff, empty] at inside
    cases inside
  obtain ⟨first, rest, sorted⟩ := List.exists_cons_of_ne_nil left
  exact ⟨_, by simp only [check, evaluate, sorted]; rfl, rfl⟩

theorem filter_granted (granted : ∀ capability ∈ manifest.capabilities,
    capability ∈ grants.capabilities) :
    (manifest.capabilities.filter (· ∉ grants.capabilities)).insertionSort (· ≤ ·) = [] := by
  rw [List.filter_eq_nil_iff.mpr fun capability mem => by simpa using granted capability mem]
  rfl

variable (reader showDecimal toolName arguments approved) in
theorem check_host (granted : ∀ capability ∈ manifest.capabilities,
    capability ∈ grants.capabilities)
    (denied : ¬ ∀ pattern ∈ manifest.hosts, grants.allowsHost pattern = true) :
    ∃ decision, check reader showDecimal grants .enforce toolName (some manifest) arguments
      approved = .ok decision ∧ decision.allowed = false := by
  push Not at denied
  obtain ⟨pattern, mem, refused⟩ := denied
  have found : (manifest.hosts.find? fun host => !grants.allowsHost host).isSome = true :=
    List.find?_isSome.mpr ⟨pattern, mem, by simpa using refused⟩
  obtain ⟨host, found⟩ := Option.isSome_iff_exists.mp found
  exact ⟨_, by simp only [check, evaluate, filter_granted granted, found]; rfl, rfl⟩

variable (reader showDecimal toolName arguments approved) in
/-- What is left is the spending and the approval. -/
theorem check_allowed (granted : ∀ capability ∈ manifest.capabilities,
    capability ∈ grants.capabilities)
    (allowed : ∀ pattern ∈ manifest.hosts, grants.allowsHost pattern = true) :
    check reader showDecimal grants .enforce toolName (some manifest) arguments approved =
      (evaluateSpend reader showDecimal grants toolName manifest arguments).map fun denial =>
        denial.getD (evaluateApproval grants toolName manifest approved) := by
  have fine : (manifest.hosts.find? fun host => !grants.allowsHost host) = none :=
    List.find?_eq_none.mpr fun pattern mem => by simp [allowed pattern mem]
  simp only [check, evaluate, filter_granted granted, fine]
  cases evaluateSpend reader showDecimal grants toolName manifest arguments with
  | error e => rfl
  | ok denial => cases denial <;> simp [bind, Except.bind, pure, Except.pure, Except.map]

theorem approval_iff :
    (evaluateApproval grants toolName manifest approved).allowed = true ↔
      (NeedsApproval grants manifest → approved = true) := by
  rw [evaluateApproval]
  split
  · rename_i refused
    exact iff_of_false Bool.false_ne_true fun all => refused.2 (all refused.1)
  · rename_i fine
    refine iff_of_true rfl fun needs => ?_
    by_contra other
    exact fine ⟨needs, other⟩

/-- What the spending part makes of the amounts. -/
theorem spend_cases (valid : orZero manifest.maxSpendUsd ≠ .nan)
    (number : grants.maxSpendUsd ≠ .nan) :
    (∃ denial, evaluateSpend reader showDecimal grants toolName manifest arguments =
        .ok (some denial) ∧ denial.allowed = false ∧ .transfer ∈ manifest.wallet ∧
        ¬ ∀ raw, firstAmount arguments = some raw → InRange reader grants manifest raw) ∨
    evaluateSpend reader showDecimal grants toolName manifest arguments = .ok none ∧
      (.transfer ∈ manifest.wallet →
        ∀ raw, firstAmount arguments = some raw → InRange reader grants manifest raw) := by
  by_cases transfer : .transfer ∈ manifest.wallet
  case neg =>
    exact .inr ⟨by rw [evaluateSpend, if_neg transfer]; rfl, fun inside => absurd inside transfer⟩
  obtain ⟨ceiling, least, isNumber, most⟩ := min_spec valid number
  cases first : firstAmount arguments with
  | none =>
      refine .inr ⟨?_, fun _ raw there => by cases there⟩
      have extracted : extractAmount reader arguments = some none := by rw [extractAmount, first]
      rw [evaluateSpend, if_pos transfer, extracted, least]
      rfl
  | some raw =>
      have extracted : extractAmount reader arguments = (readAmount reader raw).map some := by
        rw [extractAmount, first]
      cases read : readAmount reader raw with
      | none =>
          refine .inl ⟨_, by rw [evaluateSpend, if_pos transfer, extracted, read]; rfl, rfl,
            transfer, fun all => ?_⟩
          obtain ⟨n, c, e, amount, -⟩ := all raw rfl
          rw [read] at amount
          cases amount
      | some amount =>
          obtain ⟨n, c, e, rfl, positive⟩ : ∃ n c e, amount = .finite n c e ∧
              0 ≤ decimalValue n c e := by
            rw [readAmount] at read
            split_ifs at read
            split at read
            · split_ifs at read with sign
              exact ⟨_, _, _, (Option.some.inj read).symm, not_lt.mp sign⟩
            · cases read
          obtain ⟨exceeded, answer, within⟩ := lt_finite isNumber n c e
          rw [most] at within
          cases exceeded with
          | true =>
              refine .inl ⟨_, by
                rw [evaluateSpend, if_pos transfer, extracted, read, least]
                simp [bind, Except.bind, pure, Except.pure, answer]
                rfl, rfl, transfer, fun all => ?_⟩
              obtain ⟨n', c', e', amount, -, range⟩ := all raw rfl
              rw [read] at amount
              cases amount
              exact absurd (within.mpr range) (by decide)
          | false =>
              refine .inr ⟨?_, fun _ raw' there => ?_⟩
              · rw [evaluateSpend, if_pos transfer, extracted, read, least]
                simp [bind, Except.bind, pure, Except.pure, answer]
              · cases there
                exact ⟨n, c, e, read, positive, within.mp rfl⟩

/-- No amount is compared with NaN. -/
theorem spend_nan (transfer : .transfer ∈ manifest.wallet) (number : grants.maxSpendUsd = .nan) :
    (∃ denial, evaluateSpend reader showDecimal grants toolName manifest arguments =
        .ok (some denial) ∧ denial.allowed = false ∧
          ∃ raw, firstAmount arguments = some raw ∧ readAmount reader raw = none) ∨
    evaluateSpend reader showDecimal grants toolName manifest arguments = .error .invalidOperation ∧
      ∀ raw, firstAmount arguments = some raw → readAmount reader raw ≠ none := by
  cases first : firstAmount arguments with
  | none =>
      have extracted : extractAmount reader arguments = some none := by rw [extractAmount, first]
      refine .inr ⟨?_, fun raw there => by cases there⟩
      rw [evaluateSpend, if_pos transfer, extracted, number, min_nan]
      rfl
  | some raw =>
      have extracted : extractAmount reader arguments = (readAmount reader raw).map some := by
        rw [extractAmount, first]
      cases read : readAmount reader raw with
      | none =>
          exact .inl ⟨_, by
            rw [evaluateSpend, if_pos transfer, extracted, read]
            rfl, rfl, raw, rfl, read⟩
      | some amount =>
          refine .inr ⟨?_, fun raw' there => ?_⟩
          · rw [evaluateSpend, if_pos transfer, extracted, read, number, min_nan]
            rfl
          · cases there
            rw [read]
            exact Option.some_ne_none _

end Check

/-! ### Examples -/

def countReader : Reader ℕ where
  str n := toString n
  decimal n := some (.finite false n 0)
  isBool _ := false

def transferManifest : ToolPermissions where
  network := [.http]
  hosts := ["horizon.stellar.org"]
  wallet := [.transfer]
  maxSpendUsd := some (.finite false 1000 0)

def transferGrants (cap : Decimal) : PermissionGrants where
  capabilities := ["network.http", "wallet.transfer"]
  hosts := ["*.stellar.org"]
  maxSpendUsd := cap

theorem decimalValue_natural (n : ℕ) : decimalValue false n 0 = n := by
  simp [decimalValue]

theorem lt_naturals (m n : ℕ) :
    (Decimal.finite false m 0).lt (.finite false n 0) = .ok (decide (m < n)) := by
  simp [Decimal.lt, decimalValue_natural]

theorem readAmount_count (n : ℕ) : readAmount countReader n = some (.finite false n 0) := by
  simp [readAmount, countReader, decimalValue_natural]

end Talos.Agent.Permissions
