import Talos.Encoding.Decimal

/-!
# Policies of the agent

The schema (`packages/prime-agent/src/talos_agent/policy/schema.py`) and the conditions of rules
(`policy/engine.py`). Conditions compare objects of any kind, so the operations on objects are a
parameter, and each may raise. The regular expressions are one too.
-/

namespace Talos.Agent.Policies

open Encoding

/-! ### Objects -/

inductive PyError where
  | typeError
  | valueError
  | overflowError
  | keyError
  | attributeError
  /-- `re.error` -/
  | patternError
  | other (name : String)
  deriving DecidableEq, Repr

/-- How a value is shown in a trace. -/
inductive Kind (Value : Type) where
  | bool (b : Bool)
  /-- An `int` or a `float`. -/
  | number
  /-- A list or a tuple. -/
  | sequence (items : List (Option Value))
  | other

/-- What is asked of objects. `None` is `none`. -/
structure Python (Value : Type) where
  ofString : String → Value
  ofDict : List (String × Option Value) → Value
  /-- The items of a dictionary. -/
  dict : Value → Option (List (String × Option Value))
  kind : Value → Kind Value
  /-- `getattr(object, name, None)` -/
  getattr : Option Value → String → Except PyError (Option Value)
  eq : Value → Option Value → Except PyError Bool
  ne : Value → Option Value → Except PyError Bool
  float : Value → Except PyError Number
  /-- `item in container` -/
  contains : (container : Option Value) → (item : Value) → Except PyError Bool
  str : Option Value → Except PyError String
  /-- `re.search` and `re.match`, on a pattern and a text. -/
  search : String → String → Except PyError Bool
  matchStart : String → String → Except PyError Bool
  /-- Whether `_SECRET_KEY_PATTERN` is found. -/
  isSecretField : String → Bool
  recursionLimit : Nat

/-! ### The schema -/

inductive Severity where
  | blocker
  | high
  | medium
  | low
  deriving DecidableEq, Repr

def Severity.value : Severity → String
  | .blocker => "blocker"
  | .high => "high"
  | .medium => "medium"
  | .low => "low"

inductive PolicyDecision where
  | approve
  | escalate
  | deny
  deriving DecidableEq, Repr

def PolicyDecision.value : PolicyDecision → String
  | .approve => "approve"
  | .escalate => "escalate"
  | .deny => "deny"

structure MatchCondition (Value : Type) where
  field : String
  operator : String := "eq"
  value : Option Value := none
  deriving DecidableEq

structure PolicyRule (Value : Type) where
  ruleId : String
  conditions : List (MatchCondition Value) := []
  decision : PolicyDecision := .deny
  severity : Severity := .high
  reason : String := ""
  deriving DecidableEq

structure Policy (Value : Type) where
  name : String
  rules : List (PolicyRule Value) := []
  priority : Int := 0
  enabled : Bool := true
  deriving DecidableEq

structure ActionSpec (Value : Type) where
  action : String
  params : List (String × Option Value) := []
  context : List (String × Option Value) := []

variable {Value : Type} (py : Python Value)

/-! ### Fields of an action -/

/-- The loop over the parts of a path. -/
def resolve (val : Option Value) : List String → Except PyError (Option Value)
  | [] => .ok val
  | part :: parts => do
      let next ← match val.bind py.dict with
        | some items => match items.lookup part with
          | some next => .ok next
          | none => .error .keyError
        | none => py.getattr val part
      resolve next parts

/-- The value at the path, `none` where it is `None` or one of the three errors is raised. -/
def resolveSource (source : List (String × Option Value)) (parts : List String) :
    Except PyError (Option Value) :=
  match resolve py (some (py.ofDict source)) parts with
  | .error .keyError | .error .attributeError | .error .typeError => .ok none
  | result => result

def ActionSpec.get (spec : ActionSpec Value) (field : String) : Except PyError (Option Value) :=
  if field = "action" then .ok (some (py.ofString spec.action))
  else match spec.params.lookup field with
    | some value => .ok value
    | none => match spec.context.lookup field with
      | some value => .ok value
      | none =>
          let parts := field.splitOn "."
          if parts.head? = some "context" then resolveSource py spec.context parts.tail
          else if parts.head? = some "params" then resolveSource py spec.params parts.tail
          else do
            match ← resolveSource py spec.params parts with
            | some value => .ok (some value)
            | none => resolveSource py spec.context parts

/-! ### Conditions -/

/-- The regular expression of a glob, from its characters. A class without its closing bracket is
copied to the end, and the characters after the opening one are read again. -/
def globRegex : Nat → List Char → List Char
  | 0, _ | _, [] => []
  | fuel + 1, char :: rest =>
      if char = '*' then "[^/]*".toList ++ globRegex fuel rest
      else if char = '?' then "[^/]".toList ++ globRegex fuel rest
      else if char = '[' then
        let negated := rest.head? = some '!'
        let body := if negated then rest.tail else rest
        let seq := body.takeWhile (· ≠ ']')
        (if negated then "[^".toList else "[".toList) ++ seq ++
          match body.drop seq.length with
          | _ :: after => ']' :: globRegex fuel after
          | [] => '[' :: globRegex fuel rest
      -- The ten characters of the source that are escaped.
      else if char.toNat ∈ [92, 46, 94, 36, 43, 123, 125, 40, 41, 124] then
        '\\' :: char :: globRegex fuel rest
      else char :: globRegex fuel rest

def matchGlob (pattern text : String) : Except PyError Bool :=
  let regex := String.ofList ('^' :: globRegex pattern.length pattern.toList ++ ['$'])
  match py.matchStart regex text with
  | .error .patternError => .ok false
  | result => result

/-- `a >= e` -/
def atLeast (a e : Number) : Bool := a.gt e || (a ≠ .nan && a = e)

def compareNumbers (operator : String) (a e : Number) : Bool :=
  if operator = "gt" then a.gt e
  else if operator = "gte" then atLeast a e
  else if operator = "lt" then e.gt a
  else atLeast e a

/-- The result of the `try` block, or the result after one of the errors. -/
def orElse (caught : List PyError) (result : Bool) : Except PyError Bool → Except PyError Bool
  | .ok b => .ok b
  | .error e => if e ∈ caught then .ok result else .error e

/-- The operators on a value that is there. -/
def applyOperator (operator : String) (actual : Value) (expected : Option Value) :
    Except PyError Bool :=
  if operator = "eq" then py.eq actual expected
  else if operator = "neq" then py.ne actual expected
  else if operator ∈ ["gt", "gte", "lt", "lte"] then
    match expected with
    | none => .ok false
    | some expected => orElse [.typeError, .valueError] false do
        let a ← py.float actual
        let e ← py.float expected
        .ok (compareNumbers operator a e)
  else if operator = "in" then orElse [.typeError] false (py.contains expected actual)
  else if operator = "not_in" then
    orElse [.typeError] true ((py.contains expected actual).map (!·))
  else if operator = "regex" then orElse [.patternError] false do
    let pattern ← py.str expected
    let text ← py.str (some actual)
    py.search pattern text
  else if operator = "glob" then
    -- Every exception is caught.
    match (do matchGlob py (← py.str expected) (← py.str (some actual)) : Except PyError Bool) with
    | .ok b => .ok b
    | .error _ => .ok false
  else .ok false

/-- `spec.get(condition.field) if condition.field else None` -/
def actualValue (condition : MatchCondition Value) (spec : ActionSpec Value) :
    Except PyError (Option Value) :=
  if condition.field = "" then .ok none else spec.get py condition.field

def evaluateCondition (condition : MatchCondition Value) (spec : ActionSpec Value) :
    Except PyError Bool := do
  let actual ← actualValue py condition spec
  if condition.operator = "exists" then .ok actual.isSome
  else match actual with
    | none => .ok false
    | some actual => applyOperator py condition.operator actual condition.value

/-! ### Traces of conditions -/

def maxTraceValueLen : Nat := 64

def cut (text : String) (length : Nat) : String := String.ofList (text.toList.take length)

/-- `redact_trace_value`, with the calls that may still be nested. -/
def redactTraceValue (fieldName : String) : Nat → Option Value → Except PyError (Option String)
  | _, none => .ok none
  | depth, some value =>
      if py.isSecretField fieldName then .ok (some "[redacted]")
      else match py.kind value with
        | .bool b => .ok (some (if b then "true" else "false"))
        | .number => (py.str (some value)).map some
        | .sequence items => match depth with
          | 0 => .error (.other "RecursionError")
          | depth + 1 => do
              let parts ← (items.take 8).mapM fun item => do
                let part ← redactTraceValue fieldName depth item
                pure ((part.filter (· ≠ "")).getD "?")
              let rendered := "[" ++ ", ".intercalate parts ++
                (if 8 < items.length then "…" else "") ++ "]"
              pure (some (cut rendered maxTraceValueLen))
        | .other => do
            let text ← py.str (some value)
            pure (some (if maxTraceValueLen < text.length then
              cut text (maxTraceValueLen - 3) ++ "..." else text))

structure ConditionTrace where
  field : String
  operator : String
  matched : Bool
  observed : Option String
  expected : Option String
  deriving DecidableEq, Repr

def traceCondition (condition : MatchCondition Value) (spec : ActionSpec Value) :
    Except PyError ConditionTrace := do
  let matched ← evaluateCondition py condition spec
  let observedRaw ← actualValue py condition spec
  let observed ← redactTraceValue py condition.field py.recursionLimit observedRaw
  let expected ← redactTraceValue py condition.field py.recursionLimit condition.value
  pure ⟨condition.field, condition.operator, matched, observed, expected⟩

end Talos.Agent.Policies
