import Talos.Database.Machine
import Talos.Soroban.Contract
import Mathlib.Algebra.Order.Ring.Rat
import Mathlib.Algebra.Order.Monoid.Unbundled.WithTop
import Mathlib.Data.List.Infix
import Mathlib.Algebra.Field.Rat

/-!
# Operations of agents

`A2AOperationManager` (`packages/sdk/src/a2a-operations.ts`). A submission is answered from
the idempotency store, or takes a slot and runs its operation: at most `maxRetries + 1`
attempts, each a race of the operation against a timeout and a cancellation, with a delay
in between. An attempt that has lost its race runs on. The machine interleaves any number
of submissions with what their operations do, the timers, the clock and the other methods
of the manager; what runs without an `await` is one event, at one time.

The value `undefined` is `none`. A timer may go off at any time. Settings that are NaN are
left out.
-/

namespace Talos.Sdk.Operations

open Database
open Soroban (Map)

abbrev OperationId := String

/-- A call to `submitIntent` or `evaluateDecision`. -/
abbrev SubmissionId := Nat

/-- A call of an operation, numbered in the order in which they start. -/
abbrev AttemptId := Nat

/-- A number, perhaps `Infinity`. -/
abbrev Number := WithTop ℚ

inductive OperationState where
  | pending
  | processing
  | completed
  | failed
  | cancelled
  | timeout
  | retrying
  deriving DecidableEq

inductive OperationType where
  | intentSubmission
  | decisionEvaluation
  | intentFulfillment
  deriving DecidableEq

structure OperationConfig where
  maxRetries : Number
  retryDelay : Number
  timeout : Number
  idempotencyWindow : Number
  concurrencyLimit : Number
  deriving DecidableEq

def defaultOperationConfig : OperationConfig where
  maxRetries := ((3 : ℚ) : Number)
  retryDelay := ((1000 : ℚ) : Number)
  timeout := ((30000 : ℚ) : Number)
  idempotencyWindow := ((60000 : ℚ) : Number)
  concurrencyLimit := ((10 : ℚ) : Number)

/-- `Partial<OperationConfig>`. -/
structure OperationConfigUpdate where
  maxRetries : Option Number
  retryDelay : Option Number
  timeout : Option Number
  idempotencyWindow : Option Number
  concurrencyLimit : Option Number
  deriving DecidableEq

/-- `{ ...config, ...update }`. -/
def OperationConfig.with (config : OperationConfig) (update : OperationConfigUpdate) :
    OperationConfig where
  maxRetries := update.maxRetries.getD config.maxRetries
  retryDelay := update.retryDelay.getD config.retryDelay
  timeout := update.timeout.getD config.timeout
  idempotencyWindow := update.idempotencyWindow.getD config.idempotencyWindow
  concurrencyLimit := update.concurrencyLimit.getD config.concurrencyLimit

structure OperationContext where
  operationId : OperationId
  operationType : OperationType
  state : OperationState
  attempt : Nat
  startedAt : Int
  lastAttemptAt : Int
  completedAt : Option Int
  error : Option String
  config : OperationConfig
  deriving DecidableEq

variable {V : Type}

/-- An entry of the idempotency store. -/
structure Entry (V : Type) where
  timestamp : Int
  result : Option V

/-- Where a submission is: answered from the store, in a race that listens to cancellation
or does not, after a race, before the next attempt, or settled; without a message if it
rejects with the error that comes of reading the message of `undefined`. -/
inductive Phase (V : Type) where
  | repeated (result : V)
  | running (a : AttemptId) (listening : Bool)
  | raced (outcome : Except String (Option V))
  | retrying
  | returned (result : Option V)
  | rejected (message : Option String)

/-- One that is answered from the store or refused makes nothing of its context. -/
structure Submission (V : Type) where
  idempotencyKey : String
  context : OperationContext
  phase : Phase V

inductive Outcome (V : Type) where
  | running
  | resolved (time : Int) (result : Option V)
  | rejected (message : String)
  deriving DecidableEq

/-- A call of an operation, for the key and the kind of its submission. -/
structure Attempt (V : Type) where
  submission : SubmissionId
  idempotencyKey : String
  operationType : OperationType
  outcome : Outcome V
  deriving DecidableEq

structure State (V : Type) where
  clock : Int
  config : OperationConfig
  store : Map String (Entry V)
  /-- The operations that have a slot, with their submissions. -/
  active : List (OperationId × SubmissionId)
  cancelled : List OperationId
  submissions : Map SubmissionId (Submission V)
  attempts : List (Attempt V)

inductive Event (V : Type) where
  | advance (now : Int)
  | submitIntent (x : SubmissionId) (intentId idempotencyKey : String)
  | evaluateDecision (x : SubmissionId) (decisionId : String)
  | resolved (a : AttemptId) (result : Option V)
  | rejected (a : AttemptId) (message : String)
  | timedOut (x : SubmissionId)
  | finished (x : SubmissionId)
  | resumed (x : SubmissionId)
  | cancelOperation (operationId : OperationId)
  | cleanup
  | reset
  | updateConfig (update : OperationConfigUpdate)

/-! ### Idempotency store -/

/-- `now - timestamp > window`. -/
def isExpired (window : Number) (now timestamp : Int) : Bool :=
  window < (((now - timestamp : ℤ) : ℚ) : Number)

def State.isExpired (s : State V) (timestamp : Int) : Bool :=
  Operations.isExpired s.config.idempotencyWindow s.clock timestamp

/-- `IdempotencyManager.has`, which drops an entry that has expired. -/
def State.has (s : State V) (key : String) : Bool × State V :=
  match s.store key with
  | none => (false, s)
  | some entry =>
      if s.isExpired entry.timestamp then (false, { s with store := s.store.remove key })
      else (true, s)

/-- `IdempotencyManager.get`. -/
def State.get (s : State V) (key : String) : Option V × State V :=
  match s.store key with
  | none => (none, s)
  | some entry =>
      if s.isExpired entry.timestamp then (none, { s with store := s.store.remove key })
      else (entry.result, s)

/-- `IdempotencyManager.cleanup`. -/
def State.cleanup (s : State V) : State V :=
  { s with store := fun key => (s.store key).filter fun entry => !s.isExpired entry.timestamp }

/-! ### Slots -/

def State.canStart (s : State V) : Bool :=
  ((s.active.length : ℚ) : Number) < s.config.concurrencyLimit

/-- `Map.set`. -/
def setActive (active : List (OperationId × SubmissionId)) (operationId : OperationId)
    (x : SubmissionId) : List (OperationId × SubmissionId) :=
  if active.any (·.1 = operationId) then
    active.map fun slot => if slot.1 = operationId then (operationId, x) else slot
  else active ++ [(operationId, x)]

def State.register (s : State V) (operationId : OperationId) (x : SubmissionId) :
    Option (State V) :=
  if s.canStart then some { s with active := setActive s.active operationId x } else none

def State.unregister (s : State V) (operationId : OperationId) : State V :=
  { s with active := s.active.filter (·.1 ≠ operationId) }

/-! ### Attempts -/

def State.put (s : State V) (x : SubmissionId) (submission : Submission V) : State V :=
  { s with submissions := s.submissions.set x submission }

def nonRetryableErrors : List String :=
  ["MALFORMED_REQUEST", "MISSING_REQUIRED_FIELDS", "INVALID_SIGNATURE", "DUPLICATE_REQUEST",
    "OPERATION_CANCELLED"]

/-- `text.includes(part)`. -/
def includes (text part : String) : Bool := part.toList <:+: text.toList

def shouldRetry (config : OperationConfig) (attempt : Nat) (message : String) : Bool :=
  ¬ config.maxRetries < ((attempt : ℚ) : Number) ∧
    ¬ nonRetryableErrors.any fun code => includes message code

def OperationContext.failed (context : OperationContext) (now : Int) :
    Option String → OperationContext
  | some message =>
      { context with state := .failed, error := some message, completedAt := some now }
  | none => { context with state := .failed }

/-- `catch` and `finally`. -/
def State.reject (s : State V) (x : SubmissionId) (submission : Submission V)
    (message : Option String) : State V :=
  (s.put x { submission with
    context := submission.context.failed s.clock message
    phase := .rejected message }).unregister submission.context.operationId

/-- The operation is called. -/
def State.start (s : State V) (x : SubmissionId) (submission : Submission V) (attempt : Nat) :
    State V :=
  { s.put x { submission with
      context := { submission.context with attempt := attempt, lastAttemptAt := s.clock }
      phase := .running s.attempts.length true } with
    attempts := s.attempts ++
      [⟨x, submission.idempotencyKey, submission.context.operationType, .running⟩] }

/-- The head of the loop of `executeWithRetry`. -/
def State.tryAttempt (s : State V) (x : SubmissionId) (submission : Submission V)
    (attempt : Nat) : State V :=
  if submission.context.config.maxRetries + 1 < ((attempt : ℚ) : Number) then
    s.reject x submission none
  else if submission.context.operationId ∈ s.cancelled then
    s.reject x submission (some "OPERATION_CANCELLED")
  else s.start x submission attempt

/-! ### Submissions -/

def newContext (s : State V) (operationId : OperationId) (operationType : OperationType) :
    OperationContext where
  operationId := operationId
  operationType := operationType
  state := .pending
  attempt := 0
  startedAt := s.clock
  lastAttemptAt := s.clock
  completedAt := none
  error := none
  config := s.config

/-- What is stored under the key, unless it is `undefined`. -/
def State.previous (s : State V) (key : String) : Option V × State V :=
  match s.has key with
  | (true, s) => s.get key
  | (false, s) => (none, s)

/-- A submission that is not answered from the store. -/
def State.enter (s : State V) (x : SubmissionId) (submission : Submission V) : State V :=
  let operationId := submission.context.operationId
  if !s.canStart then
    s.put x { submission with phase := .rejected (some "CONCURRENCY_LIMIT_REACHED") }
  else match s.register operationId x with
    | none =>
        s.put x { submission with phase := .rejected (some "FAILED_TO_REGISTER_OPERATION") }
    | some s =>
        if operationId ∈ s.cancelled then s.reject x submission (some "OPERATION_CANCELLED")
        else
          let processing := { submission.context with state := .processing }
          s.tryAttempt x { submission with context := processing } 1

/-- The two methods, which differ in the kind of the operation and the choice of the key. -/
def State.submit (s : State V) (x : SubmissionId) (operationType : OperationType)
    (operationId : OperationId) (key : String) : State V :=
  let submission : Submission V := ⟨key, newContext s operationId operationType, .retrying⟩
  match s.previous key with
  | (some result, s) => s.put x { submission with phase := .repeated result }
  | (none, s) => s.enter x submission

/-- `intent.idempotencyKey || operationId`. -/
def intentKey (intentId idempotencyKey : String) : String :=
  if idempotencyKey = "" then intentId else idempotencyKey

def State.submitIntent (s : State V) (x : SubmissionId) (intentId idempotencyKey : String) :
    State V :=
  s.submit x .intentSubmission intentId (intentKey intentId idempotencyKey)

def State.evaluateDecision (s : State V) (x : SubmissionId) (decisionId : String) : State V :=
  s.submit x .decisionEvaluation decisionId decisionId

/-- An operation has settled, and its race with it if it was not over. -/
def State.settle (s : State V) (a : AttemptId) (attempt : Attempt V) (outcome : Outcome V)
    (result : Except String (Option V)) : State V :=
  let s := { s with attempts := s.attempts.set a { attempt with outcome := outcome } }
  match s.submissions attempt.submission with
  | some submission =>
      match submission.phase with
      | .running a' _ =>
          if a' = a then s.put attempt.submission { submission with phase := .raced result } else s
      | _ => s
  | none => s

/-- After a race: the result is stored, or the error is handled. -/
def State.finish (s : State V) (x : SubmissionId) (submission : Submission V) :
    Except String (Option V) → State V
  | .ok result =>
      let completed :=
        { submission.context with state := .completed, completedAt := some s.clock }
      let s := s.put x { submission with context := completed, phase := .returned result }
      { s with store := s.store.set submission.idempotencyKey ⟨s.clock, result⟩ }.unregister
        submission.context.operationId
  | .error message =>
      if shouldRetry submission.context.config submission.context.attempt message then
        let retrying := { submission.context with state := .retrying }
        s.put x { submission with context := retrying, phase := .retrying }
      else s.reject x submission (some message)

/-- The race of a submission is lost to the cancellation that it listens to. -/
def Submission.cancel (operationId : OperationId) (submission : Submission V) : Submission V :=
  match submission.phase with
  | .running _ true =>
      if submission.context.operationId = operationId then
        { submission with phase := .raced (.error "OPERATION_CANCELLED") }
      else submission
  | _ => submission

/-- `CancellationHandler.cancel`, which does nothing the second time. -/
def State.cancelOperation (s : State V) (operationId : OperationId) : State V :=
  if operationId ∈ s.cancelled then s
  else
    { s with
      cancelled := operationId :: s.cancelled
      submissions := fun x => (s.submissions x).map (·.cancel operationId) }

/-- `clearAll` takes the listeners of the races. -/
def Submission.unlisten (submission : Submission V) : Submission V :=
  match submission.phase with
  | .running a _ => { submission with phase := .running a false }
  | _ => submission

def State.reset (s : State V) : State V :=
  { s with
    store := Map.empty
    cancelled := []
    submissions := fun x => (s.submissions x).map (·.unlisten) }

/-- New managers for the store, the slots and the attempts to come. -/
def State.updateConfig (s : State V) (update : OperationConfigUpdate) : State V :=
  { s with config := s.config.with update, store := Map.empty, active := [] }

def step (s : State V) : Event V → Option (State V)
  | .advance now => if s.clock ≤ now then some { s with clock := now } else none
  | .submitIntent x intentId idempotencyKey =>
      match s.submissions x with
      | none => some (s.submitIntent x intentId idempotencyKey)
      | some _ => none
  | .evaluateDecision x decisionId =>
      match s.submissions x with
      | none => some (s.evaluateDecision x decisionId)
      | some _ => none
  | .resolved a result =>
      match s.attempts[a]? with
      | some ⟨x, key, operationType, .running⟩ =>
          some (s.settle a ⟨x, key, operationType, .running⟩ (.resolved s.clock result) (.ok result))
      | _ => none
  | .rejected a message =>
      match s.attempts[a]? with
      | some ⟨x, key, operationType, .running⟩ =>
          some (s.settle a ⟨x, key, operationType, .running⟩ (.rejected message) (.error message))
      | _ => none
  | .timedOut x =>
      match s.submissions x with
      | some ⟨key, context, .running _ _⟩ =>
          some (s.put x ⟨key, context, .raced (.error "OPERATION_TIMEOUT")⟩)
      | _ => none
  | .finished x =>
      match s.submissions x with
      | some ⟨key, context, .raced outcome⟩ =>
          some (s.finish x ⟨key, context, .raced outcome⟩ outcome)
      | _ => none
  | .resumed x =>
      match s.submissions x with
      | some ⟨key, context, .retrying⟩ =>
          some (s.tryAttempt x ⟨key, context, .retrying⟩ (context.attempt + 1))
      | _ => none
  | .cancelOperation operationId => some (s.cancelOperation operationId)
  | .cleanup => some s.cleanup
  | .reset => some s.reset
  | .updateConfig update => some (s.updateConfig update)

def machine (V : Type) (config : OperationConfig) (start : Int) : Machine (State V) (Event V) where
  init := ⟨start, config, Map.empty, [], [], fun _ => none, []⟩
  step := step

end Talos.Sdk.Operations
