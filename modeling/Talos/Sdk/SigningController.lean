import Talos.Database.Machine
import Talos.Soroban.Contract
import Mathlib.Algebra.Order.Ring.Rat
import Mathlib.Algebra.Order.Monoid.Unbundled.WithTop
import Mathlib.Algebra.Field.Rat

/-!
# The signing controller of the SDK

`SigningController` (`packages/sdk/src/signing.ts`). A call to `sign` asks the signer for
its capabilities, then runs if a slot is free, or waits in the queue. A run is a race of
the signer against the timeout and the caller's signal; its end frees the slot and drains
the queue. The machine interleaves any number of calls, the signer's answers, timeouts and
aborts. What runs without an `await` is one event.

The signer answers through promises. Telemetry is left out, and limits that are NaN.
-/

namespace Talos.Sdk.Signing

open Database
open Soroban (Map)

/-- A call to `sign`. -/
abbrev RequestId := Nat

/-- An `AbortSignal`, which several calls may share. -/
abbrev SignalId := Nat

inductive SigningCapability where
  | httpRequestV1
  | stellarTransactionV1
  | talosPaymentV1
  deriving DecidableEq

inductive SigningErrorCode where
  | invalidInput
  | unsupported
  | unavailable
  | saturated
  | timeout
  | cancelled
  | rejected
  | invalidResult
  | signingFailed
  deriving DecidableEq

structure SignatureResult where
  algorithm : String
  keyId : String
  signature : List UInt8
  deriving DecidableEq

/-- How the promise of a call settles; `raised` with what `getCapabilities` throws. -/
inductive Outcome where
  | resolved (result : SignatureResult)
  | rejected (code : SigningErrorCode)
  | raised
  deriving DecidableEq

/-- What `getCapabilities` comes to. -/
inductive Detection where
  | capabilities (supported : List SigningCapability)
  | rejected
  | threw
  deriving DecidableEq

/-- What the race of a run comes to; the signer may reject with a `SigningError` of its own. -/
inductive Answer where
  | signature (result : SignatureResult)
  | signingError (code : SigningErrorCode)
  | failed
  deriving DecidableEq

/-! ### Limits -/

structure SigningControllerOptions where
  timeoutMs : Option (WithTop ℚ)
  maxConcurrent : Option (WithTop ℚ)
  maxQueue : Option (WithTop ℚ)

/-- The limits that the constructor lets through. -/
structure Limits where
  timeoutMs : WithTop ℚ
  maxConcurrent : WithTop ℚ
  maxQueue : WithTop ℚ
  timeout_pos : ¬ timeoutMs < 1
  concurrent_pos : ¬ maxConcurrent < 1
  queue_nonneg : ¬ maxQueue < 0

/-- The constructor. -/
def Limits.new (options : SigningControllerOptions) : Except SigningErrorCode Limits :=
  let timeoutMs := options.timeoutMs.getD ((15000 : ℚ) : WithTop ℚ)
  let maxConcurrent := options.maxConcurrent.getD ((4 : ℚ) : WithTop ℚ)
  let maxQueue := options.maxQueue.getD ((32 : ℚ) : WithTop ℚ)
  if valid : timeoutMs < 1 ∨ maxConcurrent < 1 ∨ maxQueue < 0 then .error .invalidInput
  else
    .ok ⟨timeoutMs, maxConcurrent, maxQueue, fun low => valid (.inl low),
      fun low => valid (.inr (.inl low)), fun low => valid (.inr (.inr low))⟩

/-- `n >= limit`. -/
def reached (limit : WithTop ℚ) (n : Nat) : Bool := limit ≤ ((n : ℚ) : WithTop ℚ)

/-! ### Calls -/

/-- Where a call is: before the answer on capabilities, in the queue, in the race, after
the race, with the promise of the run settled, over, or taken from the queue and left. -/
inductive Phase where
  | detecting
  | queued
  | running
  | raced (answer : Answer)
  | returned (outcome : Outcome)
  | ended
  | skipped
  deriving DecidableEq

structure Request where
  kind : SigningCapability
  signal : Option SignalId
  /-- It has been in the queue, so the signal also rejects its promise itself. -/
  waited : Bool
  phase : Phase
  settled : Option Outcome
  deriving DecidableEq

structure State where
  aborted : SignalId → Bool
  requests : Map RequestId Request
  active : Nat
  queue : List RequestId

inductive Event where
  | sign (x : RequestId) (kind : SigningCapability) (signal : Option SignalId)
  | detected (x : RequestId) (detection : Detection)
  | answered (x : RequestId) (answer : Answer)
  | timedOut (x : RequestId)
  | finished (x : RequestId)
  | delivered (x : RequestId)
  | abort (signal : SignalId)
  deriving DecidableEq

def State.isAborted (s : State) (request : Request) : Bool := request.signal.any s.aborted

/-- A promise that is settled stays as it is. -/
def Request.settle (request : Request) (outcome : Outcome) : Request :=
  { request with settled := some (request.settled.getD outcome) }

def Request.end (request : Request) (outcome : Outcome) : Request :=
  { request.settle outcome with phase := .ended }

def State.put (s : State) (x : RequestId) (request : Request) : State :=
  { s with requests := s.requests.set x request }

/-- `execute` up to the race: the slot is taken and the signer is called. -/
def State.execute (s : State) (x : RequestId) (request : Request) : State :=
  { s.put x { request with phase := .running } with active := s.active + 1 }

/-- The call waits in the queue, and its signal is listened to. -/
def State.enqueue (s : State) (x : RequestId) (request : Request) : State :=
  { s.put x { request with phase := .queued, waited := true } with queue := s.queue ++ [x] }

/-- `execute` after the race: the slot is free again. -/
def State.release (s : State) (x : RequestId) (request : Request) (outcome : Outcome) : State :=
  { s.put x { request with phase := .returned outcome } with active := s.active - 1 }

/-- One turn of the loop in `drain`. -/
def State.shift (s : State) (x : RequestId) (rest : List RequestId) : State :=
  let s := { s with queue := rest }
  match s.requests x with
  | some request =>
      if s.isAborted request then s.put x { request with phase := .skipped }
      else s.execute x request
  | none => s

def drainLoop (limits : Limits) : List RequestId → State → State
  | [], s => s
  | x :: rest, s =>
      if reached limits.maxConcurrent s.active then s
      else drainLoop limits rest (s.shift x rest)

def State.drain (s : State) (limits : Limits) : State := drainLoop limits s.queue s

/-- The result is checked, and other errors are wrapped. -/
def Answer.outcome : Answer → Outcome
  | .signature result =>
      if result.keyId = "" ∨ result.algorithm = "" ∨ result.signature = [] then
        .rejected .invalidResult
      else .resolved result
  | .signingError code => .rejected code
  | .failed => .rejected .signingFailed

/-- `sign` up to the question for capabilities. -/
def State.sign (s : State) (x : RequestId) (kind : SigningCapability)
    (signal : Option SignalId) : State :=
  let request : Request := ⟨kind, signal, false, .detecting, none⟩
  if s.isAborted request then s.put x (request.end (.rejected .cancelled)) else s.put x request

/-- `sign` once the signer supports the kind. -/
def State.admit (s : State) (limits : Limits) (x : RequestId) (request : Request) : State :=
  if reached limits.maxConcurrent s.active then
    if reached limits.maxQueue s.queue.length then
      s.put x (request.end (.rejected .saturated))
    else s.enqueue x request
  else s.execute x request

/-- `sign` after the question for capabilities. -/
def State.detected (s : State) (limits : Limits) (x : RequestId) (request : Request) :
    Detection → State
  | .threw => s.put x (request.end .raised)
  | .rejected => s.put x (request.end (.rejected .unavailable))
  | .capabilities supported =>
      if request.kind ∈ supported then s.admit limits x request
      else s.put x (request.end (.rejected .unsupported))

/-- A call leaves the queue, and a run loses its race. -/
def Phase.abort : Phase → Phase
  | .queued => .ended
  | .running => .raced (.signingError .cancelled)
  | phase => phase

/-- The listeners of a signal: that of a call which has waited, and that of a run. -/
def Request.abort (signal : SignalId) (request : Request) : Request :=
  if request.signal = some signal then
    let settled := if request.waited then some (request.settled.getD (.rejected .cancelled))
      else request.settled
    { request with phase := request.phase.abort, settled := settled }
  else request

def State.abort (s : State) (signal : SignalId) : State :=
  { s with
    aborted := Function.update s.aborted signal true
    requests := fun x => (s.requests x).map (·.abort signal)
    queue := s.queue.filter fun x =>
      (s.requests x).all fun request => request.signal ≠ some signal }

def step (limits : Limits) (s : State) : Event → Option State
  | .sign x kind signal =>
      match s.requests x with
      | none => some (s.sign x kind signal)
      | some _ => none
  | .detected x detection =>
      match s.requests x with
      | some request =>
          if request.phase = .detecting then some (s.detected limits x request detection) else none
      | none => none
  | .answered x answer =>
      match s.requests x with
      | some request =>
          if request.phase = .running then some (s.put x { request with phase := .raced answer })
          else none
      | none => none
  | .timedOut x =>
      match s.requests x with
      | some request =>
          if request.phase = .running then
            let code := if s.isAborted request then .cancelled else .timeout
            some (s.put x { request with phase := .raced (.signingError code) })
          else none
      | none => none
  | .finished x =>
      match s.requests x with
      | some request =>
          match request.phase with
          | .raced answer => some ((s.release x request answer.outcome).drain limits)
          | _ => none
      | none => none
  | .delivered x =>
      match s.requests x with
      | some request =>
          match request.phase with
          | .returned outcome => some (s.put x (request.end outcome))
          | _ => none
      | none => none
  | .abort signal => if s.aborted signal then none else some (s.abort signal)

def machine (limits : Limits) : Machine State Event where
  init := ⟨fun _ => false, fun _ => none, 0, []⟩
  step := step limits

end Talos.Sdk.Signing
