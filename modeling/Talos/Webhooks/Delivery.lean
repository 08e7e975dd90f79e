import Talos.Database.Machine
import Talos.Database.Table

/-!
# Webhook deliveries

`attemptDelivery` claims a delivery with a fencing token, reads the subscription, sends
the request and records the outcome; `markDeliveryFailed` records that the subscription
cannot be used. Both writes name the token of the claim. The machine interleaves the
steps of any number of attempts by any number of workers; what becomes of a request is
given by the events. An attempt that dies is one whose next event never comes.

Times are in milliseconds. A stored delivery may be any row.
-/

namespace Talos.Webhooks.Delivery

open Database Soroban

abbrev DeliveryId := String
abbrev AttemptId := Nat

inductive DeliveryStatus where
  | pending
  | delivered
  | failed
  | deadLetter
  deriving DecidableEq

/-- A row of `tls_webhook_deliveries`; its id is the key of the table. -/
structure DeliveryRow where
  subscriptionId : String
  payloadHash : String
  status : DeliveryStatus
  attempts : Nat
  maxAttempts : Nat
  lastStatusCode : Option Nat
  lastError : Option String
  lastAttemptAt : Option Int
  nextAttemptAt : Option Int
  completedAt : Option Int
  responseBody : Option String
  leasedBy : Option String
  leasedAt : Option Int
  leaseExpiresAt : Option Int
  fencingToken : Nat
  deriving DecidableEq

def DeliveryStatus.terminal : DeliveryStatus → Bool
  | .delivered => true
  | .deadLetter => true
  | _ => false

structure BackoffConfig where
  baseMs : Nat
  maxMs : Nat

/-- What the request came to: a response, or the message of an error. -/
structure RequestOutcome where
  statusCode : Option Nat
  responseBody : Option String
  error : Option String
  deriving DecidableEq

def RequestOutcome.isSuccess (outcome : RequestOutcome) : Bool :=
  outcome.statusCode.any fun code => 200 ≤ code ∧ code < 500

/-- Where an attempt is: before it has read the subscription, before the request, waiting
for the response, before the write of an outcome or of a refusal, or over. -/
inductive Stage where
  | loading
  | sending
  | waiting
  | responded (outcome : RequestOutcome)
  | refused (error : String)
  | ended
  deriving DecidableEq

structure Attempt where
  deliveryId : DeliveryId
  /-- The row that the claim returned. -/
  claimed : DeliveryRow
  stage : Stage
  deriving DecidableEq

structure State where
  clock : Int
  rows : Table DeliveryId DeliveryRow
  /-- The attempts, numbered in the order in which they start. -/
  attempts : List Attempt

/-- The condition of the claim. Its first alternative compares a column with NULL, which
is never true. -/
def claimable (workerId : String) (now : Int) (row : DeliveryRow) : Bool :=
  (row.status = .pending ∨ row.status = .failed) ∧
    (row.leasedBy = some workerId ∨ row.leaseExpiresAt.any (· < now))

def DeliveryRow.leased (row : DeliveryRow) (workerId : String) (now ttlSeconds : Int) :
    DeliveryRow :=
  { row with
    leasedBy := some workerId
    leasedAt := some now
    leaseExpiresAt := some (now + ttlSeconds * 1000)
    fencingToken := row.fencingToken + 1 }

def backoffDelay (config : BackoffConfig) (attempt : Nat) : Nat :=
  min (config.baseMs * Nat.pow 2 (attempt - 1)) config.maxMs

/-- What `calculateBackoff` may add to the time: the delay with up to a quarter more or
less. -/
def jitters (config : BackoffConfig) (attempt jitter : Nat) : Bool :=
  3 * backoffDelay config attempt ≤ 4 * jitter ∧ 4 * jitter ≤ 5 * backoffDelay config attempt

/-- The write of an outcome; `newAttempts` counts this attempt. -/
def DeliveryRow.recorded (row : DeliveryRow) (claimed : DeliveryRow) (outcome : RequestOutcome)
    (now : Int) (jitter : Nat) : DeliveryRow :=
  let newAttempts := claimed.attempts + 1
  if outcome.isSuccess then
    { row with
      status := .delivered
      attempts := newAttempts
      lastStatusCode := outcome.statusCode
      responseBody := outcome.responseBody
      lastAttemptAt := some now
      completedAt := some now
      nextAttemptAt := none }
  else
    let exhausted := newAttempts ≥ claimed.maxAttempts
    { row with
      status := if exhausted then .deadLetter else .failed
      attempts := newAttempts
      lastStatusCode := outcome.statusCode
      lastError := outcome.error
      responseBody := outcome.responseBody
      lastAttemptAt := some now
      nextAttemptAt := if exhausted then none else some (now + jitter)
      completedAt := if exhausted then some now else none }

/-- The write of `markDeliveryFailed`. -/
def DeliveryRow.markedFailed (row : DeliveryRow) (error : String) (now : Int) : DeliveryRow :=
  { row with
    status := .deadLetter
    lastError := some error
    lastAttemptAt := some now
    completedAt := some now
    nextAttemptAt := none }

inductive Event where
  | advance (now : Int)
  | claim (d : DeliveryId) (workerId : String) (ttlSeconds now : Int)
  | load (a : AttemptId) (refusal : Option String)
  | send (a : AttemptId)
  | respond (a : AttemptId) (outcome : RequestOutcome)
  | record (a : AttemptId) (jitter : Nat)
  | markDeliveryFailed (a : AttemptId)
  deriving DecidableEq

def State.setStage (s : State) (a : AttemptId) (attempt : Attempt) (stage : Stage) : State :=
  { s with attempts := s.attempts.set a { attempt with stage := stage } }

/-- `UPDATE … WHERE id AND fencingToken`, which ends the attempt. -/
def State.settle (s : State) (a : AttemptId) (attempt : Attempt)
    (patch : DeliveryRow → DeliveryRow) : State :=
  { s.setStage a attempt .ended with
    rows := s.rows.update
      (fun d row => d = attempt.deliveryId ∧ row.fencingToken = attempt.claimed.fencingToken)
      patch }

/-- A claim that no row answers returns null. -/
def State.claim (s : State) (d : DeliveryId) (workerId : String) (ttlSeconds now : Int) : State :=
  match s.rows d with
  | some row =>
      if claimable workerId now row then
        let claimed := row.leased workerId now ttlSeconds
        { s with
          rows := s.rows.set d claimed
          attempts := s.attempts ++ [⟨d, claimed, .loading⟩] }
      else s
  | none => s

def step (config : BackoffConfig) (s : State) : Event → Option State
  | .advance now => if s.clock ≤ now then some { s with clock := now } else none
  | .claim d workerId ttlSeconds now =>
      if now ≤ s.clock then some (s.claim d workerId ttlSeconds now) else none
  | .load a refusal =>
      match s.attempts[a]? with
      | some attempt =>
          if attempt.stage = .loading then
            some (s.setStage a attempt (match refusal with
              | none => .sending
              | some error => .refused error))
          else none
      | none => none
  | .send a =>
      match s.attempts[a]? with
      | some attempt =>
          if attempt.stage = .sending then some (s.setStage a attempt .waiting) else none
      | none => none
  | .respond a outcome =>
      match s.attempts[a]? with
      | some attempt =>
          if attempt.stage = .waiting then some (s.setStage a attempt (.responded outcome))
          else none
      | none => none
  | .record a jitter =>
      match s.attempts[a]? with
      | some attempt =>
          match attempt.stage with
          | .responded outcome =>
              if jitters config (attempt.claimed.attempts + 1) jitter then
                some (s.settle a attempt
                  fun row => row.recorded attempt.claimed outcome s.clock jitter)
              else none
          | _ => none
      | none => none
  | .markDeliveryFailed a =>
      match s.attempts[a]? with
      | some attempt =>
          match attempt.stage with
          | .refused error =>
              some (s.settle a attempt fun row => row.markedFailed error s.clock)
          | _ => none
      | none => none

/-- Any stored deliveries, and no attempt under way. -/
def machine (config : BackoffConfig) (start : Int) (rows : Table DeliveryId DeliveryRow) :
    Machine State Event where
  init := ⟨start, rows, []⟩
  step := step config

end Talos.Webhooks.Delivery
