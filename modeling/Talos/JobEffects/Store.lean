import Talos.Database.Machine
import Talos.Database.Table
import Mathlib.Data.List.Sort
import Mathlib.Algebra.Group.Nat.Defs

/-!
# Durable job effects

`JobEffectStore` (`packages/prime-agent/src/talos_agent/job_effects.py`): the inbox of the
jobs an agent was asked to do and the outbox of their results. Each operation is one
transaction; a call that raises leaves the database as it was. Payloads and results stand
as their canonical encodings, times in microseconds, and the database holds the rows of one
Talos. The audit trail is newest first.
-/

namespace Talos.JobEffects

open Database

abbrev JobId := String
abbrev EffectId := String

inductive JobEffectError where
  | validation (message : String)
  | authorization (message : String)
  | conflict (message : String)
  | capacity (message : String)
  | state (message : String)
  deriving DecidableEq

inductive InboxState where
  | received
  | claimed
  | effectPending
  | completed
  | conflict
  deriving DecidableEq

inductive EffectState where
  | pending
  | dispatching
  | succeeded
  | retryable
  | indeterminate
  | conflict
  | dead
  deriving DecidableEq

inductive ReplayAuditAction where
  | effectPrepared
  | dispatchClaimed
  | dispatchSucceeded
  | dispatchReconciled
  | dispatchFailed
  | dispatchConflict
  | operatorRequeued
  deriving DecidableEq

/-- The limits, within the bounds that the constructor of the store checks. -/
structure JobEffectLimits where
  maxInboxRecords : Nat
  maxOutboxRecords : Nat
  maxPayloadBytes : Nat
  maxResultBytes : Nat
  batchSize : Nat
  leaseSeconds : Nat
  maxAttempts : Nat
  retryBaseSeconds : Nat
  records : (1 ≤ maxInboxRecords ∧ maxInboxRecords ≤ 1000000) ∧
    1 ≤ maxOutboxRecords ∧ maxOutboxRecords ≤ 1000000
  bytes : (1 ≤ maxPayloadBytes ∧ maxPayloadBytes ≤ 1048576) ∧
    1 ≤ maxResultBytes ∧ maxResultBytes ≤ 2097152
  batch : 1 ≤ batchSize ∧ batchSize ≤ 200
  lease : 1 ≤ leaseSeconds ∧ leaseSeconds ≤ 900
  attempts : 1 ≤ maxAttempts ∧ maxAttempts ≤ 100
  retry : 1 ≤ retryBaseSeconds ∧ retryBaseSeconds ≤ 300

/-- A store, with the library functions it calls. -/
structure JobEffectStore where
  ownerTalosId : String
  limits : JobEffectLimits
  sha256 : String → String
  /-- No collisions. -/
  sha256_injective : Function.Injective sha256
  fromisoformat : String → Bool

structure InboxRow where
  jobId : JobId
  requesterTalosId : Option String
  serviceType : String
  payloadJson : String
  payloadDigest : String
  state : InboxState
  fencingToken : Option Int
  remoteLeaseExpiresAt : Option String
  createdAt : Nat
  deriving DecidableEq

structure OutboxRow where
  effectId : EffectId
  jobId : JobId
  resultJson : String
  resultDigest : String
  fencingToken : Int
  state : EffectState
  attemptCount : Nat
  nextAttemptAt : Nat
  leaseOwner : Option String
  leaseUntil : Option Nat
  lastErrorCode : Option String
  createdAt : Nat
  deriving DecidableEq

structure ReplayAuditRecord where
  effectId : EffectId
  jobId : JobId
  action : ReplayAuditAction
  fromState : Option EffectState
  toState : EffectState
  attemptCount : Nat
  errorCode : Option String
  actor : String
  deriving DecidableEq

/-- What `claim_due` returns of an effect. -/
structure EffectRecord where
  effectId : EffectId
  jobId : JobId
  result : String
  resultDigest : String
  fencingToken : Int
  attemptCount : Nat
  leaseOwner : String
  deriving DecidableEq

/-- A job as the Web API returns it. -/
structure Job where
  id : JobId
  talosId : String
  serviceName : String
  payload : String
  requesterTalosId : Option String

structure LocalDB where
  inbox : Rows InboxRow JobId InboxRow.jobId
  outbox : Rows OutboxRow EffectId OutboxRow.effectId
  audit : List ReplayAuditRecord

/-! ### Validation -/

def isIdentifierChar (c : Char) : Bool :=
  c.isAlphanum || c = '.' || c = '_' || c = ':' || c = '-'

/-- `_IDENTIFIER_RE`. -/
def isIdentifier (value : String) : Bool :=
  match value.toList with
  | [] => false
  | first :: rest => first.isAlphanum && rest.all isIdentifierChar && rest.length ≤ 127

/-- `_ERROR_CODE_RE`. -/
def isErrorCode (value : String) : Bool :=
  match value.toList with
  | [] => false
  | first :: rest =>
      first.isLower && rest.all (fun c => c.isLower || c.isDigit || c = '_') && rest.length ≤ 63

def identifierError (label : String) : JobEffectError :=
  .validation (label ++ " must be a valid bounded identifier")

def byteLimitError (label : String) : JobEffectError :=
  .validation (label ++ " exceeds the configured byte limit")

variable (store : JobEffectStore) (db : LocalDB)

/-- The id of the effect that submits the result of a job. -/
def JobEffectStore.effectId (jobId : JobId) : EffectId :=
  store.sha256 (store.ownerTalosId ++ ":job_result:" ++ jobId)

/-! ### Statements -/

/-- `UPDATE job_inbox … WHERE job_id`. -/
def LocalDB.updateInbox (jobId : JobId) (f : InboxRow → InboxRow)
    (keeps : ∀ row, (f row).jobId = row.jobId) : LocalDB :=
  { db with inbox := db.inbox.update (fun row => row.jobId = jobId) f keeps }

/-- `UPDATE job_effect_outbox … WHERE effect_id`. -/
def LocalDB.updateOutbox (effectId : EffectId) (f : OutboxRow → OutboxRow)
    (keeps : ∀ row, (f row).effectId = row.effectId) : LocalDB :=
  { db with outbox := db.outbox.update (fun row => row.effectId = effectId) f keeps }

/-- `_append_replay_audit`. -/
def LocalDB.appendReplayAudit (record : ReplayAuditRecord) : LocalDB :=
  { db with audit := record :: db.audit }

/-- `lease_until IS NULL OR lease_until <= now`. -/
def OutboxRow.unleased (row : OutboxRow) (now : Nat) : Bool := row.leaseUntil.all (· ≤ now)

def OutboxRow.due (row : OutboxRow) (now : Nat) : Bool :=
  row.state ∈ [.pending, .retryable, .indeterminate, .dispatching] ∧ row.nextAttemptAt ≤ now ∧
    row.unleased now

/-- `ORDER BY created_at, effect_id`. -/
def OutboxRow.before (row row' : OutboxRow) : Bool :=
  row.createdAt < row'.createdAt ∨ row.createdAt = row'.createdAt ∧ row.effectId ≤ row'.effectId

def InboxRow.before (row row' : InboxRow) : Bool :=
  row.createdAt < row'.createdAt ∨ row.createdAt = row'.createdAt ∧ row.jobId ≤ row'.jobId

/-! ### Jobs -/

def JobEffectStore.ingest (job : Job) (now : Nat) : Except JobEffectError LocalDB :=
  if ¬ isIdentifier job.id then .error (identifierError "job ID")
  else if ¬ isIdentifier job.talosId then .error (identifierError "job Talos ID")
  else if job.talosId ≠ store.ownerTalosId then
    .error (.authorization "job does not belong to this Talos")
  else if 200 < job.serviceName.utf8ByteSize then .error (byteLimitError "service name")
  else if job.serviceName.toList.any fun c => c.toNat < 32 then
    .error (.validation "service name contains invalid control characters")
  else if store.limits.maxPayloadBytes < job.payload.utf8ByteSize then
    .error (byteLimitError "job payload")
  else if job.requesterTalosId.any fun requester => ¬ isIdentifier requester then
    .error (identifierError "requester Talos ID")
  else match db.inbox.find job.id with
    | some row =>
        if row.payloadDigest ≠ store.sha256 job.payload ∨
            row.requesterTalosId ≠ job.requesterTalosId ∨ row.serviceType ≠ job.serviceName then
          .error (.conflict "job ID was reused with different immutable data")
        else .ok db
    | none =>
        if store.limits.maxInboxRecords ≤ db.inbox.list.length then
          .error (.capacity "job_inbox reached its configured record limit")
        else
          match db.inbox.insert
            { jobId := job.id
              requesterTalosId := job.requesterTalosId
              serviceType := job.serviceName
              payloadJson := job.payload
              payloadDigest := store.sha256 job.payload
              state := .received
              fencingToken := none
              remoteLeaseExpiresAt := none
              createdAt := now } with
          | some inbox => .ok { db with inbox := inbox }
          | none => .error (.conflict "UNIQUE constraint failed")

def JobEffectStore.markClaimed (jobId : JobId) (fencingToken : Int)
    (leaseExpiresAt : Option String) : Except JobEffectError LocalDB :=
  if ¬ isIdentifier jobId then .error (identifierError "job ID")
  else if fencingToken < 1 ∨ 9223372036854775807 < fencingToken then
    .error (.validation "fencing token is outside the supported range")
  else if leaseExpiresAt.any fun lease => 64 < lease.length ∨ ¬ store.fromisoformat lease then
    .error (.validation "lease expiry is invalid")
  else match db.inbox.find jobId with
    | none => .error (.state "job must be ingested before it can be claimed")
    | some row =>
        if row.state = .completed ∨ row.state = .conflict then
          .error (.state "terminal job cannot be claimed")
        else if row.fencingToken.any fun previous => fencingToken < previous then
          .error (.conflict "stale fencing token was rejected")
        else
          .ok (db.updateInbox jobId
            (fun row =>
              { row with
                state := .claimed
                fencingToken := some fencingToken
                remoteLeaseExpiresAt := leaseExpiresAt })
            fun _ => rfl)

/-- `prepare_effect`; it returns the effect's id, which depends on the job alone. -/
def JobEffectStore.prepareEffect (jobId : JobId) (result : String) (now : Nat) :
    Except JobEffectError LocalDB :=
  if ¬ isIdentifier jobId then .error (identifierError "job ID")
  else if store.limits.maxResultBytes < result.utf8ByteSize then
    .error (byteLimitError "job result")
  else
    let resultDigest := store.sha256 result
    let effectId := store.effectId jobId
    match (db.inbox.find jobId).bind InboxRow.fencingToken with
    | none => .error (.state "job must have a durable claim before fulfillment")
    | some fencingToken =>
        match db.outbox.find effectId with
        | some existing =>
            if existing.resultDigest ≠ resultDigest then
              .error (.conflict "job effect was reused with a different result")
            else if existing.fencingToken < fencingToken ∧ existing.state ≠ .succeeded then
              .ok (db.updateOutbox effectId
                (fun row => { row with fencingToken := fencingToken }) fun _ => rfl)
            else .ok db
        | none =>
            if store.limits.maxOutboxRecords ≤ db.outbox.list.length then
              .error (.capacity "job_effect_outbox reached its configured record limit")
            else
              match db.outbox.insert
                { effectId := effectId
                  jobId := jobId
                  resultJson := result
                  resultDigest := resultDigest
                  fencingToken := fencingToken
                  state := .pending
                  attemptCount := 0
                  nextAttemptAt := now
                  leaseOwner := none
                  leaseUntil := none
                  lastErrorCode := none
                  createdAt := now } with
              | none => .error (.conflict "UNIQUE constraint failed")
              | some outbox =>
                  .ok (({ db with outbox := outbox }.updateInbox jobId
                    (fun row => { row with state := .effectPending })
                    fun _ => rfl).appendReplayAudit
                      { effectId := effectId
                        jobId := jobId
                        action := .effectPrepared
                        fromState := none
                        toState := .pending
                        attemptCount := 0
                        errorCode := none
                        actor := "system:prepare" })

/-- The rows that `pending_jobs` offers for fulfilment. -/
def LocalDB.pendingJobs (limit : Nat) : List InboxRow :=
  ((db.inbox.select fun row => row.state ∈ [.received, .claimed]).insertionSort
    fun row row' => row.before row').take limit

/-! ### Dispatch -/

@[reducible] def OutboxRow.claimedBy (row : OutboxRow) (workerId : String) (leaseUntil : Nat) : OutboxRow :=
  { row with
    state := .dispatching
    leaseOwner := some workerId
    leaseUntil := some leaseUntil
    attemptCount := row.attemptCount + 1 }

def OutboxRow.record (row : OutboxRow) (workerId : String) : EffectRecord where
  effectId := row.effectId
  jobId := row.jobId
  result := row.resultJson
  resultDigest := row.resultDigest
  fencingToken := row.fencingToken
  attemptCount := row.attemptCount
  leaseOwner := workerId

def claimAudit (record : EffectRecord) : ReplayAuditRecord where
  effectId := record.effectId
  jobId := record.jobId
  action := .dispatchClaimed
  fromState := none
  toState := .dispatching
  attemptCount := record.attemptCount
  errorCode := none
  actor := "dispatcher:" ++ record.leaseOwner

/-- The UPDATE of one selected effect; the records claimed so far are newest first. -/
def JobEffectStore.claimOne (workerId : String) (now : Nat)
    (claimed : LocalDB × List EffectRecord) (effectId : EffectId) :
    LocalDB × List EffectRecord :=
  match claimed.1.outbox.find effectId with
  | some row =>
      if row.unleased now then
        let leaseUntil := now + store.limits.leaseSeconds * 1000000
        let record := (row.claimedBy workerId leaseUntil).record workerId
        ((claimed.1.updateOutbox effectId (fun row => row.claimedBy workerId leaseUntil)
          fun _ => rfl).appendReplayAudit (claimAudit record), record :: claimed.2)
      else claimed
  | none => claimed

/-- The effects that `claim_due` selects. -/
def LocalDB.dueEffects (limit now : Nat) : List EffectId :=
  (((db.outbox.select fun row => row.due now).insertionSort
    fun row row' => row.before row').take limit).map OutboxRow.effectId

/-- `limit or batch_size`, but no more than that. -/
def JobEffectLimits.claimLimit (limits : JobEffectLimits) (limit : Option Int) : Int :=
  min (limit.elim limits.batchSize fun n => if n = 0 then limits.batchSize else n)
    limits.batchSize

def JobEffectStore.claimDue (workerId : String) (limit : Option Int) (now : Nat) :
    Except JobEffectError (LocalDB × List EffectRecord) :=
  if ¬ isIdentifier workerId then .error (identifierError "worker ID")
  else if store.limits.claimLimit limit < 1 then
    .error (.validation "claim limit must be positive")
  else
    .ok ((db.dueEffects (store.limits.claimLimit limit).toNat now).foldl
      (store.claimOne workerId now) (db, []))

/-- `WHERE effect_id AND state = 'dispatching' AND lease_owner`. -/
def LocalDB.holds (effect : EffectRecord) : Bool :=
  (db.outbox.find effect.effectId).any fun row =>
    row.state = .dispatching ∧ row.leaseOwner = some effect.leaseOwner

/-- What the three kinds of outcome write. -/
@[reducible] def OutboxRow.released (row : OutboxRow) (state : EffectState) (lastErrorCode : Option String) :
    OutboxRow :=
  { row with
    state := state
    leaseOwner := none
    leaseUntil := none
    lastErrorCode := lastErrorCode }

def outcomeAudit (effect : EffectRecord) (action : ReplayAuditAction) (toState : EffectState)
    (errorCode : Option String) : ReplayAuditRecord where
  effectId := effect.effectId
  jobId := effect.jobId
  action := action
  fromState := some .dispatching
  toState := toState
  attemptCount := effect.attemptCount
  errorCode := errorCode
  actor := "dispatcher:" ++ effect.leaseOwner

def LocalDB.markSucceeded (effect : EffectRecord) (reconciled : Bool) :
    Except JobEffectError LocalDB :=
  if db.holds effect then
    .ok (((db.updateOutbox effect.effectId (fun row => row.released .succeeded none)
      fun _ => rfl).updateInbox effect.jobId (fun row => { row with state := .completed })
        fun _ => rfl).appendReplayAudit
          (outcomeAudit effect (if reconciled then .dispatchReconciled else .dispatchSucceeded)
            .succeeded none))
  else .error (.conflict "dispatch lease was lost before completion")

/-- The state after a failure. -/
def JobEffectLimits.failedState (limits : JobEffectLimits) (effect : EffectRecord)
    (indeterminate : Bool) : EffectState :=
  if limits.maxAttempts ≤ effect.attemptCount then .dead
  else if indeterminate then .indeterminate
  else .retryable

def JobEffectLimits.retryDelay (limits : JobEffectLimits) (effect : EffectRecord) : Nat :=
  min (limits.retryBaseSeconds * 2 ^ (effect.attemptCount - 1)) 300

def JobEffectStore.markFailure (effect : EffectRecord) (errorCode : String)
    (indeterminate : Bool) (now : Nat) : Except JobEffectError LocalDB :=
  if ¬ isErrorCode errorCode then .error (.validation "error code is invalid")
  else if db.holds effect then
    let state := store.limits.failedState effect indeterminate
    .ok ((db.updateOutbox effect.effectId
      (fun row =>
        { row.released state (some errorCode) with
          nextAttemptAt := now + store.limits.retryDelay effect * 1000000 })
      fun _ => rfl).appendReplayAudit
        (outcomeAudit effect .dispatchFailed state (some errorCode)))
  else .error (.conflict "dispatch lease was lost before failure handling")

def LocalDB.markConflict (effect : EffectRecord) : Except JobEffectError LocalDB :=
  if db.holds effect then
    .ok (((db.updateOutbox effect.effectId
      (fun row => row.released .conflict (some "remote_result_conflict"))
      fun _ => rfl).updateInbox effect.jobId (fun row => { row with state := .conflict })
        fun _ => rfl).appendReplayAudit
          (outcomeAudit effect .dispatchConflict .conflict (some "remote_result_conflict")))
  else .error (.conflict "dispatch lease was lost before conflict handling")

def LocalDB.requeue (effectId : EffectId) (expectedAttempt : Int) (now : Nat) :
    Except JobEffectError LocalDB :=
  if ¬ isIdentifier effectId then .error (identifierError "effect ID")
  else if expectedAttempt < 0 then
    .error (.validation "expected attempt cannot be negative")
  else match db.outbox.find effectId with
    | none => .error (.state "effect was not found for this Talos")
    | some row =>
        if (row.attemptCount : Int) ≠ expectedAttempt then
          .error (.conflict "stale expected attempt was rejected")
        else if row.state = .pending then .ok db
        else if row.state ∉ [.retryable, .indeterminate, .dead] then
          .error (.state "only retryable, indeterminate, or dead effects can be requeued")
        else
          .ok ((db.updateOutbox effectId
            (fun row => { row.released .pending none with nextAttemptAt := now })
            fun _ => rfl).appendReplayAudit
              { effectId := effectId
                jobId := row.jobId
                action := .operatorRequeued
                fromState := some row.state
                toState := .pending
                attemptCount := row.attemptCount
                errorCode := none
                actor := "operator:requeue" })

end Talos.JobEffects
