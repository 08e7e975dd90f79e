import Talos.Database.Machine
import Talos.Database.Table

/-!
# The job queue

`tls_jobs` and the operations of its store. `leaseBatch`, `heartbeat`, `complete`,
`release` and `requeue` are one statement each; `enqueue` and `fail` read before they
write, `requestCancel` and `reapExpiredLeases` are two updates. The machine
interleaves the statements of any number of callers with any arguments, so it also
covers every schedule of the worker loop. Job and lease ids stand for the generated
tokens; times are in milliseconds.
-/

namespace Talos.Jobs

open Database Soroban

abbrev JobId := Nat
abbrev LeaseId := Nat
abbrev CallId := Nat

inductive JobStatus where
  | pending
  | leased
  | completed
  | deadLetter
  | cancelled
  deriving DecidableEq

inductive RetryClass where
  | transient
  | rateLimited
  | fatal
  deriving DecidableEq

/-- A row of `tls_jobs`; `id` is the key of the table. -/
structure JobRow where
  queue : String
  payload : String
  status : JobStatus
  priority : Int
  runAt : Int
  leaseId : Option LeaseId
  leaseOwner : Option String
  leaseExpiresAt : Option Int
  heartbeatAt : Option Int
  attempts : Nat
  maxAttempts : Int
  retryClass : RetryClass
  cancelRequested : Bool
  idempotencyKey : Option String
  lastError : Option String
  result : Option String
  completedAt : Option Int
  deriving DecidableEq

structure EnqueueOptions where
  delayMs : Option Int
  priority : Option Int
  maxAttempts : Option Int
  retryClass : Option RetryClass
  idempotencyKey : Option String
  deriving DecidableEq

/-- The settings the store reads; `envInt` only lets positive numbers through. -/
structure JobsConfig where
  defaultMaxAttempts : Int
  positive : 0 < defaultMaxAttempts

/-! ### Retry policy -/

inductive RetryDecision where
  | retry (delayMs : Int)
  | deadLetter
  deriving DecidableEq

/-- `POLICIES`: base delay and cap. `fatal` has no entry. -/
def backoffPolicy : RetryClass → Nat × Nat
  | .transient => (1000, 300000)
  | .rateLimited => (10000, 900000)
  | .fatal => (0, 0)

/-- Full jitter: any whole number below the exponential bound, chosen by `jitter`. -/
def backoffMs (retryClass : RetryClass) (attempts jitter : Nat) : Nat :=
  let (baseMs, capMs) := backoffPolicy retryClass
  jitter % min capMs (baseMs * Nat.pow 2 (attempts - 1))

def decideRetry (retryClass : RetryClass) (attempts : Nat) (maxAttempts : Int) (jitter : Nat) :
    RetryDecision :=
  if retryClass = .fatal then .deadLetter
  else if (attempts : Int) ≥ maxAttempts then .deadLetter
  else .retry (backoffMs retryClass attempts jitter)

/-- At most 500 characters of a message. -/
def truncateError (message : String) : String :=
  if message.length > 500 then String.ofList (message.toList.take 500) ++ "…" else message

/-! ### Statements -/

/-- `WHERE id AND leaseId AND status = 'leased'`. -/
def held (id : JobId) (lease : LeaseId) (k : JobId) (row : JobRow) : Bool :=
  k = id ∧ row.leaseId = some lease ∧ row.status = .leased

/-- `WHERE id AND status IN …`. -/
def inStatus (id : JobId) (statuses : List JobStatus) (k : JobId) (row : JobRow) : Bool :=
  k = id ∧ row.status ∈ statuses

def newRow (config : JobsConfig) (queue payload : String) (runAt : Int) (opts : EnqueueOptions) :
    JobRow :=
  { queue := queue
    payload := payload
    status := .pending
    priority := opts.priority.getD 0
    runAt := runAt
    leaseId := none
    leaseOwner := none
    leaseExpiresAt := none
    heartbeatAt := none
    attempts := 0
    maxAttempts := opts.maxAttempts.getD config.defaultMaxAttempts
    retryClass := opts.retryClass.getD .transient
    cancelRequested := false
    idempotencyKey := opts.idempotencyKey
    lastError := none
    result := none
    completedAt := none }

/-- `status = 'pending' AND queue IN … AND runAt <= now()`. -/
def due (queues : List String) (now : Int) (row : JobRow) : Bool :=
  row.status = .pending ∧ row.queue ∈ queues ∧ row.runAt ≤ now

def JobRow.leasedTo (row : JobRow) (lease : LeaseId) (workerId : String)
    (now leaseDurationMs : Int) : JobRow :=
  { row with
    status := .leased
    leaseId := some lease
    leaseOwner := some workerId
    leaseExpiresAt := some (now + leaseDurationMs)
    heartbeatAt := some now
    attempts := row.attempts + 1 }

def JobRow.extended (row : JobRow) (now leaseDurationMs : Int) : JobRow :=
  { row with leaseExpiresAt := some (now + leaseDurationMs), heartbeatAt := some now }

/-- The lease columns cleared. -/
def JobRow.unleased (row : JobRow) (status : JobStatus) : JobRow :=
  { row with status := status, leaseId := none, leaseOwner := none, leaseExpiresAt := none }

def JobRow.completedWith (row : JobRow) (now : Int) (result : Option String) : JobRow :=
  { row.unleased .completed with result := result, completedAt := some now }

def JobRow.failedWith (row : JobRow) (now : Int) (error : String) : RetryDecision → JobRow
  | .deadLetter => { row.unleased .deadLetter with lastError := some (truncateError error) }
  | .retry delayMs =>
      { row.unleased .pending with
        runAt := now + delayMs, lastError := some (truncateError error) }

def JobRow.released (row : JobRow) : JobRow :=
  { row.unleased .pending with heartbeatAt := none }

def JobRow.requeued (row : JobRow) (now : Int) : JobRow :=
  { row with
    status := .pending, attempts := 0, lastError := none, cancelRequested := false, runAt := now }

/-- A lease whose expiry, if it has one, lies in the past. -/
def expired (now : Int) (row : JobRow) : Bool :=
  row.status = .leased ∧ row.leaseExpiresAt.any (· < now)

/-- `… AND attempts < maxAttempts`. -/
def lapsedBelow (now : Int) (_ : JobId) (row : JobRow) : Bool :=
  expired now row ∧ (row.attempts : Int) < row.maxAttempts

/-- `… AND attempts >= maxAttempts`. -/
def lapsedSpent (now : Int) (_ : JobId) (row : JobRow) : Bool :=
  expired now row ∧ (row.attempts : Int) ≥ row.maxAttempts

def JobRow.cancelled (row : JobRow) : JobRow :=
  { row with status := .cancelled, cancelRequested := true }

def JobRow.flagged (row : JobRow) : JobRow := { row with cancelRequested := true }

def JobRow.reapRequeued (row : JobRow) : JobRow :=
  { row.unleased .pending with lastError := some "lease expired (worker did not heartbeat)" }

def JobRow.reapDeadLettered (row : JobRow) : JobRow :=
  { row.unleased .deadLetter with
    lastError := some "lease expired and max attempts reached (worker did not heartbeat)" }

/-! ### The machine -/

/-- A call between two of its statements. -/
inductive Call where
  | enqueueing (queue payload : String) (runAt : Int) (opts : EnqueueOptions)
  | failing (id : JobId) (lease : LeaseId) (error : String) (current : JobRow)
  | cancelling (id : JobId)
  | reaping
  deriving DecidableEq

structure State where
  clock : Int
  rows : Table JobId JobRow
  /-- The unique index on queue and idempotency key. -/
  index : Map (String × String) JobId
  /-- The lease ids generated so far. -/
  issued : List LeaseId
  calls : Map CallId Call

inductive Event where
  | advance (now : Int)
  | enqueue (c : CallId) (queue payload : String) (opts : EnqueueOptions)
  | insert (c : CallId) (id : JobId)
  | leaseBatch (queues : List String) (limit : Nat) (workerId : String) (leaseDurationMs : Int)
      (claims : List (JobId × LeaseId))
  | heartbeat (id : JobId) (lease : LeaseId) (leaseDurationMs : Int)
  | complete (id : JobId) (lease : LeaseId) (result : Option String)
  | failSelect (c : CallId) (id : JobId) (lease : LeaseId) (error : String)
  | failUpdate (c : CallId) (jitter : Nat)
  | release (id : JobId) (lease : LeaseId)
  | cancelPending (c : CallId) (id : JobId)
  | cancelLeased (c : CallId)
  | requeue (id : JobId)
  | reapRequeue (c : CallId)
  | reapDeadLetter (c : CallId)
  deriving DecidableEq

/-- The rows a `leaseBatch` can pick. Which of the due rows are locked by other
callers is not known, so any set of at most `limit` of them is possible. -/
def claimable (s : State) (queues : List String) (limit : Nat)
    (claims : List (JobId × LeaseId)) : Bool :=
  claims.length ≤ limit ∧ (claims.map Prod.fst).Nodup ∧ (claims.map Prod.snd).Nodup ∧
    claims.all fun claim => claim.2 ∉ s.issued ∧ (s.rows claim.1).any (due queues s.clock)

def leaseRows (s : State) (workerId : String) (leaseDurationMs : Int)
    (claims : List (JobId × LeaseId)) : Table JobId JobRow :=
  fun k => (s.rows k).map fun row =>
    match claims.lookup k with
    | some lease => row.leasedTo lease workerId s.clock leaseDurationMs
    | none => row

def State.setCall (s : State) (c : CallId) (call : Call) : State :=
  { s with calls := s.calls.set c call }

def State.endCall (s : State) (c : CallId) : State := { s with calls := s.calls.remove c }

def insertJob (config : JobsConfig) (s : State) (id : JobId) (queue payload : String) (runAt : Int)
    (opts : EnqueueOptions) : Option State :=
  match s.rows.insert id (newRow config queue payload runAt opts) with
  | none => none
  | some rows =>
      match opts.idempotencyKey with
      | none => some { s with rows := rows }
      | some key =>
          match s.index (queue, key) with
          -- The unique index refuses the row; the caller's INSERT throws.
          | some _ => some s
          | none => some { s with rows := rows, index := s.index.set (queue, key) id }

def step (config : JobsConfig) (s : State) : Event → Option State
  | .advance now => if s.clock ≤ now then some { s with clock := now } else none
  | .enqueue c queue payload opts =>
      if s.calls c ≠ none then none
      else
        -- An empty key is not looked up.
        match (opts.idempotencyKey.filter (· ≠ "")).bind fun key => s.index (queue, key) with
        | some _ => some s
        | none => some (s.setCall c
            (.enqueueing queue payload (s.clock + opts.delayMs.getD 0) opts))
  | .insert c id =>
      match s.calls c with
      | some (.enqueueing queue payload runAt opts) =>
          insertJob config (s.endCall c) id queue payload runAt opts
      | _ => none
  | .leaseBatch queues limit workerId leaseDurationMs claims =>
      if claimable s queues limit claims then
        some { s with
          rows := leaseRows s workerId leaseDurationMs claims
          issued := claims.map Prod.snd ++ s.issued }
      else none
  | .heartbeat id lease leaseDurationMs =>
      some { s with rows := s.rows.update (held id lease) (·.extended s.clock leaseDurationMs) }
  | .complete id lease result =>
      some { s with rows := s.rows.update (held id lease) (·.completedWith s.clock result) }
  | .failSelect c id lease error =>
      if s.calls c ≠ none then none
      else
        match (s.rows id).filter (held id lease id) with
        | none => some s
        | some current => some (s.setCall c (.failing id lease error current))
  | .failUpdate c jitter =>
      match s.calls c with
      | some (.failing id lease error current) =>
          let decision :=
            decideRetry current.retryClass current.attempts current.maxAttempts jitter
          some { s.endCall c with
            rows := s.rows.update (held id lease) (·.failedWith s.clock error decision) }
      | _ => none
  | .release id lease => some { s with rows := s.rows.update (held id lease) JobRow.released }
  | .cancelPending c id =>
      if s.calls c ≠ none then none
      else
        match (s.rows id).filter (inStatus id [.pending] id) with
        | some _ => some { s with
            rows := s.rows.update (inStatus id [.pending]) JobRow.cancelled }
        | none => some (s.setCall c (.cancelling id))
  | .cancelLeased c =>
      match s.calls c with
      | some (.cancelling id) => some { s.endCall c with
          rows := s.rows.update (inStatus id [.leased]) JobRow.flagged }
      | _ => none
  | .requeue id => some { s with
      rows := s.rows.update (inStatus id [.deadLetter, .cancelled]) (·.requeued s.clock) }
  | .reapRequeue c =>
      if s.calls c ≠ none then none
      else some { s.setCall c .reaping with
        rows := s.rows.update (lapsedBelow s.clock) JobRow.reapRequeued }
  | .reapDeadLetter c =>
      match s.calls c with
      | some .reaping => some { s.endCall c with
          rows := s.rows.update (lapsedSpent s.clock) JobRow.reapDeadLettered }
      | _ => none

def machine (config : JobsConfig) (start : Int) : Machine State Event where
  init := ⟨start, Map.empty, Map.empty, [], Map.empty⟩
  step := step config

end Talos.Jobs
