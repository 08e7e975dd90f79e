import Talos.Database.Machine
import Talos.Database.Table
import Talos.Soroban.Contract

/-!
# Provisioning runs

A provisioning run is a row of `tls_provisioning_jobs` with a list of steps. A worker
acquires its lease and calls `runProvisioningJob`, which loads the row, executes the
steps that are not completed and writes its copy of the whole list back after each
change. The machine interleaves the statements of any number of submissions, lease
acquisitions and calls; which effects succeed is given by the events. A call that
crashes, or is left by an error that nothing catches, ends by `stop`.

Job ids stand for the generated ones; times are in milliseconds. What the effects are
handed and the text of the lifecycle events decide nothing here; whether an event can be
appended does, where the failure is caught.
-/

namespace Talos.Provisioning

open Database Soroban

abbrev JobId := Nat
abbrev CallId := Nat

inductive StepStatus where
  | pending
  | running
  | completed
  | failed
  | compensated
  deriving DecidableEq

structure StepRecord where
  name : String
  status : StepStatus
  attempts : Nat
  idempotencyKey : String
  startedAt : Option Int
  completedAt : Option Int
  output : Option String
  error : Option String
  deriving DecidableEq

inductive ProvisioningJobStatus where
  | pending
  | running
  | completed
  | compensating
  | compensated
  | failed
  deriving DecidableEq

def terminalStatuses : List ProvisioningJobStatus := [.completed, .failed, .compensated]

inductive LifecycleAction where
  | create
  | activate
  | pause
  | retire
  | recover
  deriving DecidableEq

/-- The names of the steps; their effects are outside of the model. -/
structure WorkflowDefinition where
  action : LifecycleAction
  steps : List String
  deriving DecidableEq

/-- A row of `tls_provisioning_jobs`. -/
structure JobRow where
  id : JobId
  talosId : String
  action : LifecycleAction
  status : ProvisioningJobStatus
  steps : List StepRecord
  cursor : Nat
  lastError : Option String
  leasedBy : Option String
  leaseExpiresAt : Option Int
  fencingToken : Nat
  idempotencyKey : String
  completedAt : Option Int
  deriving DecidableEq

/-- `envInt` only lets positive numbers through. -/
structure ProvisioningConfig where
  leaseTtlMs : Int
  maxStepAttempts : Nat
  ttl_pos : 0 < leaseTtlMs
  attempts_pos : 0 < maxStepAttempts

/-! ### Steps -/

def initialSteps (jobId : JobId) (workflow : WorkflowDefinition) : List StepRecord :=
  workflow.steps.map fun name =>
    { name := name
      status := .pending
      attempts := 0
      idempotencyKey := toString jobId ++ ":" ++ name
      startedAt := none
      completedAt := none
      output := none
      error := none }

/-- The steps of a row, filled in for a run whose step list is not written yet. -/
def backfill (jobId : JobId) (workflow : WorkflowDefinition) (steps : List StepRecord) :
    List StepRecord :=
  if steps.length > 0 then steps else initialSteps jobId workflow

/-- At most 300 characters of a message. -/
def safeError (message : String) : String := String.ofList (message.toList.take 300)

def StepRecord.started (record : StepRecord) (now : Int) : StepRecord :=
  { record with
    status := .running
    attempts := record.attempts + 1
    startedAt := record.startedAt.or (some now) }

def StepRecord.done (record : StepRecord) (output : String) (now : Int) : StepRecord :=
  { record with
    status := .completed, completedAt := some now, output := some output, error := none }

def StepRecord.exhausted (config : ProvisioningConfig) (record : StepRecord) : Bool :=
  record.attempts ≥ config.maxStepAttempts

def StepRecord.failedWith (config : ProvisioningConfig) (message : String) (record : StepRecord) :
    StepRecord :=
  { record with
    error := some (safeError message)
    status := if record.exhausted config then .failed else .pending }

/-- The outcome of a compensation: undone, or an error that is recorded. -/
def StepRecord.unwound (record : StepRecord) : Option String → StepRecord
  | none => { record with status := .compensated }
  | some message =>
      { record with error := some ("compensation failed: " ++ safeError message) }

/-! ### Calls of `runProvisioningJob` -/

/-- Where a call is. Steps are numbered; in the phases of compensation the first number
is that of the step that failed. -/
inductive Phase where
  | renewing (i : Nat)
  | starting (i : Nat)
  | executing (i : Nat)
  | recording (i : Nat)
  | announcing (i : Nat)
  | failing (i : Nat) (exhausted : Bool)
  | compensating (i j : Nat)
  | unwinding (i j : Nat)
  | settling (i : Nat)
  | finishing
  | ended
  deriving DecidableEq

/-- What a call last read from its row or wrote to it. The code keeps no such copy. -/
structure View where
  steps : List StepRecord
  status : ProvisioningJobStatus
  deriving DecidableEq

structure Invocation where
  jobId : JobId
  workflow : WorkflowDefinition
  workerId : String
  fencingToken : Nat
  /-- The copy in memory. -/
  steps : List StepRecord
  phase : Phase
  seen : View
  deriving DecidableEq

/-- The loop over the steps, from step `i`: completed steps are replayed. -/
def nextStep (workflow : WorkflowDefinition) (steps : List StepRecord) (i : Nat) : Phase :=
  match (List.range workflow.steps.length).find? fun j =>
      i ≤ j ∧ (steps[j]?).all (·.status ≠ .completed) with
  | none => .finishing
  -- A step that the list does not have throws.
  | some j => if j < steps.length then .renewing j else .ended

/-- The loop of `compensate`, downwards from below step `j`. -/
def nextUnwind (steps : List StepRecord) (i j : Nat) : Phase :=
  match (List.range j).reverse.find? fun n =>
      (steps[n]?).any fun record => record.status = .completed ∨ record.status = .failed with
  | none => .settling i
  | some n => .compensating i n

/-- The status that `persist` writes, in the phases that end with it. -/
def Phase.writes : Phase → Option ProvisioningJobStatus
  | .starting _ => some .running
  | .recording _ => some .running
  | .failing _ exhausted => some (if exhausted then .compensating else .pending)
  | .unwinding _ _ => some .compensating
  | .settling _ => some .failed
  | .finishing => some .completed
  | _ => none

def Invocation.errorOf (inv : Invocation) (i : Nat) : Option String :=
  (inv.steps[i]?).bind StepRecord.error

/-- The patch of `persist`. -/
def Invocation.patch (inv : Invocation) (status : ProvisioningJobStatus) (now : Int)
    (row : JobRow) : JobRow :=
  let row := { row with steps := inv.steps, status := status }
  match inv.phase with
  | .starting i => { row with cursor := i }
  | .recording i => { row with cursor := i + 1 }
  | .failing i _ => { row with cursor := i, lastError := inv.errorOf i }
  | .settling i =>
      { row with cursor := i, lastError := inv.errorOf i, completedAt := some now }
  | .finishing =>
      { row with
        cursor := inv.workflow.steps.length
        completedAt := some now
        leasedBy := none
        leaseExpiresAt := none }
  | _ => row

/-- Where a call goes on after `persist`. -/
def Invocation.nextPhase (inv : Invocation) : Phase :=
  match inv.phase with
  | .starting i => .executing i
  | .recording i => .announcing i
  | .failing i true => nextUnwind inv.steps i (i + 1)
  | .unwinding i j => nextUnwind inv.steps i j
  | _ => .ended

def Invocation.saved (inv : Invocation) (status : ProvisioningJobStatus) : Invocation :=
  { inv with phase := inv.nextPhase, seen := ⟨inv.steps, status⟩ }

/-- The `catch` around the execution of step `i`. -/
def Invocation.caught (config : ProvisioningConfig) (inv : Invocation) (i : Nat)
    (message : String) : Invocation :=
  { inv with
    steps := inv.steps.modify i (·.failedWith config message)
    phase := .failing i ((inv.steps[i]?).any (·.exhausted config)) }

/-! ### Leases -/

/-- The condition of `acquireLease` and of `findResumableJobs`. An expiry that is absent
is not before any time. -/
def claimable (now : Int) (row : JobRow) : Bool :=
  row.status = .pending ∨ row.status = .running ∧ row.leaseExpiresAt.any (· < now)

def JobRow.claimed (row : JobRow) (config : ProvisioningConfig) (workerId : String) (now : Int) :
    JobRow :=
  { row with
    status := .running
    leasedBy := some workerId
    leaseExpiresAt := some (now + config.leaseTtlMs)
    fencingToken := row.fencingToken + 1 }

/-- The condition of `renewLease`. -/
def Invocation.holds (inv : Invocation) (row : JobRow) : Bool :=
  row.id = inv.jobId ∧ row.leasedBy = some inv.workerId ∧ row.fencingToken = inv.fencingToken

def JobRow.renewed (row : JobRow) (config : ProvisioningConfig) (now : Int) : JobRow :=
  { row with leaseExpiresAt := some (now + config.leaseTtlMs) }

theorem JobRow.claimed_id (row : JobRow) (config : ProvisioningConfig) (workerId : String)
    (now : Int) : (row.claimed config workerId now).id = row.id := rfl

theorem JobRow.renewed_id (row : JobRow) (config : ProvisioningConfig) (now : Int) :
    (row.renewed config now).id = row.id := rfl

theorem Invocation.patch_row (inv : Invocation) (status : ProvisioningJobStatus) (now : Int)
    (row : JobRow) : (inv.patch status now row).id = row.id ∧
      (inv.patch status now row).steps = inv.steps ∧
      (inv.patch status now row).status = status := by
  unfold patch
  split <;> exact ⟨rfl, rfl, rfl⟩

/-! ### The machine -/

structure SubmitOptions where
  talosId : String
  action : LifecycleAction
  idempotencyKey : String
  workflow : WorkflowDefinition
  deriving DecidableEq

/-- A submission between its statements. -/
inductive Submission where
  | inserting (opts : SubmitOptions)
  | inserted (id : JobId) (workflow : WorkflowDefinition)
  deriving DecidableEq

structure State where
  clock : Int
  rows : Rows JobRow JobId JobRow.id
  submissions : Map CallId Submission
  /-- The calls of `runProvisioningJob`, numbered in the order in which they start. -/
  calls : List Invocation

inductive Event where
  | advance (now : Int)
  | submitSelect (c : CallId) (opts : SubmitOptions)
  | submitInsert (c : CallId) (id : JobId)
  | submitSteps (c : CallId)
  | acquireLease (k : JobId) (workerId : String) (now : Int)
  | runProvisioningJob (k : JobId) (workflow : WorkflowDefinition) (workerId : String)
      (fencingToken : Nat)
  | renewLease (c : CallId) (now : Int)
  | persist (c : CallId)
  | persistFails (c : CallId) (message : String)
  | execute (c : CallId) (outcome : Except String String)
  | announce (c : CallId) (error : Option String)
  | compensate (c : CallId) (error : Option String)
  | stop (c : CallId)

def newJob (id : JobId) (opts : SubmitOptions) : JobRow :=
  { id := id
    talosId := opts.talosId
    action := opts.action
    status := .pending
    steps := []
    cursor := 0
    lastError := none
    leasedBy := none
    leaseExpiresAt := none
    fencingToken := 0
    idempotencyKey := opts.idempotencyKey
    completedAt := none }

def JobRow.withSteps (row : JobRow) (steps : List StepRecord) : JobRow :=
  { row with steps := steps }

theorem JobRow.withSteps_id (row : JobRow) (steps : List StepRecord) :
    (row.withSteps steps).id = row.id := rfl

/-- `WHERE talosId AND idempotencyKey`. -/
def submittedAs (opts : SubmitOptions) (row : JobRow) : Bool :=
  row.talosId = opts.talosId ∧ row.idempotencyKey = opts.idempotencyKey

def State.setCall (s : State) (c : CallId) (inv : Invocation) : State :=
  { s with calls := s.calls.set c inv }

/-- The row a submission inserts, unless the unique index refuses it. -/
def insertJob (s : State) (c : CallId) (id : JobId) (opts : SubmitOptions) : State :=
  if s.rows.list.any (submittedAs opts) then { s with submissions := s.submissions.remove c }
  else
    match s.rows.insert (newJob id opts) with
    | none => { s with submissions := s.submissions.remove c }
    | some rows =>
        { s with
          rows := rows
          submissions := s.submissions.set c (.inserted id opts.workflow) }

def loadJob (s : State) (k : JobId) (workflow : WorkflowDefinition) (workerId : String)
    (fencingToken : Nat) : State :=
  match s.rows.find k with
  | none => s
  | some row =>
      if row.status ∈ terminalStatuses then s
      else
        let steps := backfill k workflow row.steps
        { s with calls := s.calls ++
            [{ jobId := k
               workflow := workflow
               workerId := workerId
               fencingToken := fencingToken
               steps := steps
               phase := nextStep workflow steps 0
               seen := ⟨steps, row.status⟩ }] }

def renew (config : ProvisioningConfig) (s : State) (c : CallId) (inv : Invocation) (i : Nat)
    (now : Int) : State :=
  if (s.rows.find inv.jobId).any inv.holds then
    let started := inv.steps.modify i (·.started s.clock)
    { s.setCall c { inv with steps := started, phase := .starting i } with
      rows := s.rows.update inv.holds (·.renewed config now) fun row => row.renewed_id .. }
  else s.setCall c { inv with phase := .ended }

def save (s : State) (c : CallId) (inv : Invocation) (status : ProvisioningJobStatus) : State :=
  { s.setCall c (inv.saved status) with
    rows := s.rows.update (·.id = inv.jobId) (inv.patch status s.clock)
      fun _ => (inv.patch_row ..).1 }

def step (config : ProvisioningConfig) (s : State) : Event → Option State
  | .advance now => if s.clock ≤ now then some { s with clock := now } else none
  | .submitSelect c opts =>
      if s.submissions c ≠ none then none
      else if s.rows.list.any (submittedAs opts) then some s
      else some { s with submissions := s.submissions.set c (.inserting opts) }
  | .submitInsert c id =>
      match s.submissions c with
      | some (.inserting opts) => some (insertJob s c id opts)
      | _ => none
  | .submitSteps c =>
      match s.submissions c with
      | some (.inserted id workflow) =>
          some { s with
            rows := s.rows.update (·.id = id) (·.withSteps (initialSteps id workflow))
              fun row => row.withSteps_id _
            submissions := s.submissions.remove c }
      | _ => none
  | .acquireLease k workerId now =>
      if now ≤ s.clock then
        some { s with
          rows := s.rows.update (fun row => row.id = k ∧ claimable now row)
            (·.claimed config workerId now) fun row => row.claimed_id .. }
      else none
  | .runProvisioningJob k workflow workerId fencingToken =>
      some (loadJob s k workflow workerId fencingToken)
  | .renewLease c now =>
      match s.calls[c]? with
      | some inv =>
          match inv.phase with
          | .renewing i => if now ≤ s.clock then some (renew config s c inv i now) else none
          | _ => none
      | none => none
  | .persist c =>
      match s.calls[c]? with
      | some inv =>
          match inv.phase.writes with
          | some status => some (save s c inv status)
          | none => none
      | none => none
  | .persistFails c message =>
      match s.calls[c]? with
      | some inv =>
          match inv.phase with
          | .recording i => some (s.setCall c (inv.caught config i message))
          | _ => none
      | none => none
  | .execute c outcome =>
      match s.calls[c]? with
      | some inv =>
          match inv.phase, outcome with
          | .executing i, .ok output => some (s.setCall c
              { inv with
                steps := inv.steps.modify i (·.done output s.clock)
                phase := .recording i })
          | .executing i, .error message => some (s.setCall c (inv.caught config i message))
          | _, _ => none
      | none => none
  | .announce c error =>
      match s.calls[c]? with
      | some inv =>
          match inv.phase, error with
          | .announcing i, none =>
              some (s.setCall c { inv with phase := nextStep inv.workflow inv.steps (i + 1) })
          | .announcing i, some message => some (s.setCall c (inv.caught config i message))
          | _, _ => none
      | none => none
  | .compensate c error =>
      match s.calls[c]? with
      | some inv =>
          match inv.phase with
          | .compensating i j => some (s.setCall c
              { inv with steps := inv.steps.modify j (·.unwound error), phase := .unwinding i j })
          | _ => none
      | none => none
  | .stop c =>
      match s.calls[c]? with
      | some inv => some (s.setCall c { inv with phase := .ended })
      | none => none

def machine (config : ProvisioningConfig) (start : Int) : Machine State Event where
  init := ⟨start, .empty, Map.empty, []⟩
  step := step config

end Talos.Provisioning
