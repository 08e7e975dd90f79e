import Talos.Database.Machine
import Talos.Database.Table
import Talos.Reconciler.Repair

/-!
# The reconciler's scheduler

Any number of reconciler instances over one store. A tick reads a batch of active
records, queues copies of them in its instance, and starts processing as many as the
concurrency limit admits; processing one copy polls the ledger, writes the outcome
back by id, repairs the originating row and marks the repair. The statements of all
ticks and copies interleave. The answers of the ledger are those of the events.

An instance that crashes loses everything it holds in memory. Copies whose processing
ends early, by a database error or an abort, leave by `finish`. The interval timer is
not modelled: a tick can start at any time.
-/

namespace Talos.Reconciler

open Database Soroban

abbrev InstanceId := Nat
abbrev TickId := Nat
abbrev TaskId := Nat
abbrev CallId := Nat

/-- The arguments of `registerTx`. -/
structure Registration where
  txHash : String
  sourceType : TxSourceType
  sourceId : Option String
  ledgerSubmitted : Option Int
  expiresAt : Option Int
  deriving DecidableEq

/-- A tick between its statements. -/
inductive Tick where
  | selecting (i : InstanceId) (currentLedger : Int)
  | queueing (i : InstanceId) (currentLedger : Int) (records : List TxRecord)
  deriving DecidableEq

/-- How far the processing of a copy has come. -/
inductive Stage where
  | polling
  | writing (update : TxRecordUpdate)
  | repairing (updatedRecord : TxRecord)
  | marking
  | leaving
  | finished
  deriving DecidableEq

/-- A copy of a record, in the hands of `processRecord`. -/
structure Task where
  owner : InstanceId
  record : TxRecord
  currentLedger : Int
  stage : Stage
  deriving DecidableEq

/-- The queue state of one process. -/
structure Instance where
  queue : List TxRecord
  activeIds : List RecordId
  queuedIds : List RecordId
  deriving DecidableEq

structure State where
  clock : Int
  records : Rows TxRecord RecordId TxRecord.id
  downstream : Downstream
  calls : Map CallId Registration
  ticks : Map TickId Tick
  instances : InstanceId → Instance
  /-- Numbered in the order in which they are started. -/
  tasks : List Task

inductive Event where
  | advance (now : Int)
  /-- The other parts of the application write these tables too. -/
  | setJob (id status : String)
  | setPurchase (txHash status : String)
  | registerTx (c : CallId) (opts : Registration)
  | registerInsert (c : CallId) (id : RecordId)
  | runOneTick (t : TickId) (i : InstanceId) (currentLedger : Option Int)
  | select (t : TickId) (order : List TxRecord)
  | queue (t : TickId)
  | poll (j : TaskId) (pollResult : HorizonPollResult)
  | write (j : TaskId)
  | repair (j : TaskId) (error : Option String)
  | mark (j : TaskId)
  | finish (j : TaskId)
  | crash (i : InstanceId)
  deriving DecidableEq

/-! ### Records -/

/-- The default of `expiresAt`. -/
def oneHour : Int := 60 * 60 * 1000

def newRecord (id : RecordId) (opts : Registration) (now : Int) : TxRecord :=
  { id := id
    txHash := opts.txHash
    sourceType := opts.sourceType
    sourceId := opts.sourceId
    finalityStatus := .pending
    ledgerSubmitted := opts.ledgerSubmitted
    lastLedgerChecked := none
    confirmedLedger := none
    pollCount := 0
    lastError := none
    repairApplied := false
    expiresAt := opts.expiresAt
    updatedAt := now }

/-- The UPDATE of a row: what the update leaves out is taken from the copy, not from
the row. -/
def TxRecord.written (row record : TxRecord) (update : TxRecordUpdate) (now : Int) : TxRecord :=
  { row with
    finalityStatus := update.finalityStatus.getD record.finalityStatus
    lastLedgerChecked := update.lastLedgerChecked.or record.lastLedgerChecked
    confirmedLedger := update.confirmedLedger.or record.confirmedLedger
    pollCount := update.pollCount.getD record.pollCount
    lastError := update.lastError.getD record.lastError
    updatedAt := update.updatedAt.getD now }

def TxRecord.marked (row : TxRecord) (now : Int) : TxRecord :=
  { row with repairApplied := true, updatedAt := now }

theorem TxRecord.written_id (row record : TxRecord) (update : TxRecordUpdate) (now : Int) :
    (row.written record update now).id = row.id := rfl

theorem TxRecord.marked_id (row : TxRecord) (now : Int) : (row.marked now).id = row.id := rfl

/-- The record the repair is decided on: the copy, with what was just written. -/
def TxRecord.updated (record : TxRecord) (update : TxRecordUpdate) : TxRecord :=
  { record with
    finalityStatus := update.finalityStatus.getD record.finalityStatus
    confirmedLedger := update.confirmedLedger.or record.confirmedLedger }

/-! ### The queue -/

def Instance.empty : Instance := ⟨[], [], []⟩

/-- The records of a batch that are neither active nor queued are queued. -/
def Instance.push (inst : Instance) (records : List TxRecord) : Instance :=
  let newRecords := records.filter fun r => r.id ∉ inst.activeIds ∧ r.id ∉ inst.queuedIds
  { inst with
    queue := inst.queue ++ newRecords
    queuedIds := newRecords.map TxRecord.id ∪ inst.queuedIds }

/-- The loop of `drainQueue` over the queue, and the records it starts. -/
def drainQueue (limit : Nat) (activeIds queuedIds : List RecordId) :
    List TxRecord → Instance × List TxRecord
  | [] => (⟨[], activeIds, queuedIds⟩, [])
  | record :: queue =>
      if activeIds.length < limit then
        let drained :=
          drainQueue limit (activeIds.insert record.id) (queuedIds.erase record.id) queue
        (drained.1, record :: drained.2)
      else (⟨record :: queue, activeIds, queuedIds⟩, [])

def State.setInstance (s : State) (i : InstanceId) (inst : Instance) : State :=
  { s with instances := fun k => if k = i then inst else s.instances k }

def State.drain (s : State) (limit : Nat) (i : InstanceId) (currentLedger : Int) : State :=
  let inst := s.instances i
  let drained := drainQueue limit inst.activeIds inst.queuedIds inst.queue
  { s.setInstance i drained.1 with
    tasks := s.tasks ++ drained.2.map fun record => ⟨i, record, currentLedger, .polling⟩ }

def ReconcilerConfig.limit (config : ReconcilerConfig) : Nat := config.concurrencyLimit.getD 5

/-! ### The machine -/

def State.setTask (s : State) (j : TaskId) (task : Task) (stage : Stage) : State :=
  { s with tasks := s.tasks.set j { task with stage := stage } }

/-- What `processRecord` goes on with after the transition is computed. -/
def afterTransition (record : TxRecord) : Option TxRecordUpdate → Stage
  | none => .leaving
  | some update =>
      match update.finalityStatus.bind (validateTransition record.finalityStatus) with
      | some _ => .leaving
      | none => .writing update

def registerRow (s : State) (id : RecordId) (opts : Registration) : State :=
  -- The unique index on the hash refuses the row; the caller's INSERT throws.
  if s.records.list.any (·.txHash = opts.txHash) then s
  else
    match s.records.insert (newRecord id opts s.clock) with
    | none => s
    | some records => { s with records := records }

def endTask (configs : InstanceId → ReconcilerConfig) (s : State) (j : TaskId) (task : Task) :
    State :=
  let inst := s.instances task.owner
  let freed := { inst with activeIds := inst.activeIds.erase task.record.id }
  ((s.setTask j task .finished).setInstance task.owner freed).drain
    (configs task.owner).limit task.owner task.currentLedger

def Task.crashed (i : InstanceId) (task : Task) : Task :=
  if task.owner = i then { task with stage := .finished } else task

def Tick.owner : Tick → InstanceId
  | .selecting i _ => i
  | .queueing i _ _ => i

def step (configs : InstanceId → ReconcilerConfig) (s : State) : Event → Option State
  | .advance now => if s.clock ≤ now then some { s with clock := now } else none
  | .setJob id status =>
      some { s with downstream := { s.downstream with jobs := s.downstream.jobs.set id status } }
  | .setPurchase txHash status =>
      some { s with
        downstream := { s.downstream with purchases := s.downstream.purchases.set txHash status } }
  | .registerTx c opts =>
      if s.calls c ≠ none then none
      else if s.records.list.any (·.txHash = opts.txHash) then some s
      else
        let expiresAt := opts.expiresAt.getD (s.clock + oneHour)
        some { s with calls := s.calls.set c { opts with expiresAt := some expiresAt } }
  | .registerInsert c id =>
      match s.calls c with
      | some opts => some (registerRow { s with calls := s.calls.remove c } id opts)
      | none => none
  | .runOneTick t i currentLedger =>
      if s.ticks t ≠ none then none
      else
        match currentLedger with
        | none => some s
        | some ledger => some { s with ticks := s.ticks.set t (.selecting i ledger) }
  | .select t order =>
      match s.ticks t with
      | some (.selecting i ledger) =>
          -- Rows with one `updatedAt` come in any order.
          if order.Perm (s.records.select isActive) ∧
              order.Pairwise (fun r r' => r.updatedAt ≤ r'.updatedAt) then
            some { s with
              ticks := s.ticks.set t (.queueing i ledger (order.take (configs i).batchSize)) }
          else none
      | _ => none
  | .queue t =>
      match s.ticks t with
      | some (.queueing i ledger records) =>
          let s := { s with ticks := s.ticks.remove t }
          if records = [] then some s
          else
            some ((s.setInstance i ((s.instances i).push records)).drain
              (configs i).limit i ledger)
      | _ => none
  | .poll j pollResult =>
      match s.tasks[j]? with
      | some task =>
          if task.stage = .polling then
            -- Only a pending record is polled.
            let result := if task.record.finalityStatus = .pending then some pollResult else none
            let update := computeTransition task.record result task.currentLedger
              (configs task.owner) s.clock
            some (s.setTask j task (afterTransition task.record update))
          else none
      | none => none
  | .write j =>
      match s.tasks[j]? with
      | some task =>
          match task.stage with
          | .writing update =>
              let updatedRecord := task.record.updated update
              some
                { s.setTask j task
                    (if needsRepair updatedRecord then .repairing updatedRecord else .leaving) with
                  records := s.records.update (·.id = task.record.id)
                    (·.written task.record update s.clock) fun row => row.written_id .. }
          | _ => none
      | none => none
  | .repair j error =>
      match s.tasks[j]? with
      | some task =>
          match task.stage with
          | .repairing updatedRecord =>
              let result := applyRepair s.downstream updatedRecord error
              some
                { s.setTask j task
                    (match result.2 with
                    | .ok _ _ => .marking
                    | .failed _ => .leaving) with
                  downstream := result.1 }
          | _ => none
      | none => none
  | .mark j =>
      match s.tasks[j]? with
      | some task =>
          if task.stage = .marking then
            some { s.setTask j task .leaving with
              records := s.records.update (·.id = task.record.id) (·.marked s.clock)
                fun row => row.marked_id _ }
          else none
      | none => none
  | .finish j =>
      match s.tasks[j]? with
      | some task => if task.stage = .finished then none else some (endTask configs s j task)
      | none => none
  | .crash i =>
      some
        { s.setInstance i Instance.empty with
          ticks := fun t => (s.ticks t).filter fun tick => tick.owner ≠ i
          tasks := s.tasks.map (Task.crashed i) }

def machine (configs : InstanceId → ReconcilerConfig) (start : Int) (downstream : Downstream) :
    Machine State Event where
  init := ⟨start, .empty, downstream, Map.empty, Map.empty, fun _ => .empty, []⟩
  step := step configs

end Talos.Reconciler
