import Talos.Database.Machine
import Talos.Database.Table
import Mathlib.Data.Int.Notation
import Mathlib.Data.Nat.Notation
import Mathlib.Logic.Function.Basic

/-!
# Leases on commerce jobs

`POST /api/jobs/:id/{claim,heartbeat,extend-lease,release,result,progress}` and
`GET /api/jobs/pending` (`web/src/app/api/jobs/`), for one asynchronous job. Requests of any agents
interleave between their statements; a statement or a transaction is one step, and gives the
answer. A request whose body or key is refused does not arrive. Times are in milliseconds.
-/

namespace Talos.JobLeases

open Database

/-! ### Rows -/

inductive JobStatus where
  | pending
  | completed
  deriving DecidableEq, Repr

/-- What `sanitizeProgressInput` gives. -/
structure Report where
  percent : Option ℕ
  stage : Option String
  message : Option String
  deriving DecidableEq, Repr

structure Progress where
  report : Report
  updatedAt : ℕ
  reportedBy : String
  deriving DecidableEq, Repr

/-- `talosId` is the provider. -/
structure Job where
  talosId : String
  amount : String
  txHash : Option String
  status : JobStatus
  result : Option String
  leasedBy : Option String
  leasedAt : Option ℕ
  leaseExpiresAt : Option ℕ
  fencingToken : ℕ
  progress : Option Progress
  deriving DecidableEq, Repr

structure Revenue where
  talosId : String
  amount : String
  currency : String
  source : String
  txHash : Option String
  deriving DecidableEq, Repr

/-! ### Requests -/

/-- `ttlSeconds` and `extendSeconds`, as the schemas accept them. -/
structure Seconds where
  value : ℕ
  positive : 0 < value
  le_hour : value ≤ 3600
  deriving DecidableEq, Repr

def defaultLeaseTtlSeconds : Seconds := ⟨300, by decide, by decide⟩

def heartbeatExtendSeconds : ℕ := 300

def maxLeaseSeconds : ℕ := 86400

def ms (seconds : ℕ) : ℕ := seconds * 1000

inductive Request where
  | claim (ttlSeconds : Option Seconds)
  | heartbeat (fencingToken : ℕ)
  | extendLease (fencingToken : ℕ) (extendSeconds : Seconds)
  | release (fencingToken : ℕ)
  | result (result : String) (fencingToken : Option ℤ)
  | progress (report : Report) (fencingToken : Option ℕ)
  deriving DecidableEq, Repr

/-- Status and error text of a response. -/
structure Refusal where
  status : ℕ
  error : String
  deriving DecidableEq, Repr

/-- `status` is the caller's row, if it is found. -/
def checkCaller (status : Option String) : Except Refusal Unit :=
  if status = some "Active" then .ok ()
  else .error ⟨409, "This agent is not accepting new work"⟩

def checkClaimer (status : Option String) : Except Refusal Unit :=
  if status.isNone then .error ⟨404, "TALOS not found"⟩ else checkCaller status

/-- Someone else holds a lease that has not run out. -/
def Job.leasedElsewhere (job : Job) (caller : String) (now : ℕ) : Bool :=
  job.leasedBy.any (· ≠ caller) && job.leaseExpiresAt.any (now < ·)

/-- What extend-lease checks of the row it reads; the expiry it extends. -/
def checkExtension (job : Job) (caller : String) (fencingToken : ℕ) (extendSeconds : Seconds)
    (now : ℕ) : Except Refusal ℕ :=
  if job.status ≠ .pending then .error ⟨409, "Job is not pending"⟩
  else match job.leaseExpiresAt with
    | none => .error ⟨409, "Job has no active lease"⟩
    | some leaseExpiresAt =>
        if leaseExpiresAt ≤ now then .error ⟨409, "Lease expired"⟩
        else if job.leasedBy ≠ some caller ∨ job.fencingToken ≠ fencingToken then
          .error ⟨409, "Lease not held or fencing token mismatch"⟩
        else if now + ms maxLeaseSeconds < leaseExpiresAt + ms extendSeconds.value then
          .error ⟨422, "Lease extension exceeds maximum"⟩
        else .ok leaseExpiresAt

/-- What result checks of the row it has read, after the caller's agent. -/
def checkResult (job : Job) (caller : String) (status : Option String) (now : ℕ) :
    Except Refusal Unit :=
  match checkCaller status with
  | .error refusal => .error refusal
  | .ok () =>
      if job.status = .completed then .error ⟨409, "Job already completed"⟩
      else if job.leasedElsewhere caller now then .error ⟨409, "Job is leased by another worker"⟩
      else .ok ()

def checkProgress (job : Job) (caller : String) (fencingToken : Option ℕ) (now : ℕ) :
    Except Refusal Unit :=
  if job.talosId ≠ caller then .error ⟨403, "Not authorized to report progress for this job"⟩
  else if job.status = .completed then .error ⟨409, "Job already completed"⟩
  else if job.leasedElsewhere caller now then .error ⟨409, "Job is leased by another worker"⟩
  else if fencingToken.any (· ≠ job.fencingToken) then .error ⟨409, "Fencing token mismatch"⟩
  else .ok ()

/-! ### Statements -/

/-- The UPDATE of each route. -/
inductive Statement where
  | claim (caller : String) (now : ℕ) (ttlSeconds : Seconds)
  | heartbeat (caller : String) (fencingToken now : ℕ)
  | extendLease (caller : String) (fencingToken now leaseExpiresAt : ℕ) (extendSeconds : Seconds)
  | release (caller : String) (fencingToken : ℕ)
  | result (caller : String) (fencingToken : ℤ) (result : String)
  | progress (caller : String) (fencingToken : Option ℕ) (progress : Progress)
  deriving DecidableEq, Repr

variable (nulls : NullEquality)

def Job.isPending (job : Job) : Truth := sqlEq nulls (some job.status) (some .pending)

def Job.isLeasedBy (job : Job) (caller : String) : Truth :=
  sqlEq nulls job.leasedBy (some caller)

def Job.hasToken (job : Job) (fencingToken : ℤ) : Truth :=
  sqlEq nulls (some (job.fencingToken : ℤ)) (some fencingToken)

/-- `leasedBy = caller OR leasedBy = NULL OR leaseExpiresAt < now` -/
def Job.isClaimable (job : Job) (caller : String) (now : ℕ) : Truth :=
  (job.isLeasedBy nulls caller).or
    ((sqlEq nulls job.leasedBy none).or (sqlLt job.leaseExpiresAt (some now)))

/-- The WHERE clause, besides the job's id. -/
def Statement.condition (job : Job) : Statement → Truth
  | .claim caller now _ => (job.isPending nulls).and (job.isClaimable nulls caller now)
  | .heartbeat caller fencingToken _ =>
      (job.isLeasedBy nulls caller).and ((job.hasToken nulls fencingToken).and (job.isPending nulls))
  | .extendLease caller fencingToken now _ _ =>
      (job.isLeasedBy nulls caller).and ((job.hasToken nulls fencingToken).and
        ((job.isPending nulls).and (sqlLt (some now) job.leaseExpiresAt)))
  | .release caller fencingToken =>
      (job.isLeasedBy nulls caller).and (job.hasToken nulls fencingToken)
  | .result _ fencingToken _ => (job.hasToken nulls fencingToken).and (job.isPending nulls)
  | .progress caller none _ =>
      (sqlEq nulls (some job.talosId) (some caller)).and (job.isPending nulls)
  | .progress caller (some fencingToken) _ =>
      (sqlEq nulls (some job.talosId) (some caller)).and
        ((job.isPending nulls).and (job.hasToken nulls fencingToken))

/-- The SET clause. -/
def Statement.set (job : Job) : Statement → Job
  | .claim caller now ttlSeconds =>
      { job with
        leasedBy := some caller
        leasedAt := some now
        leaseExpiresAt := some (now + ms ttlSeconds.value)
        fencingToken := job.fencingToken + 1 }
  | .heartbeat _ _ now => { job with leaseExpiresAt := some (now + ms heartbeatExtendSeconds) }
  | .extendLease _ _ _ leaseExpiresAt extendSeconds =>
      { job with leaseExpiresAt := some (leaseExpiresAt + ms extendSeconds.value) }
  | .release _ _ => { job with leasedBy := none, leasedAt := none, leaseExpiresAt := none }
  | .result _ _ value => { job with result := some value, status := .completed }
  | .progress _ _ value => { job with progress := some value }

/-- `GET /api/jobs/pending`, of the jobs in the order of their creation. -/
def pendingJobs (caller : String) (status : Option String) (now limit : ℕ) (jobs : List Job) :
    List Job :=
  (jobs.filter fun job =>
    (sqlEq nulls (some job.talosId) (some caller)).and ((job.isPending nulls).and
      ((sqlEq nulls status (some "Active")).and ((sqlEq nulls job.leasedBy none).or
        ((job.isLeasedBy nulls caller).or (sqlLt job.leaseExpiresAt (some now)))))) = some true).take
    limit

/-! ### Runs -/

inductive Call where
  /-- The caller of extend-lease was found active at `now`. -/
  | extending (caller : String) (fencingToken : ℕ) (extendSeconds : Seconds) (now : ℕ)
  | reporting (caller : String) (report : Report) (fencingToken : Option ℕ)
  | submitting (caller : String) (result : String) (fencingToken : Option ℤ)
  /-- The row was read; the caller's agent comes next. -/
  | authorized (caller : String) (result : String) (fencingToken : Option ℤ) (job : Job)
  | sending (statement : Statement)
  deriving DecidableEq, Repr

structure State where
  clock : ℕ
  job : Job
  revenues : List Revenue
  calls : ℕ → Option Call

inductive Event where
  | tick (milliseconds : ℕ)
  | arrive (r : ℕ) (caller : String) (status : Option String) (request : Request)
  /-- The SELECT of the job. -/
  | read (r : ℕ)
  /-- The SELECT of the caller's agent, in result. -/
  | check (r : ℕ) (status : Option String)
  /-- The UPDATE; that of result is tried again if it is not acknowledged. -/
  | send (r : ℕ) (acknowledged : Bool)
  /-- A statement fails, and the answer is 500. -/
  | fail (r : ℕ)
  deriving DecidableEq, Repr

/-- The job at first: as it was created, or with a lease. -/
inductive Start where
  | created
  | leased (agent : String) (earlierClaims : ℕ) (ttlSeconds : Seconds)
  deriving DecidableEq, Repr

structure Config where
  nulls : NullEquality
  talosId : String
  amount : String
  txHash : Option String
  /-- Of the provider's service, if it has one. -/
  currency : Option String
  startedAt : ℕ
  start : Start
  deriving Repr

variable (config : Config)

def Config.created : Job where
  talosId := config.talosId
  amount := config.amount
  txHash := config.txHash
  status := .pending
  result := none
  leasedBy := none
  leasedAt := none
  leaseExpiresAt := none
  fencingToken := 0
  progress := none

def Config.job : Job :=
  match config.start with
  | .created => config.created
  | .leased agent earlierClaims ttlSeconds =>
      { config.created with
        leasedBy := some agent
        leasedAt := some config.startedAt
        leaseExpiresAt := some (config.startedAt + ms ttlSeconds.value)
        fencingToken := earlierClaims + 1 }

def Config.revenue (job : Job) : Revenue :=
  ⟨job.talosId, job.amount, config.currency.getD "USDC", "commerce", job.txHash⟩

def State.put (s : State) (r : ℕ) (call : Option Call) : State :=
  { s with calls := Function.update s.calls r call }

/-- The first step of a request; `none` if it is answered. -/
def accept (now : ℕ) (caller : String) (status : Option String) : Request → Option Call
  | .claim ttlSeconds =>
      match checkClaimer status with
      | .error _ => none
      | .ok () => some (.sending (.claim caller now (ttlSeconds.getD defaultLeaseTtlSeconds)))
  | .heartbeat fencingToken =>
      match checkCaller status with
      | .error _ => none
      | .ok () => some (.sending (.heartbeat caller fencingToken now))
  | .extendLease fencingToken extendSeconds =>
      match checkCaller status with
      | .error _ => none
      | .ok () => some (.extending caller fencingToken extendSeconds now)
  | .release fencingToken =>
      match checkCaller status with
      | .error _ => none
      | .ok () => some (.sending (.release caller fencingToken))
  | .result result fencingToken => some (.submitting caller result fencingToken)
  | .progress report fencingToken => some (.reporting caller report fencingToken)

/-- What comes after the SELECT of the job. -/
def afterRead (now : ℕ) (job : Job) : Call → Option Call
  | .extending caller fencingToken extendSeconds asked =>
      match checkExtension job caller fencingToken extendSeconds asked with
      | .error _ => none
      | .ok leaseExpiresAt =>
          some (.sending (.extendLease caller fencingToken asked leaseExpiresAt extendSeconds))
  | .reporting caller report fencingToken =>
      match checkProgress job caller fencingToken now with
      | .error _ => none
      | .ok () => some (.sending (.progress caller fencingToken ⟨report, now, caller⟩))
  | .submitting caller result fencingToken =>
      -- 403, "Not authorized to fulfill this job"
      if job.talosId ≠ caller then none else some (.authorized caller result fencingToken job)
  | .authorized _ _ _ _ | .sending _ => none

def Call.reads : Call → Bool
  | .extending _ _ _ _ | .reporting _ _ _ | .submitting _ _ _ => true
  | .authorized _ _ _ _ | .sending _ => false

def Statement.retried : Statement → Bool
  | .result _ _ _ => true
  | .claim _ _ _ | .heartbeat _ _ _ | .extendLease _ _ _ _ _ | .release _ _ | .progress _ _ _ =>
      false

/-- The statement takes effect; a completion brings its revenue row with it. -/
def apply (s : State) (statement : Statement) : State :=
  if (statement.condition config.nulls s.job).Holds then
    { s with
      job := statement.set s.job
      revenues := match statement with
        | .result _ _ _ => config.revenue (statement.set s.job) :: s.revenues
        | .claim _ _ _ | .heartbeat _ _ _ | .extendLease _ _ _ _ _ | .release _ _
        | .progress _ _ _ => s.revenues }
  else s

def step (s : State) : Event → Option State
  | .tick milliseconds => some { s with clock := s.clock + milliseconds }
  | .arrive r caller status request =>
      if (s.calls r).isSome then none else some (s.put r (accept s.clock caller status request))
  | .read r =>
      match s.calls r with
      | some call => if call.reads then some (s.put r (afterRead s.clock s.job call)) else none
      | none => none
  | .check r status =>
      match s.calls r with
      | some (.authorized caller result fencingToken job) =>
          match checkResult job caller status s.clock with
          | .error _ => some (s.put r none)
          -- a missing token is 0, which only a job that was never claimed has
          | .ok () => some (s.put r (some (.sending (.result caller (fencingToken.getD 0) result))))
      | _ => none
  | .send r acknowledged =>
      match s.calls r with
      | some (.sending statement) =>
          some (if ¬ acknowledged ∧ statement.retried then apply config s statement
            else (apply config s statement).put r none)
      | _ => none
  | .fail r => if (s.calls r).isSome then some (s.put r none) else none

def machine : Machine State Event where
  init := ⟨config.startedAt, config.job, [], fun _ => none⟩
  step := step config

/-! ### What steps do -/

/-- The statement that takes effect in a step. -/
def State.effect (nulls : NullEquality) (s : State) : Event → Option Statement
  | .send r _ =>
      match s.calls r with
      | some (.sending statement) =>
          if (statement.condition nulls s.job).Holds then some statement else none
      | _ => none
  | .tick _ | .arrive _ _ _ _ | .read _ | .check _ _ | .fail _ => none

variable {config}
variable {s s' : State} {event : Event} {statement : Statement}

theorem effect_condition (is : s.effect nulls event = some statement) :
    (statement.condition nulls s.job).Holds := by
  cases event with
  | send r acknowledged =>
      simp only [State.effect] at is
      split at is
      · split at is
        · next holds =>
            cases is
            exact holds
        · cases is
      · cases is
  | tick | arrive | read | check | fail => cases is

/-- A step applies its statement, or leaves the rows alone. -/
theorem step_cases (ok : step config s event = some s') :
    (s.effect config.nulls event = none ∧ s'.job = s.job ∧ s'.revenues = s.revenues) ∨
      ∃ statement, s.effect config.nulls event = some statement ∧
        s'.job = (apply config s statement).job ∧
        s'.revenues = (apply config s statement).revenues := by
  cases event with
  | tick milliseconds =>
      cases ok
      exact .inl ⟨rfl, rfl, rfl⟩
  | arrive r caller status request =>
      simp only [step] at ok
      split at ok <;> cases ok
      exact .inl ⟨rfl, rfl, rfl⟩
  | read r =>
      simp only [step] at ok
      split at ok
      · split at ok <;> cases ok
        exact .inl ⟨rfl, rfl, rfl⟩
      · cases ok
  | check r status =>
      simp only [step] at ok
      split at ok
      · split at ok <;> cases ok <;> exact .inl ⟨rfl, rfl, rfl⟩
      · cases ok
  | send r acknowledged =>
      simp only [step] at ok
      split at ok
      · next statement found =>
          by_cases holds : (statement.condition config.nulls s.job).Holds
          · refine .inr ⟨statement, by simp only [State.effect, found, if_pos holds], ?_⟩
            split at ok <;> cases ok <;> exact ⟨rfl, rfl⟩
          · refine .inl ⟨by simp only [State.effect, found, if_neg holds], ?_⟩
            have same : apply config s statement = s := if_neg holds
            rw [same] at ok
            split at ok <;> cases ok <;> exact ⟨rfl, rfl⟩
      · cases ok
  | fail r =>
      simp only [step] at ok
      split at ok <;> cases ok
      exact .inl ⟨rfl, rfl, rfl⟩

/-- What a step does to the job. -/
theorem step_job (ok : step config s event = some s') :
    s'.job = (s.effect config.nulls event).elim s.job (Statement.set s.job) := by
  rcases step_cases ok with ⟨none_, same, -⟩ | ⟨statement, is, same, -⟩
  · rw [none_, same]
    rfl
  · have holds := effect_condition config.nulls is
    rw [is, same]
    simp only [apply, if_pos holds, Option.elim_some]

theorem step_clock (ok : step config s event = some s') : s.clock ≤ s'.clock := by
  cases event with
  | tick milliseconds =>
      cases ok
      exact Nat.le_add_right _ _
  | arrive | read | check | fail =>
      simp only [step] at ok
      repeat' split at ok
      all_goals cases ok <;> exact Nat.le_refl _
  | send r acknowledged =>
      simp only [step] at ok
      split at ok
      · next statement found =>
          have same : (apply config s statement).clock = s.clock := by
            unfold apply
            split <;> rfl
          split at ok <;> cases ok <;> exact Nat.le_of_eq same.symm
      · cases ok

end Talos.JobLeases
