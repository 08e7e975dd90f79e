import Talos.JobLeases.Model

/-!
# Completion of a leased job

The fencing token counts the claims, and the columns of the lease are those of the latest claim
until it is released. The result route compares the token and nothing else of the lease in its
UPDATE, so a result may come from an agent that does not hold it.
-/

namespace Talos.JobLeases

open Database

/-! ### The latest claim -/

structure Lease where
  agent : String
  token : ℕ
  released : Bool
  deriving DecidableEq, Repr

/-- The latest claim after a statement that takes effect. -/
def Statement.lease (job : Job) (lease : Option Lease) : Statement → Option Lease
  | .claim caller _ _ => some ⟨caller, job.fencingToken + 1, false⟩
  | .release _ _ => lease.map fun lease => { lease with released := true }
  | .heartbeat _ _ _ | .extendLease _ _ _ _ _ | .result _ _ _ | .progress _ _ _ => lease

def Start.lease : Start → Option Lease
  | .created => none
  | .leased agent earlierClaims _ => some ⟨agent, earlierClaims + 1, false⟩

variable (config : Config)

/-- The latest claim of a run, whose newest transition comes first. -/
def latest : List (Transition State Event) → Option Lease
  | [] => config.start.lease
  | r :: earlier =>
      (r.pre.effect config.nulls r.event).elim (latest earlier)
        (Statement.lease r.pre.job (latest earlier))

/-- The job's columns are those of its latest claim. -/
structure Tracked (lease : Option Lease) (job : Job) : Prop where
  token : job.fencingToken = lease.elim 0 (·.token)
  positive : ∀ l ∈ lease, 0 < l.token
  holder : job.leasedBy = (lease.filter (·.released = false)).map (·.agent)

/-! ### What completions should be -/

structure Completion where
  caller : String
  fencingToken : ℤ
  deriving DecidableEq, Repr

def Statement.completion : Statement → Option Completion
  | .result caller fencingToken _ => some ⟨caller, fencingToken⟩
  | .claim _ _ _ | .heartbeat _ _ _ | .extendLease _ _ _ _ _ | .release _ _ | .progress _ _ _ =>
      none

def Statement.isClaim : Statement → Bool
  | .claim _ _ _ => true
  | .heartbeat _ _ _ | .extendLease _ _ _ _ _ | .release _ _ | .result _ _ _
  | .progress _ _ _ => false

/-- The completion that a step makes. -/
def State.completion (nulls : NullEquality) (s : State) (event : Event) : Option Completion :=
  (s.effect nulls event).bind Statement.completion

def completions (nulls : NullEquality) (h : List (Transition State Event)) : ℕ :=
  h.countP fun r => (r.pre.completion nulls r.event).isSome

/-- One more for a claim, and the same for all else. -/
def Counted (nulls : NullEquality) (r : Transition State Event) : Prop :=
  r.post.job.fencingToken = r.pre.job.fencingToken +
    if (r.pre.effect nulls r.event).any Statement.isClaim then 1 else 0

/-- A completion of a claimed job is by the latest claim, which was not released. -/
def Fenced (earlier : List (Transition State Event)) (r : Transition State Event) : Prop :=
  ∀ c ∈ r.pre.completion config.nulls r.event, ∀ lease ∈ latest config earlier,
    c.fencingToken = lease.token ∧ c.caller = lease.agent ∧ lease.released = false

instance (earlier : List (Transition State Event)) : DecidablePred (Fenced config earlier) :=
  fun r => inferInstanceAs (Decidable (∀ c ∈ r.pre.completion config.nulls r.event, _))

/-- A completed job stays as it is. -/
def Frozen (r : Transition State Event) : Prop :=
  r.pre.job.status = .completed → r.post.job.status = .completed ∧
    r.post.job.result = r.pre.job.result ∧ r.post.job.progress = r.pre.job.progress

/-- A result that completes a claimed job finds its caller in the lease. -/
def FromHolder (nulls : NullEquality) (s : State) (event : Event) : Prop :=
  ∀ c ∈ s.completion nulls event, 0 < s.job.fencingToken → s.job.leasedBy = some c.caller

instance (nulls : NullEquality) (s : State) : DecidablePred (FromHolder nulls s) :=
  fun event => inferInstanceAs (Decidable (∀ c ∈ s.completion nulls event, _))

/-! ### Statements -/

section

variable {nulls : NullEquality} {job : Job} {lease : Option Lease} {statement : Statement}

theorem Statement.set_token :
    (statement.set job).fencingToken = job.fencingToken + if statement.isClaim then 1 else 0 := by
  cases statement <;> rfl

/-- Only claims and releases write the holder. -/
theorem Tracked.set (tracked : Tracked lease job) (holds : (statement.condition nulls job).Holds) :
    Tracked (statement.lease job lease) (statement.set job) := by
  cases statement with
  | claim caller now ttlSeconds =>
      refine ⟨rfl, ?_, rfl⟩
      rintro _ ⟨⟩
      exact Nat.succ_pos _
  | release caller fencingToken =>
      refine ⟨?_, ?_, ?_⟩
      · have token := tracked.token
        cases lease <;> exact token
      · intro l mem
        obtain ⟨l', mem', rfl⟩ := Option.map_eq_some_iff.mp mem
        exact tracked.positive l' mem'
      · cases lease <;> rfl
  | heartbeat | extendLease | result | progress =>
      exact ⟨tracked.token, tracked.positive, tracked.holder⟩

theorem completion_condition {c : Completion} (is : statement.completion = some c)
    (holds : (statement.condition nulls job).Holds) :
    c.fencingToken = job.fencingToken ∧ job.status = .pending := by
  cases statement with
  | result caller fencingToken value =>
      cases is
      simp only [Statement.condition, Job.hasToken, Job.isPending, Truth.and_holds, sqlEq_some,
        Option.some_inj] at holds
      exact ⟨holds.1.symm, holds.2⟩
  | claim | heartbeat | extendLease | release | progress => cases is

/-- What is written into a completed job is a release. -/
theorem set_of_completed (completed : job.status = .completed)
    (holds : (statement.condition nulls job).Holds) :
    (statement.set job).status = job.status ∧ (statement.set job).result = job.result ∧
      (statement.set job).progress = job.progress ∧ statement.completion = none := by
  cases statement with
  | release => exact ⟨rfl, rfl, rfl, rfl⟩
  | claim | heartbeat | extendLease => exact ⟨rfl, rfl, rfl, rfl⟩
  | result =>
      have pending := (completion_condition rfl holds).2
      cases completed.symm.trans pending
  | progress caller fencingToken value =>
      have pending : job.status = .pending := by
        cases fencingToken <;>
          simp only [Statement.condition, Job.isPending, Truth.and_holds, sqlEq_some,
            Option.some_inj] at holds
        · exact holds.2
        · exact holds.2.1
      cases completed.symm.trans pending

theorem Statement.set_status :
    (statement.set job).status = if statement.completion.isSome then .completed else job.status := by
  cases statement <;> rfl

end

/-! ### Runs -/

section

variable {config}
variable {h : List (Transition State Event)} {s s' : State} {event : Event}

theorem tracked_init : Tracked (latest config []) config.job := by
  rw [latest, Config.job]
  cases config.start with
  | created => exact ⟨rfl, nofun, rfl⟩
  | leased agent earlierClaims ttlSeconds =>
      refine ⟨rfl, ?_, rfl⟩
      rintro _ ⟨⟩
      exact Nat.succ_pos _

theorem tracked_step (tracked : Tracked (latest config h) s.job)
    (ok : step config s event = some s') : Tracked (latest config (⟨s, event, s'⟩ :: h)) s'.job := by
  rw [step_job ok, latest]
  cases is : s.effect config.nulls event with
  | none => exact tracked
  | some statement => exact tracked.set (effect_condition _ is)

theorem counted (ok : step config s event = some s') : Counted config.nulls ⟨s, event, s'⟩ := by
  rw [Counted, step_job ok]
  cases s.effect config.nulls event with
  | none => rfl
  | some statement => exact Statement.set_token

theorem frozen (ok : step config s event = some s') : Frozen ⟨s, event, s'⟩ := by
  intro completed
  change s'.job.status = _ ∧ s'.job.result = s.job.result ∧ s'.job.progress = s.job.progress
  rw [step_job ok]
  cases is : s.effect config.nulls event with
  | none => exact ⟨completed, rfl, rfl⟩
  | some statement =>
      obtain ⟨status, result, progress, -⟩ := set_of_completed completed (effect_condition _ is)
      exact ⟨status.trans completed, result, progress⟩

/-- The token of a completion is the job's, so what is left is who holds the lease. -/
theorem fenced_iff (tracked : Tracked (latest config h) s.job) :
    Fenced config h ⟨s, event, s'⟩ ↔ FromHolder config.nulls s event := by
  constructor
  · intro fenced c is claimed
    cases known : latest config h with
    | none =>
        rw [tracked.token, known] at claimed
        cases claimed
    | some lease =>
        obtain ⟨-, caller, held⟩ := fenced c is lease known
        rw [tracked.holder, known, Option.filter_some, if_pos (decide_eq_true held), caller]
        rfl
  · intro holder c is lease known
    obtain ⟨statement, effect, completes⟩ := Option.bind_eq_some_iff.mp is
    have token := (completion_condition completes (effect_condition _ effect)).1
    have current : s.job.fencingToken = lease.token := by
      rw [tracked.token, Option.mem_def.mp known]
      rfl
    have by_ := holder c is (current ▸ tracked.positive lease known)
    rw [tracked.holder, Option.mem_def.mp known, Option.filter_some] at by_
    split at by_
    · next held => exact ⟨current ▸ token, (Option.some_inj.mp by_).symm, of_decide_eq_true held⟩
    · cases by_

theorem step_revenues (ok : step config s event = some s') :
    s'.revenues = if (s.completion config.nulls event).isSome
      then config.revenue s'.job :: s.revenues else s.revenues := by
  rcases step_cases ok with ⟨none_, -, same⟩ | ⟨statement, is, job, same⟩
  · rw [State.completion, none_, same]
    rfl
  · have holds := effect_condition config.nulls is
    rw [State.completion, is, job, same]
    simp only [apply, if_pos holds, Option.bind_some]
    cases statement <;> rfl

/-- The order behind the job, the number of its completions, and a revenue row for each. -/
structure Paid (config : Config) (h : List (Transition State Event)) (s : State) : Prop where
  order : config.revenue s.job = config.revenue config.created
  once : completions config.nulls h = if s.job.status = .completed then 1 else 0
  rows : s.revenues =
    List.replicate (completions config.nulls h) (config.revenue config.created)

theorem Paid.step (paid : Paid config h s) (ok : step config s event = some s') :
    Paid config (⟨s, event, s'⟩ :: h) s' := by
  have order : config.revenue s'.job = config.revenue config.created := by
    rw [step_job ok, ← paid.order]
    cases s.effect config.nulls event with
    | none => rfl
    | some statement => cases statement <;> rfl
  have count : completions config.nulls (⟨s, event, s'⟩ :: h) = completions config.nulls h +
      if (s.completion config.nulls event).isSome then 1 else 0 := List.countP_cons
  refine ⟨order, ?_, ?_⟩
  · rw [count, paid.once, step_job ok, State.completion]
    cases is : s.effect config.nulls event with
    | none => rfl
    | some statement =>
        have holds := effect_condition config.nulls is
        rw [Option.bind_some, Option.elim_some, Statement.set_status]
        cases completes : statement.completion with
        | none => rfl
        | some c =>
            have pending := (completion_condition completes holds).2
            rw [pending]
            rfl
  · rw [step_revenues ok, count, order, paid.rows]
    split
    · rw [List.replicate_succ]
    · rfl

/-! ### What holds of completions, and when -/

/-- In every run: the token counts the claims, there is one completion at most with one revenue
row, and a completed job stays as it is; and completions are by the latest claim exactly if the
results that complete the job find their caller in the lease. -/
theorem completed_once_iff (run : Run (machine config) h s) :
    (∀ r ∈ h, Counted config.nulls r) ∧
    (Throughout (Fenced config) h ↔ ∀ r ∈ h, FromHolder config.nulls r.pre r.event) ∧
    (completions config.nulls h ≤ 1 ∧ s.revenues =
      List.replicate (completions config.nulls h) (config.revenue config.created)) ∧
    ∀ r ∈ h, Frozen r := by
  refine ⟨fun r mem => counted (run.taken mem), ?_, ?_, fun r mem => frozen (run.taken mem)⟩
  · exact run.throughout_iff (I := fun h s => Tracked (latest config h) s.job) tracked_init
      (fun tracked ok => tracked_step tracked ok) fun tracked _ => fenced_iff tracked
  · have start : Paid config [] (machine config).init := by
      have pending : config.job.status = .pending := by
        rw [Config.job]
        cases config.start <;> rfl
      refine ⟨?_, ?_, rfl⟩
      · change config.revenue config.job = _
        rw [Config.job]
        cases config.start <;> rfl
      · change 0 = if config.job.status = .completed then 1 else 0
        rw [pending]
        rfl
    have paid : Paid config h s :=
      run.history (C := fun _ => True) (I := Paid config) (fun _ _ => trivial) start
        fun paid ok _ => paid.step ok
    refine ⟨?_, paid.rows⟩
    rw [paid.once]
    split <;> decide

end

/-! ### A result after the release -/

def exampleConfig (nulls : NullEquality) (start : Start) : Config where
  nulls := nulls
  talosId := "provider"
  amount := "5.000000"
  txHash := some "hash"
  currency := none
  startedAt := 1000
  start := start

def played (nulls : NullEquality) (start : Start) (events : List Event) :
    List (Transition State Event) × State :=
  (machine (exampleConfig nulls start)).play events ([], (machine (exampleConfig nulls start)).init)

/-- A request of an active agent that is sent at once. -/
def write (r : ℕ) (caller : String) (request : Request) : List Event :=
  [.arrive r caller (some "Active") request, .send r true]

def submit (r : ℕ) (token : ℤ) : List Event :=
  [.arrive r "provider" (some "Active") (.result "done" (some token)), .read r,
    .check r (some "Active"), .send r true]

theorem completed_once_iff_renewed :
    Throughout (Fenced (exampleConfig .unknown (.leased "provider" 0 defaultLeaseTtlSeconds)))
        (played .unknown (.leased "provider" 0 defaultLeaseTtlSeconds)
          (write 1 "provider" (.heartbeat 1) ++ submit 2 1)).1 ∧
      (played .unknown (.leased "provider" 0 defaultLeaseTtlSeconds)
        (write 1 "provider" (.heartbeat 1) ++ submit 2 1)).2.job.status = .completed :=
  ⟨(completed_once_iff (Machine.play_run _ _)).2.1.mpr (by decide), by decide⟩

/-- The provider completes the job with the token of a lease that it has released; whether or not
`leasedBy = NULL` finds a job that was never claimed. -/
theorem completed_after_release :
    (Reachable (machine (exampleConfig .unknown (.leased "provider" 0 defaultLeaseTtlSeconds)))
        (played .unknown (.leased "provider" 0 defaultLeaseTtlSeconds)
          (write 1 "provider" (.release 1) ++ submit 2 1)).2 ∧
      ¬ Throughout (Fenced (exampleConfig .unknown (.leased "provider" 0 defaultLeaseTtlSeconds)))
        (played .unknown (.leased "provider" 0 defaultLeaseTtlSeconds)
          (write 1 "provider" (.release 1) ++ submit 2 1)).1) ∧
    Reachable (machine (exampleConfig .equal .created))
        (played .equal .created (write 1 "provider" (.claim none) ++
          write 2 "provider" (.release 1) ++ submit 3 1)).2 ∧
      ¬ Throughout (Fenced (exampleConfig .equal .created))
        (played .equal .created (write 1 "provider" (.claim none) ++
          write 2 "provider" (.release 1) ++ submit 3 1)).1 :=
  ⟨⟨⟨_, Machine.play_run _ _⟩, by decide⟩, ⟨_, Machine.play_run _ _⟩, by decide⟩

/-- And with the token of another agent's lease, once it has run out. -/
example : ¬ Throughout (Fenced (exampleConfig .unknown (.leased "other" 0 defaultLeaseTtlSeconds)))
    (played .unknown (.leased "other" 0 defaultLeaseTtlSeconds)
      (.tick 300000 :: submit 1 1)).1 := by
  decide +kernel

end Talos.JobLeases
