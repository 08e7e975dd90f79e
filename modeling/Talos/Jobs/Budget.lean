import Talos.Jobs.Lease

/-!
# The retry budget

`leaseBatch` counts an attempt and looks at no limit; the limit is checked where a
job goes back to pending, by `fail` and by the reaper, but not by `release`, which
does not take the attempt back either. The reaper does not look at the retry class.
So a released job can exceed its budget and a fatal job can start twice
(`budget_exceeded`). Without releases, with a budget of at least one and with no fatal
job put back by the reaper, the budget holds (`budget_along`).

`fail` decides on the row it read; while the lease it read is held, the row still has
the same counters (`Consistent`).
-/

namespace Talos.Jobs

open Database Soroban

variable {config : JobsConfig} {start : Int} {s s₀ s' : State} {e : Event} {h : List Step}
  {k : JobId}

/-! ### The row a failing call has read -/

/-- What the store keeps about lease columns and calls of `fail` under way. -/
structure Consistent (s : State) : Prop where
  unleased : ∀ k row, s.rows k = some row → row.status ≠ .leased → row.leaseId = none
  issued : ∀ k row lease, s.rows k = some row → row.leaseId = some lease → lease ∈ s.issued
  snapshot : ∀ c id lease error current, s.calls c = some (.failing id lease error current) →
    lease ∈ s.issued ∧ ∀ row, s.rows id = some row → row.leaseId = some lease →
      row.attempts = current.attempts ∧ row.maxAttempts = current.maxAttempts ∧
        row.retryClass = current.retryClass

/-- The lease id of a row was issued by this step, or the row had it before the step
with the same counters. -/
theorem Consistent.leaseId (cons : Consistent s) (ok : step config s e = some s') {row' : JobRow}
    {lease : LeaseId} (found' : s'.rows k = some row') (leaseId : row'.leaseId = some lease) :
    (e.claims.lookup k = some lease ∧ lease ∉ s.issued) ∨
      ∃ row, s.rows k = some row ∧ row.leaseId = some lease ∧ row'.attempts = row.attempts ∧
        row'.maxAttempts = row.maxAttempts ∧ row'.retryClass = row.retryClass := by
  have change := step_row ok k
  rw [found'] at change
  generalize after : some row' = row at change
  cases change with
  | stays => exact .inr ⟨row', after.symm, leaseId, rfl, rfl, rfl⟩
  | leased _ _ _ _ _ lease' _ event claim fresh =>
      cases after
      cases leaseId
      exact .inl ⟨event ▸ claim, fresh⟩
  | extended _ _ row _ found
  | flagged _ row _ _ found
  | cancelled _ row _ found =>
      cases after
      exact .inr ⟨row, found, leaseId, rfl, rfl, rfl⟩
  | requeued row _ found isOver =>
      cases after
      have cleared := cons.unleased k row found (by rcases isOver with o | o <;> simp [o])
      exact absurd (cleared.symm.trans leaseId) (Option.some_ne_none _).symm
  | failed c jitter lease error current row =>
      cases after
      cases decision : decideRetry current.retryClass current.attempts current.maxAttempts
        jitter <;> simp [decision, JobRow.failedWith, JobRow.unleased] at leaseId
  | inserted | completed | released | reapRequeued | reapDeadLettered =>
      cases after
      cases leaseId

theorem Consistent.step (cons : Consistent s) (ok : step config s e = some s') :
    Consistent s' := by
  have issued := step_issued ok
  constructor
  · intro k row' found' notLeased
    have change := step_row ok k
    rw [found'] at change
    generalize after : some row' = row at change
    cases change with
    | stays => exact cons.unleased k row' after.symm notLeased
    | cancelled _ row _ found status =>
        cases after
        exact cons.unleased k row found (by simp [status])
    | requeued row _ found isOver =>
        cases after
        exact cons.unleased k row found (by rcases isOver with o | o <;> simp [o])
    | failed c jitter lease error current row =>
        cases after
        cases decideRetry current.retryClass current.attempts current.maxAttempts jitter <;> rfl
    | leased =>
        cases after
        exact absurd rfl notLeased
    | extended _ _ _ _ _ _ status
    | flagged _ _ _ _ _ status =>
        cases after
        exact absurd status notLeased
    | inserted | completed | released | reapRequeued | reapDeadLettered =>
        cases after
        rfl
  · intro k row' lease found' leaseId
    rw [issued]
    rcases cons.leaseId ok found' leaseId with ⟨claim, -⟩ | ⟨row, found, stored, -⟩
    · obtain ⟨_, _, split, -⟩ := List.lookup_eq_some_iff.mp claim
      exact List.mem_append_left _ (List.mem_map.mpr ⟨(k, lease), by rw [split]; simp, rfl⟩)
    · exact List.mem_append_right _ (cons.issued k row lease found stored)
  · intro c id lease error current call
    rcases failing_call ok call with before | ⟨found, stored, same⟩
    · obtain ⟨mem, counters⟩ := cons.snapshot c id lease error current before
      refine ⟨issued ▸ List.mem_append_right _ mem, fun row' found' leaseId => ?_⟩
      rcases cons.leaseId ok found' leaseId with ⟨-, fresh⟩ | ⟨row, found, stored, a, m, r⟩
      · exact absurd mem fresh
      · obtain ⟨attempts, maxAttempts, retryClass⟩ := counters row found stored
        exact ⟨a.trans attempts, m.trans maxAttempts, r.trans retryClass⟩
    · refine ⟨issued ▸ List.mem_append_right _ (cons.issued id current lease found stored), ?_⟩
      intro row' found' _
      rw [same, found] at found'
      cases found'
      exact ⟨rfl, rfl, rfl⟩

theorem consistent (run : Run (machine config start) h s) : Consistent s :=
  run.invariant ⟨fun _ _ absent => (nomatch absent), fun _ _ _ absent => (nomatch absent),
    fun _ _ _ _ _ absent => (nomatch absent)⟩ fun cons ok => cons.step ok

/-! ### What a run has to avoid -/

/-- The options of the `enqueue` whose INSERT this step is, if it makes job `k`. -/
def enqueuedOptions (t : Step) (k : JobId) : Option EnqueueOptions :=
  match t.event with
  | .insert c id =>
      if id = k then
        match t.pre.calls c with
        | some (.enqueueing _ _ _ opts) => some opts
        | _ => none
      else none
  | _ => none

/-- A call of `release` that finds its lease. -/
def releasesLease (k : JobId) (t : Step) : Bool :=
  match t.event with
  | .release id lease => (t.pre.rows k).any (held id lease k)
  | _ => false

/-- The first UPDATE of the reaper. -/
def Event.reapsToPending : Event → Bool
  | .reapRequeue _ => true
  | _ => false

/-- About job `k`, the step enqueues no budget below one, releases no lease and puts no
fatal job back. -/
structure BudgetGuard (k : JobId) (t : Step) : Prop where
  budgeted : ∀ opts ∈ enqueuedOptions t k, ∀ m ∈ opts.maxAttempts, 1 ≤ m
  unreleased : releasesLease k t = false
  fatalStays : t.event.reapsToPending = true → ∀ row ∈ t.pre.rows k, row.retryClass = .fatal →
    lapsedBelow t.pre.clock k row = false

instance (k : JobId) (t : Step) : Decidable (BudgetGuard k t) :=
  decidable_of_iff
    ((∀ opts ∈ enqueuedOptions t k, ∀ m ∈ opts.maxAttempts, 1 ≤ m) ∧
      releasesLease k t = false ∧
      (t.event.reapsToPending = true → ∀ row ∈ t.pre.rows k, row.retryClass = .fatal →
        lapsedBelow t.pre.clock k row = false))
    ⟨fun ⟨a, b, c⟩ => ⟨a, b, c⟩, fun ⟨a, b, c⟩ => ⟨a, b, c⟩⟩

/-- The leases of job `k` among the given steps. -/
def leaseCount (k : JobId) (h : List Step) : Nat :=
  h.countP fun t => (t.event.claims.lookup k).isSome

def releaseCount (k : JobId) (h : List Step) : Nat := h.countP (releasesLease k)

def attemptsOf (s : State) (k : JobId) : Nat := ((s.rows k).map JobRow.attempts).getD 0

/-! ### The budget -/

structure WithinBudget (row : JobRow) : Prop where
  positive : 1 ≤ row.maxAttempts
  bounded : (row.attempts : Int) ≤ row.maxAttempts
  pendingBelow : row.status = .pending → (row.attempts : Int) < row.maxAttempts
  fatalOnce : row.retryClass = .fatal → row.attempts ≤ 1
  fatalUnstarted : row.retryClass = .fatal → row.status = .pending → row.attempts = 0

/-- A row that is not pending, with the counters it had. -/
theorem WithinBudget.keep {row row' : JobRow} (within : WithinBudget row)
    (attempts : row'.attempts = row.attempts) (maxAttempts : row'.maxAttempts = row.maxAttempts)
    (retryClass : row'.retryClass = row.retryClass) (notPending : row'.status ≠ .pending) :
    WithinBudget row' where
  positive := maxAttempts ▸ within.positive
  bounded := by rw [attempts, maxAttempts]; exact within.bounded
  pendingBelow := fun pending => absurd pending notPending
  fatalOnce := fun fatal => attempts ▸ within.fatalOnce (retryClass ▸ fatal)
  fatalUnstarted := fun _ pending => absurd pending notPending

/-- `fail` puts a job back only below its budget, and never a fatal one. -/
theorem decideRetry_retry {retryClass : RetryClass} {attempts jitter : Nat}
    {maxAttempts delay : Int}
    (retry : decideRetry retryClass attempts maxAttempts jitter = .retry delay) :
    retryClass ≠ .fatal ∧ (attempts : Int) < maxAttempts := by
  unfold decideRetry at retry
  split_ifs at retry with fatal spent
  exact ⟨fatal, by omega⟩

theorem WithinBudget.step (cons : Consistent s) (ok : step config s e = some s')
    (guard : BudgetGuard k ⟨s, e, s'⟩) (inv : ∀ row, s.rows k = some row → WithinBudget row)
    {row' : JobRow} (found' : s'.rows k = some row') : WithinBudget row' := by
  have change := step_row ok k
  rw [found'] at change
  generalize after : some row' = row at change
  cases change with
  | stays => exact inv row' after.symm
  | inserted c queue payload runAt opts event call absent =>
      cases after
      have asked := guard.budgeted opts (by simp [enqueuedOptions, event, call])
      have positive : 1 ≤ opts.maxAttempts.getD config.defaultMaxAttempts := by
        cases given : opts.maxAttempts with
        | none => exact config.positive
        | some m => exact asked m given
      exact
        { positive := positive
          bounded := by simp only [newRow]; omega
          pendingBelow := fun _ => by simp only [newRow]; omega
          fatalOnce := fun _ => Nat.zero_le 1
          fatalUnstarted := fun _ _ => rfl }
  | leased _ _ _ _ _ lease row event claim fresh found pending =>
      cases after
      have within := inv row found
      have below := within.pendingBelow pending
      exact
        { positive := within.positive
          bounded := by simp only [JobRow.leasedTo]; omega
          pendingBelow := nofun
          fatalOnce := fun fatal => by
            have unstarted := within.fatalUnstarted fatal pending
            simp only [JobRow.leasedTo, unstarted, Nat.le_refl]
          fatalUnstarted := nofun }
  | extended _ _ row _ found _ status
  | flagged _ row _ _ found status =>
      cases after
      exact (inv row found).keep rfl rfl rfl fun pending =>
        absurd (status.symm.trans pending) (by decide)
  | cancelled _ row _ found
  | completed _ _ row _ found
  | reapDeadLettered _ row _ found =>
      cases after
      exact (inv row found).keep rfl rfl rfl JobStatus.noConfusion
  | requeued row _ found isOver =>
      cases after
      have within := inv row found
      have positive := within.positive
      exact
        { positive := positive
          bounded := by simp only [JobRow.requeued]; omega
          pendingBelow := fun _ => by simp only [JobRow.requeued]; omega
          fatalOnce := fun _ => Nat.zero_le 1
          fatalUnstarted := fun _ _ => rfl }
  | failed c jitter lease error current row event call found leaseId =>
      cases after
      have within := inv row found
      obtain ⟨-, counters⟩ := cons.snapshot c k lease error current call
      obtain ⟨attempts, maxAttempts, retryClass⟩ := counters row found leaseId
      cases decision :
        decideRetry current.retryClass current.attempts current.maxAttempts jitter with
      | deadLetter => exact within.keep rfl rfl rfl nofun
      | retry delay =>
          obtain ⟨notFatal, below⟩ := decideRetry_retry decision
          rw [← retryClass] at notFatal
          rw [← attempts, ← maxAttempts] at below
          exact
            { positive := within.positive
              bounded := within.bounded
              pendingBelow := fun _ => below
              fatalOnce := fun fatal => absurd fatal notFatal
              fatalUnstarted := fun fatal => absurd fatal notFatal }
  | released lease row event found leaseId leased =>
      have hit := guard.unreleased
      simp [releasesLease, event, found, held, leaseId, leased] at hit
  | reapRequeued c row event found lapsed below =>
      cases after
      have within := inv row found
      have notFatal : row.retryClass ≠ .fatal := by
        intro fatal
        have stays := guard.fatalStays (by rw [event]; rfl) row found fatal
        simp [lapsedBelow, lapsed, below] at stays
      exact
        { positive := within.positive
          bounded := within.bounded
          pendingBelow := fun _ => below
          fatalOnce := fun fatal => absurd fatal notFatal
          fatalUnstarted := fun fatal => absurd fatal notFatal }

theorem withinBudget (run : Run (machine config start) h s) (each : ∀ t ∈ h, BudgetGuard k t)
    {row : JobRow} (found : s.rows k = some row) : WithinBudget row := by
  have both : Consistent s ∧ ∀ row, s.rows k = some row → WithinBudget row := by
    refine run.invariant_along
      (I := fun s => Consistent s ∧ ∀ row, s.rows k = some row → WithinBudget row) each
      ⟨consistent .refl, fun _ absent => (nomatch absent)⟩ ?_
    rintro s e s' ⟨cons, inv⟩ ok guard
    exact ⟨cons.step ok, fun row found => WithinBudget.step cons ok guard inv found⟩
  exact both.2 row found

/-! ### Counting attempts -/

/-- Away from `requeue`, the counter of a job moves with its leases. -/
theorem attempts_step (ok : step config s e = some s') (notRequeued : e ≠ .requeue k) :
    attemptsOf s' k = attemptsOf s k + if (e.claims.lookup k).isSome then 1 else 0 := by
  cases claim : e.claims.lookup k with
  | some lease =>
      obtain ⟨-, row, workerId, duration, found, -, after⟩ := claims_lookup ok claim
      simp only [attemptsOf, found, after]
      rfl
  | none =>
      have change := step_row ok k
      simp only [attemptsOf, Option.isSome_none]
      generalize s'.rows k = after at change
      cases change with
      | stays => rfl
      | inserted _ _ _ _ _ _ _ absent =>
          rw [absent]
          rfl
      | leased _ _ _ _ _ _ _ event claim' =>
          rw [event] at claim
          exact absurd (claim.symm.trans claim') (Option.some_ne_none _).symm
      | requeued _ event => exact absurd event notRequeued
      | failed c jitter lease error current row _ _ found =>
          rw [found]
          cases decideRetry current.retryClass current.attempts current.maxAttempts jitter <;> rfl
      | extended _ _ _ _ found
      | completed _ _ _ _ found
      | released _ _ _ found
      | cancelled _ _ _ found
      | flagged _ _ _ _ found
      | reapRequeued _ _ _ found
      | reapDeadLettered _ _ _ found =>
          rw [found]
          rfl

theorem attempts_steps (steps : Steps (machine config start) s h s')
    (notRequeued : ∀ t ∈ h, t.event ≠ .requeue k) :
    attemptsOf s' k = attemptsOf s k + leaseCount k h := by
  refine steps.history (C := fun t => t.event ≠ .requeue k)
    (I := fun h s' => attemptsOf s' k = attemptsOf s k + leaseCount k h) notRequeued rfl ?_
  intro h t e t' counted ok event
  rw [attempts_step ok event, counted, leaseCount, leaseCount, List.countP_cons, Nat.add_assoc]

/-- For a job whose steps meet the guard: its attempts never exceed its budget; from
any point of the run on, as long as it is not requeued, its attempts have grown by the
leases that were not released, these are at most the budget, and at most one if the
job is fatal. -/
theorem budget_along {earlier between : List Step} (run : Run (machine config start) earlier s₀)
    (steps : Steps (machine config start) s₀ between s)
    (each : ∀ t ∈ between ++ earlier, BudgetGuard k t) {row : JobRow}
    (found : s.rows k = some row) :
    (row.attempts : Int) ≤ row.maxAttempts ∧
    ((∀ t ∈ between, t.event ≠ .requeue k) →
      row.attempts + releaseCount k between = attemptsOf s₀ k + leaseCount k between ∧
      (leaseCount k between : Int) - releaseCount k between ≤ row.maxAttempts ∧
      (row.retryClass = .fatal → leaseCount k between - releaseCount k between ≤ 1)) := by
  have within := withinBudget (run.trans steps) each found
  refine ⟨within.bounded, fun notRequeued => ?_⟩
  have none : releaseCount k between = 0 := by
    refine List.countP_eq_zero.mpr fun t mem hit => ?_
    rw [(each t (List.mem_append_left _ mem)).unreleased] at hit
    exact Bool.false_ne_true hit
  have counted := attempts_steps steps notRequeued
  have stored : attemptsOf s k = row.attempts := by rw [attemptsOf, found]; rfl
  have bounded := within.bounded
  refine ⟨by omega, by omega, fun fatal => ?_⟩
  have once := within.fatalOnce fatal
  omega

/-- One failure and one completion under a budget of two. -/
def retried : List Event :=
  [.enqueue 0 "mail" "hello" { plainOptions with maxAttempts := some 2 }, .insert 0 1,
    .leaseBatch ["mail"] 10 "a" 30 [(1, 7)], .failSelect 0 1 7 "refused", .failUpdate 0 0,
    .leaseBatch ["mail"] 10 "a" 30 [(1, 8)], .complete 1 8 none]

theorem budget_along_retried :
    let run := (machine defaultConfig 0).play retried ([], (machine defaultConfig 0).init)
    Run (machine defaultConfig 0) run.1 run.2 ∧ (∀ t ∈ run.1 ++ [], BudgetGuard 1 t) ∧
      ∃ row, run.2.rows 1 = some row ∧ (row.attempts : Int) ≤ row.maxAttempts :=
  have guards : ∀ t ∈ ((machine defaultConfig 0).play retried
      ([], (machine defaultConfig 0).init)).1 ++ [], BudgetGuard 1 t := by decide
  ⟨Machine.play_run .., guards, _, rfl, (budget_along .refl (Machine.play_run ..) guards rfl).1⟩

/-! ### Beyond the budget -/

/-- A budget of one; the worker shuts down and releases its lease. -/
def releasedOnce : List Event :=
  [.enqueue 0 "mail" "hello" { plainOptions with maxAttempts := some 1 }, .insert 0 1,
    .leaseBatch ["mail"] 10 "a" 30 [(1, 7)], .release 1 7,
    .leaseBatch ["mail"] 10 "b" 30 [(1, 8)]]

/-- A fatal job whose worker dies. -/
def fatalReaped : List Event :=
  [.enqueue 0 "mail" "hello" { plainOptions with retryClass := some .fatal }, .insert 0 1,
    .leaseBatch ["mail"] 10 "a" 30 [(1, 7)], .advance 31, .reapRequeue 0, .reapDeadLetter 0,
    .leaseBatch ["mail"] 10 "b" 30 [(1, 8)]]

theorem budget_exceeded :
    (∃ h s row, Run (machine defaultConfig 0) h s ∧ s.rows 1 = some row ∧
      row.maxAttempts < row.attempts) ∧
    ∃ h s row, Run (machine defaultConfig 0) h s ∧ s.rows 1 = some row ∧
      row.retryClass = .fatal ∧ releaseCount 1 h = 0 ∧ leaseCount 1 h = 2 ∧
      ∀ t ∈ h, t.event ≠ .requeue 1 :=
  ⟨⟨_, _, _, Machine.play_run _ releasedOnce, rfl, by decide⟩,
    ⟨_, _, _, Machine.play_run _ fatalReaped, rfl, rfl, by decide, by decide, by decide⟩⟩

end Talos.Jobs
