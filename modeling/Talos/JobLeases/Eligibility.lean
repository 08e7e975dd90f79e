import Talos.JobLeases.Completion
import Mathlib.Algebra.Order.Ring.Nat

/-!
# Who can get a pending job

Claim and pending look for jobs without a lease by `leasedBy = NULL`, which is unknown of every
job. A job that has no lease is found by nobody, and a job that was created is never leased.
-/

namespace Talos.JobLeases

open Database

/-- No lease, or one that has run out. -/
def Available (s : State) : Prop :=
  s.job.leasedBy = none ∨ ∃ expiry ∈ s.job.leaseExpiresAt, expiry < s.clock

/-- The provider's list has the job, if it is long enough. -/
def Listed (nulls : NullEquality) (s : State) : Prop :=
  ∀ limit, ∀ jobs : List Job, s.job ∈ jobs → jobs.length ≤ limit →
    s.job ∈ pendingJobs nulls s.job.talosId (some "Active") s.clock limit jobs

/-- The UPDATE of a claim by the agent finds the job. -/
def ClaimedBy (nulls : NullEquality) (s : State) (caller : String) : Prop :=
  ∀ ttlSeconds, ((Statement.claim caller s.clock ttlSeconds).condition nulls s.job).Holds

/-- What the provider of a pending job relies on. -/
def Served (nulls : NullEquality) (s : State) : Prop :=
  Available s → Listed nulls s ∧ ClaimedBy nulls s s.job.talosId

section

variable {job : Job} {caller : String} {now : ℕ}

theorem isClaimable_unknown : (job.isClaimable .unknown caller now).Holds ↔
    job.leasedBy = some caller ∨ ∃ expiry ∈ job.leaseExpiresAt, expiry < now := by
  simp only [Job.isClaimable, Job.isLeasedBy, Truth.or_holds, sqlEq_some, sqlEq_none, sqlLt_holds,
    reduceCtorEq, false_and, false_or, Option.mem_def, Option.some_inj, exists_eq_left']

/-- What is listed meets the condition of a claim. -/
theorem claimable_of_listed {status : Option String} {limit : ℕ} {jobs : List Job}
    {nulls : NullEquality} (mem : job ∈ pendingJobs nulls caller status now limit jobs) :
    (job.isClaimable nulls caller now).Holds := by
  have found := of_decide_eq_true (List.mem_filter.mp (List.mem_of_mem_take mem)).2
  have eligible := (Truth.and_holds.mp (Truth.and_holds.mp (Truth.and_holds.mp found).2).2).2
  rw [Job.isClaimable, Truth.or_holds, Truth.or_holds]
  rcases Truth.or_holds.mp eligible with free | other
  · exact .inr (.inl free)
  · exact (Truth.or_holds.mp other).imp_right .inr

/-! ### Jobs without a lease -/

/-- The lease columns are empty. -/
structure Unleased (job : Job) : Prop where
  holder : job.leasedBy = none
  expiry : job.leaseExpiresAt = none

theorem Unleased.not_claimable (unleased : Unleased job) :
    ¬ (job.isClaimable .unknown caller now).Holds := by
  rw [isClaimable_unknown, unleased.holder, unleased.expiry]
  rintro (own | ⟨_, absent, _⟩)
  · cases own
  · cases absent

theorem Unleased.not_leasedBy {nulls : NullEquality} (unleased : Unleased job) :
    ¬ (job.isLeasedBy nulls caller).Holds := by
  rw [Job.isLeasedBy, sqlEq_some, unleased.holder]
  exact nofun

/-- Only a claim ends it. -/
theorem Unleased.set {statement : Statement} (unleased : Unleased job)
    (holds : (statement.condition .unknown job).Holds) :
    statement.isClaim = false ∧ Unleased (statement.set job) := by
  cases statement with
  | claim => exact absurd (Truth.and_holds.mp holds).2 unleased.not_claimable
  | heartbeat | extendLease | release =>
      exact absurd (Truth.and_holds.mp holds).1 unleased.not_leasedBy
  | result | progress => exact ⟨rfl, unleased.holder, unleased.expiry⟩

end

/-! ### Runs -/

variable {config : Config} {h : List (Transition State Event)} {s s' : State} {event : Event}

theorem Unleased.step (unleased : Unleased s.job) (unknown : config.nulls = .unknown)
    (ok : step config s event = some s') : Unleased s'.job := by
  rw [step_job ok]
  cases is : s.effect config.nulls event with
  | none => exact unleased
  | some statement => exact (unleased.set (unknown ▸ effect_condition _ is)).2

/-- A job that has no lease is available, and nobody can see or claim it. -/
theorem Unleased.unserved (unleased : Unleased s.job) :
    Available s ∧ ∀ caller,
      (∀ status limit jobs, s.job ∉ pendingJobs .unknown caller status s.clock limit jobs) ∧
      ¬ ClaimedBy .unknown s caller := by
  refine ⟨.inl unleased.holder, fun caller => ⟨?_, ?_⟩⟩
  · intro status limit jobs listed
    exact unleased.not_claimable (claimable_of_listed listed)
  · intro claimed
    exact unleased.not_claimable (Truth.and_holds.mp (claimed defaultLeaseTtlSeconds)).2

/-- With SQL's `NULL = NULL`, in every state that a job reaches from its creation, it has no lease,
no claim of anyone succeeds, and its provider neither sees it nor can claim it. -/
theorem not_served (unknown : config.nulls = .unknown) (created : config.start = .created)
    (run : Run (machine config) h s) :
    ¬ Served config.nulls s ∧ ¬ ClaimedBy config.nulls s s.job.talosId ∧
      (∀ status limit jobs,
        s.job ∉ pendingJobs config.nulls s.job.talosId status s.clock limit jobs) ∧
      ∀ r ∈ h, ∀ statement ∈ r.pre.effect config.nulls r.event, statement.isClaim = false := by
  have start : Unleased config.job := by
    rw [Config.job, created]
    exact ⟨rfl, rfl⟩
  have unleased : ∀ {h s}, Run (machine config) h s → Unleased s.job := fun run =>
    run.invariant (I := fun s => Unleased s.job) start fun unleased ok =>
      unleased.step unknown ok
  obtain ⟨available, nobody⟩ := (unleased run).unserved
  obtain ⟨unlisted, unclaimed⟩ := nobody s.job.talosId
  rw [unknown]
  refine ⟨fun served => unclaimed (served available).2, unclaimed, unlisted, ?_⟩
  intro r mem statement is
  obtain ⟨later, earlier, rfl⟩ := List.append_of_mem mem
  exact ((unleased run.split.1).set (effect_condition _ is)).1

theorem not_served_asked :
    (played .unknown .created (write 1 "provider" (.claim none))).2.job.status = .pending ∧
      ¬ Served .unknown (played .unknown .created (write 1 "provider" (.claim none))).2 :=
  ⟨by decide, (not_served rfl rfl (Machine.play_run _ _)).1⟩

/-- A pending job as it was created: the provider does not find it, and its claim fails. -/
theorem provider_refused :
    Reachable (machine (exampleConfig .unknown .created))
        (played .unknown .created (write 1 "provider" (.claim none))).2 ∧
      (played .unknown .created (write 1 "provider" (.claim none))).2.job =
        (exampleConfig .unknown .created).created ∧
      (exampleConfig .unknown .created).created.status = .pending ∧
      pendingJobs .unknown "provider" (some "Active") 1000 200
        [(exampleConfig .unknown .created).created] = [] ∧
      ¬ Served .unknown (played .unknown .created (write 1 "provider" (.claim none))).2 := by
  have same : (played .unknown .created (write 1 "provider" (.claim none))).2.job =
      (exampleConfig .unknown .created).created := by decide
  refine ⟨⟨_, Machine.play_run _ _⟩, same, rfl, by decide, ?_⟩
  intro served
  have unleased : Unleased (played .unknown .created (write 1 "provider" (.claim none))).2.job := by
    rw [same]
    exact ⟨rfl, rfl⟩
  obtain ⟨available, nobody⟩ := unleased.unserved
  exact (nobody _).2 (served available).2

end Talos.JobLeases
