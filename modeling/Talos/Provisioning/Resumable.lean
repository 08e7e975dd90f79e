import Talos.Provisioning.SingleWriter

/-!
# Resumable runs

The recovery sweep finds runs by `claimable`, which is also the condition under which a
lease can be acquired. It covers the pending runs and the running ones whose lease has
expired, and from each of them a worker can drive the run to its end
(`resumable_iff`). A run whose worker stops during compensation stays in a status that
the condition leaves out (`compensation_stuck`).
-/

namespace Talos.Provisioning

open Database Soroban

variable {config : ProvisioningConfig} {start : Int} {s s' : State} {e : Event} {k : JobId}
  {row : JobRow} {c : CallId} {inv : Invocation}

/-- The runs that are claimable now, in the order of the table. -/
def findResumableJobs (s : State) (limit : Nat) : List (JobId × LifecycleAction) :=
  ((s.rows.select (claimable s.clock)).map fun row => (row.id, row.action)).take
    (min (max limit 1) 100)

/-- No lease, or one that has expired. -/
def LeaseOver (now : Int) (row : JobRow) : Prop := ∀ expiry ∈ row.leaseExpiresAt, expiry < now

instance (now : Int) (row : JobRow) : Decidable (LeaseOver now row) :=
  inferInstanceAs (Decidable (∀ _ ∈ _, _))

/-- The steps of the run, if they are written already, are those of the workflow. -/
def Fits (workflow : WorkflowDefinition) (row : JobRow) : Prop :=
  row.steps = [] ∨ row.steps.map StepRecord.name = workflow.steps

/-- The call a step of the machine is about. -/
def Event.call : Event → Option CallId
  | .renewLease c _ => some c
  | .persist c => some c
  | .persistFails c _ => some c
  | .execute c _ => some c
  | .announce c _ => some c
  | .compensate c _ => some c
  | .stop c => some c
  | _ => none

/-! ### Driving a run -/

/-- Call `c` is in progress and holds the lease of its run. -/
structure Driving (s : State) (c : CallId) (inv : Invocation) : Prop where
  call : s.calls[c]? = some inv
  held : ∃ row, s.rows.find inv.jobId = some row ∧ inv.holds row = true

theorem setCall_call {inv' : Invocation} (call : s.calls[c]? = some inv) :
    (s.setCall c inv').calls[c]? = some inv' := by
  obtain ⟨inside, -⟩ := List.getElem?_eq_some_iff.mp call
  exact List.getElem?_set_self inside

theorem Driving.renewLease (driving : Driving s c inv) {i : Nat}
    (phase : inv.phase = .renewing i) :
    ∃ s', (machine config start).step s (.renewLease c s.clock) = some s' ∧ Driving s' c
      { inv with steps := inv.steps.modify i (·.started s.clock), phase := .starting i } := by
  obtain ⟨call, row, found, holds⟩ := driving
  refine ⟨renew config s c inv i s.clock, by simp [machine, step, call, phase], ?_⟩
  rw [renew, if_pos (by rw [found]; exact holds)]
  refine ⟨setCall_call call, row.renewed config s.clock, ?_, holds⟩
  rw [Rows.find_update, found, Option.map_some, if_pos holds]

theorem patch_lease (row : JobRow) (status : ProvisioningJobStatus) (now : Int)
    (continues : inv.phase ≠ .finishing) : (inv.patch status now row).leasedBy = row.leasedBy ∧
      (inv.patch status now row).fencingToken = row.fencingToken := by
  unfold Invocation.patch
  split
  case h_5 phase => exact absurd phase continues
  all_goals exact ⟨rfl, rfl⟩

theorem find_patch {status : ProvisioningJobStatus} (found : s.rows.find inv.jobId = some row) :
    (s.rows.update (·.id = inv.jobId) (inv.patch status s.clock)
      fun _ => (inv.patch_row ..).1).find inv.jobId = some (inv.patch status s.clock row) := by
  have key := Rows.key_of_find found
  rw [Rows.find_update, found, Option.map_some, if_pos (by simpa using key)]

theorem Driving.persist (driving : Driving s c inv) {status : ProvisioningJobStatus}
    (writes : inv.phase.writes = some status) (continues : inv.phase ≠ .finishing) :
    ∃ s', (machine config start).step s (.persist c) = some s' ∧
      Driving s' c (inv.saved status) := by
  obtain ⟨call, row, found, holds⟩ := driving
  refine ⟨save s c inv status, by simp only [machine, step, call, writes], setCall_call call, _,
    find_patch found, ?_⟩
  obtain ⟨leasedBy, token⟩ := patch_lease row status s.clock continues
  obtain ⟨id, -, -⟩ := inv.patch_row status s.clock row
  simp only [Invocation.holds, Invocation.saved, leasedBy, token, id]
  exact holds

theorem Driving.execute (driving : Driving s c inv) {i : Nat} (phase : inv.phase = .executing i)
    (output : String) :
    ∃ s', (machine config start).step s (.execute c (.ok output)) = some s' ∧ Driving s' c
      { inv with steps := inv.steps.modify i (·.done output s.clock), phase := .recording i } := by
  obtain ⟨call, row, found, holds⟩ := driving
  exact ⟨s.setCall c _, by simp only [machine, step, call, phase], setCall_call call, row, found,
    holds⟩

theorem Driving.announce (driving : Driving s c inv) {i : Nat}
    (phase : inv.phase = .announcing i) :
    ∃ s', (machine config start).step s (.announce c none) = some s' ∧
      Driving s' c { inv with phase := nextStep inv.workflow inv.steps (i + 1) } := by
  obtain ⟨call, row, found, holds⟩ := driving
  exact ⟨s.setCall c _, by simp only [machine, step, call, phase], setCall_call call, row, found,
    holds⟩

/-- Every step of the machine that a continuation takes is one of call `c`. -/
def DrivenBy (c : CallId) (h : List Step) : Prop := ∀ t ∈ h, t.event.call = some c

theorem DrivenBy.cons {h : List Step} {t : Step} (event : t.event.call = some c)
    (driven : DrivenBy c h) : DrivenBy c (t :: h) := by
  intro u mem
  rcases List.mem_cons.mp mem with rfl | earlier
  · exact event
  · exact driven u earlier

/-- A call that succeeds with step `i` goes on with the next one. -/
theorem Driving.step_through (config : ProvisioningConfig) (start : Int)
    (driving : Driving s c inv) {i : Nat}
    (phase : inv.phase = .renewing i) :
    ∃ h s' inv', Steps (machine config start) s h s' ∧ DrivenBy c h ∧ Driving s' c inv' ∧
      inv'.jobId = inv.jobId ∧ inv'.workflow = inv.workflow ∧
      inv'.steps.length = inv.steps.length ∧
      inv'.phase = nextStep inv'.workflow inv'.steps (i + 1) := by
  obtain ⟨s₁, renewed, driving⟩ := driving.renewLease phase
  obtain ⟨s₂, started, driving⟩ := driving.persist rfl Phase.noConfusion
  obtain ⟨s₃, executed, driving⟩ := driving.execute rfl ""
  obtain ⟨s₄, recorded, driving⟩ := driving.persist rfl Phase.noConfusion
  obtain ⟨s₅, announced, driving⟩ := driving.announce rfl
  refine ⟨_, s₅, _, .step (.step (.step (.step (.step .refl renewed) started) executed) recorded)
    announced, ?_, driving, rfl, rfl, ?_, rfl⟩
  · exact .cons rfl (.cons rfl (.cons rfl (.cons rfl (.cons rfl fun t absent => by cases absent))))
  · simp [Invocation.saved]

theorem nextStep_inside {workflow : WorkflowDefinition} {steps : List StepRecord} {i : Nat}
    (fits : workflow.steps.length ≤ steps.length) :
    nextStep workflow steps i = .finishing ∨
      ∃ j, nextStep workflow steps i = .renewing j ∧ i ≤ j ∧ j < workflow.steps.length := by
  unfold nextStep
  split
  · exact .inl rfl
  · next j first =>
      have inside : j < workflow.steps.length :=
        List.mem_range.mp (List.mem_of_find?_eq_some first)
      have hit := List.find?_some first
      simp only [decide_eq_true_eq] at hit
      rw [if_pos (Nat.lt_of_lt_of_le inside fits)]
      exact .inr ⟨j, rfl, hit.1, inside⟩

/-- A call whose steps all succeed completes its run. The induction is on the number of
steps that are left. -/
theorem Driving.completes (n : Nat) : ∀ {s : State} {inv : Invocation} {i : Nat},
    Driving s c inv → inv.workflow.steps.length ≤ inv.steps.length →
    inv.phase = nextStep inv.workflow inv.steps i → inv.workflow.steps.length - i ≤ n →
    ∃ h s', Steps (machine config start) s h s' ∧ DrivenBy c h ∧
      jobStatus s' inv.jobId = some .completed := by
  have finish : ∀ {s : State} {inv : Invocation}, Driving s c inv → inv.phase = .finishing →
      ∃ h s', Steps (machine config start) s h s' ∧ DrivenBy c h ∧
        jobStatus s' inv.jobId = some .completed := by
    rintro s inv ⟨call, row, found, -⟩ phase
    have ok : (machine config start).step s (.persist c) = some (save s c inv .completed) := by
      simp [machine, step, call, phase, Phase.writes]
    refine ⟨_, save s c inv .completed, .step .refl ok,
      .cons rfl (fun t absent => by cases absent), ?_⟩
    have status := (inv.patch_row .completed s.clock row).2.2
    have stored : (save s c inv .completed).rows.find inv.jobId = _ := find_patch found
    rw [jobStatus, stored, Option.map_some, status]
  induction n with
  | zero =>
      intro s inv i driving fits phase left
      rcases nextStep_inside (i := i) fits with last | ⟨j, -, later, inside⟩
      · exact finish driving (phase.trans last)
      · omega
  | succ n ih =>
      intro s inv i driving fits phase left
      rcases nextStep_inside (i := i) fits with last | ⟨j, next, later, inside⟩
      · exact finish driving (phase.trans last)
      · obtain ⟨h, s', inv', steps, driven, driving, job, workflow, length, phase'⟩ :=
          driving.step_through config start (phase.trans next)
        obtain ⟨h', s'', rest, driven', completed⟩ := ih driving
          (by rw [workflow, length]; exact fits) phase' (by rw [workflow]; omega)
        refine ⟨h' ++ h, s'', steps.trans rest, ?_, job ▸ completed⟩
        intro t mem
        rcases List.mem_append.mp mem with later | earlier
        · exact driven' t later
        · exact driven t earlier

/-! ### The recovery sweep -/

/-- Worker `workerId` acquires the lease and one call of `runProvisioningJob` that it
makes then drives the run to its end. -/
def Recovers (config : ProvisioningConfig) (start : Int) (s : State) (k : JobId)
    (workflow : WorkflowDefinition) (workerId : String) (row : JobRow) : Prop :=
  ∃ s₁ s₂, (machine config start).step s (.acquireLease k workerId s.clock) = some s₁ ∧
    s₁.rows.find k = some (row.claimed config workerId s.clock) ∧
    (machine config start).step s₁
      (.runProvisioningJob k workflow workerId (row.fencingToken + 1)) = some s₂ ∧
    ∃ h s', Steps (machine config start) s₂ h s' ∧ DrivenBy s₁.calls.length h ∧
      ∃ status ∈ terminalStatuses, jobStatus s' k = some status

/-- The sweep returns the run, subject to its limit, and any worker can recover it. -/
structure Resumable (config : ProvisioningConfig) (start : Int) (s : State) (row : JobRow) :
    Prop where
  returned : row ∈ s.rows.select (claimable s.clock)
  recovered : ∀ workflow workerId, Fits workflow row →
    Recovers config start s row.id workflow workerId row

theorem Fits.length {workflow : WorkflowDefinition} (fits : Fits workflow row) :
    workflow.steps.length ≤ (backfill k workflow row.steps).length := by
  unfold backfill
  rcases fits with empty | names
  · simp [empty, initialSteps]
  · rw [← names, List.length_map]
    split
    · exact Nat.le_refl _
    · exact Nat.le_of_eq (by simp [initialSteps, ← names])

theorem recovers {workflow : WorkflowDefinition} {workerId : String}
    (found : s.rows.find k = some row) (opened : claimable s.clock row = true)
    (fits : Fits workflow row) : Recovers config start s k workflow workerId row := by
  have key := Rows.key_of_find found
  let s₁ : State :=
    { s with
      rows := s.rows.update (fun row => row.id = k ∧ claimable s.clock row)
        (·.claimed config workerId s.clock) fun row => row.claimed_id .. }
  have claimed : s₁.rows.find k = some (row.claimed config workerId s.clock) := by
    rw [Rows.find_update, found, Option.map_some, if_pos (by simp [key, opened])]
  let inv : Invocation :=
    { jobId := k
      workflow := workflow
      workerId := workerId
      fencingToken := row.fencingToken + 1
      steps := backfill k workflow row.steps
      phase := nextStep workflow (backfill k workflow row.steps) 0
      seen := ⟨backfill k workflow row.steps, .running⟩ }
  let s₂ : State := { s₁ with calls := s₁.calls ++ [inv] }
  have acquires : (machine config start).step s (.acquireLease k workerId s.clock) = some s₁ :=
    if_pos (Int.le_refl s.clock)
  have loads : (machine config start).step s₁
      (.runProvisioningJob k workflow workerId (row.fencingToken + 1)) = some s₂ := by
    simp only [machine, step, loadJob, claimed]
    rfl
  have driving : Driving s₂ s₁.calls.length inv := by
    refine ⟨List.getElem?_concat_length .., _, claimed, ?_⟩
    simp [Invocation.holds, JobRow.claimed, inv, key]
  obtain ⟨h, s', steps, driven, completed⟩ :=
    driving.completes _ fits.length rfl (Nat.le_refl _)
  exact ⟨s₁, s₂, acquires, claimed, loads, h, s', steps, driven, .completed, by decide, completed⟩

/-- In any state, and so in every state that a run leaves behind: a run that is not over
and whose lease is absent or has expired is resumable, exactly if it is not in
compensation and, when it is running, has a lease that can expire. -/
theorem resumable_iff (mem : row ∈ s.rows.list) (live : row.status ∉ terminalStatuses)
    (isOver : LeaseOver s.clock row) :
    Resumable config start s row ↔
      row.status ≠ .compensating ∧ (row.status = .running → row.leaseExpiresAt ≠ none) := by
  constructor
  · rintro ⟨returned, -⟩
    have opened := (Rows.mem_select.mp returned).2
    simp only [claimable, decide_eq_true_eq] at opened
    rcases opened with pending | ⟨running, expired⟩
    · simp [pending]
    · refine ⟨by simp [running], fun _ absent => ?_⟩
      simp [absent] at expired
  · rintro ⟨notCompensating, leased⟩
    have opened : claimable s.clock row = true := by
      simp only [claimable, decide_eq_true_eq]
      cases status : row.status with
      | pending => exact .inl rfl
      | running =>
          obtain ⟨expiry, some⟩ := Option.ne_none_iff_exists'.mp (leased status)
          exact .inr ⟨rfl, by simpa [some] using isOver expiry some⟩
      | compensating => exact absurd status notCompensating
      | completed | compensated | failed => simp [status, terminalStatuses] at live
    exact ⟨Rows.mem_select.mpr ⟨mem, opened⟩,
      fun _ _ fits => recovers (Rows.find_of_mem mem) opened fits⟩

/-! ### Two crashes -/

/-- The worker crashes while it executes the step, and its lease expires. -/
def interrupted : List Event :=
  [.submitSelect 0 submission, .submitInsert 0 1, .submitSteps 0, .acquireLease 1 "a" 0,
    .runProvisioningJob 1 activation "a" 1, .renewLease 0 0, .persist 0, .stop 0, .advance 11]

def interruptedRun : List Step × State :=
  (machine shortLease 0).play interrupted ([], (machine shortLease 0).init)

theorem resumable_interrupted :
    interruptedRun.2.rows.list ≠ [] ∧ ∀ row ∈ interruptedRun.2.rows.list,
      row.status = .running ∧ Resumable shortLease 0 interruptedRun.2 row := by
  have stored : ∀ row ∈ interruptedRun.2.rows.list, row.status = .running ∧
      LeaseOver interruptedRun.2.clock row ∧ row.leaseExpiresAt ≠ none := by decide
  refine ⟨by decide, fun row mem => ?_⟩
  obtain ⟨running, isOver, leased⟩ := stored row mem
  exact ⟨running, (resumable_iff mem (by simp [running, terminalStatuses]) isOver).mpr
    ⟨by simp [running], fun _ => leased⟩⟩

/-- One attempt is all a step has. -/
def impatient : ProvisioningConfig :=
  { shortLease with maxStepAttempts := 1, attempts_pos := Nat.one_pos }

/-- The step fails for good, and the worker crashes before it is compensated. -/
def crashedCompensation : List Event :=
  [.submitSelect 0 submission, .submitInsert 0 1, .submitSteps 0, .acquireLease 1 "a" 0,
    .runProvisioningJob 1 activation "a" 1, .renewLease 0 0, .persist 0,
    .execute 0 (.error "no funds"), .persist 0, .stop 0, .advance 11]

theorem compensation_stuck :
    ∃ h s, Run (machine impatient 0) h s ∧ jobStatus s 1 = some .compensating ∧
      (∀ row ∈ s.rows.list, LeaseOver s.clock row) ∧ findResumableJobs s 10 = [] ∧
      (step impatient s (.acquireLease 1 "b" s.clock)).map (·.rows.list) = some s.rows.list :=
  ⟨_, _, Machine.play_run _ crashedCompensation, by decide, by decide, by decide, by decide⟩

end Talos.Provisioning
