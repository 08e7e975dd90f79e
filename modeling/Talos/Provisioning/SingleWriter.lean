import Talos.Provisioning.Consistency

/-!
# Completed steps

`renewLease` compares the fencing token before a step starts, but nothing compares it
when the step runs or when the step list is written back, and the second UPDATE of a
submission does not ask whether the run has started. A worker whose lease has expired
meanwhile takes back what its successor recorded (`completed_step_lost`). The same
happens within one call when the event of a completed step cannot be appended, and when a
run is resumed in the middle of its compensation. In a run without these steps a
completed step stays completed, or is compensated, and is not executed again
(`completed_along`).
-/

namespace Talos.Provisioning

open Database Soroban

variable {config : ProvisioningConfig} {start : Int} {s s' : State} {e : Event} {h : List Step}
  {k : JobId}

/-! ### What is recorded -/

/-- Step `i` of run `k` is recorded with a status that follows `status`. -/
def Recorded (k : JobId) (i : Nat) (status : StepStatus) (s : State) : Prop :=
  ∃ row record, s.rows.find k = some row ∧ row.steps[i]? = some record ∧
    Follows status record.status

/-- The status with which step `i` of run `k` is stored. -/
def stepStatus (s : State) (k : JobId) (i : Nat) : Option StepStatus :=
  ((s.rows.find k).bind (·.steps[i]?)).map StepRecord.status

def jobStatus (s : State) (k : JobId) : Option ProvisioningJobStatus :=
  (s.rows.find k).map JobRow.status

/-- The run and the step whose effect is executed. -/
def executed (t : Step) : Option (JobId × Nat) :=
  match t.event with
  | .execute c _ => (t.pre.calls[c]?).bind fun inv =>
      match inv.phase with
      | .executing i => some (inv.jobId, i)
      | _ => none
  | _ => none

theorem recorded_iff {i : Nat} {status : StepStatus} :
    Recorded k i status s ↔ ∃ now, stepStatus s k i = some now ∧ Follows status now := by
  constructor
  · rintro ⟨row, record, found, at', follows⟩
    exact ⟨record.status, by simp [stepStatus, found, at'], follows⟩
  · rintro ⟨now, stored, follows⟩
    obtain ⟨record, held, rfl⟩ := Option.map_eq_some_iff.mp stored
    obtain ⟨row, found, at'⟩ := Option.bind_eq_some_iff.mp held
    exact ⟨row, record, found, at', follows⟩

theorem executed_eq_some {t : Step} {i : Nat} (executes : executed t = some (k, i)) :
    ∃ (c : CallId) (inv : Invocation), t.pre.calls[c]? = some inv ∧ acting t = some inv ∧
      inv.jobId = k ∧ inv.phase = .executing i := by
  unfold executed at executes
  split at executes
  · next c outcome event =>
      obtain ⟨inv, call, executes⟩ := Option.bind_eq_some_iff.mp executes
      split at executes
      · next phase =>
          cases executes
          exact ⟨c, inv, call, by simp [acting, event, call], rfl, phase⟩
      · cases executes
  · cases executes

theorem backfill_of_getElem? {workflow : WorkflowDefinition} {steps : List StepRecord} {i : Nat}
    {record : StepRecord} (found : steps[i]? = some record) :
    backfill k workflow steps = steps := by
  obtain ⟨inside, -⟩ := List.getElem?_eq_some_iff.mp found
  rw [backfill, if_pos (Nat.zero_lt_of_lt inside)]

theorem Recorded.step {i : Nat} {status : StepStatus} (recorded : Recorded k i status s)
    (consistent : Consistent s) (ok : step config s e = some s') (unraced : Unraced ⟨s, e, s'⟩) :
    Recorded k i status s' := by
  obtain ⟨row, record, found, at', follows⟩ := recorded
  have change := step_row ok k
  generalize after : s'.rows.find k = stored at change
  cases change with
  | stays => exact ⟨row, record, after.trans found, at', follows⟩
  | inserted _ _ _ absent =>
      rw [found] at absent
      cases absent
  | submitted c workflow row₀ event call found₀ =>
      rw [found] at found₀
      cases found₀
      have empty : row.steps = [] := unraced.submits k (by simp [submitted, event, call]) row found
      rw [empty] at at'
      cases at'
  | acquired _ _ row₀ _ found₀ =>
      rw [found] at found₀
      cases found₀
      exact ⟨_, record, after, at', follows⟩
  | renewed _ _ row₀ _ found₀ =>
      rw [found] at found₀
      cases found₀
      exact ⟨_, record, after, at', follows⟩
  | persisted c inv written row₀ event call job writes found₀ =>
      rw [found] at found₀
      cases found₀
      subst job
      have sees := unraced.acts inv (by simp [acting, event, call]) row found
      rw [Invocation.sees, backfill_of_getElem? at'] at sees
      have sound := consistent.calls inv (List.mem_of_getElem? call)
      obtain ⟨record', at'', later⟩ := sound.keeps i record (sees.1 ▸ at')
      obtain ⟨-, steps, -⟩ := inv.patch_row written s.clock row
      exact ⟨_, record', after, by rw [steps, at''], follows.trans later⟩

/-- A step that is recorded as completed or compensated is not executed. -/
theorem Recorded.not_executed {i : Nat} {t : Step} (recorded : Recorded k i .completed t.pre)
    (consistent : Consistent t.pre) (unraced : Unraced t) : executed t ≠ some (k, i) := by
  obtain ⟨row, record, found, at', follows⟩ := recorded
  intro executes
  obtain ⟨c, inv, call, acts, rfl, phase⟩ := executed_eq_some executes
  have sees := unraced.acts inv acts row found
  rw [Invocation.sees, backfill_of_getElem? at'] at sees
  have running := (consistent.calls inv (List.mem_of_getElem? call)).executing i record
    (.inl phase) (sees.1 ▸ at')
  rw [running] at follows
  simp [Follows] at follows

/-- A run that is over stays so. -/
theorem terminal_step {row : JobRow} (consistent : Consistent s)
    (ok : step config s e = some s') (unraced : Unraced ⟨s, e, s'⟩)
    (found : s.rows.find k = some row) (isOver : row.status ∈ terminalStatuses) :
    ∃ row', s'.rows.find k = some row' ∧ row'.status = row.status := by
  have change := step_row ok k
  generalize after : s'.rows.find k = stored at change
  cases change with
  | stays => exact ⟨row, found, rfl⟩
  | inserted _ _ _ absent =>
      rw [found] at absent
      cases absent
  | submitted _ _ row₀ _ _ found₀ | renewed _ _ row₀ _ found₀ =>
      rw [found] at found₀
      cases found₀
      exact ⟨_, rfl, rfl⟩
  | acquired _ _ row₀ _ found₀ opened =>
      rw [found] at found₀
      cases found₀
      simp only [claimable, decide_eq_true_eq] at opened
      rcases opened with status | ⟨status, -⟩ <;> rw [status] at isOver <;>
        simp [terminalStatuses] at isOver
  | persisted c inv written row₀ event call job writes found₀ =>
      rw [found] at found₀
      cases found₀
      subst job
      have sees := unraced.acts inv (by simp [acting, event, call]) row found
      have sound := consistent.calls inv (List.mem_of_getElem? call)
      refine absurd (sees.2 ▸ isOver) (sound.live ?_)
      intro ended
      rw [ended] at writes
      cases writes

theorem Recorded.steps {i : Nat} {status : StepStatus} (recorded : Recorded k i status s)
    (consistent : Consistent s) (steps : Steps (machine config start) s h s')
    (each : ∀ t ∈ h, Unraced t) : Consistent s' ∧ Recorded k i status s' :=
  steps.invariant_along (I := fun s => Consistent s ∧ Recorded k i status s) each
    ⟨consistent, recorded⟩ fun ⟨consistent, recorded⟩ ok unraced =>
      ⟨consistent.step ok unraced, recorded.step consistent ok unraced⟩

theorem terminal_steps {row : JobRow} (consistent : Consistent s)
    (steps : Steps (machine config start) s h s') (each : ∀ t ∈ h, Unraced t)
    (found : s.rows.find k = some row) (isOver : row.status ∈ terminalStatuses) :
    ∃ row', s'.rows.find k = some row' ∧ row'.status = row.status := by
  have kept := steps.invariant_along
    (I := fun s' => Consistent s' ∧ ∃ row', s'.rows.find k = some row' ∧ row'.status = row.status)
    each ⟨consistent, row, found, rfl⟩ ?_
  · exact kept.2
  · rintro t e t' ⟨consistent, row', found', same⟩ ok unraced
    obtain ⟨row'', found'', same'⟩ := terminal_step consistent ok unraced found' (same ▸ isOver)
    exact ⟨consistent.step ok unraced, row'', found'', same'.trans same⟩

/-- From every state that is reached in a run without a race, and in every
continuation without one: a step recorded as completed is not executed again and stays
completed or becomes compensated, and a run that is over keeps its status. -/
theorem completed_along {h' : List Step} (run : Run (machine config start) h s)
    (rest : Steps (machine config start) s h' s') (each : ∀ t ∈ h' ++ h, Unraced t) :
    (∀ k i, stepStatus s k i = some .completed →
      (∀ t ∈ h', executed t ≠ some (k, i)) ∧
        (stepStatus s' k i = some .completed ∨ stepStatus s' k i = some .compensated)) ∧
    ∀ k status, jobStatus s k = some status → status ∈ terminalStatuses →
      jobStatus s' k = some status := by
  have before := consistent run fun t mem => each t (List.mem_append_right _ mem)
  have later : ∀ t ∈ h', Unraced t := fun t mem => each t (List.mem_append_left _ mem)
  constructor
  · intro k i completed
    have recorded : Recorded k i .completed s := recorded_iff.mpr ⟨_, completed, .refl _⟩
    constructor
    · intro t mem
      obtain ⟨after, upTo, rfl⟩ := List.append_of_mem mem
      obtain ⟨steps, -, -⟩ := rest.split
      obtain ⟨now, recorded⟩ := recorded.steps before steps fun u mem =>
        later u (List.mem_append_right _ (List.mem_cons_of_mem _ mem))
      exact recorded.not_executed now (later t (by simp))
    · obtain ⟨now, stored, follows⟩ := recorded_iff.mp (recorded.steps before rest later).2
      rw [stored]
      exact follows.imp (congrArg some) (congrArg some)
  · intro k status stored isOver
    obtain ⟨row, found, rfl⟩ := Option.map_eq_some_iff.mp stored
    obtain ⟨row', found', same⟩ := terminal_steps before rest later found isOver
    rw [jobStatus, found', Option.map_some, same]

/-! ### Two workers -/

def shortLease : ProvisioningConfig := ⟨10, 3, by decide, by decide⟩

def activation : WorkflowDefinition := ⟨.activate, ["wallet"]⟩

def submission : SubmitOptions := ⟨"agent", .activate, "key", activation⟩

/-- A worker provisions the run. -/
def provisioned : List Event :=
  [.submitSelect 0 submission, .submitInsert 0 1, .submitSteps 0, .acquireLease 1 "a" 0,
    .runProvisioningJob 1 activation "a" 1, .renewLease 0 0, .persist 0, .execute 0 (.ok "done"),
    .persist 0, .announce 0 none]

def provisionedRun : List Step × State :=
  (machine shortLease 0).play provisioned ([], (machine shortLease 0).init)

/-- The worker records that the run is completed. -/
def settledRun : List Step × State :=
  (machine shortLease 0).play [.persist 0, .stop 0] ([], provisionedRun.2)

theorem completed_along_provisioned :
    (∀ t ∈ settledRun.1 ++ provisionedRun.1, Unraced t) ∧
      stepStatus provisionedRun.2 1 0 = some .completed ∧
      (∀ t ∈ settledRun.1, executed t ≠ some (1, 0)) ∧
      (stepStatus settledRun.2 1 0 = some .completed ∨
        stepStatus settledRun.2 1 0 = some .compensated) :=
  have run : Run (machine shortLease 0) provisionedRun.1 provisionedRun.2 := Machine.play_run ..
  have rest : Steps (machine shortLease 0) provisionedRun.2 settledRun.1 settledRun.2 :=
    Machine.play_from ..
  have guards : ∀ t ∈ settledRun.1 ++ provisionedRun.1, Unraced t := by decide
  have stored : stepStatus provisionedRun.2 1 0 = some .completed := by decide
  ⟨guards, stored, (completed_along run rest guards).1 1 0 stored⟩

/-- The lease of worker `a` expires while it executes the step. Worker `b` takes the run
over and completes it. Then the step fails in the hands of `a`. -/
def overtaken : List Event :=
  [.submitSelect 0 submission, .submitInsert 0 1, .submitSteps 0, .acquireLease 1 "a" 0,
    .runProvisioningJob 1 activation "a" 1, .renewLease 0 0, .persist 0, .advance 11,
    .acquireLease 1 "b" 11, .runProvisioningJob 1 activation "b" 2, .renewLease 1 11, .persist 1,
    .execute 1 (.ok "done"), .persist 1, .announce 1 none, .persist 1]

def takenBack : List Event :=
  [.execute 0 (.error "timeout"), .persist 0, .acquireLease 1 "c" 11,
    .runProvisioningJob 1 activation "c" 3, .renewLease 2 11, .persist 2, .execute 2 (.ok "done")]

theorem completed_step_lost :
    ∃ h s h' s', Run (machine shortLease 0) h s ∧ Steps (machine shortLease 0) s h' s' ∧
      stepStatus s 1 0 = some .completed ∧ jobStatus s 1 = some .completed ∧
      (∃ t ∈ h', executed t = some (1, 0)) ∧ (∃ t ∈ h', stepStatus t.post 1 0 = some .pending) ∧
      jobStatus s' 1 = some .running :=
  ⟨_, _, _, _, Machine.play_run _ overtaken, Machine.play_from _ _ takenBack, by decide,
    by decide, by decide, by decide, by decide⟩

end Talos.Provisioning
