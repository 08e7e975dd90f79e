import Talos.Reconciler.Finality

/-!
# Stored statuses move along the machine

What `processRecord` writes was proposed by the state machine for the copy it holds, so
the validation before the write never refuses it (`proposals_allowed`). When the copy
still has the stored status, the stored record makes that transition
(`transitions_along`).
-/

namespace Talos.Reconciler

open Database

variable {configs : InstanceId → ReconcilerConfig} {start : Int} {downstream : Downstream}
  {s s' : State} {e : Event} {h : List Step}

/-- The tasks there are after a step. -/
inductive TaskStep (configs : InstanceId → ReconcilerConfig) (s : State) : Task → Prop where
  | kept (task : Task) (mem : task ∈ s.tasks) : TaskStep configs s task
  | started (i : InstanceId) (record : TxRecord) (currentLedger : Int) :
      TaskStep configs s ⟨i, record, currentLedger, .polling⟩
  | polled (task : Task) (result : Option HorizonPollResult) :
      TaskStep configs s
        { task with
          stage := afterTransition task.record (computeTransition task.record result
            task.currentLedger (configs task.owner) s.clock) }
  | moved (task : Task) (stage : Stage) (still : ∀ update, stage ≠ .writing update) :
      TaskStep configs s { task with stage := stage }

variable {task : Task}

theorem taskStep_setTask {j : TaskId} {old : Task} {stage : Stage}
    (staged : TaskStep configs s { old with stage := stage })
    (mem : task ∈ (s.setTask j old stage).tasks) : TaskStep configs s task := by
  rcases List.mem_or_eq_of_mem_set mem with kept | rfl
  · exact .kept task kept
  · exact staged

/-- A task after draining was there before, or starts. -/
theorem mem_drain {limit : Nat} {i : InstanceId} {currentLedger : Int}
    (mem : task ∈ (s.drain limit i currentLedger).tasks) :
    task ∈ s.tasks ∨ ∃ record, task = ⟨i, record, currentLedger, .polling⟩ := by
  rcases List.mem_append.mp mem with old | new
  · exact .inl old
  · obtain ⟨record, -, rfl⟩ := List.mem_map.mp new
    exact .inr ⟨record, rfl⟩

/-- Every task is accounted for. -/
theorem step_task (ok : step configs s e = some s') (mem : task ∈ s'.tasks) :
    TaskStep configs s task := by
  cases e with
  | advance now =>
      simp only [step, Option.ite_none_right_eq_some, Option.some.injEq] at ok
      obtain ⟨-, rfl⟩ := ok
      exact .kept task mem
  | setJob | setPurchase =>
      cases ok
      exact .kept task mem
  | registerTx c opts =>
      simp only [step, Option.ite_none_left_eq_some] at ok
      obtain ⟨-, ok⟩ := ok
      split at ok <;> cases ok <;> exact .kept task mem
  | registerInsert c id =>
      simp only [step] at ok
      split at ok
      · cases ok
        rw [registerRow_memory.2.2] at mem
        exact .kept task mem
      · cases ok
  | runOneTick t i currentLedger =>
      simp only [step, Option.ite_none_left_eq_some] at ok
      obtain ⟨-, ok⟩ := ok
      cases currentLedger <;> cases ok <;> exact .kept task mem
  | select t order =>
      simp only [step] at ok
      split at ok
      · split at ok
        · cases ok
          exact .kept task mem
        · cases ok
      · cases ok
  | queue t =>
      simp only [step] at ok
      split at ok
      · split at ok
        · cases ok
          exact .kept task mem
        · cases ok
          rcases mem_drain mem with kept | ⟨record, rfl⟩
          · exact .kept task kept
          · exact .started _ record _
      · cases ok
  | poll j pollResult =>
      simp only [step] at ok
      split at ok
      · split at ok
        · cases ok
          exact taskStep_setTask (.polled _ _) mem
        · cases ok
      · cases ok
  | write j =>
      simp only [step] at ok
      split at ok
      · split at ok
        · cases ok
          refine taskStep_setTask (.moved _ _ ?_) mem
          intro update
          split <;> exact Stage.noConfusion
        · cases ok
      · cases ok
  | repair j error =>
      simp only [step] at ok
      split at ok
      · split at ok
        · cases ok
          refine taskStep_setTask (.moved _ _ ?_) mem
          intro update
          split <;> exact Stage.noConfusion
        · cases ok
      · cases ok
  | mark j =>
      simp only [step] at ok
      split at ok
      · split at ok
        · cases ok
          exact taskStep_setTask (.moved _ _ fun _ => Stage.noConfusion) mem
        · cases ok
      · cases ok
  | finish j =>
      simp only [step] at ok
      split at ok
      · split at ok
        · cases ok
        · cases ok
          rcases mem_drain mem with kept | ⟨record, rfl⟩
          · exact taskStep_setTask (.moved _ _ fun _ => Stage.noConfusion) kept
          · exact .started _ record _
      · cases ok
  | crash i =>
      cases ok
      obtain ⟨old, held, rfl⟩ := List.mem_map.mp mem
      unfold Task.crashed
      split
      · exact .moved old _ fun _ => Stage.noConfusion
      · exact .kept old held

/-- What a task is about to write is a transition its copy may make. -/
def Proposes (task : Task) : Prop :=
  ∀ update next, task.stage = .writing update → update.finalityStatus = some next →
    next ∈ allowed task.record.finalityStatus

theorem afterTransition_writing {record : TxRecord} {proposed : Option TxRecordUpdate}
    {update : TxRecordUpdate} (stage : afterTransition record proposed = .writing update) :
    proposed = some update := by
  unfold afterTransition at stage
  split at stage
  · cases stage
  · split at stage
    · cases stage
    · cases stage
      rfl

theorem proposals_allowed (reach : Reachable (machine configs start downstream) s) :
    ∀ task ∈ s.tasks, Proposes task := by
  refine reach.invariant (I := fun s => ∀ task ∈ s.tasks, Proposes task) ?_ ?_
  · intro task absent
    cases absent
  · intro s e s' inv ok task mem update next stage status
    cases step_task ok mem with
    | kept _ mem => exact inv task mem update next stage status
    | started => cases stage
    | polled old result => exact computeTransition_allowed (afterTransition_writing stage) status
    | moved old stage' still => exact absurd stage (still update)

/-- So the validation of a proposal against its own copy never refuses it. -/
theorem proposals_validated (reach : Reachable (machine configs start downstream) s)
    {update : TxRecordUpdate} {next : FinalityStatus} (mem : task ∈ s.tasks)
    (stage : task.stage = .writing update) (status : update.finalityStatus = some next) :
    validateTransition task.record.finalityStatus next = none :=
  validateTransition_eq_none.mpr (.inr (proposals_allowed reach task mem update next stage status))

/-- In a run whose UPDATEs find the status of their copies, each step leaves a stored
status as it is or makes an allowed transition. -/
theorem transitions_along (run : Run (machine configs start downstream) h s)
    (each : ∀ t ∈ h, WritesFresh t) :
    ∀ t ∈ h, ∀ k row row', t.pre.records.find k = some row → t.post.records.find k = some row' →
      row'.finalityStatus = row.finalityStatus ∨
        row'.finalityStatus ∈ allowed row.finalityStatus := by
  intro t mem k row row' found found'
  have fresh := each t mem
  obtain ⟨later, earlier, rfl⟩ := List.append_of_mem mem
  obtain ⟨before, ok, -⟩ := run.split
  have change := step_row ok k
  rw [found'] at change
  generalize after : some row' = stored at change
  cases change with
  | stays =>
      rw [found] at after
      cases after
      exact .inl rfl
  | inserted _ _ _ absent =>
      rw [found] at absent
      cases absent
  | written j task update row₀ event holds stage id found₀ =>
      cases after
      rw [found] at found₀
      cases found₀
      subst id
      have same := fresh task.record (by simp [writtenCopy, event, holds]) row found
      cases status : update.finalityStatus with
      | none =>
          left
          simp [TxRecord.written, status, same]
      | some next =>
          right
          have proposed := proposals_allowed ⟨_, before⟩ task (List.mem_of_getElem? holds) update
            next stage status
          simpa [TxRecord.written, status, same] using proposed
  | marked _ _ row₀ _ _ _ _ found₀ =>
      cases after
      rw [found] at found₀
      cases found₀
      exact .inl rfl

end Talos.Reconciler
