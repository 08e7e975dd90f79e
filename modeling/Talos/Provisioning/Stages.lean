import Talos.Provisioning.Turns

/-!
# The stages of a run

What a stage of the saga says of a run: which steps the row has as completed, and what the
call that is at work holds in its phase. Every event about the call leads to such a stage
again (`Busy.turn`).
-/

namespace Talos.Provisioning

open Database Soroban
open Saga (Stage Path)

variable {config : ProvisioningConfig} {e : Event} {k : JobId} {steps : List StepRecord} {i j : Nat}

/-! ### Lists of steps -/

def StepRecord.Open (record : StepRecord) : Prop :=
  record.status = .pending ∨ record.status = .running

/-- The steps below `i` are completed, the others open. -/
structure Prefix (steps : List StepRecord) (i : Nat) : Prop where
  le : i ≤ steps.length
  below : ∀ j record, steps[j]? = some record → j < i → record.status = .completed
  above : ∀ j record, steps[j]? = some record → i ≤ j → record.Open

/-- The same, except for step `i`. -/
structure Around (steps : List StepRecord) (i : Nat) : Prop where
  inside : i < steps.length
  below : ∀ j record, steps[j]? = some record → j < i → record.status = .completed
  above : ∀ j record, steps[j]? = some record → i < j → record.Open

/-- The steps below `j` are such that `compensate` undoes them. -/
def Undoable (steps : List StepRecord) (j : Nat) : Prop :=
  ∀ n < j, ∃ record, steps[n]? = some record ∧
    (record.status = .completed ∨ record.status = .failed)

/-- What a compensation leaves on its step. -/
def Unwound (record : StepRecord) : Option String → Prop
  | none => record.status = .compensated
  | some message => record.error = some ("compensation failed: " ++ safeError message)

/-- The outcomes of the compensations are recorded. -/
def Settled (steps : List StepRecord) (undone : List (Nat × Option String)) : Prop :=
  ∀ p ∈ undone, ∃ record, steps[p.1]? = some record ∧ Unwound record p.2

theorem Prefix.around (here : Prefix steps i) (inside : i < steps.length) : Around steps i :=
  ⟨inside, here.below, fun j record found above => here.above j record found (Nat.le_of_lt above)⟩

theorem Prefix.around_succ (here : Prefix steps (i + 1)) : Around steps i :=
  ⟨here.le, fun j record found below => here.below j record found (Nat.lt_succ_of_lt below),
    here.above⟩

theorem Around.modify (around : Around steps i) (f : StepRecord → StepRecord) :
    Around (steps.modify i f) i where
  inside := by
    rw [List.length_modify]
    exact around.inside
  below j record found below := by
    rw [List.getElem?_modify_ne _ _ (Nat.ne_of_gt below)] at found
    exact around.below j record found below
  above j record found above := by
    rw [List.getElem?_modify_ne _ _ (Nat.ne_of_lt above)] at found
    exact around.above j record found above

theorem Around.at (around : Around steps i) : ∃ record, steps[i]? = some record :=
  ⟨_, List.getElem?_eq_getElem around.inside⟩

theorem Around.opened (around : Around steps i) {record : StepRecord}
    (found : steps[i]? = some record) (opened : record.Open) : Prefix steps i where
  le := Nat.le_of_lt around.inside
  below := around.below
  above j other found' above := by
    rcases Nat.eq_or_lt_of_le above with rfl | above
    · cases found.symm.trans found'
      exact opened
    · exact around.above j other found' above

theorem Around.completed (around : Around steps i) {record : StepRecord}
    (found : steps[i]? = some record) (completed : record.status = .completed) :
    Prefix steps (i + 1) where
  le := around.inside
  below j other found' below := by
    rcases Nat.eq_or_lt_of_le (Nat.le_of_lt_succ below) with rfl | below
    · cases found.symm.trans found'
      exact completed
    · exact around.below j other found' below
  above j other found' above := around.above j other found' above

theorem Around.failed (around : Around steps i) {record : StepRecord}
    (found : steps[i]? = some record) (failed : record.status = .failed) :
    Undoable steps (i + 1) := by
  intro n below
  rcases Nat.eq_or_lt_of_le (Nat.le_of_lt_succ below) with rfl | below
  · exact ⟨record, found, .inr failed⟩
  · have inside : n < steps.length := Nat.lt_trans below around.inside
    have found := List.getElem?_eq_getElem inside
    exact ⟨_, found, .inl (around.below n _ found below)⟩

theorem getElem?_modify_self {f : StepRecord → StepRecord} {record : StepRecord}
    (found : steps[i]? = some record) : (steps.modify i f)[i]? = some (f record) := by
  rw [List.getElem?_modify_eq, found]
  rfl

theorem prefix_initialSteps (workflow : WorkflowDefinition) :
    Prefix (initialSteps k workflow) 0 where
  le := Nat.zero_le _
  below _ _ _ absent := absurd absent (Nat.not_lt_zero _)
  above j record found _ := by
    obtain ⟨name, -, rfl⟩ := List.mem_map.mp (List.mem_of_getElem? found)
    exact .inl rfl

theorem Prefix.backfill (here : Prefix steps i) (workflow : WorkflowDefinition) :
    Prefix (backfill k workflow steps) i := by
  unfold Provisioning.backfill
  split
  · exact here
  · next empty =>
      have zero : i = 0 := by
        have := here.le
        omega
      exact zero ▸ prefix_initialSteps workflow

/-! ### The loops -/

/-- The loop over the steps goes on with the first that is not completed. -/
theorem Prefix.nextStep (here : Prefix steps i) (workflow : WorkflowDefinition) {n : Nat}
    (le : n ≤ i) : nextStep workflow steps n = .finishing ∨ nextStep workflow steps n = .ended ∨
      nextStep workflow steps n = .renewing i ∧ i < steps.length := by
  unfold Provisioning.nextStep
  split
  · exact .inl rfl
  · next j first =>
      obtain ⟨hit, -, before⟩ := List.find?_range_eq_some.mp first
      split
      · next inside =>
          have found := List.getElem?_eq_getElem inside
          have later : ¬ j < i := by
            intro below
            have completed := here.below j _ found below
            simp [found, completed] at hit
          have sooner : ¬ i < j := by
            intro above
            have found := List.getElem?_eq_getElem (Nat.lt_trans above inside)
            have opened := here.above i _ found (Nat.le_refl i)
            have passed := before i above
            rcases opened with status | status <;> simp [found, status, le] at passed
          have same : i = j := by omega
          exact .inr (.inr ⟨by rw [same], same ▸ inside⟩)
      · exact .inr (.inl rfl)

/-- `compensate` goes on with the next step below. -/
theorem Undoable.nextUnwind (undoable : Undoable steps (j + 1)) (i : Nat) :
    nextUnwind steps i (j + 1) = .compensating i j := by
  obtain ⟨record, found, status⟩ := undoable j (Nat.lt_succ_self j)
  have hit : ((steps[j]?).any fun record => record.status = .completed ∨ record.status = .failed) =
      true := by
    rw [found, Option.any_some, decide_eq_true_iff]
    exact status
  unfold Provisioning.nextUnwind
  rw [List.range_succ, List.reverse_concat, List.find?_cons, hit]

/-! ### What a stage says of a run -/

/-- A row of which no step has failed for good. -/
structure JobRow.Open (row : JobRow) (i : Nat) : Prop where
  status : row.status = .pending ∨ row.status = .running ∨ row.status = .completed
  steps : Prefix row.steps i

/-- A row that no call is working on. -/
inductive Resting (row : JobRow) (undone : List (Nat × Option String)) : Stage → Prop where
  | opened (i : Nat) (tried : Bool) (rests : row.Open i) : Resting row undone (.forward i tried)
  | failed (i : Nat) (status : row.status = .failed) (cursor : row.cursor = i)
      (settled : Settled row.steps undone) : Resting row undone (.failed i)

/-- A call in a phase, with the steps it holds. -/
inductive Busy (row : JobRow) (undone : List (Nat × Option String)) (steps : List StepRecord) :
    Phase → Stage → Prop where
  | renewing (i : Nat) (tried : Bool) (here : Prefix steps i) (inside : i < steps.length)
      (rests : row.Open i) : Busy row undone steps (.renewing i) (.forward i tried)
  | starting (i : Nat) (tried : Bool) (here : Prefix steps i) (inside : i < steps.length) :
      Busy row undone steps (.starting i) (.forward i tried)
  | executing (i : Nat) (tried : Bool) (here : Prefix steps i) (inside : i < steps.length) :
      Busy row undone steps (.executing i) (.forward i tried)
  | recording (i : Nat) (here : Prefix steps (i + 1)) :
      Busy row undone steps (.recording i) (.forward i true)
  | announcing (i : Nat) (here : Prefix steps (i + 1)) (rests : row.Open (i + 1)) :
      Busy row undone steps (.announcing i) (.forward i true)
  | retrying (i : Nat) (here : Prefix steps i) :
      Busy row undone steps (.failing i false) (.forward i true)
  | failing (i : Nat) (undoable : Undoable steps (i + 1)) :
      Busy row undone steps (.failing i true) (.forward i true)
  | finishing (i : Nat) (tried : Bool) (here : Prefix steps i) :
      Busy row undone steps .finishing (.forward i tried)
  | compensating (i j : Nat) (undoable : Undoable steps (j + 1)) (settled : Settled steps undone) :
      Busy row undone steps (.compensating i j) (.backward i (j + 1))
  | unwinding (i j : Nat) (undoable : Undoable steps j) (settled : Settled steps undone) :
      Busy row undone steps (.unwinding i j) (.backward i j)
  | settling (i : Nat) (settled : Settled steps undone) :
      Busy row undone steps (.settling i) (.backward i 0)

/-- The row of run `k` and the call that works on it, if there is one. -/
inductive Held (k : JobId) (undone : List (Nat × Option String)) (s : State) : Stage → Prop where
  | unborn (absent : s.rows.find k = none) (quiet : Quiet k s) : Held k undone s (.forward 0 false)
  | resting (row : JobRow) (stage : Stage) (found : s.rows.find k = some row) (quiet : Quiet k s)
      (rests : Resting row undone stage) : Held k undone s stage
  | busy (row : JobRow) (c : CallId) (inv : Invocation) (stage : Stage)
      (found : s.rows.find k = some row) (call : s.calls[c]? = some inv) (job : inv.jobId = k)
      (others : ∀ c' inv', s.calls[c']? = some inv' → c' ≠ c → inv'.jobId = k →
        inv'.phase = .ended)
      (busy : Busy row undone inv.steps inv.phase stage) : Held k undone s stage

/-- Run `k` is a saga. -/
def Tracked (k : JobId) (h : List Step) (s : State) : Prop :=
  ∃ stage, Path (log k h) stage ∧ Held k (Saga.undone (log k h)) s stage

/-! ### One step -/

theorem Settled.modify {undone : List (Nat × Option String)} (settled : Settled steps undone)
    (others : ∀ p ∈ undone, j < p.1) (error : Option String) {record : StepRecord}
    (found : steps[j]? = some record) :
    Settled (steps.modify j (·.unwound error)) ((j, error) :: undone) := by
  intro p mem
  rcases List.mem_cons.mp mem with rfl | mem
  · refine ⟨_, getElem?_modify_self found, ?_⟩
    cases error with
    | none => rfl
    | some message => rfl
  · obtain ⟨record, found, unwound⟩ := settled p mem
    refine ⟨record, ?_, unwound⟩
    rw [List.getElem?_modify_ne _ _ (Nat.ne_of_lt (others p mem)), found]

theorem Undoable.modify {f : StepRecord → StepRecord} (undoable : Undoable steps (j + 1)) :
    Undoable (steps.modify j f) j := by
  intro n below
  obtain ⟨record, found, status⟩ := undoable n (Nat.lt_succ_of_lt below)
  exact ⟨record, by rw [List.getElem?_modify_ne _ _ (Nat.ne_of_gt below), found], status⟩

/-- The steps undone so far are above the next one. -/
theorem lt_undone {actions : List (Saga.Action (Option String))}
    (path : Path actions (.backward i (j + 1))) : ∀ p ∈ Saga.undone actions, j < p.1 := by
  intro p mem
  have listed := List.mem_map_of_mem (f := Prod.fst) mem
  rw [path.undone.2] at listed
  have := List.mem_range'_1.mp listed
  omega

/-- The phase in which `compensate` looks for the next step. -/
theorem Undoable.busy {row : JobRow} {undone : List (Nat × Option String)}
    (undoable : Undoable steps j) (settled : Settled steps undone) (i : Nat) :
    Busy row undone steps (Provisioning.nextUnwind steps i j) (.backward i j) := by
  cases j with
  | zero => exact .settling i settled
  | succ j =>
      rw [undoable.nextUnwind]
      exact .compensating i j undoable settled

/-- The `catch` around a step. -/
theorem Around.caught {row : JobRow} {undone : List (Nat × Option String)} {inv : Invocation}
    (around : Around inv.steps i) (config : ProvisioningConfig) (message : String) :
    Busy row undone (inv.caught config i message).steps (inv.caught config i message).phase
      (.forward i true) := by
  obtain ⟨record, found⟩ := around.at
  have at' := getElem?_modify_self (f := (·.failedWith config message)) found
  have around := around.modify (·.failedWith config message)
  unfold Invocation.caught
  rw [found, Option.any_some]
  cases exhausted : record.exhausted config with
  | false =>
      refine .retrying i (around.opened at' (.inl ?_))
      rw [StepRecord.failedWith, exhausted]
      rfl
  | true =>
      refine .failing i (around.failed at' ?_)
      rw [StepRecord.failedWith, exhausted]
      rfl

/-- A call that enters the loop over the steps, or a call that is over. -/
def Onward (row : JobRow) (inv : Invocation) (undone : List (Nat × Option String))
    (stage : Stage) : Prop :=
  inv.phase = .ended ∧ Resting row undone stage ∨ Busy row undone inv.steps inv.phase stage

theorem Prefix.onward {row : JobRow} {inv : Invocation} {undone : List (Nat × Option String)}
    (here : Prefix inv.steps i) (rests : row.Open i) (tried : Bool) {n : Nat} (le : n ≤ i)
    (phase : inv.phase = Provisioning.nextStep inv.workflow inv.steps n) :
    Onward row inv undone (.forward i tried) := by
  rcases here.nextStep inv.workflow le with next | next | ⟨next, inside⟩
  · refine .inr ?_
    rw [phase, next]
    exact .finishing i tried here
  · exact .inl ⟨phase.trans next, .opened i tried rests⟩
  · refine .inr ?_
    rw [phase, next]
    exact .renewing i tried here inside rests

/-- What `persist` does to a saga. -/
theorem Busy.persisted {row : JobRow} {inv : Invocation} {stage : Stage} {now : Int}
    {actions : List (Saga.Action (Option String))} {status : ProvisioningJobStatus} (c : CallId)
    (path : Path actions stage) (busy : Busy row (Saga.undone actions) inv.steps inv.phase stage)
    (writes : inv.phase.writes = some status) :
    ∃ stage', Path ((inv.phase.action (.persist c)).toList ++ actions) stage' ∧
      Onward (inv.patch status now row) (inv.saved status)
        (Saga.undone ((inv.phase.action (.persist c)).toList ++ actions)) stage' := by
  obtain ⟨-, written, stored⟩ := inv.patch_row status now row
  have saved : (inv.saved status).phase = inv.nextPhase := rfl
  cases phase : inv.phase with
  | renewing | executing | announcing | compensating | ended =>
      rw [phase] at writes
      cases writes
  | starting i =>
      rw [Invocation.nextPhase, phase] at saved
      rw [phase] at busy
      cases busy with
      | starting _ tried here inside =>
          refine ⟨_, path, .inr ?_⟩
          rw [saved]
          exact .executing i tried here inside
  | recording i =>
      rw [Invocation.nextPhase, phase] at saved
      rw [phase] at busy writes
      cases writes
      cases busy with
      | recording _ here =>
          refine ⟨_, path, .inr ?_⟩
          rw [saved]
          exact .announcing i here ⟨.inr (.inl stored), written ▸ here⟩
  | failing i exhausted =>
      rw [Invocation.nextPhase, phase] at saved
      rw [phase] at busy writes
      cases writes
      cases busy with
      | retrying _ here =>
          exact ⟨_, path, .inl ⟨saved, .opened i true ⟨.inl stored, written ▸ here⟩⟩⟩
      | failing _ undoable =>
          have none : Saga.undone actions = [] := List.map_eq_nil_iff.mp path.undone
          have settled : Settled inv.steps (Saga.undone (.fail i :: actions)) := by
            intro p mem
            have mem : p ∈ Saga.undone actions := mem
            rw [none] at mem
            cases mem
          refine ⟨_, path.fail, .inr ?_⟩
          rw [saved]
          exact undoable.busy settled i
  | unwinding i j =>
      rw [Invocation.nextPhase, phase] at saved
      rw [phase] at busy
      cases busy with
      | unwinding _ _ undoable settled =>
          refine ⟨_, path, .inr ?_⟩
          rw [saved]
          exact undoable.busy settled i
  | settling i =>
      rw [Invocation.nextPhase, phase] at saved
      have cursor : (inv.patch status now row).cursor = i := by rw [Invocation.patch, phase]
      rw [phase] at busy writes
      cases writes
      cases busy with
      | settling _ settled =>
          exact ⟨_, path.settle, .inl ⟨saved, .failed i stored cursor (written ▸ settled)⟩⟩
  | finishing =>
      rw [Invocation.nextPhase, phase] at saved
      rw [phase] at busy writes
      cases writes
      cases busy with
      | finishing i tried here =>
          exact ⟨_, path, .inl ⟨saved, .opened i tried ⟨.inr (.inr stored), written ▸ here⟩⟩⟩

/-- What an event about a call at work does to a saga. -/
theorem Busy.turn {row row' : JobRow} {inv inv' : Invocation} {stage : Stage} {now : Int}
    {actions : List (Saga.Action (Option String))} (path : Path actions stage)
    (busy : Busy row (Saga.undone actions) inv.steps inv.phase stage)
    (turn : Turn config now row inv e inv' row') (survives : ∀ c, e ≠ .stop c) :
    ∃ stage', Path ((inv.phase.action e).toList ++ actions) stage' ∧
      Onward row' inv' (Saga.undone ((inv.phase.action e).toList ++ actions)) stage' := by
  cases turn with
  | persisted c status writes => exact busy.persisted c path writes
  | stopped c => exact absurd rfl (survives c)
  | renewed c time i phase held =>
      rw [phase] at busy ⊢
      cases busy with
      | renewing _ tried here inside rests =>
          have around := (here.around inside).modify (·.started now)
          obtain ⟨record, found⟩ := (here.around inside).at
          have opened := around.opened (getElem?_modify_self found) (.inr rfl)
          exact ⟨_, path, .inr (.starting i tried opened around.inside)⟩
  | lost c time i phase =>
      rw [phase] at busy ⊢
      cases busy with
      | renewing _ tried here inside rests =>
          exact ⟨_, path, .inl ⟨rfl, .opened i tried rests⟩⟩
  | unrecorded c message i phase =>
      rw [phase] at busy ⊢
      cases busy with
      | recording _ here => exact ⟨_, path, .inr (here.around_succ.caught config message)⟩
  | executed c output i phase =>
      rw [phase] at busy ⊢
      cases busy with
      | executing _ tried here inside =>
          have around := (here.around inside).modify (·.done output now)
          obtain ⟨record, found⟩ := (here.around inside).at
          have completed := around.completed (getElem?_modify_self found) rfl
          exact ⟨_, path.attempt, .inr (.recording i completed)⟩
  | threw c message i phase =>
      rw [phase] at busy ⊢
      cases busy with
      | executing _ tried here inside =>
          exact ⟨_, path.attempt, .inr ((here.around inside).caught config message)⟩
  | announced c i phase =>
      rw [phase] at busy ⊢
      cases busy with
      | announcing _ here rests =>
          let next : Invocation :=
            { inv with phase := nextStep inv.workflow inv.steps (i + 1) }
          have here : Prefix next.steps (i + 1) := here
          exact ⟨_, path.complete, here.onward rests false (Nat.le_refl _) rfl⟩
  | unannounced c message i phase =>
      rw [phase] at busy ⊢
      cases busy with
      | announcing _ here rests => exact ⟨_, path, .inr (here.around_succ.caught config message)⟩
  | compensated c error i j phase =>
      rw [phase] at busy ⊢
      cases busy with
      | compensating _ _ undoable settled =>
          obtain ⟨record, found, -⟩ := undoable j (Nat.lt_succ_self j)
          have settled := settled.modify (lt_undone path) error found
          exact ⟨_, path.undo error, .inr (.unwinding i j undoable.modify settled)⟩

end Talos.Provisioning
