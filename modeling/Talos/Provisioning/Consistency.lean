import Talos.Provisioning.Effects

/-!
# Records and calls

A step of a run is recorded as running, then completed or failed, and a completed one can
only be compensated (`Follows`). In a run whose calls write over rows as they last saw
them (`Unraced`), what a call holds follows what is stored (`consistent`).
-/

namespace Talos.Provisioning

open Database Soroban

abbrev Step := Transition State Event

variable {config : ProvisioningConfig} {start : Int} {s s' : State} {e : Event} {h : List Step}
  {k : JobId}

/-! ### Steps without a race -/

/-- The row still is as the call last saw it. -/
def Invocation.sees (inv : Invocation) (row : JobRow) : Prop :=
  backfill inv.jobId inv.workflow row.steps = inv.seen.steps ∧ row.status = inv.seen.status

instance (inv : Invocation) (row : JobRow) : Decidable (inv.sees row) :=
  inferInstanceAs (Decidable (_ ∧ _))

/-- The call that executes a step or writes its row in this step of the machine. -/
def acting (t : Step) : Option Invocation :=
  match t.event with
  | .persist c => t.pre.calls[c]?
  | .execute c _ => t.pre.calls[c]?
  | _ => none

/-- The run whose step list a submission fills in. -/
def submitted (t : Step) : Option JobId :=
  match t.event with
  | .submitSteps c =>
      match t.pre.submissions c with
      | some (.inserted id _) => some id
      | _ => none
  | _ => none

/-- The run that is loaded by a new call. -/
def loaded (t : Step) : Option JobId :=
  match t.event with
  | .runProvisioningJob k _ _ _ => some k
  | _ => none

/-- The error with which the event of a completed step is not appended. -/
def unannounced (t : Step) : Option String :=
  match t.event with
  | .announce _ error => error
  | _ => none

structure Unraced (t : Step) : Prop where
  acts : ∀ inv ∈ acting t, ∀ row ∈ t.pre.rows.find inv.jobId, inv.sees row
  submits : ∀ k ∈ submitted t, ∀ row ∈ t.pre.rows.find k, row.steps = []
  loads : ∀ k ∈ loaded t, ∀ row ∈ t.pre.rows.find k, row.status ≠ .compensating
  announces : unannounced t = none

instance (t : Step) : Decidable (Unraced t) :=
  decidable_of_iff
    ((∀ inv ∈ acting t, ∀ row ∈ t.pre.rows.find inv.jobId, inv.sees row) ∧
      (∀ k ∈ submitted t, ∀ row ∈ t.pre.rows.find k, row.steps = []) ∧
      (∀ k ∈ loaded t, ∀ row ∈ t.pre.rows.find k, row.status ≠ .compensating) ∧
      unannounced t = none)
    ⟨fun ⟨acts, submits, loads, announces⟩ => ⟨acts, submits, loads, announces⟩,
      fun ⟨acts, submits, loads, announces⟩ => ⟨acts, submits, loads, announces⟩⟩

/-! ### The order of recorded states -/

/-- A completed step may only become compensated, and a compensated step stays so. -/
def Follows : StepStatus → StepStatus → Prop
  | .completed, next => next = .completed ∨ next = .compensated
  | .compensated, next => next = .compensated
  | _, _ => True

theorem Follows.refl (status : StepStatus) : Follows status status := by
  cases status <;> simp [Follows]

theorem Follows.trans {a b c : StepStatus} (first : Follows a b) (second : Follows b c) :
    Follows a c := by
  cases a <;> cases b <;> simp_all [Follows]

/-- Before a status that is neither completed nor compensated there is none either. -/
theorem Follows.open {a b : StepStatus} (follows : Follows a b) (notCompleted : b ≠ .completed)
    (notCompensated : b ≠ .compensated) (c : StepStatus) : Follows a c := by
  cases a <;> simp_all [Follows]

/-- Every step of the first list has one in the second that follows it. -/
def Keeps (old new : List StepRecord) : Prop :=
  ∀ (i : Nat) (record : StepRecord), old[i]? = some record →
    ∃ record', new[i]? = some record' ∧ Follows record.status record'.status

theorem Keeps.refl (steps : List StepRecord) : Keeps steps steps :=
  fun _ record found => ⟨record, found, .refl _⟩

theorem Keeps.modify {old new : List StepRecord} {i : Nat} {f : StepRecord → StepRecord}
    (keeps : Keeps old new)
    (changed : ∀ record record', old[i]? = some record → new[i]? = some record' →
      Follows record.status record'.status → Follows record.status (f record').status) :
    Keeps old (new.modify i f) := by
  intro j record found
  obtain ⟨record', found', follows⟩ := keeps j record found
  rw [List.getElem?_modify]
  by_cases same : i = j
  · subst same
    exact ⟨f record', by simp [found'], changed record record' found found' follows⟩
  · exact ⟨record', by simp [same, found'], follows⟩

theorem unwound_follows (record : StepRecord) (error : Option String) :
    Follows record.status (record.unwound error).status := by
  cases error with
  | none => cases status : record.status <;> simp [StepRecord.unwound, Follows]
  | some => exact .refl _

/-! ### Consistent states -/

/-- The phases before compensation. -/
def Phase.forward : Phase → Bool
  | .compensating _ _ => false
  | .unwinding _ _ => false
  | .settling _ => false
  | .ended => false
  | _ => true

def Uncompensated (steps : List StepRecord) : Prop :=
  ∀ record ∈ steps, record.status ≠ .compensated

structure Sound (inv : Invocation) : Prop where
  keeps : Keeps inv.seen.steps inv.steps
  live : inv.phase ≠ .ended → inv.seen.status ∉ terminalStatuses
  forward : inv.phase.forward = true → Uncompensated inv.steps
  renewing : ∀ i record, inv.phase = .renewing i → inv.steps[i]? = some record →
    record.status ≠ .completed
  starting : ∀ i record, inv.phase = .starting i → inv.steps[i]? = some record →
    record.status = .running
  executing : ∀ i record, inv.phase = .executing i ∨ inv.phase = .recording i →
    inv.seen.steps[i]? = some record → record.status = .running

/-- Only a run that is being compensated, or over, has compensated steps. -/
def Clean (row : JobRow) : Prop :=
  row.status = .pending ∨ row.status = .running → Uncompensated row.steps

structure Consistent (s : State) : Prop where
  rows : ∀ k row, s.rows.find k = some row → Clean row
  calls : ∀ inv ∈ s.calls, Sound inv

theorem uncompensated_initialSteps (workflow : WorkflowDefinition) :
    Uncompensated (initialSteps k workflow) := by
  intro record mem
  obtain ⟨name, -, rfl⟩ := List.mem_map.mp mem
  exact StepStatus.noConfusion

theorem Uncompensated.backfill {workflow : WorkflowDefinition} {steps : List StepRecord}
    (clean : Uncompensated steps) : Uncompensated (backfill k workflow steps) := by
  unfold Provisioning.backfill
  split
  · exact clean
  · exact uncompensated_initialSteps workflow

theorem Uncompensated.modify {steps : List StepRecord} {i : Nat} {f : StepRecord → StepRecord}
    (clean : Uncompensated steps) (changed : ∀ record, (f record).status ≠ .compensated) :
    Uncompensated (steps.modify i f) := by
  intro record mem
  obtain ⟨j, found⟩ := List.getElem?_of_mem mem
  rw [List.getElem?_modify, Option.map_eq_map, Option.map_eq_some_iff] at found
  obtain ⟨old, found, rfl⟩ := found
  split
  · exact changed old
  · exact clean old (List.mem_of_getElem? found)

theorem nextStep_cases (workflow : WorkflowDefinition) (steps : List StepRecord) (i : Nat) :
    nextStep workflow steps i = .finishing ∨ nextStep workflow steps i = .ended ∨
      ∃ j, nextStep workflow steps i = .renewing j ∧
        ∀ record, steps[j]? = some record → record.status ≠ .completed := by
  unfold nextStep
  split
  · exact .inl rfl
  · next j first =>
      split
      · refine .inr (.inr ⟨j, rfl, ?_⟩)
        intro record found
        have hit := List.find?_some first
        simp only [found, Option.all_some, decide_eq_true_eq] at hit
        exact hit.2
      · exact .inr (.inl rfl)

theorem nextUnwind_cases (steps : List StepRecord) (i j : Nat) :
    nextUnwind steps i j = .settling i ∨ ∃ n, nextUnwind steps i j = .compensating i n := by
  unfold nextUnwind
  split
  · exact .inl rfl
  · next n _ => exact .inr ⟨n, rfl⟩

/-- A call in a phase about which nothing more is to be known. -/
theorem Sound.of_still {inv : Invocation} (keeps : Keeps inv.seen.steps inv.steps)
    (live : inv.phase ≠ .ended → inv.seen.status ∉ terminalStatuses)
    (forward : inv.phase.forward = true → Uncompensated inv.steps)
    (still : ∀ i, inv.phase ≠ .renewing i ∧ inv.phase ≠ .starting i ∧ inv.phase ≠ .executing i ∧
      inv.phase ≠ .recording i) : Sound inv where
  keeps := keeps
  live := live
  forward := forward
  renewing i _ phase := absurd phase (still i).1
  starting i _ phase := absurd phase (still i).2.1
  executing i _ phase := by
    rcases phase with phase | phase
    · exact absurd phase (still i).2.2.1
    · exact absurd phase (still i).2.2.2

/-- A call that enters the loop over the steps. -/
theorem Sound.looping (inv : Invocation) {i : Nat} (keeps : Keeps inv.seen.steps inv.steps)
    (live : inv.seen.status ∉ terminalStatuses) (clean : Uncompensated inv.steps) :
    Sound { inv with phase := nextStep inv.workflow inv.steps i } := by
  rcases nextStep_cases inv.workflow inv.steps i with next | next | ⟨j, next, opened⟩
  · rw [next]
    exact .of_still keeps (fun _ => live) (fun _ => clean) (by simp)
  · rw [next]
    exact .of_still keeps (fun _ => live) (fun _ => clean) (by simp)
  · rw [next]
    refine ⟨keeps, fun _ => live, fun _ => clean, ?_, ?_, ?_⟩
    · intro j' record phase found
      cases phase
      exact opened record found
    · intro j' record phase
      cases phase
    · intro j' record phase
      rcases phase with phase | phase <;> cases phase

theorem not_terminal_writes {inv : Invocation} {status : ProvisioningJobStatus}
    (writes : inv.phase.writes = some status) (continues : inv.nextPhase ≠ .ended) :
    status ∉ terminalStatuses := by
  cases phase : inv.phase with
  | starting | recording | unwinding =>
      rw [phase] at writes
      cases writes
      decide
  | failing i exhausted =>
      rw [phase] at writes
      cases exhausted <;> cases writes <;> decide
  | settling | finishing => simp [Invocation.nextPhase, phase] at continues
  | renewing | executing | announcing | compensating | ended =>
      rw [phase] at writes
      cases writes

/-- The phases `persist` goes on with, as far as steps are still to be executed. -/
theorem nextPhase_forward (inv : Invocation) (forward : inv.nextPhase.forward = true) :
    (∃ i, inv.phase = .starting i ∧ inv.nextPhase = .executing i) ∨
      ∃ i, inv.phase = .recording i ∧ inv.nextPhase = .announcing i := by
  unfold Invocation.nextPhase at forward ⊢
  split at forward
  · next i phase => exact .inl ⟨i, phase, rfl⟩
  · next i phase => exact .inr ⟨i, phase, rfl⟩
  · next i _ =>
      rcases nextUnwind_cases inv.steps i (i + 1) with next | ⟨n, next⟩ <;> rw [next] at forward <;>
        cases forward
  · next i j _ =>
      rcases nextUnwind_cases inv.steps i j with next | ⟨n, next⟩ <;> rw [next] at forward <;>
        cases forward
  · cases forward

theorem Sound.persisted {inv : Invocation} {status : ProvisioningJobStatus} (sound : Sound inv)
    (writes : inv.phase.writes = some status) : Sound (inv.saved status) where
  keeps := .refl _
  live := not_terminal_writes writes
  forward := by
    intro forward
    rcases nextPhase_forward inv forward with ⟨i, phase, -⟩ | ⟨i, phase, -⟩
    · exact sound.forward (by rw [phase]; rfl)
    · exact sound.forward (by rw [phase]; rfl)
  renewing := by
    intro i record phase
    rcases nextPhase_forward inv (congrArg Phase.forward phase) with
      ⟨j, -, next⟩ | ⟨j, -, next⟩
    · cases phase.symm.trans next
    · cases phase.symm.trans next
  starting := by
    intro i record phase
    rcases nextPhase_forward inv (congrArg Phase.forward phase) with
      ⟨j, -, next⟩ | ⟨j, -, next⟩
    · cases phase.symm.trans next
    · cases phase.symm.trans next
  executing := by
    intro i record phase found
    have forward : inv.nextPhase.forward = true := by
      rcases phase with phase | phase <;> exact congrArg Phase.forward phase
    rcases nextPhase_forward inv forward with ⟨j, before, next⟩ | ⟨j, -, next⟩
    · rcases phase with phase | phase
      · cases phase.symm.trans next
        exact sound.starting i record before found
      · cases phase.symm.trans next
    · rcases phase with phase | phase <;> cases phase.symm.trans next

/-- Whatever becomes of a step that is recorded as running, nothing recorded is lost. -/
theorem Sound.keeps_running {inv : Invocation} {i : Nat} (sound : Sound inv)
    (phase : inv.phase = .executing i ∨ inv.phase = .recording i)
    (f : StepRecord → StepRecord) : Keeps inv.seen.steps (inv.steps.modify i f) := by
  refine sound.keeps.modify fun record record' found _ _ => ?_
  rw [sound.executing i record phase found]
  trivial

theorem failedWith_ne (record : StepRecord) (message : String) :
    (record.failedWith config message).status ≠ .compensated := by
  unfold StepRecord.failedWith
  dsimp only
  split <;> exact StepStatus.noConfusion

theorem Sound.caught {inv : Invocation} {i : Nat} (sound : Sound inv)
    (phase : inv.phase = .executing i ∨ inv.phase = .recording i) (message : String) :
    Sound (inv.caught config i message) := by
  have live : inv.seen.status ∉ terminalStatuses := by
    refine sound.live ?_
    rcases phase with phase | phase <;> rw [phase] <;> exact Phase.noConfusion
  have clean : Uncompensated inv.steps := by
    refine sound.forward ?_
    rcases phase with phase | phase <;> rw [phase] <;> rfl
  refine .of_still (sound.keeps_running phase _) (fun _ => live) (fun _ => ?_) ?_
  · exact clean.modify fun record => failedWith_ne record message
  · simp [Invocation.caught]

theorem Sound.moved {inv inv' : Invocation} (sound : Sound inv) (moves : Moved config s e inv inv')
    (announces : unannounced ⟨s, e, s'⟩ = none) : Sound inv' := by
  cases moves with
  | renewed i phase =>
      have clean := sound.forward (by rw [phase]; rfl)
      refine ⟨?_, fun _ => sound.live (by simp [phase]), fun _ => ?_, ?_, ?_, ?_⟩
      · refine sound.keeps.modify fun record record' found found' follows => ?_
        exact follows.open (sound.renewing i record' phase found')
          (clean record' (List.mem_of_getElem? found')) _
      · exact clean.modify fun record => StepStatus.noConfusion
      · intro j record phase
        cases phase
      · intro j record phase found
        cases phase
        simp only [List.getElem?_modify_eq, Option.map_eq_map, Option.map_eq_some_iff] at found
        obtain ⟨old, -, rfl⟩ := found
        rfl
      · intro j record phase
        rcases phase with phase | phase <;> cases phase
  | persisted status writes => exact sound.persisted writes
  | executed i output phase =>
      refine ⟨sound.keeps_running (.inl phase) _, fun _ => sound.live (by simp [phase]),
        fun _ => ?_, ?_, ?_, ?_⟩
      · exact (sound.forward (by rw [phase]; rfl)).modify fun record => StepStatus.noConfusion
      · intro j record phase
        cases phase
      · intro j record phase
        cases phase
      · intro j record next found
        rcases next with next | next <;> cases next
        exact sound.executing i record (.inl phase) found
  | caught i message phase => exact sound.caught phase message
  | announced i phase =>
      exact .looping inv sound.keeps (sound.live (by simp [phase]))
        (sound.forward (by rw [phase]; rfl))
  | unannounced i c message phase event =>
      subst event
      cases announces
  | compensated i j error phase =>
      refine .of_still ?_ (fun _ => sound.live (by simp [phase])) (fun forward => ?_) (by simp)
      · exact sound.keeps.modify fun record record' _ _ follows =>
          follows.trans (unwound_follows record' error)
      · cases forward
  | ended =>
      refine .of_still sound.keeps (fun live => absurd rfl live) (fun forward => ?_) (by simp)
      cases forward

theorem Consistent.step (consistent : Consistent s) (ok : step config s e = some s')
    (unraced : Unraced ⟨s, e, s'⟩) : Consistent s' where
  rows := by
    intro k row found
    have change := step_row ok k
    rw [found] at change
    generalize after : some row = stored at change
    cases change with
    | stays => exact consistent.rows k row after.symm
    | inserted =>
        cases after
        intro _ record mem
        cases mem
    | submitted =>
        cases after
        exact fun _ => uncompensated_initialSteps _
    | acquired workerId now row₀ _ found₀ opened =>
        cases after
        intro _
        refine consistent.rows k row₀ found₀ ?_
        simp only [claimable, decide_eq_true_eq] at opened
        exact opened.imp_right And.left
    | renewed c now row₀ _ found₀ =>
        cases after
        exact consistent.rows k row₀ found₀
    | persisted c inv status row₀ _ call _ writes _ =>
        cases after
        obtain ⟨-, steps, written⟩ := inv.patch_row status s.clock row₀
        have sound := consistent.calls inv (List.mem_of_getElem? call)
        intro opened
        rw [written] at opened
        rw [steps]
        refine sound.forward ?_
        cases phase : inv.phase <;> rw [phase] at writes <;> first | rfl | cases writes
        all_goals simp at opened
  calls := by
    intro next mem
    cases step_call ok mem with
    | kept _ mem => exact consistent.calls next mem
    | loaded k workflow workerId token row event found live =>
        have clean : Uncompensated (backfill k workflow row.steps) := by
          refine (consistent.rows k row found ?_).backfill
          have opened : row.status ≠ .compensating :=
            unraced.loads k (by simp [loaded, event]) row found
          cases status : row.status <;> simp_all [terminalStatuses]
        exact .looping ⟨k, workflow, workerId, token, _, .ended, ⟨_, row.status⟩⟩ (.refl _) live
          clean
    | moved inv _ mem moves => exact (consistent.calls inv mem).moved moves unraced.announces

theorem consistent (run : Run (machine config start) h s) (each : ∀ t ∈ h, Unraced t) :
    Consistent s := by
  refine run.invariant_along each ⟨?_, ?_⟩ fun inv ok unraced => inv.step ok unraced
  · intro k row absent
    cases absent
  · intro inv absent
    cases absent

end Talos.Provisioning
