import Talos.Reconciler.Finality

/-!
# Lost repairs

The terminal status and the mark of the repair are two statements, with the repair
between them, and a tick selects active records only. So a record whose processing
stops after the first statement is never selected again (`repair_selected_iff`), and
once no instance holds a copy of it, its repair never happens (`Lost.steps`).
-/

namespace Talos.Reconciler

open Database

variable {configs : InstanceId → ReconcilerConfig} {start : Int} {downstream : Downstream}
  {s s' : State} {e : Event} {h : List Step} {k : RecordId} {row : TxRecord}

/-- The stored record this step marks as repaired. -/
def marks (t : Step) : Option RecordId :=
  match t.event with
  | .mark j => (t.pre.tasks[j]?).bind fun task =>
      (t.pre.records.find task.record.id).map TxRecord.id
  | _ => none

theorem marks_eq_some {t : Step} : marks t = some k ↔
    ∃ j task row, t.event = .mark j ∧ t.pre.tasks[j]? = some task ∧ task.record.id = k ∧
      t.pre.records.find k = some row := by
  constructor
  · intro marked
    unfold marks at marked
    split at marked
    · next j event =>
        obtain ⟨task, holds, marked⟩ := Option.bind_eq_some_iff.mp marked
        obtain ⟨row, found, rfl⟩ := Option.map_eq_some_iff.mp marked
        have key := Rows.key_of_find found
        exact ⟨j, task, row, event, holds, key.symm, key ▸ found⟩
    · cases marked
  · rintro ⟨j, task, row, event, holds, rfl, found⟩
    simp [marks, event, holds, found, Rows.key_of_find found]

theorem mark_step (ok : step configs s e = some s') (marked : marks ⟨s, e, s'⟩ = some k) :
    ∃ row, s'.records.find k = some row ∧ row.repairApplied = true := by
  obtain ⟨j, task, row, event, holds, rfl, found⟩ := marks_eq_some.mp marked
  dsimp only at event holds found
  subst event
  simp only [step, holds] at ok
  split at ok
  · cases ok
    refine ⟨row.marked s.clock, ?_, rfl⟩
    have key := Rows.key_of_find found
    rw [Rows.find_update, found, Option.map_some, if_pos (by simpa using key)]
  · cases ok

/-- A stored record stays stored. -/
theorem stored_step (ok : step configs s e = some s') (found : s.records.find k = some row) :
    ∃ row', s'.records.find k = some row' := by
  have change := step_row ok k
  generalize after : s'.records.find k = stored at change
  cases change with
  | stays => exact ⟨row, found⟩
  | inserted | written | marked => exact ⟨_, rfl⟩

theorem repairApplied_step (ok : step configs s e = some s')
    (unmarked : marks ⟨s, e, s'⟩ ≠ some k) (found : s'.records.find k = some row) :
    (s.records.find k = none ∧ row.repairApplied = false) ∨
      ∃ row₀, s.records.find k = some row₀ ∧ row.repairApplied = row₀.repairApplied := by
  have change := step_row ok k
  rw [found] at change
  generalize after : some row = stored at change
  cases change with
  | stays => exact .inr ⟨row, after.symm, rfl⟩
  | inserted _ _ _ absent =>
      cases after
      exact .inl ⟨absent, rfl⟩
  | written j task update row₀ _ _ _ _ found₀ =>
      cases after
      exact .inr ⟨row₀, found₀, rfl⟩
  | marked j task row₀ event holds _ id found₀ =>
      exact absurd (marks_eq_some.mpr ⟨j, task, row₀, event, holds, id, found₀⟩) unmarked

/-- `repairApplied` says exactly that the record has been marked. -/
theorem repairApplied_iff (run : Run (machine configs start downstream) h s)
    (found : s.records.find k = some row) :
    row.repairApplied = true ↔ ∃ t ∈ h, marks t = some k := by
  have inv : (∀ t ∈ h, marks t = some k → ∃ row, s.records.find k = some row) ∧
      ∀ row, s.records.find k = some row →
        (row.repairApplied = true ↔ ∃ t ∈ h, marks t = some k) := by
    refine run.history (C := fun _ => True)
      (I := fun h s => (∀ t ∈ h, marks t = some k → ∃ row, s.records.find k = some row) ∧
        ∀ row, s.records.find k = some row →
          (row.repairApplied = true ↔ ∃ t ∈ h, marks t = some k))
      (fun _ _ => trivial) ⟨?_, ?_⟩ ?_
    · intro t mem
      cases mem
    · intro row absent
      cases absent
    · rintro h s e s' ⟨stored, applied⟩ ok -
      by_cases marked : marks ⟨s, e, s'⟩ = some k
      · obtain ⟨row', found', yes⟩ := mark_step ok marked
        refine ⟨fun _ _ _ => ⟨row', found'⟩, fun row found => ?_⟩
        rw [found'] at found
        cases found
        exact iff_of_true yes ⟨_, List.mem_cons_self, marked⟩
      · have later : (∃ t ∈ ⟨s, e, s'⟩ :: h, marks t = some k) ↔ ∃ t ∈ h, marks t = some k := by
          simp [marked]
        constructor
        · intro t mem of
          rcases List.mem_cons.mp mem with rfl | earlier
          · exact absurd of marked
          · obtain ⟨row, found⟩ := stored t earlier of
            exact stored_step ok found
        · intro row found
          rw [later]
          rcases repairApplied_step ok marked found with ⟨absent, no⟩ | ⟨row₀, found₀, same⟩
          · refine iff_of_false (by simp [no]) ?_
            rintro ⟨t, mem, of⟩
            obtain ⟨row, found⟩ := stored t mem of
            rw [absent] at found
            cases found
          · rw [same]
            exact applied row₀ found₀
  exact inv.2 row found

/-! ### What a tick selects -/

/-- If this step is the SELECT of a tick, the rows it finds, in the order in which the
batch is taken from them. -/
def selection (t : Step) : Option (List TxRecord) :=
  match t.event with
  | .select _ order => some order
  | _ => none

/-- If this step is the SELECT of a tick, it finds every record that needs repair. -/
def SelectsUnrepaired (t : Step) : Prop :=
  ∀ order ∈ selection t, ∀ record ∈ t.pre.records.list, needsRepair record = true →
    record ∈ order

instance (t : Step) : Decidable (SelectsUnrepaired t) :=
  inferInstanceAs (Decidable (∀ _ ∈ _, ∀ _ ∈ _, _ → _ ∈ _))

theorem selection_perm {order : List TxRecord} (ok : step configs s e = some s')
    (selects : selection ⟨s, e, s'⟩ = some order) : order.Perm (s.records.select isActive) := by
  cases e with
  | select t rows =>
      cases selects
      simp only [step] at ok
      split at ok
      · split at ok
        · next listed => exact listed.1
        · cases ok
      · cases ok
  | _ => cases selects

theorem not_mem_selection {order : List TxRecord} {record : TxRecord}
    (ok : step configs s e = some s') (selects : selection ⟨s, e, s'⟩ = some order)
    (isOver : isTerminal record = true) : record ∉ order := by
  intro mem
  have active := (Rows.mem_select.mp ((selection_perm ok selects).mem_iff.mp mem)).2
  rw [isActive_iff, isOver] at active
  cases active

/-- The ticks of a run select every record that needs repair exactly when there is
never one to select: each terminal record has been marked before the next SELECT. -/
theorem repair_selected_iff (run : Run (machine configs start downstream) h s) :
    (∀ t ∈ h, SelectsUnrepaired t) ↔
      ∀ later earlier t, h = later ++ t :: earlier → selection t ≠ none →
        ∀ record ∈ t.pre.records.list, isTerminal record = true →
          ∃ u ∈ earlier, marks u = some record.id := by
  constructor
  · rintro selected later earlier t rfl selects record mem isOver
    obtain ⟨order, selects⟩ := Option.ne_none_iff_exists'.mp selects
    obtain ⟨before, ok, -⟩ := run.split
    rw [← repairApplied_iff before (Rows.find_of_mem mem)]
    by_contra unrepaired
    rw [Bool.not_eq_true] at unrepaired
    have needs : needsRepair record = true := by simp [needsRepair, unrepaired, isOver]
    exact not_mem_selection ok selects isOver
      (selected t (by simp) order selects record mem needs)
  · intro marked t mem order selects record stored needs
    obtain ⟨later, earlier, rfl⟩ := List.append_of_mem mem
    obtain ⟨before, -, -⟩ := run.split
    simp only [needsRepair, Bool.and_eq_true, Bool.not_eq_true'] at needs
    have given : selection t ≠ none := by
      rw [Option.mem_def.mp selects]
      exact Option.some_ne_none _
    have applied := (repairApplied_iff before (Rows.find_of_mem stored)).mpr
      (marked later earlier t rfl given record stored needs.2)
    rw [needs.1] at applied
    cases applied

/-- A failed payment is repaired and marked before the next tick. -/
def repairedPayment : List Event := failedPayment ++ [.runOneTick 1 0 (some 101), .select 1 []]

theorem repair_selected_repaired :
    let run := (machine (fun _ => plainConfig) 0 noRows).play repairedPayment
      ([], (machine (fun _ => plainConfig) 0 noRows).init)
    Run (machine (fun _ => plainConfig) 0 noRows) run.1 run.2 ∧
      (∀ t ∈ run.1, SelectsUnrepaired t) ∧
      ∀ later earlier t, run.1 = later ++ t :: earlier → selection t ≠ none →
        ∀ record ∈ t.pre.records.list, isTerminal record = true →
          ∃ u ∈ earlier, marks u = some record.id :=
  have selected : ∀ t ∈ ((machine (fun _ => plainConfig) 0 noRows).play repairedPayment
      ([], (machine (fun _ => plainConfig) 0 noRows).init)).1, SelectsUnrepaired t := by decide
  ⟨Machine.play_run .., selected, (repair_selected_iff (Machine.play_run ..)).mp selected⟩

/-! ### Lost for good -/

/-- A record that needs repair, and of which no copy is in memory. -/
def Lost (k : RecordId) (s : State) : Prop :=
  (∃ row, s.records.find k = some row ∧ needsRepair row = true) ∧
    ∀ i record, Copied s i record → record.id ≠ k

theorem Lost.step (lost : Lost k s) (ok : step configs s e = some s') :
    s'.records.find k = s.records.find k ∧ Lost k s' := by
  obtain ⟨⟨row, found, needs⟩, uncopied⟩ := lost
  have same : s'.records.find k = s.records.find k := by
    have change := step_row ok k
    generalize s'.records.find k = stored at change
    cases change with
    | stays => rfl
    | inserted _ _ _ absent =>
        rw [found] at absent
        cases absent
    | written j task update _ _ holds stage id =>
        exact absurd id (uncopied task.owner task.record
          (.processed task (List.mem_of_getElem? holds) rfl (by simp [stage]) rfl))
    | marked j task _ _ holds stage id =>
        exact absurd id (uncopied task.owner task.record
          (.processed task (List.mem_of_getElem? holds) rfl (by simp [stage]) rfl))
  refine ⟨same, ⟨row, same.trans found, needs⟩, ?_⟩
  intro i record copied id
  rcases step_copied ok copied with earlier | ⟨-, selected⟩
  · exact uncopied i record earlier id
  · obtain ⟨mem, active⟩ := Rows.mem_select.mp selected
    have stored := Rows.find_of_mem mem
    rw [id, found] at stored
    cases stored
    simp only [needsRepair, Bool.and_eq_true] at needs
    rw [isActive_iff, needs.2] at active
    cases active

/-- No continuation repairs it: the record stays as it is, and no tick selects it. -/
theorem Lost.steps (lost : Lost k s) (steps : Steps (machine configs start downstream) s h s') :
    s'.records.find k = s.records.find k ∧ Lost k s' := by
  refine steps.invariant (I := fun t => t.records.find k = s.records.find k ∧ Lost k t)
    ⟨rfl, lost⟩ ?_
  rintro t e t' ⟨same, lost⟩ ok
  obtain ⟨stays, lost⟩ := lost.step ok
  exact ⟨stays.trans same, lost⟩

/-- A crash of the one instance that holds copies of a record that needs repair loses
the repair. -/
theorem crash_lost {i : InstanceId} (found : s.records.find k = some row)
    (needs : needsRepair row = true)
    (held : ∀ i' record, Copied s i' record → record.id = k → i' = i)
    (ok : step configs s (.crash i) = some s') : Lost k s' := by
  have same : s'.records.find k = s.records.find k := by
    cases ok
    rfl
  refine ⟨⟨row, same.trans found, needs⟩, ?_⟩
  intro i' record copied id
  rcases step_copied ok copied with earlier | ⟨⟨_, _, event⟩, -⟩
  · cases held i' record earlier id
    exact crash_copied ok copied
  · cases event

/-! ### A crash between the status and the repair -/

/-- The instance crashes after it has stored that the payment failed, and restarts. -/
def crashedRepair : List Event :=
  [.setJob "j" "pending", .registerTx 0 payment, .registerInsert 0 1, .runOneTick 0 0 (some 100),
    .select 0 [paymentRecord], .queue 0, .poll 0 (.failed 99 none), .write 0, .crash 0,
    .runOneTick 1 0 (some 101), .select 1 []]

theorem repair_lost :
    ∃ h s, Run (machine (fun _ => plainConfig) 0 noRows) h s ∧
      (∃ t ∈ h, selection t = some [] ∧ ∃ record ∈ t.pre.records.list, needsRepair record = true) ∧
      s.downstream.jobs "j" = some "pending" :=
  ⟨_, _, Machine.play_run _ crashedRepair, by decide, by decide⟩

end Talos.Reconciler
