import Talos.Reconciler.Scheduler

/-!
# What a step does to a record and to its copies

`RowStep` lists everything a step can do to one stored record, `Copied` the places in
memory that hold a copy of one. A copy is only ever taken by a SELECT, of a record that
is active then.
-/

namespace Talos.Reconciler

open Database Soroban

variable {configs : InstanceId → ReconcilerConfig} {s s' : State} {e : Event} {k : RecordId}

/-- The stored record `k` after event `e` in state `s`. -/
inductive RowStep (s : State) (e : Event) (k : RecordId) : Option TxRecord → Prop where
  | stays : RowStep s e k (s.records.find k)
  | inserted (c : CallId) (opts : Registration) (event : e = .registerInsert c k)
      (absent : s.records.find k = none) : RowStep s e k (some (newRecord k opts s.clock))
  | written (j : TaskId) (task : Task) (update : TxRecordUpdate) (row : TxRecord)
      (event : e = .write j) (holds : s.tasks[j]? = some task)
      (stage : task.stage = .writing update) (id : task.record.id = k)
      (found : s.records.find k = some row) :
      RowStep s e k (some (row.written task.record update s.clock))
  | marked (j : TaskId) (task : Task) (row : TxRecord) (event : e = .mark j)
      (holds : s.tasks[j]? = some task) (stage : task.stage = .marking)
      (id : task.record.id = k) (found : s.records.find k = some row) :
      RowStep s e k (some (row.marked s.clock))

/-- An UPDATE by id is accounted for once the row it picks is. -/
theorem rowStep_update {id : RecordId} {f : TxRecord → TxRecord} (keeps : ∀ r, (f r).id = r.id)
    (picked : ∀ row, s.records.find k = some row → id = k → RowStep s e k (some (f row))) :
    RowStep s e k ((s.records.update (·.id = id) f keeps).find k) := by
  rcases s.records.find_update_cases (·.id = id) f keeps k with stays | ⟨row, found, hit, changed⟩
  · rw [stays]
    exact .stays
  · rw [changed]
    exact picked row found ((of_decide_eq_true hit).symm.trans (Rows.key_of_find found))

theorem registerRow_find (s : State) (id : RecordId) (opts : Registration) (k : RecordId) :
    (registerRow s id opts).records.find k = s.records.find k ∨ k = id ∧
      s.records.find k = none ∧
      (registerRow s id opts).records.find k = some (newRecord k opts s.clock) := by
  unfold registerRow
  split
  · exact .inl rfl
  · split
    · exact .inl rfl
    · next records inserted =>
        rcases Rows.find_insert_cases inserted k with stays | ⟨rfl, absent, found⟩
        · exact .inl stays
        · exact .inr ⟨rfl, absent, found⟩

/-- Every step does one of the things listed to every record. -/
theorem step_row (ok : step configs s e = some s') (k : RecordId) :
    RowStep s e k (s'.records.find k) := by
  cases e with
  | advance now =>
      simp only [step, Option.ite_none_right_eq_some, Option.some.injEq] at ok
      obtain ⟨-, rfl⟩ := ok
      exact .stays
  | setJob | setPurchase | crash =>
      cases ok
      exact .stays
  | registerTx c opts =>
      simp only [step, Option.ite_none_left_eq_some] at ok
      obtain ⟨-, ok⟩ := ok
      split at ok <;> cases ok <;> exact .stays
  | registerInsert c id =>
      simp only [step] at ok
      split at ok
      · next opts call =>
          cases ok
          rcases registerRow_find { s with calls := s.calls.remove c } id opts k with
            stays | ⟨rfl, absent, new⟩
          · rw [stays]
            exact .stays
          · rw [new]
            exact .inserted c opts rfl absent
      · cases ok
  | runOneTick t i currentLedger =>
      simp only [step, Option.ite_none_left_eq_some] at ok
      obtain ⟨-, ok⟩ := ok
      cases currentLedger <;> cases ok <;> exact .stays
  | select t order =>
      simp only [step] at ok
      split at ok
      · split at ok
        · cases ok
          exact .stays
        · cases ok
      · cases ok
  | queue t =>
      simp only [step] at ok
      split at ok
      · split at ok <;> cases ok <;> exact .stays
      · cases ok
  | poll j pollResult =>
      simp only [step] at ok
      split at ok
      · split at ok
        · cases ok
          exact .stays
        · cases ok
      · cases ok
  | write j =>
      simp only [step] at ok
      split at ok
      · next task holds =>
          split at ok
          · next update stage =>
              cases ok
              exact rowStep_update (f := (·.written task.record update s.clock)) (fun _ => rfl)
                fun row found id => .written j task update row rfl holds stage id found
          · cases ok
      · cases ok
  | repair j error =>
      simp only [step] at ok
      split at ok
      · split at ok
        · cases ok
          exact .stays
        · cases ok
      · cases ok
  | mark j =>
      simp only [step] at ok
      split at ok
      · next task holds =>
          split at ok
          · next stage =>
              cases ok
              exact rowStep_update (f := (·.marked s.clock)) (fun _ => rfl) fun row found id =>
                .marked j task row rfl holds stage id found
          · cases ok
      · cases ok
  | finish j =>
      simp only [step] at ok
      split at ok
      · split at ok
        · cases ok
        · cases ok
          exact .stays
      · cases ok

/-! ### Copies in memory -/

/-- A copy of a record in the memory of instance `i`. -/
inductive Copied (s : State) (i : InstanceId) (record : TxRecord) : Prop where
  | selected (t : TickId) (currentLedger : Int) (records : List TxRecord)
      (tick : s.ticks t = some (.queueing i currentLedger records)) (mem : record ∈ records)
  | queued (mem : record ∈ (s.instances i).queue)
  | processed (task : Task) (mem : task ∈ s.tasks) (owner : task.owner = i)
      (stage : task.stage ≠ .finished) (same : task.record = record)

variable {i k : InstanceId} {record : TxRecord}

theorem copied_congr (copied : Copied s' i record) (ticks : s'.ticks = s.ticks)
    (instances : s'.instances = s.instances) (tasks : s'.tasks = s.tasks) :
    Copied s i record := by
  cases copied with
  | selected t ledger records tick mem => exact .selected t ledger records (ticks ▸ tick) mem
  | queued mem => exact .queued (instances ▸ mem)
  | processed task mem owner stage same => exact .processed task (tasks ▸ mem) owner stage same

/-- Draining cuts the queue in what is started and what stays. -/
theorem drainQueue_cut (limit : Nat) (activeIds queuedIds : List RecordId)
    (queue : List TxRecord) :
    (drainQueue limit activeIds queuedIds queue).2 ++
      (drainQueue limit activeIds queuedIds queue).1.queue = queue := by
  induction queue generalizing activeIds queuedIds with
  | nil => rfl
  | cons record queue ih =>
      unfold drainQueue
      split
      · exact congrArg (record :: ·) (ih _ _)
      · rfl

theorem registerRow_memory {id : RecordId} {opts : Registration} :
    (registerRow s id opts).ticks = s.ticks ∧ (registerRow s id opts).instances = s.instances ∧
      (registerRow s id opts).tasks = s.tasks := by
  unfold registerRow
  split
  · exact ⟨rfl, rfl, rfl⟩
  · split <;> exact ⟨rfl, rfl, rfl⟩

theorem copied_drain {limit : Nat} {currentLedger : Int}
    (copied : Copied (s.drain limit k currentLedger) i record) : Copied s i record := by
  have cut := drainQueue_cut limit (s.instances k).activeIds (s.instances k).queuedIds
    (s.instances k).queue
  cases copied with
  | selected t ledger records tick mem => exact .selected t ledger records tick mem
  | queued mem =>
      simp only [State.drain, State.setInstance] at mem
      split at mem
      · next same => exact .queued (same ▸ cut ▸ List.mem_append_right _ mem)
      · exact .queued mem
  | processed task mem owner stage same =>
      rcases List.mem_append.mp mem with old | new
      · exact .processed task old owner stage same
      · obtain ⟨started, first, rfl⟩ := List.mem_map.mp new
        cases owner
        cases same
        exact .queued (cut ▸ List.mem_append_left _ first)

theorem copied_setTask {j : TaskId} {task : Task} {stage : Stage} (holds : s.tasks[j]? = some task)
    (unfinished : task.stage ≠ .finished) (copied : Copied (s.setTask j task stage) i record) :
    Copied s i record := by
  cases copied with
  | selected t ledger records tick mem => exact .selected t ledger records tick mem
  | queued mem => exact .queued mem
  | processed other mem owner active same =>
      rcases List.mem_or_eq_of_mem_set mem with old | rfl
      · exact .processed other old owner active same
      · exact .processed task (List.mem_of_getElem? holds) owner unfinished same

theorem copied_setInstance {inst : Instance} (copied : Copied (s.setInstance k inst) i record) :
    Copied s i record ∨ i = k ∧ record ∈ inst.queue := by
  cases copied with
  | selected t ledger records tick mem => exact .inl (.selected t ledger records tick mem)
  | queued mem =>
      simp only [State.setInstance] at mem
      split at mem
      · next same => exact .inr ⟨same, mem⟩
      · exact .inl (.queued mem)
  | processed task mem owner stage same => exact .inl (.processed task mem owner stage same)

theorem mem_push {inst : Instance} {records : List TxRecord}
    (mem : record ∈ (inst.push records).queue) : record ∈ inst.queue ∨ record ∈ records := by
  rcases List.mem_append.mp mem with old | new
  · exact .inl old
  · exact .inr (List.mem_filter.mp new).1

/-- A step that takes a copy is a SELECT that finds the record active. -/
theorem step_copied (ok : step configs s e = some s') (copied : Copied s' i record) :
    Copied s i record ∨
      (∃ t order, e = .select t order) ∧ record ∈ s.records.select isActive := by
  cases e with
  | advance now =>
      simp only [step, Option.ite_none_right_eq_some, Option.some.injEq] at ok
      obtain ⟨-, rfl⟩ := ok
      exact .inl (copied_congr copied rfl rfl rfl)
  | setJob | setPurchase =>
      cases ok
      exact .inl (copied_congr copied rfl rfl rfl)
  | registerTx c opts =>
      simp only [step, Option.ite_none_left_eq_some] at ok
      obtain ⟨-, ok⟩ := ok
      split at ok <;> cases ok <;> exact .inl (copied_congr copied rfl rfl rfl)
  | registerInsert c id =>
      simp only [step] at ok
      split at ok
      · cases ok
        obtain ⟨ticks, instances, tasks⟩ := registerRow_memory (s := { s with calls := _ })
        exact .inl (copied_congr copied ticks instances tasks)
      · cases ok
  | runOneTick t k currentLedger =>
      simp only [step, Option.ite_none_left_eq_some] at ok
      obtain ⟨-, ok⟩ := ok
      cases currentLedger with
      | none =>
          cases ok
          exact .inl copied
      | some ledger =>
          cases ok
          cases copied with
          | selected t' ledger' records tick mem =>
              rcases Map.set_eq_some.mp tick with ⟨rfl, other⟩ | ⟨-, old⟩
              · cases other
              · exact .inl (.selected t' ledger' records old mem)
          | queued mem => exact .inl (.queued mem)
          | processed task mem owner stage same =>
              exact .inl (.processed task mem owner stage same)
  | select t order =>
      simp only [step] at ok
      split at ok
      · split at ok
        · next listed =>
            cases ok
            cases copied with
            | selected t' ledger' records tick mem =>
                rcases Map.set_eq_some.mp tick with ⟨rfl, batch⟩ | ⟨-, old⟩
                · cases batch
                  exact .inr ⟨⟨_, _, rfl⟩, listed.1.mem_iff.mp (List.mem_of_mem_take mem)⟩
                · exact .inl (.selected t' ledger' records old mem)
            | queued mem => exact .inl (.queued mem)
            | processed task mem owner stage same =>
                exact .inl (.processed task mem owner stage same)
        · cases ok
      · cases ok
  | queue t =>
      simp only [step] at ok
      split at ok
      · next k ledger records tick =>
          have removed : Copied { s with ticks := s.ticks.remove t } i record →
              Copied s i record := by
            intro copied
            cases copied with
            | selected t' ledger' records' tick' mem =>
                exact .selected t' ledger' records' (Map.remove_eq_some.mp tick').2 mem
            | queued mem => exact .queued mem
            | processed task mem owner stage same => exact .processed task mem owner stage same
          split at ok
          · cases ok
            exact .inl (removed copied)
          · cases ok
            left
            rcases copied_setInstance (copied_drain copied) with
              earlier | ⟨rfl, pushed⟩
            · exact removed earlier
            · rcases mem_push pushed with queued | batch
              · exact .queued queued
              · exact .selected t ledger records tick batch
      · cases ok
  | poll j pollResult =>
      simp only [step] at ok
      split at ok
      · next task holds =>
          split at ok
          · next stage =>
              cases ok
              exact .inl (copied_setTask holds (by simp [stage]) copied)
          · cases ok
      · cases ok
  | write j =>
      simp only [step] at ok
      split at ok
      · next task holds =>
          split at ok
          · next stage =>
              cases ok
              exact .inl (copied_setTask holds (by simp [stage]) (copied_congr copied rfl rfl rfl))
          · cases ok
      · cases ok
  | repair j error =>
      simp only [step] at ok
      split at ok
      · next task holds =>
          split at ok
          · next stage =>
              cases ok
              exact .inl (copied_setTask holds (by simp [stage]) (copied_congr copied rfl rfl rfl))
          · cases ok
      · cases ok
  | mark j =>
      simp only [step] at ok
      split at ok
      · next task holds =>
          split at ok
          · next stage =>
              cases ok
              exact .inl (copied_setTask holds (by simp [stage]) (copied_congr copied rfl rfl rfl))
          · cases ok
      · cases ok
  | finish j =>
      simp only [step] at ok
      split at ok
      · next task holds =>
          split at ok
          · cases ok
          · next unfinished =>
              cases ok
              left
              rcases copied_setInstance (copied_drain copied) with
                earlier | ⟨rfl, queued⟩
              · exact copied_setTask holds unfinished earlier
              · exact .queued queued
      · cases ok
  | crash k =>
      cases ok
      left
      cases copied with
      | selected t ledger records tick mem =>
          exact .selected t ledger records (Option.filter_eq_some_iff.mp tick).1 mem
      | queued mem =>
          simp only [State.setInstance] at mem
          split at mem
          · cases mem
          · exact .queued mem
      | processed task mem owner stage same =>
          obtain ⟨old, held, rfl⟩ := List.mem_map.mp mem
          unfold Task.crashed at owner stage same
          split at stage
          · exact absurd rfl stage
          · next other =>
              rw [if_neg other] at owner same
              exact .processed old held owner stage same

/-- A crashed instance holds no copies. -/
theorem crash_copied (ok : step configs s (.crash i) = some s') : ¬ Copied s' i record := by
  cases ok
  intro copied
  cases copied with
  | selected t ledger records tick =>
      have kept := (Option.filter_eq_some_iff.mp tick).2
      simp [Tick.owner] at kept
  | queued mem =>
      simp only [State.setInstance, if_pos] at mem
      cases mem
  | processed task mem owner stage =>
      obtain ⟨old, -, rfl⟩ := List.mem_map.mp mem
      unfold Task.crashed at owner stage
      split at stage
      · exact stage rfl
      · next other =>
          rw [if_neg other] at owner
          exact other owner

end Talos.Reconciler
