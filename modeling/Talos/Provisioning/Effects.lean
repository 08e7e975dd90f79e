import Talos.Provisioning.Model

/-!
# What a step does to a run and to the calls

`RowStep` lists everything a step can do to one row, `CallStep` every call there is
after a step, with the call it comes from.
-/

namespace Talos.Provisioning

open Database Soroban

variable {config : ProvisioningConfig} {s s' : State} {e : Event} {k : JobId}

/-- The row of run `k` after event `e` in state `s`. -/
inductive RowStep (config : ProvisioningConfig) (s : State) (e : Event) (k : JobId) :
    Option JobRow → Prop where
  | stays : RowStep config s e k (s.rows.find k)
  | inserted (c : CallId) (opts : SubmitOptions) (event : e = .submitInsert c k)
      (absent : s.rows.find k = none) : RowStep config s e k (some (newJob k opts))
  | submitted (c : CallId) (workflow : WorkflowDefinition) (row : JobRow)
      (event : e = .submitSteps c) (call : s.submissions c = some (.inserted k workflow))
      (found : s.rows.find k = some row) :
      RowStep config s e k (some (row.withSteps (initialSteps k workflow)))
  | acquired (workerId : String) (now : Int) (row : JobRow)
      (event : e = .acquireLease k workerId now) (found : s.rows.find k = some row)
      (open' : claimable now row = true) :
      RowStep config s e k (some (row.claimed config workerId now))
  | renewed (c : CallId) (now : Int) (row : JobRow) (event : e = .renewLease c now)
      (found : s.rows.find k = some row) :
      RowStep config s e k (some (row.renewed config now))
  | persisted (c : CallId) (inv : Invocation) (status : ProvisioningJobStatus) (row : JobRow)
      (event : e = .persist c) (call : s.calls[c]? = some inv) (job : inv.jobId = k)
      (writes : inv.phase.writes = some status) (found : s.rows.find k = some row) :
      RowStep config s e k (some (inv.patch status s.clock row))

/-- An UPDATE is accounted for once the row it picks is. -/
theorem rowStep_update {p : JobRow → Bool} {f : JobRow → JobRow} (keeps : ∀ r, (f r).id = r.id)
    (picked : ∀ row, s.rows.find k = some row → row.id = k → p row = true →
      RowStep config s e k (some (f row))) :
    RowStep config s e k ((s.rows.update p f keeps).find k) := by
  rcases s.rows.find_update_cases p f keeps k with stays | ⟨row, found, hit, changed⟩
  · rw [stays]
    exact .stays
  · rw [changed]
    exact picked row found (Rows.key_of_find found) hit

theorem insertJob_find (s : State) (c : CallId) (id : JobId) (opts : SubmitOptions) (k : JobId) :
    (insertJob s c id opts).rows.find k = s.rows.find k ∨ k = id ∧ s.rows.find k = none ∧
      (insertJob s c id opts).rows.find k = some (newJob k opts) := by
  unfold insertJob
  split
  · exact .inl rfl
  · split
    · exact .inl rfl
    · next rows inserted =>
        rcases Rows.find_insert_cases inserted k with stays | ⟨rfl, absent, found⟩
        · exact .inl stays
        · exact .inr ⟨rfl, absent, found⟩

theorem loadJob_rows {workflow : WorkflowDefinition} {workerId : String} {token : Nat} :
    (loadJob s k workflow workerId token).rows = s.rows := by
  unfold loadJob
  split
  · rfl
  · split <;> rfl

/-- Every step does one of the things listed to every row. -/
theorem step_row (ok : step config s e = some s') (k : JobId) :
    RowStep config s e k (s'.rows.find k) := by
  cases e with
  | advance now =>
      simp only [step, Option.ite_none_right_eq_some, Option.some.injEq] at ok
      obtain ⟨-, rfl⟩ := ok
      exact .stays
  | submitSelect c opts =>
      simp only [step, Option.ite_none_left_eq_some] at ok
      obtain ⟨-, ok⟩ := ok
      split at ok <;> cases ok <;> exact .stays
  | submitInsert c id =>
      simp only [step] at ok
      split at ok
      · next opts call =>
          cases ok
          rcases insertJob_find s c id opts k with
            stays | ⟨rfl, absent, new⟩
          · rw [stays]
            exact .stays
          · rw [new]
            exact .inserted c opts rfl absent
      · cases ok
  | submitSteps c =>
      simp only [step] at ok
      split at ok
      · next id workflow call =>
          cases ok
          refine rowStep_update (f := (·.withSteps (initialSteps id workflow)))
            (fun row => row.withSteps_id _) ?_
          intro row found key hit
          rw [decide_eq_true_eq] at hit
          cases hit
          cases key
          exact .submitted c workflow row rfl call found
      · cases ok
  | acquireLease k' workerId now =>
      simp only [step, Option.ite_none_right_eq_some, Option.some.injEq] at ok
      obtain ⟨-, rfl⟩ := ok
      refine rowStep_update (f := (·.claimed config workerId now))
        (fun row => row.claimed_id ..) ?_
      intro row found key hit
      simp only [Bool.decide_and, Bool.decide_eq_true, Bool.and_eq_true, decide_eq_true_eq] at hit
      obtain ⟨rfl, open'⟩ := hit
      cases key
      exact .acquired workerId now row rfl found open'
  | runProvisioningJob k' workflow workerId token =>
      cases ok
      rw [loadJob_rows]
      exact .stays
  | renewLease c now =>
      simp only [step] at ok
      split at ok
      · next inv call =>
          split at ok
          · split at ok
            · cases ok
              unfold renew
              split
              · exact rowStep_update (f := (·.renewed config now)) (fun row => row.renewed_id ..)
                  fun row found _ _ => .renewed c now row rfl found
              · exact .stays
            · cases ok
          · cases ok
      · cases ok
  | persist c =>
      simp only [step] at ok
      split at ok
      · next inv call =>
          split at ok
          · next status writes =>
              cases ok
              refine rowStep_update (f := inv.patch status s.clock)
                (fun _ => (inv.patch_row ..).1) ?_
              intro row found key hit
              rw [decide_eq_true_eq] at hit
              exact .persisted c inv status row rfl call (hit.symm.trans key) writes found
          · cases ok
      · cases ok
  | persistFails c message =>
      simp only [step] at ok
      split at ok
      · split at ok <;> cases ok
        exact .stays
      · cases ok
  | execute c outcome =>
      simp only [step] at ok
      split at ok
      · split at ok <;> cases ok <;> exact .stays
      · cases ok
  | announce c error =>
      simp only [step] at ok
      split at ok
      · split at ok <;> cases ok <;> exact .stays
      · cases ok
  | compensate c error =>
      simp only [step] at ok
      split at ok
      · split at ok <;> cases ok
        exact .stays
      · cases ok
  | stop c =>
      simp only [step] at ok
      split at ok <;> cases ok
      exact .stays

/-! ### Calls -/

/-- What one step makes of the call it is about. -/
inductive Moved (config : ProvisioningConfig) (s : State) (e : Event) (inv : Invocation) :
    Invocation → Prop where
  | renewed (i : Nat) (phase : inv.phase = .renewing i) :
      Moved config s e inv
        { inv with steps := inv.steps.modify i (·.started s.clock), phase := .starting i }
  | persisted (status : ProvisioningJobStatus) (writes : inv.phase.writes = some status) :
      Moved config s e inv (inv.saved status)
  | executed (i : Nat) (output : String) (phase : inv.phase = .executing i) :
      Moved config s e inv
        { inv with steps := inv.steps.modify i (·.done output s.clock), phase := .recording i }
  | caught (i : Nat) (message : String)
      (phase : inv.phase = .executing i ∨ inv.phase = .recording i) :
      Moved config s e inv (inv.caught config i message)
  | announced (i : Nat) (phase : inv.phase = .announcing i) :
      Moved config s e inv { inv with phase := nextStep inv.workflow inv.steps (i + 1) }
  | unannounced (i : Nat) (c : CallId) (message : String) (phase : inv.phase = .announcing i)
      (event : e = .announce c (some message)) : Moved config s e inv (inv.caught config i message)
  | compensated (i j : Nat) (error : Option String) (phase : inv.phase = .compensating i j) :
      Moved config s e inv
        { inv with steps := inv.steps.modify j (·.unwound error), phase := .unwinding i j }
  | ended : Moved config s e inv { inv with phase := .ended }

/-- The calls there are after a step. -/
inductive CallStep (config : ProvisioningConfig) (s : State) (e : Event) : Invocation → Prop where
  | kept (inv : Invocation) (mem : inv ∈ s.calls) : CallStep config s e inv
  | loaded (k : JobId) (workflow : WorkflowDefinition) (workerId : String) (token : Nat)
      (row : JobRow) (event : e = .runProvisioningJob k workflow workerId token)
      (found : s.rows.find k = some row) (live : row.status ∉ terminalStatuses) :
      CallStep config s e
        { jobId := k
          workflow := workflow
          workerId := workerId
          fencingToken := token
          steps := backfill k workflow row.steps
          phase := nextStep workflow (backfill k workflow row.steps) 0
          seen := ⟨backfill k workflow row.steps, row.status⟩ }
  | moved (inv inv' : Invocation) (mem : inv ∈ s.calls) (moves : Moved config s e inv inv') :
      CallStep config s e inv'

theorem callStep_setCall {c : CallId} {inv inv' next : Invocation} (call : s.calls[c]? = some inv)
    (moves : Moved config s e inv inv') (mem : next ∈ (s.setCall c inv').calls) :
    CallStep config s e next := by
  rcases List.mem_or_eq_of_mem_set mem with kept | rfl
  · exact .kept next kept
  · exact .moved inv next (List.mem_of_getElem? call) moves

/-- Every call is accounted for. -/
theorem step_call (ok : step config s e = some s') {next : Invocation} (mem : next ∈ s'.calls) :
    CallStep config s e next := by
  cases e with
  | advance now =>
      simp only [step, Option.ite_none_right_eq_some, Option.some.injEq] at ok
      obtain ⟨-, rfl⟩ := ok
      exact .kept next mem
  | submitSelect c opts =>
      simp only [step, Option.ite_none_left_eq_some] at ok
      obtain ⟨-, ok⟩ := ok
      split at ok <;> cases ok <;> exact .kept next mem
  | submitInsert c id =>
      simp only [step] at ok
      split at ok
      · cases ok
        unfold insertJob at mem
        split at mem
        · exact .kept next mem
        · split at mem <;> exact .kept next mem
      · cases ok
  | submitSteps c =>
      simp only [step] at ok
      split at ok
      · cases ok
        exact .kept next mem
      · cases ok
  | acquireLease k workerId now =>
      simp only [step, Option.ite_none_right_eq_some, Option.some.injEq] at ok
      obtain ⟨-, rfl⟩ := ok
      exact .kept next mem
  | runProvisioningJob k workflow workerId token =>
      cases ok
      unfold loadJob at mem
      split at mem
      · exact .kept next mem
      · next row found =>
          split at mem
          · exact .kept next mem
          · next live =>
              rcases List.mem_append.mp mem with kept | new
              · exact .kept next kept
              · cases List.mem_singleton.mp new
                exact .loaded k workflow workerId token row rfl found live
  | renewLease c now =>
      simp only [step] at ok
      split at ok
      · next inv call =>
          split at ok
          · next i phase =>
              split at ok
              · cases ok
                unfold renew at mem
                split at mem
                · exact callStep_setCall call (.renewed i phase) mem
                · exact callStep_setCall call .ended mem
              · cases ok
          · cases ok
      · cases ok
  | persist c =>
      simp only [step] at ok
      split at ok
      · next inv call =>
          split at ok
          · next status writes =>
              cases ok
              exact callStep_setCall call (.persisted status writes) mem
          · cases ok
      · cases ok
  | persistFails c message =>
      simp only [step] at ok
      split at ok
      · next inv call =>
          split at ok
          · next i phase =>
              cases ok
              exact callStep_setCall call (.caught i message (.inr phase)) mem
          · cases ok
      · cases ok
  | execute c outcome =>
      simp only [step] at ok
      split at ok
      · next inv call =>
          split at ok
          · next i output phase =>
              cases ok
              exact callStep_setCall call (.executed i output phase) mem
          · next i message phase =>
              cases ok
              exact callStep_setCall call (.caught i message (.inl phase)) mem
          · cases ok
      · cases ok
  | announce c error =>
      simp only [step] at ok
      split at ok
      · next inv call =>
          split at ok
          · next i phase =>
              cases ok
              exact callStep_setCall call (.announced i phase) mem
          · next i message phase =>
              cases ok
              exact callStep_setCall call (.unannounced i c message phase rfl) mem
          · cases ok
      · cases ok
  | compensate c error =>
      simp only [step] at ok
      split at ok
      · next inv call =>
          split at ok
          · next i j phase =>
              cases ok
              exact callStep_setCall call (.compensated i j error phase) mem
          · cases ok
      · cases ok
  | stop c =>
      simp only [step] at ok
      split at ok
      · next inv call =>
          cases ok
          exact callStep_setCall call .ended mem
      · cases ok

end Talos.Provisioning
