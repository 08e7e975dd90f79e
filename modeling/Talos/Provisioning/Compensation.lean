import Talos.Provisioning.Stages

/-!
# Compensation

Under one worker that does not crash, a run is a saga (`tracked`): what is stored and what
the call in progress holds say at each moment which steps are completed, which one is being
tried and which were undone. So a run that fails at step `i` compensates the steps `i`, …,
`0`, which are those that were ever executed, and ends as failed, whatever the compensations
come to (`compensation_complete`).
-/

namespace Talos.Provisioning

open Database Soroban
open Saga (Stage Path)

variable {config : ProvisioningConfig} {start : Int} {s s' : State} {e : Event} {h : List Step}
  {k : JobId} {steps : List StepRecord} {i j : Nat}

/-! ### Other events -/

theorem Quiet.of_calls (quiet : Quiet k s) (calls : s'.calls = s.calls) : Quiet k s' :=
  fun inv mem => quiet inv (calls ▸ mem)

theorem Quiet.set {c : CallId} {inv : Invocation} (quiet : Quiet k s)
    (calls : s'.calls = s.calls.set c inv) (still : inv.jobId = k → inv.phase = .ended) :
    Quiet k s' := by
  intro next mem
  rw [calls] at mem
  rcases List.mem_or_eq_of_mem_set mem with kept | rfl
  · exact quiet next kept
  · exact still

theorem Quiet.append {inv : Invocation} (quiet : Quiet k s) (calls : s'.calls = s.calls ++ [inv])
    (still : inv.jobId = k → inv.phase = .ended) : Quiet k s' := by
  intro next mem
  rw [calls] at mem
  rcases List.mem_append.mp mem with kept | new
  · exact quiet next kept
  · cases List.mem_singleton.mp new
    exact still

theorem Busy.of_row {row row' : JobRow} {undone : List (Nat × Option String)} {phase : Phase}
    {stage : Stage} (keeps : ∀ i, row.Open i → row'.Open i)
    (busy : Busy row undone steps phase stage) : Busy row' undone steps phase stage := by
  cases busy with
  | renewing i tried here inside rests => exact .renewing i tried here inside (keeps i rests)
  | starting i tried here inside => exact .starting i tried here inside
  | executing i tried here inside => exact .executing i tried here inside
  | recording i here => exact .recording i here
  | announcing i here rests => exact .announcing i here (keeps (i + 1) rests)
  | retrying i here => exact .retrying i here
  | failing i undoable => exact .failing i undoable
  | finishing i tried here => exact .finishing i tried here
  | compensating i j undoable settled => exact .compensating i j undoable settled
  | unwinding i j undoable settled => exact .unwinding i j undoable settled
  | settling i settled => exact .settling i settled

theorem Busy.not_ended {row : JobRow} {undone : List (Nat × Option String)} {stage : Stage} :
    ¬ Busy row undone steps .ended stage := by
  intro busy
  cases busy

theorem JobRow.Open.claimed {row : JobRow} (rests : row.Open i) (config : ProvisioningConfig)
    (workerId : String) (now : Int) : (row.claimed config workerId now).Open i :=
  ⟨.inr (.inl rfl), rests.steps⟩

theorem Resting.claimed {row : JobRow} {undone : List (Nat × Option String)} {stage : Stage}
    {now : Int} (rests : Resting row undone stage) (open' : claimable now row = true)
    (config : ProvisioningConfig) (workerId : String) :
    Resting (row.claimed config workerId now) undone stage := by
  cases rests with
  | opened i tried rests => exact .opened i tried (rests.claimed config workerId now)
  | failed i status cursor settled =>
      simp [claimable, status] at open'

theorem prefix_nil : Prefix [] 0 := by
  refine ⟨Nat.le_refl _, ?_, ?_⟩
  · intro j record found
    cases found
  · intro j record found
    cases found

/-- The steps of a run that has none are filled in. -/
theorem Resting.submitted {row : JobRow} {actions : List (Saga.Action (Option String))}
    {stage : Stage} (path : Path actions stage) (rests : Resting row (Saga.undone actions) stage)
    (none : row.steps = []) (workflow : WorkflowDefinition) :
    Resting (row.withSteps (initialSteps k workflow)) (Saga.undone actions) stage := by
  cases rests with
  | opened i tried rests =>
      have le := rests.steps.le
      rw [none] at le
      cases Nat.le_zero.mp le
      exact .opened 0 tried ⟨rests.status, prefix_initialSteps workflow⟩
  | failed i status cursor settled =>
      have first : 0 ∈ (Saga.undone actions).map Prod.fst := by
        rw [show (Saga.undone actions).map Prod.fst = _ from path.undone]
        exact List.mem_range.mpr (Nat.succ_pos i)
      obtain ⟨p, mem, -⟩ := List.mem_map.mp first
      obtain ⟨record, found, -⟩ := settled p mem
      rw [none] at found
      cases found

/-- A step of the machine that is about no call, as far as there are no new calls. -/
theorem Held.row_step {actions : List (Saga.Action (Option String))} {stage : Stage}
    (path : Path actions stage) (held : Held k (Saga.undone actions) s stage)
    (ok : step config s e = some s') (solo : Solo k ⟨s, e, s'⟩) (about : e.call = none)
    (calls : s'.calls = s.calls) : Held k (Saga.undone actions) s' stage := by
  have change := step_row ok k
  generalize after : s'.rows.find k = stored at change
  cases held with
  | unborn absent quiet =>
      have quiet := quiet.of_calls calls
      cases change with
      | stays => exact .unborn (after.trans absent) quiet
      | inserted c opts =>
          exact .resting _ _ after quiet (.opened 0 false ⟨.inl rfl, prefix_nil⟩)
      | submitted _ _ _ _ _ found | acquired _ _ _ _ found | renewed _ _ _ _ found
      | persisted _ _ _ _ _ _ _ _ found => cases absent.symm.trans found
  | resting row stage found quiet rests =>
      have quiet := quiet.of_calls calls
      cases change with
      | stays => exact .resting row stage (after.trans found) quiet rests
      | inserted _ _ _ absent => cases found.symm.trans absent
      | submitted c workflow _ event call found' =>
          cases found.symm.trans found'
          obtain ⟨-, empty⟩ := solo.submits (by simp [submitted, event, call])
          exact .resting _ stage after quiet (rests.submitted path (empty row found) workflow)
      | acquired workerId now _ _ found' open' =>
          cases found.symm.trans found'
          exact .resting _ stage after quiet (rests.claimed open' config workerId)
      | renewed _ _ _ event | persisted _ _ _ _ event =>
          subst event
          cases about
  | busy row c inv stage found call job others busy =>
      have call' : s'.calls[c]? = some inv := calls ▸ call
      have others : ∀ c' inv', s'.calls[c']? = some inv' → c' ≠ c → inv'.jobId = k →
          inv'.phase = .ended := calls ▸ others
      cases change with
      | stays => exact .busy row c inv stage (after.trans found) call' job others busy
      | inserted _ _ _ absent => cases found.symm.trans absent
      | submitted c' workflow _ event submission =>
          obtain ⟨quiet, -⟩ := solo.submits (by simp [submitted, event, submission])
          have ended := quiet inv (List.mem_of_getElem? call) job
          rw [ended] at busy
          exact absurd busy Busy.not_ended
      | acquired workerId now _ _ found' =>
          cases found.symm.trans found'
          exact .busy _ c inv stage after call' job others
            (busy.of_row fun i rests => rests.claimed config workerId now)
      | renewed _ _ _ event | persisted _ _ _ _ event =>
          subst event
          cases about

/-- Without a call that it is about, an event adds at most a new call. -/
theorem step_calls (ok : step config s e = some s') (about : e.call = none) :
    s'.calls = s.calls ∨ ∃ k row inv, loaded ⟨s, e, s'⟩ = some k ∧ s.rows.find k = some row ∧
      row.status ∉ terminalStatuses ∧ s'.rows = s.rows ∧ s'.calls = s.calls ++ [inv] ∧
      inv.jobId = k ∧ inv.steps = backfill k inv.workflow row.steps ∧
      inv.phase = nextStep inv.workflow inv.steps 0 := by
  cases e with
  | renewLease | persist | persistFails | execute | announce | compensate | stop => cases about
  | advance now =>
      simp only [step, Option.ite_none_right_eq_some, Option.some.injEq] at ok
      obtain ⟨-, rfl⟩ := ok
      exact .inl rfl
  | submitSelect c opts =>
      simp only [step, Option.ite_none_left_eq_some] at ok
      obtain ⟨-, ok⟩ := ok
      split at ok <;> cases ok <;> exact .inl rfl
  | submitInsert c id =>
      simp only [step] at ok
      split at ok
      · cases ok
        unfold insertJob
        split
        · exact .inl rfl
        · split <;> exact .inl rfl
      · cases ok
  | submitSteps c =>
      simp only [step] at ok
      split at ok
      · cases ok
        exact .inl rfl
      · cases ok
  | acquireLease k workerId now =>
      simp only [step, Option.ite_none_right_eq_some, Option.some.injEq] at ok
      obtain ⟨-, rfl⟩ := ok
      exact .inl rfl
  | runProvisioningJob k workflow workerId token =>
      cases ok
      unfold loadJob
      split
      · exact .inl rfl
      · next row found =>
          split
          · exact .inl rfl
          · next live => exact .inr ⟨k, row, _, rfl, found, live, rfl, rfl, rfl, rfl, rfl⟩

/-- A new call of the run, or of another. -/
theorem Held.loads {undone : List (Nat × Option String)} {stage : Stage}
    (held : Held k undone s stage) {inv : Invocation} {row : JobRow}
    (quiet : inv.jobId = k → Quiet k s) (rows : s'.rows = s.rows)
    (calls : s'.calls = s.calls ++ [inv]) (found : s.rows.find inv.jobId = some row)
    (live : row.status ∉ terminalStatuses)
    (steps : inv.steps = backfill inv.jobId inv.workflow row.steps)
    (phase : inv.phase = nextStep inv.workflow inv.steps 0) : Held k undone s' stage := by
  by_cases own : inv.jobId = k
  · have quiet := quiet own
    rw [own] at found
    cases held with
    | unborn absent => cases absent.symm.trans found
    | busy _ c inv' _ _ call job _ busy =>
        have ended := quiet inv' (List.mem_of_getElem? call) job
        rw [ended] at busy
        exact absurd busy Busy.not_ended
    | resting row' _ found' _ rests =>
        cases found.symm.trans found'
        cases rests with
        | failed i status =>
            rw [status] at live
            exact absurd (by decide) live
        | opened i tried rests =>
            have here : Prefix inv.steps i := steps ▸ rests.steps.backfill inv.workflow
            have found : s'.rows.find k = some row := by rw [rows, found]
            have further : Onward row inv undone (.forward i tried) :=
              here.onward rests tried (Nat.zero_le i) phase
            rcases further with ⟨ended, rests⟩ | busy
            · exact .resting row _ found (quiet.append calls fun _ => ended) rests
            · have new : s'.calls[s.calls.length]? = some inv := by
                rw [calls, List.getElem?_concat_length]
              refine .busy row _ inv _ found new own ?_ busy
              intro c' inv' call' other job'
              have before : s.calls[c']? = some inv' := by
                rw [calls, List.getElem?_append] at call'
                split at call'
                · exact call'
                · next later =>
                    have above := Nat.lt_of_le_of_ne (Nat.le_of_not_lt later) (Ne.symm other)
                    have last : c' - s.calls.length ≠ 0 := Nat.sub_ne_zero_of_lt above
                    rw [List.getElem?_singleton, if_neg last] at call'
                    cases call'
              exact quiet inv' (List.mem_of_getElem? before) job'
  · cases held with
    | unborn absent quiet =>
        exact .unborn (rows ▸ absent) (quiet.append calls fun same => absurd same own)
    | resting row' stage found' quiet rests =>
        exact .resting row' stage (rows ▸ found') (quiet.append calls fun same => absurd same own)
          rests
    | busy row' c inv' stage found' call job others busy =>
        have inside : c < s.calls.length := (List.getElem?_eq_some_iff.mp call).1
        refine .busy row' c inv' stage (rows ▸ found') ?_ job ?_ busy
        · rw [calls, List.getElem?_append_left inside, call]
        · intro c' inv'' call' other job'
          rw [calls, List.getElem?_append] at call'
          split at call'
          · exact others c' inv'' call' other job'
          · have mem := List.mem_of_getElem? call'
            cases List.mem_singleton.mp mem
            exact absurd job' own

/-! ### Events about calls -/

theorem caller_eq {c : CallId} {inv : Invocation} (about : e.call = some c)
    (call : s.calls[c]? = some inv) : caller ⟨s, e, s'⟩ = some inv := by
  rw [caller, about, Option.bind_some, call]

/-- A call that is over can only be stopped. -/
theorem stop_of_ended {c : CallId} {inv : Invocation} (ok : step config s e = some s')
    (about : e.call = some c) (call : s.calls[c]? = some inv) (ended : inv.phase = .ended) :
    e = .stop c := by
  cases e with
  | advance | submitSelect | submitInsert | submitSteps | acquireLease | runProvisioningJob =>
      cases about
  | stop =>
      cases about
      rfl
  | renewLease | persist | persistFails | compensate | execute | announce =>
      cases about
      simp [step, call, ended, Phase.writes] at ok

theorem Solo.not_stop {t : Step} (solo : Solo k t) {inv : Invocation} (call : caller t = some inv)
    (job : inv.jobId = k) (c : CallId) : t.event ≠ .stop c := by
  intro event
  refine solo.survives ?_
  rw [crashed, event]
  dsimp only
  rw [call, Option.map_some, job]

/-- An event about a call of another run. -/
theorem Held.other {undone : List (Nat × Option String)} {stage : Stage} {c : CallId}
    {inv inv' : Invocation} (held : Held k undone s stage) (call : s.calls[c]? = some inv)
    (calls : s'.calls = s.calls.set c inv') (same : inv'.jobId = inv.jobId)
    (own : inv.jobId ≠ k) (row : s'.rows.find k = s.rows.find k) : Held k undone s' stage := by
  have own' : inv'.jobId ≠ k := same ▸ own
  cases held with
  | unborn absent quiet =>
      exact .unborn (row.trans absent) (quiet.set calls fun same => absurd same own')
  | resting row' stage found quiet rests =>
      exact .resting row' stage (row.trans found) (quiet.set calls fun same => absurd same own')
        rests
  | busy row' d inv₀ stage found call₀ job others busy =>
      have apart : c ≠ d := by
        rintro rfl
        cases call.symm.trans call₀
        exact own job
      refine .busy row' d inv₀ stage (row.trans found) ?_ job ?_ busy
      · rw [calls, List.getElem?_set_ne apart, call₀]
      · intro c' next call' other job'
        by_cases here : c = c'
        · subst here
          have mem := List.mem_of_getElem? call'
          rw [calls, List.getElem?_set_self (List.getElem?_eq_some_iff.mp call).1] at call'
          cases call'
          exact absurd job' own'
        · rw [calls, List.getElem?_set_ne here] at call'
          exact others c' next call' other job'

/-- An event about a call of the run. -/
theorem Held.own {actions : List (Saga.Action (Option String))} {stage : Stage} {c : CallId}
    {inv inv' : Invocation} (path : Path actions stage)
    (held : Held k (Saga.undone actions) s stage) (call : s.calls[c]? = some inv)
    (calls : s'.calls = s.calls.set c inv') (same : inv'.jobId = inv.jobId) (job : inv.jobId = k)
    (live : inv.phase ≠ .ended) (survives : ∀ c, e ≠ .stop c)
    (turns : Turns config s e inv inv' s') :
    ∃ stage', Path ((inv.phase.action e).toList ++ actions) stage' ∧
      Held k (Saga.undone ((inv.phase.action e).toList ++ actions)) s' stage' := by
  have mem := List.mem_of_getElem? call
  cases held with
  | unborn _ quiet | resting _ _ _ quiet => exact absurd (quiet inv mem job) live
  | busy row d inv₀ stage found call₀ job₀ others busy =>
      have here : c = d := by
        by_contra apart
        exact live (others c inv call apart job)
      subst here
      cases call.symm.trans call₀
      obtain ⟨row', found', turn⟩ := turns k row found
      rw [if_pos job] at turn
      obtain ⟨stage', path', onward⟩ := busy.turn path turn survives
      refine ⟨stage', path', ?_⟩
      have inside : c < s.calls.length := (List.getElem?_eq_some_iff.mp call).1
      have others : ∀ c' next, s'.calls[c']? = some next → c' ≠ c → next.jobId = k →
          next.phase = .ended := by
        intro c' next call' other job'
        rw [calls, List.getElem?_set_ne other.symm] at call'
        exact others c' next call' other job'
      rcases onward with ⟨ended, rests⟩ | busy
      · refine .resting row' stage' found' ?_ rests
        intro next mem job'
        obtain ⟨c', call'⟩ := List.getElem?_of_mem mem
        by_cases other : c' = c
        · rw [calls, other, List.getElem?_set_self inside] at call'
          cases call'
          exact ended
        · exact others c' next call' other job'
      · refine .busy row' c inv' stage' found' ?_ (same.trans job) others busy
        rw [calls, List.getElem?_set_self inside]

/-! ### Runs -/

theorem log_cons (k : JobId) (t : Step) (h : List Step) :
    log k (t :: h) = (action k t).toList ++ log k h := by
  unfold log
  cases acts : action k t with
  | none => rw [List.filterMap_cons_none acts]; rfl
  | some a => rw [List.filterMap_cons_some acts]; rfl

theorem Tracked.step (tracked : Tracked k h s) (ok : step config s e = some s')
    (solo : Solo k ⟨s, e, s'⟩) : Tracked k (⟨s, e, s'⟩ :: h) s' := by
  obtain ⟨stage, path, held⟩ := tracked
  rw [Tracked, log_cons]
  cases about : e.call with
  | none =>
      have still : action k ⟨s, e, s'⟩ = none := by
        rw [action, caller, about]
        rfl
      rw [still]
      refine ⟨stage, path, ?_⟩
      rcases step_calls ok about with calls | ⟨k', row, inv, loads, found, live, rows, calls, rfl,
        steps, phase⟩
      · exact held.row_step path ok solo about calls
      · refine held.loads (fun own => ?_) rows calls found live steps phase
        exact solo.loads (by rw [loads, own])
  | some c =>
      obtain ⟨inv, inv', call, calls, same, turns⟩ := step_turn ok about
      have caller : caller ⟨s, e, s'⟩ = some inv := caller_eq about call
      by_cases own : inv.jobId = k
      · have survives := solo.not_stop caller own
        have acts : action k ⟨s, e, s'⟩ = inv.phase.action e := by
          rw [action, caller, Option.bind_some, if_pos own]
        rw [acts]
        refine held.own path call calls same own ?_ survives turns
        intro ended
        exact survives c (stop_of_ended ok about call ended)
      · have still : action k ⟨s, e, s'⟩ = none := by
          rw [action, caller, Option.bind_some, if_neg own]
        rw [still]
        refine ⟨stage, path, held.other call calls same own ?_⟩
        cases found : s.rows.find k with
        | some row =>
            obtain ⟨row', found', turn⟩ := turns k row found
            rw [if_neg own] at turn
            rw [found', turn]
        | none =>
            have change := step_row ok k
            generalize s'.rows.find k = stored at change
            cases change with
            | stays => exact found
            | inserted _ _ event =>
                subst event
                cases about
            | submitted _ _ _ _ _ found' | acquired _ _ _ _ found' | renewed _ _ _ _ found'
            | persisted _ _ _ _ _ _ _ _ found' => cases found.symm.trans found'

/-- In a run by one worker without crashes, a provisioning run is a saga. -/
theorem tracked (run : Run (machine config start) h s) (solo : ∀ t ∈ h, Solo k t) :
    Tracked k h s := by
  refine run.history (I := Tracked k) solo ?_ fun tracked ok solo => tracked.step ok solo
  exact ⟨_, .start, .unborn rfl fun _ absent => by cases absent⟩

/-- Run `k` failed at step `i`: the steps that were executed are those up to `i`, their
compensations were called once each, the later step first, and the row is stored as failed
at `i` with the outcome of each of them on its step. -/
structure Compensated (k : JobId) (i : Nat) (h : List Step) (s : State) : Prop where
  attempted : ∀ j, .attempt j ∈ log k h ↔ j ≤ i
  undone : (compensations k h).map Prod.fst = (List.range (i + 1)).reverse
  stored : ∃ row, s.rows.find k = some row ∧ row.status = .failed ∧ row.cursor = i ∧
    Settled row.steps (compensations k h)

/-- Once a step has failed for good and the call is over, the run is compensated. -/
theorem Tracked.compensated (tracked : Tracked k h s) (failed : .fail i ∈ log k h)
    (quiet : Quiet k s) : Compensated k i h s := by
  obtain ⟨stage, path, held⟩ := tracked
  have about := (path.failure i).mp failed
  cases held with
  | unborn => cases about
  | busy _ c inv _ _ call job _ busy =>
      have ended := quiet inv (List.mem_of_getElem? call) job
      rw [ended] at busy
      exact absurd busy Busy.not_ended
  | resting row _ found _ rests =>
      cases rests with
      | opened => cases about
      | failed _ status cursor settled =>
          cases about
          refine ⟨path.attempted, path.undone_failed, row, found, status, cursor, ?_⟩
          exact fun p mem => settled p (List.mem_reverse.mp mem)

/-! ### The compensation comes to its end -/

/-- A step of the compensation by call `c`, in which the callback of a step `j` comes to
`outcome j`. -/
def Unwinds (c : CallId) (outcome : Nat → Option String) (t : Step) : Prop :=
  t.event = .persist c ∨ ∃ inv i j, t.pre.calls[c]? = some inv ∧ inv.phase = .compensating i j ∧
    t.event = .compensate c (outcome j)

theorem Unwinds.solo {c : CallId} {outcome : Nat → Option String} {t : Step}
    (unwinds : Unwinds c outcome t) : Solo k t := by
  rcases unwinds with event | ⟨_, _, _, -, -, event⟩
  · exact ⟨by simp [crashed, event], by simp [loaded, event], by simp [submitted, event]⟩
  · exact ⟨by simp [crashed, event], by simp [loaded, event], by simp [submitted, event]⟩

theorem nextUnwind_below (steps : List StepRecord) (i j : Nat) :
    nextUnwind steps i j = .settling i ∨ ∃ n < j, nextUnwind steps i j = .compensating i n := by
  unfold nextUnwind
  split
  · exact .inl rfl
  · next n first =>
      have mem := List.mem_reverse.mp (List.mem_of_find?_eq_some first)
      exact .inr ⟨n, List.mem_range.mp mem, rfl⟩

/-- Call `c` comes to its end from `s`, whatever its compensations come to. -/
def Ends (config : ProvisioningConfig) (start : Int) (c : CallId) (outcome : Nat → Option String)
    (s : State) : Prop :=
  ∃ h s' inv, Steps (machine config start) s h s' ∧ (∀ t ∈ h, Unwinds c outcome t) ∧
    s'.calls = s.calls.set c inv ∧ inv.phase = .ended

variable {c : CallId} {outcome : Nat → Option String}

theorem Ends.step {inv : Invocation} (ok : step config s e = some s')
    (unwinds : Unwinds c outcome ⟨s, e, s'⟩) (calls : s'.calls = s.calls.set c inv)
    (ends : Ends config start c outcome s') : Ends config start c outcome s := by
  obtain ⟨h, t, last, steps, each, changed, ended⟩ := ends
  refine ⟨h ++ [⟨s, e, s'⟩], t, last, Steps.trans (.step .refl ok) steps, ?_, ?_, ended⟩
  · intro r mem
    rcases List.mem_append.mp mem with later | first
    · exact each r later
    · exact List.mem_singleton.mp first ▸ unwinds
  · rw [changed, calls, List.set_set]

theorem ends_settling {inv : Invocation} (call : s.calls[c]? = some inv)
    (phase : inv.phase = .settling i) : Ends config start c outcome s := by
  have ok : (machine config start).step s (.persist c) = some (save s c inv .failed) := by
    simp only [machine, step, call, phase, Phase.writes]
  refine ⟨_, _, inv.saved .failed, .step .refl ok, ?_, rfl, ?_⟩
  · intro t mem
    cases List.mem_singleton.mp mem
    exact .inl rfl
  · rw [Invocation.saved, Invocation.nextPhase, phase]

theorem ends_compensating {inv : Invocation} (call : s.calls[c]? = some inv)
    (phase : inv.phase = .compensating i j)
    (rest : ∀ {s : State} {inv : Invocation}, s.calls[c]? = some inv →
      inv.phase = .unwinding i j → Ends config start c outcome s) :
    Ends config start c outcome s := by
  let next : Invocation :=
    { inv with steps := inv.steps.modify j (·.unwound (outcome j)), phase := .unwinding i j }
  have ok : step config s (.compensate c (outcome j)) = some (s.setCall c next) := by
    simp only [step, call, phase, next]
  have calls : (s.setCall c next).calls = s.calls.set c next := rfl
  refine Ends.step ok (.inr ⟨inv, i, j, call, phase, rfl⟩) calls ?_
  exact rest (setCall_call call) rfl

/-- The induction is on the step below which steps are left. -/
theorem ends_unwinding (j : Nat) : ∀ {s : State} {inv : Invocation}, s.calls[c]? = some inv →
    inv.phase = .unwinding i j → Ends config start c outcome s := by
  induction j using Nat.strong_induction_on with
  | _ j ih =>
      intro s inv call phase
      have ok : step config s (.persist c) = some (save s c inv .compensating) := by
        simp only [step, call, phase, Phase.writes]
      have next : (inv.saved .compensating).phase = nextUnwind inv.steps i j := by
        rw [Invocation.saved, Invocation.nextPhase, phase]
      have call : (save s c inv .compensating).calls[c]? = some (inv.saved .compensating) :=
        setCall_call call
      have calls : (save s c inv .compensating).calls =
          s.calls.set c (inv.saved .compensating) := rfl
      refine Ends.step ok (.inl rfl) calls ?_
      rcases nextUnwind_below inv.steps i j with last | ⟨n, below, further⟩
      · exact ends_settling call (next.trans last)
      · exact ends_compensating call (next.trans further) (ih n below)

/-- A run that failed at step `i` is compensated from there, with all that was executed, as
soon as the call is over; and from every moment on the call comes to its end, whatever the
compensations come to. -/
theorem compensation_complete (run : Run (machine config start) h s) (solo : ∀ t ∈ h, Solo k t)
    (failed : .fail i ∈ log k h) :
    (Quiet k s → Compensated k i h s) ∧
      ∀ outcome : Nat → Option String, ∃ c h' s', Steps (machine config start) s h' s' ∧
        (∀ t ∈ h', Unwinds c outcome t) ∧ Compensated k i (h' ++ h) s' := by
  have now := tracked run solo
  refine ⟨now.compensated failed, fun outcome => ?_⟩
  obtain ⟨stage, path, held⟩ := id now
  have about := (path.failure i).mp failed
  cases held with
  | unborn => cases about
  | resting _ _ _ quiet =>
      exact ⟨0, [], s, .refl, List.forall_mem_nil _, now.compensated failed quiet⟩
  | busy row c inv _ found call job others busy =>
      have ends : Ends config start c outcome s := by
        generalize phase : inv.phase = p at busy
        cases busy with
        | renewing | starting | executing | recording | announcing | retrying | failing
        | finishing =>
            cases about
        | compensating i j => exact ends_compensating call phase (ends_unwinding j)
        | unwinding i j => exact ends_unwinding j call phase
        | settling i => exact ends_settling call phase
      obtain ⟨h', s', last, steps, each, calls, ended⟩ := ends
      refine ⟨c, h', s', steps, each, ?_⟩
      have later : Tracked k (h' ++ h) s' := by
        refine tracked (run.trans steps) fun t mem => ?_
        rcases List.mem_append.mp mem with after | before
        · exact (each t after).solo
        · exact solo t before
      refine later.compensated ?_ ?_
      · rw [log, List.filterMap_append]
        exact List.mem_append_right _ failed
      · intro next mem job'
        obtain ⟨c', call'⟩ := List.getElem?_of_mem mem
        by_cases other : c' = c
        · rw [calls, other, List.getElem?_set_self (List.getElem?_eq_some_iff.mp call).1] at call'
          cases call'
          exact ended
        · rw [calls, List.getElem?_set_ne (Ne.symm other)] at call'
          exact others c' next call' other job'

/-! ### A run that is compensated -/

def recovery : WorkflowDefinition := ⟨.recover, ["wallet", "policy"]⟩

/-- The second step fails, and so does its compensation. -/
def unfunded : List Event :=
  [.submitSelect 0 ⟨"agent", .recover, "key", recovery⟩, .submitInsert 0 1, .submitSteps 0,
    .acquireLease 1 "a" 0, .runProvisioningJob 1 recovery "a" 1, .renewLease 0 0, .persist 0,
    .execute 0 (.ok "address"), .persist 0, .announce 0 none, .renewLease 0 0, .persist 0,
    .execute 0 (.error "no funds"), .persist 0, .compensate 0 (some "timeout"), .persist 0,
    .compensate 0 none, .persist 0, .persist 0]

def unfundedRun : List Step × State :=
  (machine impatient 0).play unfunded ([], (machine impatient 0).init)

theorem compensation_complete_unfunded :
    (∀ t ∈ unfundedRun.1, Solo 1 t) ∧ .fail 1 ∈ log 1 unfundedRun.1 ∧
      Compensated 1 1 unfundedRun.1 unfundedRun.2 :=
  have run : Run (machine impatient 0) unfundedRun.1 unfundedRun.2 := Machine.play_run ..
  have solo : ∀ t ∈ unfundedRun.1, Solo 1 t := by decide
  have failed : .fail 1 ∈ log 1 unfundedRun.1 := by decide
  ⟨solo, failed, (compensation_complete run solo failed).1 (by decide)⟩

end Talos.Provisioning
