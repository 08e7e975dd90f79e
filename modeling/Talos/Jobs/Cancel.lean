import Talos.Jobs.Lease

/-!
# Cancelled jobs

`requestCancel` turns a pending job into a cancelled one, but only flags a leased job,
and no statement ever turns a flagged lease into a cancelled job: `fail`, `release`
and the reaper put it back to pending, where `leaseBatch` picks it up again
(`cancelled_job_runs`). A job that `requestCancel` never meets leased is not run after
its cancellation (`cancelled_along`).
-/

namespace Talos.Jobs

open Database Soroban

variable {config : JobsConfig} {start : Int} {s s' : State} {e : Event} {h : List Step}
  {k : JobId}

/-- The statement by which `requestCancel(k)` returns a row. -/
inductive CancelReturns (t : Step) (k : JobId) : Prop where
  | pending (c : CallId) (row : JobRow) (event : t.event = .cancelPending c k)
      (found : t.pre.rows k = some row) (status : row.status = .pending)
  | leased (c : CallId) (row : JobRow) (event : t.event = .cancelLeased c)
      (call : t.pre.calls c = some (.cancelling k)) (found : t.pre.rows k = some row)
      (status : row.status = .leased)

def Leases (t : Step) (k : JobId) : Prop := (t.event.claims.lookup k).isSome = true

/-- A heartbeat that answers `cancelled` to the holder of a lease. -/
def ObservesCancel (t : Step) (k : JobId) (lease : LeaseId) : Prop :=
  ∃ leaseDurationMs row, t.event = .heartbeat k lease leaseDurationMs ∧
    t.pre.rows k = some row ∧ row.status = .leased ∧ row.leaseId = some lease ∧
    row.cancelRequested = true

/-- The job the second UPDATE of `requestCancel` is about. -/
def flagTarget (t : Step) : Option JobId :=
  match t.event with
  | .cancelLeased c =>
      match t.pre.calls c with
      | some (.cancelling id) => some id
      | _ => none
  | _ => none

/-- If this step is the second UPDATE of `requestCancel(k)`, it does not meet the job
leased. -/
def CancelsNoLease (k : JobId) (t : Step) : Prop :=
  flagTarget t = some k → ∀ row ∈ t.pre.rows k, row.status ≠ .leased

instance (k : JobId) (t : Step) : Decidable (CancelsNoLease k t) :=
  inferInstanceAs (Decidable (_ → ∀ _ ∈ _, _))

/-- A flagged job is a cancelled one. -/
def FlaggedIsCancelled (k : JobId) (s : State) : Prop :=
  ∀ row, s.rows k = some row → row.cancelRequested = true → row.status = .cancelled

theorem FlaggedIsCancelled.step (inv : FlaggedIsCancelled k s) (ok : step config s e = some s')
    (guard : CancelsNoLease k ⟨s, e, s'⟩) : FlaggedIsCancelled k s' := by
  intro row' found' flagged
  have change := step_row ok k
  rw [found'] at change
  generalize after : some row' = row at change
  cases change with
  | stays => exact inv row' after.symm flagged
  | inserted =>
      cases after
      cases flagged
  | leased _ _ _ _ _ _ row _ _ _ found status
  | extended _ _ row _ found _ status
  | completed _ _ row _ found _ status
  | released _ row _ found _ status =>
      cases after
      have cancelled := inv row found flagged
      rw [status] at cancelled
      cases cancelled
  | failed c jitter lease error current row _ _ found _ status =>
      cases after
      have kept : row.cancelRequested = true := by
        cases decision : decideRetry current.retryClass current.attempts current.maxAttempts
          jitter <;> simpa [decision, JobRow.failedWith, JobRow.unleased] using flagged
      have cancelled := inv row found kept
      rw [status] at cancelled
      cases cancelled
  | cancelled =>
      cases after
      rfl
  | flagged c row event call found status =>
      exact absurd status (guard (by simp only [flagTarget, event, call]) row found)
  | requeued =>
      cases after
      cases flagged
  | reapRequeued _ row _ found lapsed
  | reapDeadLettered _ row _ found lapsed =>
      cases after
      have cancelled := inv row found flagged
      rw [expired_leased lapsed] at cancelled
      cases cancelled

theorem flaggedIsCancelled (run : Run (machine config start) h s)
    (each : ∀ t ∈ h, CancelsNoLease k t) : FlaggedIsCancelled k s :=
  run.invariant_along each (fun _ absent => (nomatch absent)) fun inv ok guard => inv.step ok guard

/-- A cancelled job stays cancelled until it is requeued. -/
theorem cancelled_steps (steps : Steps (machine config start) s h s') {row : JobRow}
    (found : s.rows k = some row) (cancelled : row.status = .cancelled) :
    s'.rows k = some row ∨ ∃ u ∈ h, u.event = .requeue k := by
  refine steps.history (C := fun _ => True)
    (I := fun h s => s.rows k = some row ∨ ∃ u ∈ h, u.event = .requeue k)
    (fun _ _ => trivial) (.inl found) ?_
  rintro h t e t' now ok -
  rcases now with found | ⟨u, mem, event⟩
  · rcases finished_step ok found (by simp [cancelled]) (by simp [cancelled]) with
      stays | ⟨event, -⟩
    · exact .inl stays
    · exact .inr ⟨_, List.mem_cons_self, event⟩
  · exact .inr ⟨u, List.mem_cons_of_mem _ mem, event⟩

theorem cancelPending_step {c : CallId} {row : JobRow}
    (ok : step config s (.cancelPending c k) = some s') (found : s.rows k = some row)
    (pending : row.status = .pending) : s'.rows k = some row.cancelled := by
  simp only [step, Option.ite_none_left_eq_some] at ok
  obtain ⟨-, ok⟩ := ok
  have picked : inStatus k [.pending] k row = true :=
    inStatus_iff.mpr ⟨rfl, List.mem_singleton.mpr pending⟩
  rw [found, Option.filter_some, if_pos picked] at ok
  cases ok
  simp only [Table.update_of_some found, if_pos picked]

/-- In a run in which `requestCancel(k)` never meets the job leased, no lease of the
job follows a successful request without a `requeue` between them, and no holder of
a lease is told of a cancellation that leaves the job in another status. -/
theorem cancelled_along (run : Run (machine config start) h s)
    (each : ∀ t ∈ h, CancelsNoLease k t) :
    (∀ later between earlier t t', h = later ++ t' :: (between ++ t :: earlier) →
      CancelReturns t k → Leases t' k → ∃ u ∈ between, u.event = .requeue k) ∧
    ∀ later earlier t lease, h = later ++ t :: earlier → ObservesCancel t k lease →
      (∃ u ∈ later, u.event = .requeue k) ∨ ∃ row, s.rows k = some row ∧
        (row.status = .cancelled ∨ row.status = .leased ∧ row.leaseId = some lease) := by
  constructor
  · intro later between earlier t t' shape returns leases
    subst shape
    obtain ⟨upTo, ok', -⟩ := run.split
    obtain ⟨-, ok, after⟩ := upTo.split
    obtain ⟨lease, claim⟩ := Option.isSome_iff_exists.mp leases
    obtain ⟨-, row', -, -, found', status', -⟩ := claims_lookup ok' claim
    cases returns with
    | pending c row event found status =>
        replace ok : step config t.pre t.event = some t.post := ok
        rw [event] at ok
        have stored := cancelPending_step ok found status
        rcases cancelled_steps after stored rfl with stays | requeued
        · rw [stays] at found'
          cases found'
          cases status'
        · exact requeued
    | leased c row event call found status =>
        have mem : t ∈ later ++ t' :: (between ++ t :: earlier) := by simp
        exact absurd status (each t mem (by simp only [flagTarget, event, call]) row found)
  · rintro later earlier t lease shape ⟨_, row, -, found, status, -, flagged⟩
    subst shape
    have inv := flaggedIsCancelled run.split.1 (k := k) fun u mem =>
      each u (List.mem_append_right _ (List.mem_cons_of_mem _ mem))
    have cancelled := inv row found flagged
    rw [status] at cancelled
    cases cancelled

/-- A pending job cancelled, requeued and then leased. -/
def cancelledPending : List Event :=
  [.enqueue 0 "mail" "hello" plainOptions, .insert 0 1, .cancelPending 0 1,
    .leaseBatch ["mail"] 10 "a" 30 [(1, 7)], .requeue 1, .leaseBatch ["mail"] 10 "a" 30 [(1, 7)]]

theorem cancelled_along_pending :
    let run := (machine defaultConfig 0).play cancelledPending ([], (machine defaultConfig 0).init)
    Run (machine defaultConfig 0) run.1 run.2 ∧ (∀ t ∈ run.1, CancelsNoLease 1 t) ∧
      ∀ later between earlier t t', run.1 = later ++ t' :: (between ++ t :: earlier) →
        CancelReturns t 1 → Leases t' 1 → ∃ u ∈ between, u.event = .requeue 1 :=
  have guards : ∀ t ∈ ((machine defaultConfig 0).play cancelledPending
      ([], (machine defaultConfig 0).init)).1, CancelsNoLease 1 t := by decide
  ⟨Machine.play_run .., guards, (cancelled_along (Machine.play_run ..) guards).1⟩

/-! ### A cancelled job that runs again -/

/-- The job is leased when its cancellation is requested. Its worker sees the request
and stops, so the lease expires. -/
def cancelledLeased : List Event :=
  [.enqueue 0 "mail" "hello" plainOptions, .insert 0 1,
    .leaseBatch ["mail"] 10 "a" 30 [(1, 7)], .cancelPending 0 1, .cancelLeased 0,
    .heartbeat 1 7 30, .advance 31, .reapRequeue 0, .reapDeadLetter 0,
    .leaseBatch ["mail"] 10 "b" 30 [(1, 8)]]

theorem cancelled_job_runs :
    ∃ h s, Run (machine defaultConfig 0) h s ∧
      (∃ between earlier t t', h = t' :: (between ++ t :: earlier) ∧ CancelReturns t 1 ∧
        Leases t' 1 ∧ ∀ u ∈ between, u.event ≠ .requeue 1) ∧
      ∃ later earlier t, h = later ++ t :: earlier ∧ ObservesCancel t 1 7 ∧
        (∀ u ∈ later, u.event ≠ .requeue 1) ∧
        ∃ u ∈ later, ∃ row, u.post.rows 1 = some row ∧ row.status = .pending := by
  let run := (machine defaultConfig 0).play cancelledLeased ([], (machine defaultConfig 0).init)
  have noRequeue : ∀ t ∈ run.1, t.event ≠ .requeue 1 := by
    intro t mem event
    rcases Machine.mem_play mem with absent | listed
    · cases absent
    · rw [event] at listed
      exact absurd listed (by decide)
  refine ⟨run.1, run.2, Machine.play_run .., ?_, ?_⟩
  · refine ⟨[_, _, _, _], _, _, _, rfl, .leased 0 _ rfl rfl rfl rfl, rfl, ?_⟩
    intro u mem
    exact noRequeue u (List.mem_cons_of_mem _ (List.mem_append_left _ mem))
  · refine ⟨[_, _, _, _], _, _, rfl, ⟨_, _, rfl, rfl, rfl, rfl, rfl⟩, ?_, ?_⟩
    · intro u mem
      exact noRequeue u (List.mem_append_left _ mem)
    · exact ⟨_, List.mem_of_getElem? (i := 2) rfl, _, rfl, rfl⟩

end Talos.Jobs
