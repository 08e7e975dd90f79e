import Talos.Jobs.Effects

/-!
# Lease safety

The lease columns of a job agree with the history: a leased row carries the lease id
of the most recent lease, and nothing has ended it (`live_lease`). So the guarded
statements of `complete`, `fail`, `release` and `heartbeat` only act for the holder of
that lease, a job is completed at most once, and finished rows stay as they are until
`requeue` (`lease_safety`).
-/

namespace Talos.Jobs

open Database Soroban

abbrev Step := Transition State Event

/-- The statements that can end a lease. -/
def Event.endsLease : Event → Bool
  | .complete .. | .failUpdate .. | .release .. | .reapRequeue _ | .reapDeadLetter _ => true
  | _ => false

/-- The lease id issued to job `k` most recently, unless a completion, a failure, a
release or a reap has acted on the job since. -/
def currentLease (k : JobId) : List Step → Option LeaseId
  | [] => none
  | t :: h =>
      match t.event.claims.lookup k with
      | some lease => some lease
      | none =>
          if t.event.endsLease ∧ t.post.rows k ≠ t.pre.rows k then none else currentLease k h

/-- The job and the lease id a guarded statement names. -/
def settles (t : Step) : Option (JobId × LeaseId) :=
  match t.event with
  | .heartbeat id lease _ | .complete id lease _ | .release id lease => some (id, lease)
  | .failUpdate c _ =>
      match t.pre.calls c with
      | some (.failing id lease _ _) => some (id, lease)
      | _ => none
  | _ => none

/-- A call of `complete` that finds its lease. -/
def Completes (t : Step) (k : JobId) (lease : LeaseId) (result : Option String) : Prop :=
  t.event = .complete k lease result ∧ t.post.rows k ≠ t.pre.rows k

structure LeaseSafety (h : List Step) (s : State) : Prop where
  /-- A guarded statement changes a job only for the current lease. -/
  holder : ∀ later t earlier id lease k, h = later ++ t :: earlier →
    settles t = some (id, lease) → t.post.rows k ≠ t.pre.rows k →
    k = id ∧ currentLease k earlier = some lease
  /-- A completion is the only one of its job, and the result stays stored. -/
  completedOnce : ∀ later t earlier k lease result, h = later ++ t :: earlier →
    Completes t k lease result →
    currentLease k earlier = some lease ∧
      (∃ row, s.rows k = some row ∧ row.status = .completed ∧ row.result = result) ∧
      ∀ u ∈ later, ∀ lease' result', ¬ Completes u k lease' result'
  completedFinal : ∀ t ∈ h, ∀ k row, t.pre.rows k = some row → row.status = .completed →
    t.post.rows k = some row
  closedUntilRequeue : ∀ t ∈ h, ∀ k row, t.pre.rows k = some row →
    row.status = .deadLetter ∨ row.status = .cancelled → t.post.rows k ≠ some row →
    t.event = .requeue k

variable {config : JobsConfig} {start : Int} {s s' : State} {e : Event} {h : List Step}

/-! ### Single steps -/

theorem claims_lookup (ok : step config s e = some s') {k : JobId} {lease : LeaseId}
    (claim : e.claims.lookup k = some lease) :
    lease ∉ s.issued ∧ ∃ row workerId leaseDurationMs, s.rows k = some row ∧
      row.status = .pending ∧
      s'.rows k = some (row.leasedTo lease workerId s.clock leaseDurationMs) := by
  cases e with
  | leaseBatch queues limit workerId leaseDurationMs claims =>
      simp only [step, Option.ite_none_right_eq_some, Option.some.injEq] at ok
      obtain ⟨claimed, rfl⟩ := ok
      obtain ⟨fresh, row, found, pending⟩ := claimable_mem claimed claim
      have claim' : claims.lookup k = some lease := claim
      exact ⟨fresh, row, workerId, leaseDurationMs, found, pending, by
        simp only [leaseRows_apply, found, Option.map_some, claim']⟩
  | _ => cases claim

/-- A row that is neither pending nor leased only changes by `requeue`, and not if it
is completed. -/
theorem finished_step (ok : step config s e = some s') {k : JobId} {row : JobRow}
    (found : s.rows k = some row) (notPending : row.status ≠ .pending)
    (notLeased : row.status ≠ .leased) :
    s'.rows k = some row ∨
      e = .requeue k ∧ (row.status = .deadLetter ∨ row.status = .cancelled) := by
  have change := step_row ok k
  generalize s'.rows k = after at change
  cases change with
  | stays => exact .inl found
  | inserted _ _ _ _ _ _ _ absent =>
      rw [found] at absent
      cases absent
  | leased _ _ _ _ _ _ _ _ _ _ found' status
  | cancelled _ _ _ found' status =>
      rw [found] at found'
      cases found'
      exact absurd status notPending
  | extended _ _ _ _ found' _ status
  | completed _ _ _ _ found' _ status
  | failed _ _ _ _ _ _ _ _ found' _ status
  | released _ _ _ found' _ status
  | flagged _ _ _ _ found' status =>
      rw [found] at found'
      cases found'
      exact absurd status notLeased
  | requeued _ event found' isOver =>
      rw [found] at found'
      cases found'
      exact .inr ⟨event, isOver⟩
  | reapRequeued _ _ _ found' lapsed
  | reapDeadLettered _ _ _ found' lapsed =>
      rw [found] at found'
      cases found'
      exact absurd (expired_leased lapsed) notLeased

theorem completed_step (ok : step config s e = some s') {k : JobId} {row : JobRow}
    (found : s.rows k = some row) (done : row.status = .completed) : s'.rows k = some row := by
  rcases finished_step ok found (by simp [done]) (by simp [done]) with stays | ⟨-, isOver⟩
  · exact stays
  · rw [done] at isOver
    simp at isOver

/-- A guarded statement that changes a job names it and its stored lease. -/
theorem settles_held (ok : step config s e = some s') {id k : JobId} {lease : LeaseId}
    (call : settles ⟨s, e, s'⟩ = some (id, lease)) (changed : s'.rows k ≠ s.rows k) :
    k = id ∧ ∃ row, s.rows k = some row ∧ row.status = .leased ∧ row.leaseId = some lease := by
  have change := step_row ok k
  generalize s'.rows k = after at change changed
  cases change with
  | stays => exact absurd rfl changed
  | extended lease' _ row event found leaseId leased
  | completed lease' _ row event found leaseId leased
  | released lease' row event found leaseId leased =>
      subst event
      cases call
      exact ⟨rfl, row, found, leased, leaseId⟩
  | failed c _ lease' _ _ row event stored found leaseId leased =>
      subst event
      simp only [settles, stored] at call
      cases call
      exact ⟨rfl, row, found, leased, leaseId⟩
  | inserted _ _ _ _ _ event
  | leased _ _ _ _ _ _ _ event
  | cancelled _ _ event
  | flagged _ _ event
  | requeued _ event
  | reapRequeued _ _ event
  | reapDeadLettered _ _ event =>
      subst event
      cases call

/-! ### Runs -/

/-- Every leased row carries the current lease. -/
def Live (h : List Step) (s : State) : Prop :=
  ∀ k row, s.rows k = some row → row.status = .leased →
    ∃ lease, row.leaseId = some lease ∧ currentLease k h = some lease

/-- A step that issues no lease to a job and does not end one leaves the current
lease. -/
theorem currentLease_cons {t : Step} {k : JobId} (unclaimed : t.event.claims.lookup k = none)
    (notEnded : t.event.endsLease = false ∨ t.post.rows k = t.pre.rows k) :
    currentLease k (t :: h) = currentLease k h := by
  simp only [currentLease, unclaimed]
  rcases notEnded with kind | same
  · simp [kind]
  · simp [same]

theorem Live.step (live : Live h s) (ok : step config s e = some s') :
    Live (⟨s, e, s'⟩ :: h) s' := by
  intro k row' found' leased'
  cases claim : e.claims.lookup k with
  | some lease =>
      obtain ⟨-, row, workerId, duration, -, -, after⟩ := claims_lookup ok claim
      rw [after] at found'
      cases found'
      exact ⟨lease, rfl, by simp only [currentLease, claim]⟩
  | none =>
      have change := step_row ok k
      generalize after : s'.rows k = row at change
      cases change with
      | stays =>
          rw [after] at found'
          obtain ⟨lease, leaseId, current⟩ := live k row' found' leased'
          exact ⟨lease, leaseId, by rw [currentLease_cons claim (.inr after), current]⟩
      | extended _ _ row event found leaseId leased =>
          rw [after] at found'
          cases found'
          obtain ⟨lease, leaseId, current⟩ := live k row found leased
          exact ⟨lease, leaseId,
            by rw [currentLease_cons claim (.inl (by rw [event]; rfl)), current]⟩
      | flagged _ row event _ found leased =>
          rw [after] at found'
          cases found'
          obtain ⟨lease, leaseId, current⟩ := live k row found leased
          exact ⟨lease, leaseId,
            by rw [currentLease_cons claim (.inl (by rw [event]; rfl)), current]⟩
      | leased _ _ _ _ _ _ _ event claim' =>
          rw [event] at claim
          exact absurd (claim.symm.trans claim') (Option.some_ne_none _).symm
      | failed c jitter lease error current row event =>
          rw [after] at found'
          cases found'
          cases decision : decideRetry current.retryClass current.attempts current.maxAttempts
            jitter <;> simp [decision, JobRow.failedWith, JobRow.unleased] at leased'
      | inserted | completed | released | cancelled | requeued | reapRequeued
      | reapDeadLettered =>
          rw [after] at found'
          cases found'
          cases leased'

theorem live_lease (run : Run (machine config start) h s) : Live h s :=
  run.history (I := Live) (C := fun _ => True) (fun _ _ => trivial)
    (fun _ _ absent => (nomatch absent)) fun live ok _ => live.step ok

/-- A completed row stays as it is for the rest of a run. -/
theorem completed_steps (steps : Steps (machine config start) s h s') {k : JobId} {row : JobRow}
    (found : s.rows k = some row) (done : row.status = .completed) : s'.rows k = some row :=
  steps.invariant (I := fun s => s.rows k = some row) found fun found ok =>
    completed_step ok found done

theorem Completes.row {t : Step} {k : JobId} {lease : LeaseId} {result : Option String}
    (completes : Completes t k lease result) (ok : step config t.pre t.event = some t.post) :
    (∃ row, t.pre.rows k = some row ∧ row.status = .leased) ∧
      ∃ row, t.post.rows k = some row ∧ row.status = .completed ∧ row.result = result := by
  obtain ⟨event, changed⟩ := completes
  have change := step_row ok k
  rw [event] at change
  generalize t.post.rows k = after at change changed
  cases change with
  | stays => exact absurd rfl changed
  | completed _ _ row event found _ leased =>
      cases event
      exact ⟨⟨row, found, leased⟩, _, rfl, rfl, rfl⟩
  | inserted _ _ _ _ _ event
  | leased _ _ _ _ _ _ _ event
  | extended _ _ _ event
  | failed _ _ _ _ _ _ event
  | released _ _ event
  | cancelled _ _ event
  | flagged _ _ event
  | requeued _ event
  | reapRequeued _ _ event
  | reapDeadLettered _ _ event => cases event

/-- For every run: guarded statements act for the current lease only, completions are
unique and final, and dead letters and cancelled jobs only move by `requeue`. -/
theorem lease_safety (run : Run (machine config start) h s) : LeaseSafety h s where
  holder := by
    intro later t earlier id lease k shape call changed
    subst shape
    obtain ⟨before, ok, -⟩ := run.split
    obtain ⟨same, row, found, leased, leaseId⟩ := settles_held ok call changed
    obtain ⟨current, stored, issued⟩ := live_lease before k row found leased
    rw [leaseId] at stored
    cases stored
    exact ⟨same, issued⟩
  completedOnce := by
    intro later t earlier k lease result shape completes
    subst shape
    obtain ⟨before, ok, after⟩ := run.split
    obtain ⟨-, row, found, done, stored⟩ := completes.row ok
    refine ⟨?_, ⟨row, completed_steps after found done, done, stored⟩, ?_⟩
    · have call : settles t = some (k, lease) := by rw [settles, completes.1]
      obtain ⟨-, row, found, leased, leaseId⟩ := settles_held ok call completes.2
      obtain ⟨current, stored, issued⟩ := live_lease before k row found leased
      rw [leaseId] at stored
      cases stored
      exact issued
    · intro u mem lease' result' again
      obtain ⟨later', between, rfl⟩ := List.append_of_mem mem
      obtain ⟨upTo, ok', -⟩ := after.split
      obtain ⟨⟨row', found', leased⟩, -⟩ := again.row ok'
      rw [completed_steps upTo found done] at found'
      cases found'
      rw [done] at leased
      cases leased
  completedFinal := by
    intro t mem k row found done
    exact completed_step (run.taken mem) found done
  closedUntilRequeue := by
    intro t mem k row found closed changed
    rcases finished_step (run.taken mem) found (by rcases closed with c | c <;> simp [c])
      (by rcases closed with c | c <;> simp [c]) with stays | ⟨event, -⟩
    · exact absurd stays changed
    · exact event

def defaultConfig : JobsConfig := ⟨8, by decide⟩

def plainOptions : EnqueueOptions := ⟨none, none, none, none, none⟩

/-- A job whose first worker dies and whose second one completes it. -/
def recovered : List Event :=
  [.enqueue 0 "mail" "hello" plainOptions, .insert 0 1,
    .leaseBatch ["mail"] 10 "a" 30 [(1, 7)], .advance 31, .reapRequeue 0, .reapDeadLetter 0,
    .leaseBatch ["mail"] 10 "b" 30 [(1, 8)], .complete 1 7 (some "late"),
    .complete 1 8 (some "sent")]

theorem lease_safety_recovered :
    let run := (machine defaultConfig 0).play recovered ([], (machine defaultConfig 0).init)
    LeaseSafety run.1 run.2 ∧ (run.2.rows 1).bind JobRow.result = some "sent" :=
  ⟨lease_safety (Machine.play_run ..), by decide⟩

end Talos.Jobs
