import Talos.Jobs.Model

/-!
# What a step does to one job

`RowStep` lists, for one job, everything a step can do to its row, with the state the
row was in; the invariants of the queue are case distinctions over it.
-/

namespace Talos.Jobs

open Database Soroban

/-- The leases a step issues. -/
def Event.claims : Event → List (JobId × LeaseId)
  | .leaseBatch _ _ _ _ claims => claims
  | _ => []

variable {config : JobsConfig} {s s' : State} {e : Event}

/-- The row of job `k` after event `e` in state `s`. -/
inductive RowStep (config : JobsConfig) (s : State) (e : Event) (k : JobId) :
    Option JobRow → Prop where
  | stays : RowStep config s e k (s.rows k)
  | inserted (c : CallId) (queue payload : String) (runAt : Int) (opts : EnqueueOptions)
      (event : e = .insert c k) (call : s.calls c = some (.enqueueing queue payload runAt opts))
      (absent : s.rows k = none) :
      RowStep config s e k (some (newRow config queue payload runAt opts))
  | leased (queues : List String) (limit : Nat) (workerId : String) (leaseDurationMs : Int)
      (claims : List (JobId × LeaseId)) (lease : LeaseId) (row : JobRow)
      (event : e = .leaseBatch queues limit workerId leaseDurationMs claims)
      (claim : claims.lookup k = some lease) (fresh : lease ∉ s.issued)
      (found : s.rows k = some row) (pending : row.status = .pending) :
      RowStep config s e k (some (row.leasedTo lease workerId s.clock leaseDurationMs))
  | extended (lease : LeaseId) (leaseDurationMs : Int) (row : JobRow)
      (event : e = .heartbeat k lease leaseDurationMs) (found : s.rows k = some row)
      (leaseId : row.leaseId = some lease) (leased : row.status = .leased) :
      RowStep config s e k (some (row.extended s.clock leaseDurationMs))
  | completed (lease : LeaseId) (result : Option String) (row : JobRow)
      (event : e = .complete k lease result) (found : s.rows k = some row)
      (leaseId : row.leaseId = some lease) (leased : row.status = .leased) :
      RowStep config s e k (some (row.completedWith s.clock result))
  | failed (c : CallId) (jitter : Nat) (lease : LeaseId) (error : String) (current row : JobRow)
      (event : e = .failUpdate c jitter)
      (call : s.calls c = some (.failing k lease error current)) (found : s.rows k = some row)
      (leaseId : row.leaseId = some lease) (leased : row.status = .leased) :
      RowStep config s e k (some (row.failedWith s.clock error
        (decideRetry current.retryClass current.attempts current.maxAttempts jitter)))
  | released (lease : LeaseId) (row : JobRow) (event : e = .release k lease)
      (found : s.rows k = some row) (leaseId : row.leaseId = some lease)
      (leased : row.status = .leased) : RowStep config s e k (some row.released)
  | cancelled (c : CallId) (row : JobRow) (event : e = .cancelPending c k)
      (found : s.rows k = some row) (pending : row.status = .pending) :
      RowStep config s e k (some row.cancelled)
  | flagged (c : CallId) (row : JobRow) (event : e = .cancelLeased c)
      (call : s.calls c = some (.cancelling k)) (found : s.rows k = some row)
      (leased : row.status = .leased) :
      RowStep config s e k (some row.flagged)
  | requeued (row : JobRow) (event : e = .requeue k) (found : s.rows k = some row)
      (isOver : row.status = .deadLetter ∨ row.status = .cancelled) :
      RowStep config s e k (some (row.requeued s.clock))
  | reapRequeued (c : CallId) (row : JobRow) (event : e = .reapRequeue c)
      (found : s.rows k = some row) (lapsed : expired s.clock row = true)
      (below : (row.attempts : Int) < row.maxAttempts) :
      RowStep config s e k (some row.reapRequeued)
  | reapDeadLettered (c : CallId) (row : JobRow) (event : e = .reapDeadLetter c)
      (found : s.rows k = some row) (lapsed : expired s.clock row = true)
      (spent : (row.attempts : Int) ≥ row.maxAttempts) :
      RowStep config s e k (some row.reapDeadLettered)

theorem held_iff {id k : JobId} {lease : LeaseId} {row : JobRow} :
    held id lease k row = true ↔ k = id ∧ row.leaseId = some lease ∧ row.status = .leased := by
  simp [held]

theorem inStatus_iff {id k : JobId} {statuses : List JobStatus} {row : JobRow} :
    inStatus id statuses k row = true ↔ k = id ∧ row.status ∈ statuses := by
  simp [inStatus]

theorem expired_leased {now : Int} {row : JobRow} (lapsed : expired now row = true) :
    row.status = .leased := by
  simp only [expired, decide_eq_true_eq] at lapsed
  exact lapsed.1

theorem claimable_mem {queues : List String} {limit : Nat} {claims : List (JobId × LeaseId)}
    (ok : claimable s queues limit claims = true) {k : JobId} {lease : LeaseId}
    (claim : claims.lookup k = some lease) :
    lease ∉ s.issued ∧ ∃ row, s.rows k = some row ∧ row.status = .pending := by
  simp only [claimable, decide_eq_true_eq] at ok
  obtain ⟨_, _, split, -⟩ := List.lookup_eq_some_iff.mp claim
  have each := List.all_eq_true.mp ok.2.2.2 (k, lease) (by rw [split]; simp)
  simp only [decide_eq_true_eq, Option.any_eq_true, due] at each
  obtain ⟨fresh, row, found, pending, -⟩ := each
  exact ⟨fresh, row, found, pending⟩

theorem insertJob_rows {id : JobId} {queue payload : String} {runAt : Int}
    {opts : EnqueueOptions} (ok : insertJob config s id queue payload runAt opts = some s')
    (k : JobId) : s'.rows k = s.rows k ∨ k = id ∧ s.rows k = none ∧
      s'.rows k = some (newRow config queue payload runAt opts) := by
  unfold insertJob at ok
  split at ok
  · cases ok
  · next rows inserted =>
      obtain ⟨absent, rfl⟩ := Table.insert_eq_some.mp inserted
      have set : s.rows.set id (newRow config queue payload runAt opts) k = s.rows k ∨
          k = id ∧ s.rows k = none ∧ s.rows.set id (newRow config queue payload runAt opts) k =
            some (newRow config queue payload runAt opts) := by
        by_cases same : k = id
        · exact .inr ⟨same, same ▸ absent, same ▸ Map.set_self ..⟩
        · exact .inl (Map.set_of_ne _ _ same)
      split at ok
      · cases ok
        exact set
      · split at ok
        · cases ok
          exact .inl rfl
        · cases ok
          exact set

theorem insertJob_issued {id : JobId} {queue payload : String} {runAt : Int}
    {opts : EnqueueOptions} (ok : insertJob config s id queue payload runAt opts = some s') :
    s'.issued = s.issued ∧ s'.calls = s.calls := by
  unfold insertJob at ok
  split at ok
  · cases ok
  · split at ok
    · cases ok
      exact ⟨rfl, rfl⟩
    · split at ok <;> cases ok <;> exact ⟨rfl, rfl⟩

theorem leaseRows_apply (s : State) (workerId : String) (leaseDurationMs : Int)
    (claims : List (JobId × LeaseId)) (k : JobId) :
    leaseRows s workerId leaseDurationMs claims k = (s.rows k).map fun row =>
      match claims.lookup k with
      | some lease => row.leasedTo lease workerId s.clock leaseDurationMs
      | none => row := rfl

/-- An UPDATE is accounted for once the rows it picks are. -/
theorem rowStep_update {p : JobId → JobRow → Bool} {f : JobRow → JobRow} {k : JobId}
    (picked : ∀ row, s.rows k = some row → p k row = true → RowStep config s e k (some (f row))) :
    RowStep config s e k (s.rows.update p f k) := by
  rcases s.rows.update_cases p f k with stays | ⟨row, found, hit, changed⟩
  · rw [stays]
    exact .stays
  · rw [changed]
    exact picked row found hit

/-- Every step does one of the things listed to every job. -/
theorem step_row (ok : step config s e = some s') (k : JobId) :
    RowStep config s e k (s'.rows k) := by
  cases e with
  | advance now =>
      simp only [step, Option.ite_none_right_eq_some, Option.some.injEq] at ok
      obtain ⟨-, rfl⟩ := ok
      exact .stays
  | enqueue c queue payload opts =>
      simp only [step, Option.ite_none_left_eq_some] at ok
      obtain ⟨-, ok⟩ := ok
      split at ok <;> cases ok <;> exact .stays
  | insert c id =>
      simp only [step] at ok
      split at ok
      · next queue payload runAt opts call =>
          rcases insertJob_rows ok k with stays | ⟨rfl, absent, row⟩
          · rw [stays]
            exact .stays
          · rw [row]
            exact .inserted c queue payload runAt opts rfl call absent
      · cases ok
  | leaseBatch queues limit workerId leaseDurationMs claims =>
      simp only [step, Option.ite_none_right_eq_some, Option.some.injEq] at ok
      obtain ⟨claimed, rfl⟩ := ok
      simp only [leaseRows_apply]
      cases claim : claims.lookup k with
      | none =>
          simp only [Option.map_id']
          exact .stays
      | some lease =>
          obtain ⟨fresh, row, found, pending⟩ := claimable_mem claimed claim
          rw [found, Option.map_some]
          exact .leased queues limit workerId leaseDurationMs claims lease row rfl claim fresh found
            pending
  | heartbeat id lease leaseDurationMs =>
      cases ok
      refine rowStep_update fun row found hit => ?_
      obtain ⟨rfl, leaseId, leased⟩ := held_iff.mp hit
      exact .extended lease leaseDurationMs row rfl found leaseId leased
  | complete id lease result =>
      cases ok
      refine rowStep_update fun row found hit => ?_
      obtain ⟨rfl, leaseId, leased⟩ := held_iff.mp hit
      exact .completed lease result row rfl found leaseId leased
  | failSelect c id lease error =>
      simp only [step, Option.ite_none_left_eq_some] at ok
      obtain ⟨-, ok⟩ := ok
      split at ok <;> cases ok <;> exact .stays
  | failUpdate c jitter =>
      simp only [step] at ok
      split at ok
      · next id lease error current call =>
          cases ok
          refine rowStep_update fun row found hit => ?_
          obtain ⟨rfl, leaseId, leased⟩ := held_iff.mp hit
          exact .failed c jitter lease error current row rfl call found leaseId leased
      · cases ok
  | release id lease =>
      cases ok
      refine rowStep_update fun row found hit => ?_
      obtain ⟨rfl, leaseId, leased⟩ := held_iff.mp hit
      exact .released lease row rfl found leaseId leased
  | cancelPending c id =>
      simp only [step, Option.ite_none_left_eq_some] at ok
      obtain ⟨-, ok⟩ := ok
      split at ok
      · cases ok
        refine rowStep_update fun row found hit => ?_
        obtain ⟨rfl, pending⟩ := inStatus_iff.mp hit
        exact .cancelled c row rfl found (List.mem_singleton.mp pending)
      · cases ok
        exact .stays
  | cancelLeased c =>
      simp only [step] at ok
      split at ok
      · next id call =>
          cases ok
          refine rowStep_update fun row found hit => ?_
          obtain ⟨rfl, leased⟩ := inStatus_iff.mp hit
          exact .flagged c row rfl call found (List.mem_singleton.mp leased)
      · cases ok
  | requeue id =>
      cases ok
      refine rowStep_update fun row found hit => ?_
      obtain ⟨rfl, isOver⟩ := inStatus_iff.mp hit
      exact .requeued row rfl found (by simpa using isOver)
  | reapRequeue c =>
      simp only [step, Option.ite_none_left_eq_some] at ok
      obtain ⟨-, ok⟩ := ok
      cases ok
      refine rowStep_update fun row found hit => ?_
      obtain ⟨lapsed, below⟩ := of_decide_eq_true hit
      exact .reapRequeued c row rfl found lapsed below
  | reapDeadLetter c =>
      simp only [step] at ok
      split at ok
      · cases ok
        refine rowStep_update fun row found hit => ?_
        obtain ⟨lapsed, spent⟩ := of_decide_eq_true hit
        exact .reapDeadLettered c row rfl found lapsed spent
      · cases ok

/-! ### Issued leases and calls under way -/

theorem step_issued (ok : step config s e = some s') :
    s'.issued = e.claims.map Prod.snd ++ s.issued := by
  cases e with
  | advance now =>
      simp only [step, Option.ite_none_right_eq_some, Option.some.injEq] at ok
      obtain ⟨-, rfl⟩ := ok
      rfl
  | insert c id =>
      simp only [step] at ok
      split at ok
      · exact (insertJob_issued ok).1
      · cases ok
  | leaseBatch queues limit workerId leaseDurationMs claims =>
      simp only [step, Option.ite_none_right_eq_some, Option.some.injEq] at ok
      obtain ⟨-, rfl⟩ := ok
      rfl
  | heartbeat | complete | release | requeue =>
      cases ok
      rfl
  | enqueue | failSelect | cancelPending =>
      simp only [step, Option.ite_none_left_eq_some] at ok
      obtain ⟨-, ok⟩ := ok
      split at ok <;> cases ok <;> rfl
  | reapRequeue =>
      simp only [step, Option.ite_none_left_eq_some] at ok
      obtain ⟨-, ok⟩ := ok
      cases ok
      rfl
  | failUpdate | cancelLeased | reapDeadLetter =>
      simp only [step] at ok
      split at ok
      · cases ok
        rfl
      · cases ok

theorem setCall_eq_some {c c₀ : CallId} {call call₀ : Call}
    (found : (s.setCall c₀ call₀).calls c = some call) :
    call = call₀ ∨ s.calls c = some call := by
  simp only [State.setCall, Map.set_apply] at found
  split at found
  · exact .inl (Option.some.inj found).symm
  · exact .inr found

theorem endCall_eq_some {c c₀ : CallId} {call : Call}
    (found : (s.endCall c₀).calls c = some call) : s.calls c = some call := by
  simp only [State.endCall, Map.remove_apply] at found
  split at found
  · cases found
  · exact found

/-- A call of `fail` under way has just read the held row, or was under way before. -/
theorem failing_call (ok : step config s e = some s') {c : CallId} {id : JobId} {lease : LeaseId}
    {error : String} {current : JobRow}
    (call : s'.calls c = some (.failing id lease error current)) :
    s.calls c = some (.failing id lease error current) ∨
      s.rows id = some current ∧ current.leaseId = some lease ∧ s'.rows = s.rows := by
  cases e with
  | advance now =>
      simp only [step, Option.ite_none_right_eq_some, Option.some.injEq] at ok
      obtain ⟨-, rfl⟩ := ok
      exact .inl call
  | insert c₀ id₀ =>
      simp only [step] at ok
      split at ok
      · rw [(insertJob_issued ok).2] at call
        exact .inl (endCall_eq_some call)
      · cases ok
  | leaseBatch =>
      simp only [step, Option.ite_none_right_eq_some, Option.some.injEq] at ok
      obtain ⟨-, rfl⟩ := ok
      exact .inl call
  | heartbeat | complete | release | requeue =>
      cases ok
      exact .inl call
  | enqueue =>
      simp only [step, Option.ite_none_left_eq_some] at ok
      obtain ⟨-, ok⟩ := ok
      split at ok <;> cases ok
      · exact .inl call
      · exact .inl ((setCall_eq_some call).resolve_left Call.noConfusion)
  | failSelect c₀ id₀ lease₀ error₀ =>
      simp only [step, Option.ite_none_left_eq_some] at ok
      obtain ⟨-, ok⟩ := ok
      split at ok
      · cases ok
        exact .inl call
      · next row read =>
          cases ok
          rcases setCall_eq_some call with same | before
          · cases same
            obtain ⟨found, hit⟩ := Option.filter_eq_some_iff.mp read
            exact .inr ⟨found, (held_iff.mp hit).2.1, rfl⟩
          · exact .inl before
  | cancelPending =>
      simp only [step, Option.ite_none_left_eq_some] at ok
      obtain ⟨-, ok⟩ := ok
      split at ok <;> cases ok
      · exact .inl call
      · exact .inl ((setCall_eq_some call).resolve_left Call.noConfusion)
  | reapRequeue =>
      simp only [step, Option.ite_none_left_eq_some] at ok
      obtain ⟨-, ok⟩ := ok
      cases ok
      exact .inl ((setCall_eq_some call).resolve_left Call.noConfusion)
  | failUpdate | cancelLeased | reapDeadLetter =>
      simp only [step] at ok
      split at ok
      · cases ok
        exact .inl (endCall_eq_some call)
      · cases ok

end Talos.Jobs
