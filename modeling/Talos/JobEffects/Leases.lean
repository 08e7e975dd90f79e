import Talos.JobEffects.Writes

/-!
# Leases and attempts

What the store knows of one effect is its row, the records that were returned of it and the
claims since it was prepared or last requeued. A record of the effect changes the row only if
the row is leased to the worker it was returned to. That need not be the latest claim: a
worker that claims the effect again has two records under one name. The attempts are counted
when an effect fails, so a worker that never reports back can be replaced without end.
-/

namespace Talos.JobEffects

open Database

variable {store : JobEffectStore} {s s' : State} {event : Event}

/-! ### What is claimed -/

def State.recordsOf (s : State) (effectId : EffectId) : List EffectRecord :=
  s.records.filter fun record => record.effectId = effectId

/-- The claims of an effect since it was prepared or requeued. -/
def claimsSince (effectId : EffectId) : List ReplayAuditRecord → Nat
  | [] => 0
  | record :: earlier =>
      if record.effectId ≠ effectId then claimsSince effectId earlier
      else match record.action with
        | .operatorRequeued => 0
        | .dispatchClaimed => claimsSince effectId earlier + 1
        | _ => claimsSince effectId earlier

/-- The record that a call reports the outcome of. -/
def Event.record : Event → Option EffectRecord
  | .markSucceeded effect _ => some effect
  | .markFailure effect _ _ _ => some effect
  | .markConflict effect => some effect
  | _ => none

/-- An outcome that changes a row is that of the most recent claim. -/
def Fenced (pre : State) (event : Event) (post : State) : Prop :=
  ∀ effect, event.record = some effect →
    post.db.outbox.find effect.effectId ≠ pre.db.outbox.find effect.effectId →
    (pre.recordsOf effect.effectId).head? = some effect

/-- An effect is claimed no more often than it may be, and once it was it is dead unless it
is still dispatched or has a final outcome. -/
def Capped (store : JobEffectStore) (s : State) : Prop :=
  ∀ effectId row, s.db.outbox.find effectId = some row →
    claimsSince effectId s.db.audit ≤ store.limits.maxAttempts ∧
    (claimsSince effectId s.db.audit = store.limits.maxAttempts →
      row.state ∈ [EffectState.dispatching, .dead, .succeeded, .conflict])

/-- An outcome under a lease that its worker has claimed again since. -/
def Stale (s : State) (event : Event) : Prop :=
  ∃ effect, event.record = some effect ∧ s.db.holds effect = true ∧
    ∃ record ∈ s.records, record.effectId = effect.effectId ∧
      record.leaseOwner = effect.leaseOwner ∧ effect.attemptCount < record.attemptCount

/-- A claim of an effect under an expired lease that was claimed as often as it may be. -/
def Overspends (store : JobEffectStore) (s : State) : Event → Prop
  | .claimDue _ limit now =>
      ∃ effectId ∈ s.db.dueEffects (store.limits.claimLimit limit).toNat now,
        ∃ row, s.db.outbox.find effectId = some row ∧ row.state = .dispatching ∧
          store.limits.maxAttempts ≤ claimsSince effectId s.db.audit
  | _ => False

instance (pre : State) (event : Event) (post : State) : Decidable (Fenced pre event post) :=
  decidable_of_iff
    (∀ effect ∈ event.record.toList,
      post.db.outbox.find effect.effectId ≠ pre.db.outbox.find effect.effectId →
      (pre.recordsOf effect.effectId).head? = some effect)
    (forall_congr' fun _ => imp_congr_left Option.mem_toList)

instance (s : State) (event : Event) : Decidable (Stale s event) :=
  decidable_of_iff
    (∃ effect ∈ event.record.toList, s.db.holds effect = true ∧
      ∃ record ∈ s.records, record.effectId = effect.effectId ∧
        record.leaseOwner = effect.leaseOwner ∧ effect.attemptCount < record.attemptCount)
    (exists_congr fun _ => and_congr_left fun _ => Option.mem_toList)

instance (store : JobEffectStore) (s : State) (event : Event) :
    Decidable (Overspends store s event) :=
  match event with
  | .claimDue _ limit now =>
      decidable_of_iff
        (∃ effectId ∈ s.db.dueEffects (store.limits.claimLimit limit).toNat now,
          ∃ row ∈ (s.db.outbox.find effectId).toList, row.state = .dispatching ∧
            store.limits.maxAttempts ≤ claimsSince effectId s.db.audit)
        (exists_congr fun _ => and_congr_right fun _ => exists_congr fun _ =>
          and_congr_left fun _ => Option.mem_toList)
  | .ingest .. | .markClaimed .. | .prepareEffect .. | .markSucceeded .. | .markFailure ..
  | .markConflict .. | .requeue .. => inferInstanceAs (Decidable False)

/-! ### The moves of an effect -/

@[ext] structure EffectView where
  row : Option OutboxRow
  /-- Newest first. -/
  records : List EffectRecord
  claims : Nat

def State.view (s : State) (effectId : EffectId) : EffectView :=
  ⟨s.db.outbox.find effectId, s.recordsOf effectId, claimsSince effectId s.db.audit⟩

/-- What a write does to an effect; a failure may be that of an outdated record, and a claim
one more than there may be. -/
inductive EffectMoves (limits : JobEffectLimits) (stale overspends : Prop) :
    EffectView → EffectView → Prop where
  | prepared {row : OutboxRow} {records : List EffectRecord} {claims : Nat} :
      row.state = .pending → row.attemptCount = 0 →
      EffectMoves limits stale overspends ⟨none, records, claims⟩ ⟨some row, records, claims⟩
  | retokened {row row' : OutboxRow} {records : List EffectRecord} {claims : Nat} :
      row'.state = row.state → row'.attemptCount = row.attemptCount →
      row'.leaseOwner = row.leaseOwner →
      EffectMoves limits stale overspends ⟨some row, records, claims⟩ ⟨some row', records, claims⟩
  | finished {row row' : OutboxRow} {records : List EffectRecord} {claims : Nat} :
      row'.state = .succeeded ∨ row'.state = .conflict →
      row'.attemptCount = row.attemptCount →
      EffectMoves limits stale overspends ⟨some row, records, claims⟩ ⟨some row', records, claims⟩
  | failed {row row' : OutboxRow} {records : List EffectRecord} {claims : Nat}
      {effect : EffectRecord} {indeterminate : Bool} :
      effect ∈ records → row.state = .dispatching → row.leaseOwner = some effect.leaseOwner →
      ((∃ record ∈ records, record.leaseOwner = effect.leaseOwner ∧
        effect.attemptCount < record.attemptCount) → stale) →
      row'.state = limits.failedState effect indeterminate →
      row'.attemptCount = row.attemptCount →
      EffectMoves limits stale overspends ⟨some row, records, claims⟩ ⟨some row', records, claims⟩
  | requeued {row row' : OutboxRow} {records : List EffectRecord} {claims : Nat} :
      row'.state = .pending → row'.attemptCount = row.attemptCount →
      EffectMoves limits stale overspends ⟨some row, records, claims⟩ ⟨some row', records, 0⟩
  | leased {row row' : OutboxRow} {record : EffectRecord} {records : List EffectRecord}
      {claims : Nat} :
      row.state ∈ [EffectState.pending, .retryable, .indeterminate, .dispatching] →
      (row.state = .dispatching → limits.maxAttempts ≤ claims → overspends) →
      row'.state = .dispatching → row'.attemptCount = row.attemptCount + 1 →
      record.attemptCount = row.attemptCount + 1 → row'.leaseOwner = some record.leaseOwner →
      EffectMoves limits stale overspends ⟨some row, records, claims⟩
        ⟨some row', record :: records, claims + 1⟩

/-- The records of an effect against its row. -/
def Recorded : EffectView → Prop
  | ⟨none, records, claims⟩ => records = [] ∧ claims = 0
  | ⟨some row, records, claims⟩ =>
      (∀ record ∈ records, record.attemptCount ≤ row.attemptCount) ∧
      records.Pairwise (fun newer older => older.attemptCount < newer.attemptCount) ∧
      (row.state = .dispatching → ∃ record, records.head? = some record ∧
        row.leaseOwner = some record.leaseOwner ∧ record.attemptCount = row.attemptCount) ∧
      claims ≤ row.attemptCount

/-- The claims of an effect against what may be. -/
def Budgeted (limits : JobEffectLimits) : EffectView → Prop
  | ⟨none, _, _⟩ => True
  | ⟨some row, _, claims⟩ =>
      claims ≤ limits.maxAttempts ∧
      (row.state = .pending → claims = 0) ∧
      (row.state = .retryable ∨ row.state = .indeterminate →
        row.attemptCount < limits.maxAttempts)

variable {limits : JobEffectLimits} {stale overspends : Prop} {view view' : EffectView}

theorem failedState_ne_dispatching (effect : EffectRecord) (indeterminate : Bool) :
    limits.failedState effect indeterminate ≠ .dispatching := by
  unfold JobEffectLimits.failedState
  split
  · decide
  · split
    · decide
    · decide

theorem EffectMoves.recorded (moves : EffectMoves limits stale overspends view view')
    (recorded : Recorded view) :
    Recorded view' := by
  cases moves with
  | prepared pending fresh =>
      obtain ⟨rfl, rfl⟩ := recorded
      refine ⟨fun record mem => (nomatch mem), .nil, ?_, Nat.zero_le _⟩
      intro dispatching
      cases pending.symm.trans dispatching
  | retokened state attempts owner =>
      obtain ⟨bounded, ordered, current, claims⟩ := recorded
      refine ⟨?_, ordered, ?_, ?_⟩
      · rw [attempts]
        exact bounded
      · rw [state, attempts, owner]
        exact current
      · rw [attempts]
        exact claims
  | finished state attempts =>
      obtain ⟨bounded, ordered, _, claims⟩ := recorded
      refine ⟨?_, ordered, ?_, ?_⟩
      · rw [attempts]
        exact bounded
      · intro dispatching
        rw [dispatching] at state
        rcases state with other | other
        · cases other
        · cases other
      · rw [attempts]
        exact claims
  | @failed _ _ _ _ effect indeterminate _ _ _ _ state attempts =>
      obtain ⟨bounded, ordered, _, claims⟩ := recorded
      refine ⟨?_, ordered, ?_, ?_⟩
      · rw [attempts]
        exact bounded
      · intro dispatching
        exact absurd (state.symm.trans dispatching) (failedState_ne_dispatching effect indeterminate)
      · rw [attempts]
        exact claims
  | requeued state attempts =>
      obtain ⟨bounded, ordered, _, _⟩ := recorded
      refine ⟨?_, ordered, ?_, Nat.zero_le _⟩
      · rw [attempts]
        exact bounded
      · intro dispatching
        cases state.symm.trans dispatching
  | leased _ _ _ attempts attempt owner =>
      obtain ⟨bounded, ordered, _, claims⟩ := recorded
      refine ⟨?_, ?_, ?_, ?_⟩
      · intro record mem
        rw [attempts]
        rcases List.mem_cons.mp mem with rfl | mem
        · exact le_of_eq attempt
        · exact Nat.le_succ_of_le (bounded record mem)
      · refine List.Pairwise.cons ?_ ordered
        intro record mem
        rw [attempt]
        exact Nat.lt_succ_of_le (bounded record mem)
      · intro _
        exact ⟨_, rfl, owner, attempt.trans attempts.symm⟩
      · rw [attempts]
        exact Nat.succ_le_succ claims

/-- A record under the lease of the row, if its worker has no later one, is the latest. -/
theorem head_of_recorded {row : OutboxRow} {records : List EffectRecord} {claims : Nat}
    {effect : EffectRecord} (recorded : Recorded ⟨some row, records, claims⟩)
    (mem : effect ∈ records) (dispatching : row.state = .dispatching)
    (owner : row.leaseOwner = some effect.leaseOwner)
    (latest : ∀ record ∈ records, record.leaseOwner = effect.leaseOwner →
      ¬ effect.attemptCount < record.attemptCount) :
    records.head? = some effect ∧ effect.attemptCount = row.attemptCount := by
  obtain ⟨_, ordered, current, _⟩ := recorded
  obtain ⟨record, head, owner', attempt⟩ := current dispatching
  obtain ⟨older, rfl⟩ : ∃ older, records = record :: older := List.head?_eq_some_iff.mp head
  rcases List.mem_cons.mp mem with rfl | old
  · exact ⟨rfl, attempt⟩
  · have earlier := (List.pairwise_cons.mp ordered).1 effect old
    have same : record.leaseOwner = effect.leaseOwner := Option.some.inj (owner'.symm.trans owner)
    exact absurd earlier (latest record List.mem_cons_self same)

theorem EffectMoves.budgeted (moves : EffectMoves limits stale overspends view view')
    (recorded : Recorded view) (budgeted : Budgeted limits view) (current : ¬ stale)
    (within : ¬ overspends) : Budgeted limits view' := by
  cases moves with
  | prepared pending fresh =>
      obtain ⟨rfl, rfl⟩ := recorded
      refine ⟨Nat.zero_le _, fun _ => rfl, ?_⟩
      rw [pending]
      rintro (other | other)
      · cases other
      · cases other
  | retokened state attempts _ =>
      obtain ⟨most, start, again⟩ := budgeted
      refine ⟨most, ?_, ?_⟩
      · rw [state]
        exact start
      · rw [state, attempts]
        exact again
  | finished state _ =>
      refine ⟨budgeted.1, ?_, ?_⟩
      · intro pending
        rw [pending] at state
        rcases state with other | other
        · cases other
        · cases other
      · intro again
        rcases state with done | done
        · rw [done] at again
          simp at again
        · rw [done] at again
          simp at again
  | @failed row row' records claims effect indeterminate mem dispatching owner outdated state
      attempts =>
      refine ⟨budgeted.1, ?_, ?_⟩
      · intro pending
        rw [state] at pending
        unfold JobEffectLimits.failedState at pending
        split at pending
        · cases pending
        · split at pending
          · cases pending
          · cases pending
      · intro again
        have latest := head_of_recorded recorded mem dispatching owner
          fun record mem same later => current (outdated ⟨record, mem, same, later⟩)
        rw [state] at again
        unfold JobEffectLimits.failedState at again
        split at again
        · simp at again
        · next few =>
            rw [attempts, ← latest.2]
            exact not_le.mp few
  | requeued state _ =>
      refine ⟨Nat.zero_le _, fun _ => rfl, ?_⟩
      rw [state]
      rintro (other | other)
      · cases other
      · cases other
  | @leased row row' record records claims due expired state _ _ _ =>
      obtain ⟨most, start, again⟩ := budgeted
      obtain ⟨_, _, _, claimed⟩ := recorded
      refine ⟨?_, ?_, ?_⟩
      · have positive := limits.attempts.1
        by_cases dispatching : row.state = .dispatching
        · exact not_le.mp fun spent => within (expired dispatching spent)
        · by_cases pending : row.state = .pending
          · rw [start pending]
            exact positive
          · have retried : row.state = .retryable ∨ row.state = .indeterminate := by
              simpa [dispatching, pending] using due
            exact lt_of_le_of_lt claimed (again retried)
      · intro pending
        cases state.symm.trans pending
      · rw [state]
        rintro (other | other)
        · cases other
        · cases other

/-! ### Writes as moves -/

theorem claimsSince_of_ne {effectId : EffectId} {record : ReplayAuditRecord}
    (ne : record.effectId ≠ effectId) (audit : List ReplayAuditRecord) :
    claimsSince effectId (record :: audit) = claimsSince effectId audit := by
  rw [claimsSince, if_pos ne]

/-- Neither a claim nor a requeue. -/
theorem claimsSince_of_action {effectId : EffectId} {record : ReplayAuditRecord}
    (other : record.action ≠ .operatorRequeued ∧ record.action ≠ .dispatchClaimed)
    (audit : List ReplayAuditRecord) :
    claimsSince effectId (record :: audit) = claimsSince effectId audit := by
  rw [claimsSince]
  split
  · rfl
  · split
    · next requeued => exact absurd requeued other.1
    · next claimed => exact absurd claimed other.2
    · rfl

theorem claimsSince_of_requeued {effectId : EffectId} {record : ReplayAuditRecord}
    (same : record.effectId = effectId) (requeued : record.action = .operatorRequeued)
    (audit : List ReplayAuditRecord) : claimsSince effectId (record :: audit) = 0 := by
  rw [claimsSince, if_neg (not_not.mpr same), requeued]

theorem claimsSince_of_claimed {effectId : EffectId} {record : ReplayAuditRecord}
    (same : record.effectId = effectId) (claimed : record.action = .dispatchClaimed)
    (audit : List ReplayAuditRecord) :
    claimsSince effectId (record :: audit) = claimsSince effectId audit + 1 := by
  rw [claimsSince, if_neg (not_not.mpr same), claimed]

theorem view_eq (s : State) (effectId : EffectId) {row : Option OutboxRow}
    (found : s.db.outbox.find effectId = row) :
    s.view effectId = ⟨row, s.recordsOf effectId, claimsSince effectId s.db.audit⟩ := by
  unfold State.view
  rw [found]

/-- The view of an effect after its row is written, and its audit record. -/
theorem view_updateOutbox (s : State) (effectId id : EffectId) (f : OutboxRow → OutboxRow)
    (keeps : ∀ row, (f row).effectId = row.effectId) (record : ReplayAuditRecord) :
    State.view { s with db := (s.db.updateOutbox effectId f keeps).appendReplayAudit record } id =
      ⟨if id = effectId then (s.db.outbox.find id).map f else s.db.outbox.find id,
        s.recordsOf id, claimsSince id (record :: s.db.audit)⟩ :=
  EffectView.ext (find_updateOutbox s.db effectId f keeps id) rfl rfl

/-- An outcome is written to the row of its effect alone. -/
theorem view_outcome {effect : EffectRecord} (f : OutboxRow → OutboxRow)
    (keeps : ∀ row, (f row).effectId = row.effectId) {record : ReplayAuditRecord} {C : Prop}
    (holds : s.db.holds effect = true)
    (other : record.action ≠ .operatorRequeued ∧ record.action ≠ .dispatchClaimed)
    (moves : ∀ row, s.db.outbox.find effect.effectId = some row → row.state = .dispatching →
      row.leaseOwner = some effect.leaseOwner →
      EffectMoves limits stale C (s.view effect.effectId)
        ⟨some (f row), s.recordsOf effect.effectId,
          claimsSince effect.effectId s.db.audit⟩) (id : EffectId) :
    State.view { s with db :=
        (s.db.updateOutbox effect.effectId f keeps).appendReplayAudit record } id = s.view id ∨
      EffectMoves limits stale C (s.view id)
        (State.view { s with db :=
          (s.db.updateOutbox effect.effectId f keeps).appendReplayAudit record } id) := by
  obtain ⟨row, found, dispatching, owner⟩ := holds_iff.mp holds
  rw [view_updateOutbox, claimsSince_of_action other]
  by_cases same : id = effect.effectId
  · subst same
    rw [if_pos rfl, found]
    exact .inr (moves row found dispatching owner)
  · rw [if_neg same]
    exact .inl rfl

theorem mem_recordsOf {record : EffectRecord} {effectId : EffectId} :
    record ∈ s.recordsOf effectId ↔ record ∈ s.records ∧ record.effectId = effectId := by
  unfold State.recordsOf
  rw [List.mem_filter, decide_eq_true_eq]

theorem Write.effectMoves (write : Write store s event s') (id : EffectId) :
    s'.view id = s.view id ∨
      EffectMoves store.limits (Stale s event) False (s.view id) (s'.view id) := by
  cases write with
  | ingested | claimed => exact .inl rfl
  | @retokened jobId result now row token effect _ _ stored _ =>
      refine (em (id = store.effectId jobId)).symm.imp ?_ ?_
      · intro other
        exact EffectView.ext ((find_updateOutbox s.db _ _ _ id).trans (if_neg other)) rfl rfl
      · rintro rfl
        have after := (find_updateOutbox s.db (store.effectId jobId)
          (fun row => { row with fencingToken := token }) (fun _ => rfl) _).trans (if_pos rfl)
        rw [stored] at after
        rw [view_eq s _ stored, view_eq _ _ after]
        exact .retokened rfl rfl rfl
  | @prepared jobId result now row token effect outbox record _ _ inserted _ _ _ pending fresh
      action =>
      have claims : claimsSince id (record :: s.db.audit) = claimsSince id s.db.audit :=
        claimsSince_of_action (by rw [action]; decide) _
      rcases Rows.find_insert_cases inserted id with after | ⟨rfl, absent, after⟩
      · exact .inl (EffectView.ext after rfl claims)
      · refine .inr ?_
        rw [view_eq s _ absent, view_eq _ _ after]
        dsimp only [LocalDB.appendReplayAudit, LocalDB.updateInbox]
        rw [claims]
        exact .prepared pending fresh
  | @succeeded effect reconciled record mem holds action =>
      have other : record.action ≠ .operatorRequeued ∧ record.action ≠ .dispatchClaimed := by
        rcases action with action | action
        · rw [action]; decide
        · rw [action]; decide
      refine view_outcome (fun row => row.released .succeeded none) (fun _ => rfl) holds other ?_ id
      intro row found _ _
      rw [view_eq s _ found]
      exact .finished (.inl rfl) rfl
  | @failed effect errorCode indeterminate now record mem holds action =>
      refine view_outcome
        (fun row =>
          { row.released (store.limits.failedState effect indeterminate) (some errorCode) with
            nextAttemptAt := now + store.limits.retryDelay effect * 1000000 })
        (fun _ => rfl) holds (by rw [action]; decide) ?_ id
      intro row found dispatching owner
      rw [view_eq s _ found]
      refine @EffectMoves.failed _ _ _ row _ _ _ effect indeterminate
        (mem_recordsOf.mpr ⟨mem, rfl⟩) dispatching owner ?_ rfl rfl
      rintro ⟨later, of_, same, outdated⟩
      obtain ⟨mem', id'⟩ := mem_recordsOf.mp of_
      exact ⟨effect, rfl, holds, later, mem', id', same, outdated⟩
  | @conflicted effect record mem holds action =>
      refine view_outcome (fun row => row.released .conflict (some "remote_result_conflict"))
        (fun _ => rfl) holds (by rw [action]; decide) ?_ id
      intro row found _ _
      rw [view_eq s _ found]
      exact .finished (.inr rfl) rfl
  | @requeued effectId attempt now row record found open_ same action =>
      rw [view_updateOutbox]
      by_cases here : id = effectId
      · subst here
        rw [if_pos rfl, claimsSince_of_requeued same action, view_eq s _ found, found]
        exact .inr (.requeued rfl rfl)
      · rw [if_neg here, claimsSince_of_ne fun equal => here (equal.symm.trans same)]
        exact .inl rfl

/-- The view of an effect after a claim of one. -/
theorem view_claimed (s : State) (effectId id : EffectId) (f : OutboxRow → OutboxRow)
    (keeps : ∀ row, (f row).effectId = row.effectId) (audit : ReplayAuditRecord)
    (record : EffectRecord) :
    State.view ⟨(s.db.updateOutbox effectId f keeps).appendReplayAudit audit,
        record :: s.records⟩ id =
      ⟨if id = effectId then (s.db.outbox.find id).map f else s.db.outbox.find id,
        if record.effectId = id then record :: s.recordsOf id else s.recordsOf id,
        claimsSince id (audit :: s.db.audit)⟩ := by
  have records : State.recordsOf ⟨(s.db.updateOutbox effectId f keeps).appendReplayAudit audit,
      record :: s.records⟩ id =
      if record.effectId = id then record :: s.recordsOf id else s.recordsOf id := by
    unfold State.recordsOf
    rw [List.filter_cons]
    simp only [decide_eq_true_eq]
  exact EffectView.ext (find_updateOutbox s.db effectId f keeps id) records rfl

/-- An effect that was claimed as often as it may be and is dispatched. -/
def EffectView.Spent (limits : JobEffectLimits) (view : EffectView) : Prop :=
  ∃ row, view.row = some row ∧ row.state = .dispatching ∧ limits.maxAttempts ≤ view.claims

theorem Lease.effectMoves (limits : JobEffectLimits) {workerId : String} {effectId : EffectId}
    (lease : Lease workerId effectId s s') :
    (∀ id, id ≠ effectId → s'.view id = s.view id) ∧
      EffectMoves limits False ((s.view effectId).Spent limits) (s.view effectId)
        (s'.view effectId) := by
  cases lease with
  | @claimed row leaseUntil now found due =>
      have stored : row.effectId = effectId := Rows.key_of_find found
      have key : ((row.claimedBy workerId leaseUntil).record workerId).effectId = effectId :=
        stored
      constructor
      · intro id other
        have apart : ((row.claimedBy workerId leaseUntil).record workerId).effectId ≠ id :=
          fun same => other (same.symm.trans key)
        rw [view_claimed, if_neg other, if_neg apart, claimsSince_of_ne apart]
        rfl
      · rw [view_claimed, if_pos rfl, if_pos key, claimsSince_of_claimed key rfl, found,
          view_eq s _ found]
        exact .leased (of_decide_eq_true due).1
          (fun dispatching spent => ⟨row, rfl, dispatching, spent⟩) rfl rfl rfl rfl

/-- Each effect is claimed once, as it is before the claims. -/
theorem leases_effectMoves (limits : JobEffectLimits) {workerId : String} {effectIds : List EffectId}
    (leases : Leases workerId effectIds s s') (nodup : effectIds.Nodup) (id : EffectId) :
    s'.view id = s.view id ∨ id ∈ effectIds ∧
      EffectMoves limits False ((s.view id).Spent limits) (s.view id) (s'.view id) := by
  induction leases with
  | nil => exact .inl rfl
  | @cons effectId rest s s' s'' lease _ ih =>
      obtain ⟨fresh, distinct⟩ := List.nodup_cons.mp nodup
      obtain ⟨others, moved⟩ := lease.effectMoves limits
      by_cases here : id = effectId
      · subst here
        rcases ih distinct with same | ⟨mem, _⟩
        · rw [same]
          exact .inr ⟨List.mem_cons_self, moved⟩
        · exact absurd mem fresh
      · rw [← others id here]
        exact (ih distinct).imp_right fun ⟨mem, moved⟩ => ⟨List.mem_cons_of_mem _ mem, moved⟩

theorem EffectMoves.imp {stale' overspends' : Prop}
    (moves : EffectMoves limits stale overspends view view') (outdated : stale → stale')
    (spent : overspends → overspends') : EffectMoves limits stale' overspends' view view' := by
  cases moves with
  | prepared pending fresh => exact .prepared pending fresh
  | retokened state attempts owner => exact .retokened state attempts owner
  | finished state attempts => exact .finished state attempts
  | @failed row row' records claims effect indeterminate mem dispatching owner later state
      attempts =>
      exact @EffectMoves.failed _ _ _ row row' records claims effect indeterminate mem dispatching
        owner (fun record => outdated (later record)) state attempts
  | requeued state attempts => exact .requeued state attempts
  | leased due claims state attempts attempt owner =>
      exact .leased due (fun dispatching most => spent (claims dispatching most)) state attempts
        attempt owner

/-- What a step does to an effect. -/
theorem step_effectMoves (ok : step store s event = some s') (id : EffectId) :
    s'.view id = s.view id ∨
      EffectMoves store.limits (Stale s event) (Overspends store s event) (s.view id)
        (s'.view id) := by
  rcases step_cases ok with rfl | write | ⟨workerId, limit, now, rfl, leases⟩
  · exact .inl rfl
  · exact (write.effectMoves id).imp_right fun moves => moves.imp (fun stale => stale) False.elim
  · refine (leases_effectMoves store.limits leases (nodup_dueEffects _ now) id).imp_right ?_
    rintro ⟨mem, moves⟩
    refine moves.imp False.elim ?_
    rintro ⟨row, found, dispatching, spent⟩
    exact ⟨id, mem, row, found, dispatching, spent⟩

/-! ### Runs -/

/-- What holds of every effect. -/
structure Bounded (store : JobEffectStore) (s : State) : Prop where
  recorded : ∀ id, Recorded (s.view id)
  budgeted : ∀ id, Budgeted store.limits (s.view id)

theorem bounded_init (store : JobEffectStore) : Bounded store (machine store).init where
  recorded _ := ⟨rfl, rfl⟩
  budgeted _ := trivial

theorem Bounded.step (bounded : Bounded store s) (ok : step store s event = some s')
    (current : ¬ Stale s event) (within : ¬ Overspends store s event) : Bounded store s' := by
  refine ⟨?_, ?_⟩
  · intro id
    rcases step_effectMoves ok id with same | moves
    · rw [same]
      exact bounded.recorded id
    · exact moves.recorded (bounded.recorded id)
  · intro id
    rcases step_effectMoves ok id with same | moves
    · rw [same]
      exact bounded.budgeted id
    · exact moves.budgeted (bounded.recorded id) (bounded.budgeted id) current within

theorem Bounded.capped (bounded : Bounded store s) : Capped store s := by
  intro id row found
  have recorded := bounded.recorded id
  have budgeted := bounded.budgeted id
  rw [view_eq s id found] at recorded budgeted
  obtain ⟨_, _, _, claims⟩ := recorded
  obtain ⟨most, start, again⟩ := budgeted
  refine ⟨most, ?_⟩
  intro spent
  have positive := store.limits.attempts.1
  cases state : row.state with
  | pending =>
      have none := start state
      omega
  | retryable =>
      have few := again (.inl state)
      omega
  | indeterminate =>
      have few := again (.inr state)
      omega
  | dispatching => decide
  | succeeded => decide
  | conflict => decide
  | dead => decide

/-- The record of an outcome that is written holds the lease. -/
theorem Bounded.record_holds (bounded : Bounded store s)
    (ok : JobEffects.step store s event = some s') (current : ¬ Stale s event) :
    Fenced s event s' := by
  intro effect is changed
  have head : effect ∈ s.records → s.db.holds effect = true →
      (s.recordsOf effect.effectId).head? = some effect := by
    intro mem holds
    obtain ⟨row, found, dispatching, owner⟩ := holds_iff.mp holds
    have recorded := bounded.recorded effect.effectId
    rw [view_eq s _ found] at recorded
    refine (head_of_recorded recorded (mem_recordsOf.mpr ⟨mem, rfl⟩) dispatching owner ?_).1
    intro record of_ same later
    obtain ⟨mem', id⟩ := mem_recordsOf.mp of_
    exact current ⟨effect, is, holds, record, mem', id, same, later⟩
  rcases step_cases ok with rfl | write | ⟨workerId, limit, now, rfl, _⟩
  · exact absurd rfl changed
  · cases write with
    | succeeded mem holds _ | failed mem holds _ | conflicted mem holds _ =>
        cases is
        exact head mem holds
    | ingested | claimed | retokened | prepared | requeued => cases is
  · cases is

end Talos.JobEffects
