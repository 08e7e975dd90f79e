import Talos.JobEffects.Store

/-!
# What a call of the job store writes

The machine takes the calls of a store in any order; an outcome is recorded with a record
that some `claim_due` has returned. A call leaves the state as it is or makes one write, and
`claim_due` makes one write for each effect it claims (`step_cases`).
-/

namespace Talos.JobEffects

open Database

structure State where
  db : LocalDB
  /-- The records that `claim_due` has returned, newest first. -/
  records : List EffectRecord

inductive Event where
  | ingest (job : Job) (now : Nat)
  | markClaimed (jobId : JobId) (fencingToken : Int) (leaseExpiresAt : Option String)
  | prepareEffect (jobId : JobId) (result : String) (now : Nat)
  | claimDue (workerId : String) (limit : Option Int) (now : Nat)
  | markSucceeded (effect : EffectRecord) (reconciled : Bool)
  | markFailure (effect : EffectRecord) (errorCode : String) (indeterminate : Bool) (now : Nat)
  | markConflict (effect : EffectRecord)
  | requeue (effectId : EffectId) (expectedAttempt : Int) (now : Nat)

variable (store : JobEffectStore)

/-- A call that raises is rolled back. -/
def State.commit (s : State) : Except JobEffectError LocalDB → State
  | .ok db => { s with db := db }
  | .error _ => s

def State.commitClaims (s : State) :
    Except JobEffectError (LocalDB × List EffectRecord) → State
  | .ok (db, claimed) => ⟨db, claimed ++ s.records⟩
  | .error _ => s

/-- An outcome of a record that was claimed. -/
def State.outcome (s : State) (effect : EffectRecord) (result : Except JobEffectError LocalDB) :
    Option State :=
  if effect ∈ s.records then some (s.commit result) else none

def step (s : State) : Event → Option State
  | .ingest job now => some (s.commit (store.ingest s.db job now))
  | .markClaimed jobId fencingToken leaseExpiresAt =>
      some (s.commit (store.markClaimed s.db jobId fencingToken leaseExpiresAt))
  | .prepareEffect jobId result now =>
      some (s.commit (store.prepareEffect s.db jobId result now))
  | .claimDue workerId limit now =>
      some (s.commitClaims (store.claimDue s.db workerId limit now))
  | .markSucceeded effect reconciled => s.outcome effect (s.db.markSucceeded effect reconciled)
  | .markFailure effect errorCode indeterminate now =>
      s.outcome effect (store.markFailure s.db effect errorCode indeterminate now)
  | .markConflict effect => s.outcome effect (s.db.markConflict effect)
  | .requeue effectId expectedAttempt now =>
      some (s.commit (s.db.requeue effectId expectedAttempt now))

def machine : Machine State Event where
  init := ⟨⟨.empty, .empty, []⟩, []⟩
  step := step store

variable {store} {s s' : State} {db : LocalDB}

/-! ### Lookups after an update -/

theorem find_updateInbox (db : LocalDB) (jobId : JobId) (f : InboxRow → InboxRow)
    (keeps : ∀ row, (f row).jobId = row.jobId) (job : JobId) :
    (db.updateInbox jobId f keeps).inbox.find job =
      if job = jobId then (db.inbox.find job).map f else db.inbox.find job :=
  Rows.find_update_key keeps jobId job

theorem find_updateOutbox (db : LocalDB) (effectId : EffectId) (f : OutboxRow → OutboxRow)
    (keeps : ∀ row, (f row).effectId = row.effectId) (effect : EffectId) :
    (db.updateOutbox effectId f keeps).outbox.find effect =
      if effect = effectId then (db.outbox.find effect).map f else db.outbox.find effect :=
  Rows.find_update_key keeps effectId effect

/-! ### Writes -/

theorem holds_iff {effect : EffectRecord} :
    db.holds effect = true ↔
      ∃ row, db.outbox.find effect.effectId = some row ∧ row.state = .dispatching ∧
        row.leaseOwner = some effect.leaseOwner := by
  rw [LocalDB.holds, Option.any_eq_true]
  exact exists_congr fun row => and_congr_right fun _ => by rw [decide_eq_true_eq]

/-- The arguments that `mark_claimed` lets through. -/
structure ValidClaim (store : JobEffectStore) (jobId : JobId) (token : Int)
    (lease : Option String) : Prop where
  job : isIdentifier jobId = true
  token : ¬ (token < 1 ∨ 9223372036854775807 < token)
  lease : (lease.any fun expiry => 64 < expiry.length ∨ ¬ store.fromisoformat expiry) = false

instance (jobId : JobId) (token : Int) (lease : Option String) :
    Decidable (ValidClaim store jobId token lease) :=
  decidable_of_iff
    (isIdentifier jobId = true ∧ ¬ (token < 1 ∨ 9223372036854775807 < token) ∧
      (lease.any fun expiry => 64 < expiry.length ∨ ¬ store.fromisoformat expiry) = false)
    ⟨fun ⟨job, token, lease⟩ => ⟨job, token, lease⟩, fun valid => ⟨valid.1, valid.2, valid.3⟩⟩

/-- One write of a call, and what held before it. -/
inductive Write (store : JobEffectStore) (s : State) : Event → State → Prop where
  | ingested {job : Job} {now : Nat} {row : InboxRow} {inbox : Rows InboxRow JobId InboxRow.jobId} :
      s.db.inbox.insert row = some inbox → row.state = .received → row.fencingToken = none →
      Write store s (.ingest job now) { s with db := { s.db with inbox := inbox } }
  | claimed {jobId : JobId} {token : Int} {lease : Option String} {row : InboxRow} :
      ValidClaim store jobId token lease → s.db.inbox.find jobId = some row → ¬ (row.state = .completed ∨ row.state = .conflict) →
      (∀ previous, row.fencingToken = some previous → previous ≤ token) →
      Write store s (.markClaimed jobId token lease)
        { s with
          db := s.db.updateInbox jobId
            (fun row =>
              { row with
                state := .claimed
                fencingToken := some token
                remoteLeaseExpiresAt := lease })
            fun _ => rfl }
  | retokened {jobId : JobId} {result : String} {now : Nat} {row : InboxRow} {token : Int}
      {effect : OutboxRow} :
      s.db.inbox.find jobId = some row → row.fencingToken = some token →
      s.db.outbox.find (store.effectId jobId) = some effect → effect.fencingToken < token →
      Write store s (.prepareEffect jobId result now)
        { s with
          db := s.db.updateOutbox (store.effectId jobId)
            (fun row => { row with fencingToken := token }) fun _ => rfl }
  | prepared {jobId : JobId} {result : String} {now : Nat} {row : InboxRow} {token : Int}
      {effect : OutboxRow} {outbox : Rows OutboxRow EffectId OutboxRow.effectId}
      {record : ReplayAuditRecord} :
      s.db.inbox.find jobId = some row → row.fencingToken = some token →
      s.db.outbox.insert effect = some outbox → effect.effectId = store.effectId jobId →
      effect.jobId = jobId → effect.fencingToken = token → effect.state = .pending →
      effect.attemptCount = 0 → record.action = .effectPrepared →
      Write store s (.prepareEffect jobId result now)
        { s with
          db := ({ s.db with outbox := outbox }.updateInbox jobId
            (fun row => { row with state := .effectPending }) fun _ => rfl).appendReplayAudit
              record }
  | succeeded {effect : EffectRecord} {reconciled : Bool} {record : ReplayAuditRecord} :
      effect ∈ s.records → s.db.holds effect = true →
      record.action = .dispatchSucceeded ∨ record.action = .dispatchReconciled →
      Write store s (.markSucceeded effect reconciled)
        { s with
          db := ((s.db.updateOutbox effect.effectId (fun row => row.released .succeeded none)
            fun _ => rfl).updateInbox effect.jobId (fun row => { row with state := .completed })
              fun _ => rfl).appendReplayAudit record }
  | failed {effect : EffectRecord} {errorCode : String} {indeterminate : Bool} {now : Nat}
      {record : ReplayAuditRecord} :
      effect ∈ s.records → s.db.holds effect = true → record.action = .dispatchFailed →
      Write store s (.markFailure effect errorCode indeterminate now)
        { s with
          db := (s.db.updateOutbox effect.effectId
            (fun row =>
              { row.released (store.limits.failedState effect indeterminate) (some errorCode) with
                nextAttemptAt := now + store.limits.retryDelay effect * 1000000 })
            fun _ => rfl).appendReplayAudit record }
  | conflicted {effect : EffectRecord} {record : ReplayAuditRecord} :
      effect ∈ s.records → s.db.holds effect = true → record.action = .dispatchConflict →
      Write store s (.markConflict effect)
        { s with
          db := ((s.db.updateOutbox effect.effectId
            (fun row => row.released .conflict (some "remote_result_conflict"))
            fun _ => rfl).updateInbox effect.jobId (fun row => { row with state := .conflict })
              fun _ => rfl).appendReplayAudit record }
  | requeued {effectId : EffectId} {attempt : Int} {now : Nat} {row : OutboxRow}
      {record : ReplayAuditRecord} :
      s.db.outbox.find effectId = some row →
      row.state ∈ [EffectState.retryable, .indeterminate, .dead] →
      record.effectId = effectId → record.action = .operatorRequeued →
      Write store s (.requeue effectId attempt now)
        { s with
          db := (s.db.updateOutbox effectId
            (fun row => { row.released .pending none with nextAttemptAt := now })
            fun _ => rfl).appendReplayAudit record }

/-- The write of a claim of one effect. -/
inductive Lease (workerId : String) (effectId : EffectId) (s : State) : State → Prop where
  | claimed {row : OutboxRow} {leaseUntil now : Nat} :
      s.db.outbox.find effectId = some row → row.due now = true →
      Lease workerId effectId s
        ⟨(s.db.updateOutbox effectId (fun row => row.claimedBy workerId leaseUntil)
          fun _ => rfl).appendReplayAudit
            (claimAudit ((row.claimedBy workerId leaseUntil).record workerId)),
          (row.claimedBy workerId leaseUntil).record workerId :: s.records⟩

/-- Effects claimed one after the other. -/
inductive Leases (workerId : String) : List EffectId → State → State → Prop where
  | nil {s : State} : Leases workerId [] s s
  | cons {effectId : EffectId} {rest : List EffectId} {s s' s'' : State} :
      Lease workerId effectId s s' → Leases workerId rest s' s'' →
      Leases workerId (effectId :: rest) s s''

/-! ### What a step can do -/

theorem ingest_cases {job : Job} {now : Nat} (ok : store.ingest s.db job now = .ok db) :
    db = s.db ∨ Write store s (.ingest job now) { s with db := db } := by
  unfold JobEffectStore.ingest at ok
  repeat' split at ok
  all_goals try cases ok
  · exact .inl rfl
  · next inserted => exact .inr (.ingested inserted rfl rfl)

theorem markClaimed_cases {jobId : JobId} {token : Int} {lease : Option String}
    (ok : store.markClaimed s.db jobId token lease = .ok db) :
    Write store s (.markClaimed jobId token lease) { s with db := db } := by
  unfold JobEffectStore.markClaimed at ok
  repeat' split at ok
  all_goals try cases ok
  next valid range expiry _ row found terminal stale =>
    refine .claimed ⟨not_not.mp valid, range, eq_false_of_ne_true expiry⟩ found terminal ?_
    intro previous claimed
    rw [claimed] at stale
    simpa using stale

/-- A claim of a job that is not terminal, with a token that is not stale. -/
theorem markClaimed_eq {jobId : JobId} {token : Int} {lease : Option String} {row : InboxRow}
    (valid : ValidClaim store jobId token lease) (found : db.inbox.find jobId = some row)
    (open_ : ¬ (row.state = .completed ∨ row.state = .conflict))
    (fresh : ∀ previous ∈ row.fencingToken, previous ≤ token) :
    store.markClaimed db jobId token lease =
      .ok (db.updateInbox jobId
        (fun row =>
          { row with
            state := .claimed
            fencingToken := some token
            remoteLeaseExpiresAt := lease })
        fun _ => rfl) := by
  have current : ¬ (row.fencingToken.any fun previous => token < previous) = true := by
    rw [Option.any_eq_true]
    rintro ⟨previous, had, lower⟩
    exact absurd (fresh previous had) (not_le.mpr (of_decide_eq_true lower))
  unfold JobEffectStore.markClaimed
  rw [if_neg (not_not.mpr valid.job), if_neg valid.token,
    if_neg (Bool.eq_false_iff.mp valid.lease), found]
  dsimp only
  rw [if_neg open_, if_neg current]

theorem prepareEffect_cases {jobId : JobId} {result : String} {now : Nat}
    (ok : store.prepareEffect s.db jobId result now = .ok db) :
    db = s.db ∨ Write store s (.prepareEffect jobId result now) { s with db := db } := by
  unfold JobEffectStore.prepareEffect at ok
  dsimp only at ok
  repeat' split at ok
  all_goals try cases ok
  · next claimed _ existing found _ lower =>
      obtain ⟨row, inboxed, token⟩ := Option.bind_eq_some_iff.mp claimed
      exact .inr (.retokened inboxed token found lower.1)
  · exact .inl rfl
  · next claimed _ _ _ _ _ inserted =>
      obtain ⟨row, inboxed, token⟩ := Option.bind_eq_some_iff.mp claimed
      exact .inr (.prepared inboxed token inserted rfl rfl rfl rfl rfl rfl)

theorem markSucceeded_cases {effect : EffectRecord} {reconciled : Bool}
    (mem : effect ∈ s.records) (ok : s.db.markSucceeded effect reconciled = .ok db) :
    Write store s (.markSucceeded effect reconciled) { s with db := db } := by
  unfold LocalDB.markSucceeded at ok
  split at ok
  · next holds =>
      cases ok
      refine .succeeded mem holds ?_
      cases reconciled with
      | true => exact .inr rfl
      | false => exact .inl rfl
  · cases ok

theorem markFailure_cases {effect : EffectRecord} {errorCode : String} {indeterminate : Bool}
    {now : Nat} (mem : effect ∈ s.records)
    (ok : store.markFailure s.db effect errorCode indeterminate now = .ok db) :
    Write store s (.markFailure effect errorCode indeterminate now) { s with db := db } := by
  unfold JobEffectStore.markFailure at ok
  repeat' split at ok
  all_goals try cases ok
  next holds => exact .failed mem holds rfl

theorem markConflict_cases {effect : EffectRecord} (mem : effect ∈ s.records)
    (ok : s.db.markConflict effect = .ok db) :
    Write store s (.markConflict effect) { s with db := db } := by
  unfold LocalDB.markConflict at ok
  split at ok
  · next holds =>
      cases ok
      exact .conflicted mem holds rfl
  · cases ok

theorem requeue_cases {effectId : EffectId} {attempt : Int} {now : Nat}
    (ok : s.db.requeue effectId attempt now = .ok db) :
    db = s.db ∨ Write store s (.requeue effectId attempt now) { s with db := db } := by
  unfold LocalDB.requeue at ok
  repeat' split at ok
  all_goals try cases ok
  · exact .inl rfl
  · next row found _ _ open_ =>
      exact .inr (.requeued found (not_not.mp open_) rfl rfl)

/-! ### Claims -/

theorem nodup_dueEffects (limit now : Nat) : (db.dueEffects limit now).Nodup := by
  have unique : (db.outbox.list.map OutboxRow.effectId).Nodup := db.outbox.unique
  have sorted := List.perm_insertionSort (fun row row' : OutboxRow => row.before row' = true)
    (db.outbox.select fun row => row.due now)
  have selected : ((db.outbox.select fun row => row.due now).map OutboxRow.effectId).Nodup :=
    unique.sublist (List.filter_sublist.map _)
  have ordered := (sorted.map OutboxRow.effectId).nodup_iff.mpr selected
  exact ordered.sublist ((List.take_sublist _ _).map _)

theorem of_mem_dueEffects {limit now : Nat} {effectId : EffectId}
    (mem : effectId ∈ db.dueEffects limit now) :
    ∃ row, db.outbox.find effectId = some row ∧ row.due now = true := by
  obtain ⟨row, taken, rfl⟩ := List.mem_map.mp mem
  have selected := (List.mem_insertionSort _).mp (List.mem_of_mem_take taken)
  obtain ⟨stored, due⟩ := Rows.mem_select.mp selected
  exact ⟨row, Rows.find_of_mem stored, due⟩

/-- The effects that are left to claim are due until their turn comes. -/
theorem claims_of_due {workerId : String} {now : Nat} (effectIds : List EffectId)
    (nodup : effectIds.Nodup) (claimed : LocalDB × List EffectRecord)
    (due : ∀ effectId ∈ effectIds,
      ∃ row, claimed.1.outbox.find effectId = some row ∧ row.due now = true)
    (records : List EffectRecord) :
    Leases workerId effectIds ⟨claimed.1, claimed.2 ++ records⟩
      ⟨(effectIds.foldl (store.claimOne workerId now) claimed).1,
        (effectIds.foldl (store.claimOne workerId now) claimed).2 ++ records⟩ := by
  induction effectIds generalizing claimed with
  | nil => exact .nil
  | cons effectId rest ih =>
      obtain ⟨fresh, nodup⟩ := List.nodup_cons.mp nodup
      obtain ⟨row, found, isDue⟩ := due effectId List.mem_cons_self
      have unleased : row.unleased now = true := (of_decide_eq_true isDue).2.2
      have one : Lease workerId effectId ⟨claimed.1, claimed.2 ++ records⟩
          ⟨(store.claimOne workerId now claimed effectId).1,
            (store.claimOne workerId now claimed effectId).2 ++ records⟩ := by
        unfold JobEffectStore.claimOne
        rw [found]
        dsimp only
        rw [if_pos unleased]
        exact .claimed found isDue
      refine .cons one (ih nodup _ ?_)
      intro other mem
      have ne : other ≠ effectId := fun same => fresh (same ▸ mem)
      obtain ⟨row', found', due'⟩ := due other (List.mem_cons_of_mem _ mem)
      refine ⟨row', ?_, due'⟩
      unfold JobEffectStore.claimOne
      rw [found]
      dsimp only
      rw [if_pos unleased]
      have kept := find_updateOutbox claimed.1 effectId
        (fun row => row.claimedBy workerId (now + store.limits.leaseSeconds * 1000000))
        (fun _ => rfl) other
      exact kept.trans ((if_neg ne).trans found')

theorem claimDue_cases {workerId : String} {limit : Option Int} {now : Nat}
    {result : LocalDB × List EffectRecord}
    (ok : store.claimDue s.db workerId limit now = .ok result) :
    Leases workerId (s.db.dueEffects (store.limits.claimLimit limit).toNat now) s
      ⟨result.1, result.2 ++ s.records⟩ := by
  unfold JobEffectStore.claimDue at ok
  repeat' split at ok
  all_goals try cases ok
  exact claims_of_due _ (nodup_dueEffects _ now) (s.db, [])
    (fun effectId mem => of_mem_dueEffects mem) s.records

/-- A step makes no write or one, or claims effects one by one. -/
theorem step_cases {event : Event} (ok : step store s event = some s') :
    s' = s ∨ Write store s event s' ∨
      ∃ workerId limit now, event = .claimDue workerId limit now ∧
        Leases workerId (s.db.dueEffects (store.limits.claimLimit limit).toNat now) s s' := by
  have outcome : ∀ {effect : EffectRecord} {result : Except JobEffectError LocalDB},
      s.outcome effect result = some s' →
      effect ∈ s.records ∧ s' = s.commit result := by
    intro effect result recorded
    unfold State.outcome at recorded
    split at recorded
    · next mem => exact ⟨mem, (Option.some.inj recorded).symm⟩
    · cases recorded
  have written : ∀ {result : Except JobEffectError LocalDB}, s' = s.commit result →
      (∀ db, result = .ok db → db = s.db ∨ Write store s event { s with db := db }) →
      s' = s ∨ Write store s event s' := by
    intro result committed each
    cases result with
    | error raised => exact .inl committed
    | ok db =>
        rcases each db rfl with rfl | write
        · exact .inl committed
        · exact .inr (committed ▸ write)
  rw [← or_assoc]
  cases event with
  | ingest job now =>
      exact .inl (written (Option.some.inj ok).symm fun _ => ingest_cases)
  | markClaimed jobId token lease =>
      exact .inl (written (Option.some.inj ok).symm fun _ ok => .inr (markClaimed_cases ok))
  | prepareEffect jobId result now =>
      exact .inl (written (Option.some.inj ok).symm fun _ => prepareEffect_cases)
  | claimDue workerId limit now =>
      have committed := (Option.some.inj ok).symm
      cases claims : store.claimDue s.db workerId limit now with
      | error raised =>
          rw [claims] at committed
          exact .inl (.inl committed)
      | ok result =>
          rw [claims] at committed
          exact .inr ⟨workerId, limit, now, rfl, committed ▸ claimDue_cases claims⟩
  | markSucceeded effect reconciled =>
      obtain ⟨mem, committed⟩ := outcome ok
      exact .inl (written committed fun _ ok => .inr (markSucceeded_cases mem ok))
  | markFailure effect errorCode indeterminate now =>
      obtain ⟨mem, committed⟩ := outcome ok
      exact .inl (written committed fun _ ok => .inr (markFailure_cases mem ok))
  | markConflict effect =>
      obtain ⟨mem, committed⟩ := outcome ok
      exact .inl (written committed fun _ ok => .inr (markConflict_cases mem ok))
  | requeue effectId attempt now =>
      exact .inl (written (Option.some.inj ok).symm fun _ => requeue_cases)

/-- A store for the runs that are exhibited; identity stands for the digest. -/
def exampleStore : JobEffectStore where
  ownerTalosId := "talos"
  limits :=
    { maxInboxRecords := 10
      maxOutboxRecords := 10
      maxPayloadBytes := 100
      maxResultBytes := 100
      batchSize := 20
      leaseSeconds := 30
      maxAttempts := 2
      retryBaseSeconds := 2
      records := by decide
      bytes := by decide
      batch := by decide
      lease := by decide
      attempts := by decide
      retry := by decide }
  sha256 := id
  sha256_injective := Function.injective_id
  fromisoformat _ := true

end Talos.JobEffects
