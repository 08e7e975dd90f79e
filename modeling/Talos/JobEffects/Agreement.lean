import Talos.JobEffects.Writes

/-!
# Agreement of inbox and outbox

A job has a row in the inbox and, once its result is prepared, an effect in the outbox. Each
write of the store is one move of the rows of one job (`write_moves`), so what the two rows
have to do with each other is a matter of the moves. They agree as long as no job whose
effect is unfinished is claimed again: that claim takes the inbox row back to `claimed`, and
preparing the effect a second time does not take it forward (`agrees_iff`).
-/

namespace Talos.JobEffects

open Database

variable {store : JobEffectStore} {s s' : State} {event : Event}

/-- The rows of one job. -/
@[ext] structure JobRows where
  inbox : Option InboxRow
  effect : Option OutboxRow

def LocalDB.rows (db : LocalDB) (store : JobEffectStore) (job : JobId) : JobRows :=
  ⟨db.inbox.find job, db.outbox.find (store.effectId job)⟩

def EffectState.finished (state : EffectState) : Prop := state = .succeeded ∨ state = .conflict

def InboxState.terminal (state : InboxState) : Prop := state = .completed ∨ state = .conflict

instance (state : EffectState) : Decidable state.finished :=
  inferInstanceAs (Decidable (_ ∨ _))

instance (state : InboxState) : Decidable state.terminal :=
  inferInstanceAs (Decidable (_ ∨ _))

/-! ### What is claimed -/

/-- Inbox and outbox of every job, and what is offered for fulfilment. -/
structure Agrees (store : JobEffectStore) (db : LocalDB) : Prop where
  succeeded : ∀ job, (∃ effect, (db.rows store job).effect = some effect ∧
    effect.state = .succeeded) ↔
      ∃ row, (db.rows store job).inbox = some row ∧ row.state = .completed
  conflict : ∀ job, (∃ effect, (db.rows store job).effect = some effect ∧
    effect.state = .conflict) ↔
      ∃ row, (db.rows store job).inbox = some row ∧ row.state = .conflict
  pending : ∀ job effect, (db.rows store job).effect = some effect → ¬ effect.state.finished →
    ∃ row, (db.rows store job).inbox = some row ∧ row.state = .effectPending
  unprepared : ∀ job row, (db.rows store job).inbox = some row →
    (db.rows store job).effect = none → row.state = .received ∨ row.state = .claimed
  fenced : ∀ job effect, (db.rows store job).effect = some effect →
    ∃ row token, (db.rows store job).inbox = some row ∧ row.fencingToken = some token ∧
      effect.fencingToken ≤ token
  offered : ∀ limit, ∀ row ∈ db.pendingJobs limit, (db.rows store row.jobId).effect = none

/-- Tokens do not decrease and the terminal states of the inbox are not left. -/
structure Advances (rows rows' : JobRows) : Prop where
  inbox : ∀ row, rows.inbox = some row → ∃ row', rows'.inbox = some row' ∧
    (∀ token, row.fencingToken = some token →
      ∃ token', row'.fencingToken = some token' ∧ token ≤ token') ∧
    (row.state.terminal → row'.state = row.state)
  effect : ∀ effect, rows.effect = some effect →
    ∃ effect', rows'.effect = some effect' ∧ effect.fencingToken ≤ effect'.fencingToken

/-- An unfinished effect, and a token that is not stale. -/
def JobRows.reclaimable (token : Int) : JobRows → Prop
  | ⟨some row, some effect⟩ =>
      ¬ effect.state.finished ∧ ∀ previous ∈ row.fencingToken, previous ≤ token
  | _ => False

instance (token : Int) (rows : JobRows) : Decidable (rows.reclaimable token) :=
  match rows with
  | ⟨some _, some _⟩ => inferInstanceAs (Decidable (_ ∧ _))
  | ⟨none, _⟩ => inferInstanceAs (Decidable False)
  | ⟨some _, none⟩ => inferInstanceAs (Decidable False)

/-- A claim that is accepted of a job whose effect is unfinished. -/
def Reclaims (store : JobEffectStore) (s : State) : Event → Prop
  | .markClaimed jobId token lease =>
      ValidClaim store jobId token lease ∧ (s.db.rows store jobId).reclaimable token
  | _ => False

instance (store : JobEffectStore) (s : State) (event : Event) :
    Decidable (Reclaims store s event) :=
  match event with
  | .markClaimed .. => inferInstanceAs (Decidable (_ ∧ _))
  | .ingest .. | .prepareEffect .. | .claimDue .. | .markSucceeded .. | .markFailure ..
  | .markConflict .. | .requeue .. => inferInstanceAs (Decidable False)

/-! ### The moves of a job -/

/-- What a write does to the rows of a job; a claim reclaims a job whose effect is
unfinished. -/
inductive Moves (reclaims : Prop) : JobRows → JobRows → Prop where
  | ingested {row : InboxRow} {effect : Option OutboxRow} :
      row.state = .received → Moves reclaims ⟨none, effect⟩ ⟨some row, effect⟩
  | claimed {row row' : InboxRow} {effect : Option OutboxRow} {token : Int} :
      ¬ row.state.terminal → row'.state = .claimed → row'.fencingToken = some token →
      (∀ previous, row.fencingToken = some previous → previous ≤ token) →
      ((∃ unfinished, effect = some unfinished ∧ ¬ unfinished.state.finished) → reclaims) →
      Moves reclaims ⟨some row, effect⟩ ⟨some row', effect⟩
  | retokened {row : InboxRow} {effect effect' : OutboxRow} {token : Int} :
      row.fencingToken = some token → effect.fencingToken < token →
      effect'.fencingToken = token → effect'.state = effect.state →
      Moves reclaims ⟨some row, some effect⟩ ⟨some row, some effect'⟩
  | prepared {row row' : InboxRow} {effect : OutboxRow} {token : Int} :
      row.fencingToken = some token → row'.fencingToken = some token →
      row'.state = .effectPending → effect.fencingToken = token → effect.state = .pending →
      Moves reclaims ⟨some row, none⟩ ⟨some row', some effect⟩
  | dispatched {inbox : Option InboxRow} {effect effect' : OutboxRow} :
      ¬ effect.state.finished → ¬ effect'.state.finished →
      effect'.fencingToken = effect.fencingToken →
      Moves reclaims ⟨inbox, some effect⟩ ⟨inbox, some effect'⟩
  | completed {inbox : Option InboxRow} {effect effect' : OutboxRow} :
      ¬ effect.state.finished → effect'.state = .succeeded →
      effect'.fencingToken = effect.fencingToken →
      Moves reclaims ⟨inbox, some effect⟩
        ⟨inbox.map fun row => { row with state := .completed }, some effect'⟩
  | conflicted {inbox : Option InboxRow} {effect effect' : OutboxRow} :
      ¬ effect.state.finished → effect'.state = .conflict →
      effect'.fencingToken = effect.fencingToken →
      Moves reclaims ⟨inbox, some effect⟩
        ⟨inbox.map fun row => { row with state := .conflict }, some effect'⟩

/-- What holds of the rows of a job whatever is claimed again. -/
def Paired : JobRows → Prop
  | ⟨none, effect⟩ => effect = none
  | ⟨some row, none⟩ => row.state = .received ∨ row.state = .claimed
  | ⟨some row, some effect⟩ =>
      (effect.state = .succeeded ↔ row.state = .completed) ∧
      (effect.state = .conflict ↔ row.state = .conflict) ∧
      ∃ token, row.fencingToken = some token ∧ effect.fencingToken ≤ token

/-- What needs that no unfinished effect is claimed again. -/
def Pending (rows : JobRows) : Prop :=
  ∀ effect, rows.effect = some effect → ¬ effect.state.finished →
    ∃ row, rows.inbox = some row ∧ row.state = .effectPending

variable {reclaims : Prop} {rows rows' rows'' : JobRows}

theorem Moves.paired (moves : Moves reclaims rows rows') (paired : Paired rows) :
    Paired rows' := by
  cases moves with
  | @ingested row effect received =>
      obtain rfl : effect = none := paired
      exact .inl received
  | @claimed row row' effect token open_ claimed token' fresh _ =>
      cases effect with
      | none => exact .inr claimed
      | some effect =>
          obtain ⟨succeeded, conflict, old, had, le⟩ := paired
          have notSucceeded : effect.state ≠ .succeeded := fun h => open_ (.inl (succeeded.mp h))
          have notConflict : effect.state ≠ .conflict := fun h => open_ (.inr (conflict.mp h))
          refine ⟨?_, ?_, token, token', le.trans (fresh old had)⟩
          · rw [claimed]
            simp [notSucceeded]
          · rw [claimed]
            simp [notConflict]
  | retokened had lower token' same =>
      obtain ⟨succeeded, conflict, _⟩ := paired
      refine ⟨?_, ?_, _, had, le_of_eq token'⟩
      · rw [same]
        exact succeeded
      · rw [same]
        exact conflict
  | prepared had had' pending token' fresh =>
      refine ⟨?_, ?_, _, had', le_of_eq token'⟩
      · rw [fresh, pending]
        simp
      · rw [fresh, pending]
        simp
  | @dispatched inbox effect effect' before after token' =>
      cases inbox with
      | none => cases paired
      | some row =>
          obtain ⟨succeeded, conflict, old, had, le⟩ := paired
          refine ⟨?_, ?_, old, had, token' ▸ le⟩
          · rw [← succeeded]
            exact iff_of_false (fun h => after (.inl h)) fun h => before (.inl h)
          · rw [← conflict]
            exact iff_of_false (fun h => after (.inr h)) fun h => before (.inr h)
  | @completed inbox effect effect' before after token' =>
      cases inbox with
      | none => cases paired
      | some row =>
          obtain ⟨_, _, old, had, le⟩ := paired
          refine ⟨?_, ?_, old, had, token' ▸ le⟩
          · exact iff_of_true after rfl
          · rw [after]
            simp
  | @conflicted inbox effect effect' before after token' =>
      cases inbox with
      | none => cases paired
      | some row =>
          obtain ⟨_, _, old, had, le⟩ := paired
          refine ⟨?_, ?_, old, had, token' ▸ le⟩
          · rw [after]
            simp
          · exact iff_of_true after rfl

theorem Moves.pending (moves : Moves reclaims rows rows') (pending : Pending rows)
    (never : ¬ reclaims) : Pending rows' := by
  cases moves with
  | ingested received =>
      intro effect is open_
      obtain ⟨row, inboxed, _⟩ := pending effect is open_
      cases inboxed
  | claimed _ _ _ _ reclaimed =>
      intro effect is open_
      exact absurd (reclaimed ⟨effect, is, open_⟩) never
  | retokened _ _ _ same =>
      intro effect is open_
      cases is
      exact pending _ rfl (same ▸ open_)
  | prepared _ _ prepared _ _ =>
      intro effect is open_
      exact ⟨_, rfl, prepared⟩
  | dispatched before _ _ =>
      intro effect is open_
      exact pending _ rfl before
  | completed _ after _ =>
      intro effect is open_
      cases is
      exact absurd (.inl after) open_
  | conflicted _ after _ =>
      intro effect is open_
      cases is
      exact absurd (.inr after) open_

theorem Advances.refl (rows : JobRows) : Advances rows rows :=
  ⟨fun row is => ⟨row, is, fun token had => ⟨token, had, le_refl token⟩, fun _ => rfl⟩,
    fun effect is => ⟨effect, is, le_refl _⟩⟩

theorem Advances.trans (first : Advances rows rows') (second : Advances rows' rows'') :
    Advances rows rows'' := by
  refine ⟨?_, ?_⟩
  · intro row is
    obtain ⟨row', is', tokens, terminal⟩ := first.inbox row is
    obtain ⟨row'', is'', tokens', terminal'⟩ := second.inbox row' is'
    refine ⟨row'', is'', ?_, ?_⟩
    · intro token had
      obtain ⟨token', had', le⟩ := tokens token had
      obtain ⟨token'', had'', le'⟩ := tokens' token' had'
      exact ⟨token'', had'', le.trans le'⟩
    · intro final
      have same := terminal final
      exact (terminal' (same ▸ final)).trans same
  · intro effect is
    obtain ⟨effect', is', le⟩ := first.effect effect is
    obtain ⟨effect'', is'', le'⟩ := second.effect effect' is'
    exact ⟨effect'', is'', le.trans le'⟩

/-- A settled row was not terminal, since its effect was unfinished. -/
theorem not_terminal_of_paired {row : InboxRow} {effect : OutboxRow}
    (paired : Paired ⟨some row, some effect⟩) (open_ : ¬ effect.state.finished) :
    ¬ row.state.terminal := by
  obtain ⟨succeeded, conflict, _⟩ := paired
  rintro (completed | conflicted)
  · exact open_ (.inl (succeeded.mpr completed))
  · exact open_ (.inr (conflict.mpr conflicted))

theorem Moves.advances (moves : Moves reclaims rows rows') (paired : Paired rows) :
    Advances rows rows' := by
  cases moves with
  | ingested _ =>
      refine ⟨?_, ?_⟩
      · intro row is
        cases is
      · intro effect is
        exact ⟨effect, is, le_refl _⟩
  | @claimed row row' effect token open_ _ token' fresh _ =>
      refine ⟨?_, ?_⟩
      · intro _ is
        cases is
        exact ⟨row', rfl, fun previous had => ⟨token, token', fresh previous had⟩,
          fun terminal => absurd terminal open_⟩
      · intro effect is
        exact ⟨effect, is, le_refl _⟩
  | retokened _ lower token' _ =>
      refine ⟨(Advances.refl _).inbox, ?_⟩
      intro effect is
      cases is
      exact ⟨_, rfl, token' ▸ le_of_lt lower⟩
  | @prepared row row' effect token had had' pending _ _ =>
      refine ⟨?_, ?_⟩
      · intro _ is
        cases is
        refine ⟨row', rfl, ?_, ?_⟩
        · intro previous old
          exact ⟨token, had', le_of_eq (Option.some.inj (old.symm.trans had))⟩
        · intro terminal
          rcases paired with received | claimed
          · rw [received] at terminal
            simp [InboxState.terminal] at terminal
          · rw [claimed] at terminal
            simp [InboxState.terminal] at terminal
      · intro effect is
        cases is
  | dispatched _ _ token' =>
      refine ⟨(Advances.refl _).inbox, ?_⟩
      intro effect is
      cases is
      exact ⟨_, rfl, le_of_eq token'.symm⟩
  | completed before _ token' =>
      refine ⟨?_, ?_⟩
      · intro row is
        cases is
        exact ⟨_, rfl, fun token had => ⟨token, had, le_refl token⟩,
          fun terminal => absurd terminal (not_terminal_of_paired paired before)⟩
      · intro effect is
        cases is
        exact ⟨_, rfl, le_of_eq token'.symm⟩
  | conflicted before _ token' =>
      refine ⟨?_, ?_⟩
      · intro row is
        cases is
        exact ⟨_, rfl, fun token had => ⟨token, had, le_refl token⟩,
          fun terminal => absurd terminal (not_terminal_of_paired paired before)⟩
      · intro effect is
        cases is
        exact ⟨_, rfl, le_of_eq token'.symm⟩

/-! ### Writes as moves -/

theorem effectId_injective (store : JobEffectStore) : Function.Injective store.effectId := by
  intro job job' same
  have texts := store.sha256_injective same
  have lists := congrArg String.toList texts
  simp only [String.toList_append] at lists
  exact String.toList_inj.mp (List.append_cancel_left lists)

/-- An effect, and a record of it, carries the id that its job has. -/
structure Keyed (store : JobEffectStore) (s : State) : Prop where
  effects : ∀ effectId effect, s.db.outbox.find effectId = some effect →
    effectId = store.effectId effect.jobId
  records : ∀ record ∈ s.records, record.effectId = store.effectId record.jobId

/-- An UPDATE of an effect that leaves its job alone. -/
theorem Keyed.updateOutbox (keyed : Keyed store s) {effectId : EffectId}
    {f : OutboxRow → OutboxRow} (keeps : ∀ row, (f row).effectId = row.effectId)
    (job : ∀ row, (f row).jobId = row.jobId) (id : EffectId) (effect : OutboxRow)
    (found : (s.db.updateOutbox effectId f keeps).outbox.find id = some effect) :
    id = store.effectId effect.jobId := by
  rw [find_updateOutbox] at found
  split at found
  · obtain ⟨row, stored, rfl⟩ := Option.map_eq_some_iff.mp found
    rw [job]
    exact keyed.effects id row stored
  · exact keyed.effects id effect found

theorem Write.keyed (write : Write store s event s') (keyed : Keyed store s) :
    Keyed store s' := by
  cases write with
  | ingested | claimed => exact ⟨keyed.effects, keyed.records⟩
  | retokened => exact ⟨keyed.updateOutbox (by intro row; rfl) (by intro row; rfl), keyed.records⟩
  | prepared _ _ inserted id job _ _ _ _ =>
      refine ⟨?_, keyed.records⟩
      intro effectId effect found
      have lookup := (Rows.find_insert inserted effectId).symm.trans found
      split at lookup
      · next same =>
          cases lookup
          rw [job, ← id]
          exact same.symm
      · exact keyed.effects effectId effect lookup
  | succeeded | failed | conflicted | requeued =>
      exact ⟨keyed.updateOutbox (by intro row; rfl) (by intro row; rfl), keyed.records⟩

theorem Lease.keyed {workerId : String} {effectId : EffectId}
    (lease : Lease workerId effectId s s')
    (keyed : Keyed store s) : Keyed store s' := by
  cases lease with
  | @claimed row leaseUntil now found due =>
      refine ⟨keyed.updateOutbox (by intro row; rfl) (by intro row; rfl), ?_⟩
      intro record mem
      rcases List.mem_cons.mp mem with rfl | mem
      · have key : row.effectId = effectId := Rows.key_of_find found
        exact key.trans (keyed.effects effectId row found)
      · exact keyed.records record mem

section

variable {db : LocalDB} {jobId : JobId} {f : InboxRow → InboxRow} {g : OutboxRow → OutboxRow}
  {keeps : ∀ row, (f row).jobId = row.jobId} {keeps' : ∀ row, (g row).effectId = row.effectId}

theorem rows_updateInbox (job : JobId) :
    (db.updateInbox jobId f keeps).rows store job =
      ⟨if job = jobId then (db.rows store job).inbox.map f else (db.rows store job).inbox,
        (db.rows store job).effect⟩ := by
  unfold LocalDB.rows
  rw [find_updateInbox]
  rfl

theorem rows_updateOutbox (job : JobId) :
    (db.updateOutbox (store.effectId jobId) g keeps').rows store job =
      ⟨(db.rows store job).inbox,
        if job = jobId then (db.rows store job).effect.map g else (db.rows store job).effect⟩ := by
  unfold LocalDB.rows
  rw [find_updateOutbox]
  simp only [(effectId_injective store).eq_iff]
  rfl

end

/-- The rows of the job that a record which holds its lease is of. -/
theorem rows_of_holds {effect : EffectRecord} (keyed : Keyed store s)
    (mem : effect ∈ s.records) (holds : s.db.holds effect = true) :
    ∃ row, s.db.rows store effect.jobId = ⟨s.db.inbox.find effect.jobId, some row⟩ ∧
      row.state = .dispatching := by
  obtain ⟨row, found, dispatching, _⟩ := holds_iff.mp holds
  refine ⟨row, ?_, dispatching⟩
  unfold LocalDB.rows
  rw [← keyed.records effect mem, found]

theorem not_finished_of_dispatching {state : EffectState} (dispatching : state = .dispatching) :
    ¬ state.finished := by
  rw [dispatching]
  decide

theorem not_finished_pending : ¬ EffectState.finished .pending := by decide

theorem not_finished_of_mem {state : EffectState} {states : List EffectState}
    (unfinished : ∀ each ∈ states, ¬ each.finished) (mem : state ∈ states) : ¬ state.finished :=
  unfinished state mem

theorem not_finished_failedState {limits : JobEffectLimits} (effect : EffectRecord)
    (indeterminate : Bool) : ¬ (limits.failedState effect indeterminate).finished := by
  unfold JobEffectLimits.failedState
  split
  · decide
  · split
    · decide
    · decide

@[simp] theorem rows_appendReplayAudit (db : LocalDB) (record : ReplayAuditRecord)
    (job : JobId) : (db.appendReplayAudit record).rows store job = db.rows store job := rfl

theorem Write.moves (write : Write store s event s') (keyed : Keyed store s) (job : JobId) :
    s'.db.rows store job = s.db.rows store job ∨
      Moves (Reclaims store s event) (s.db.rows store job) (s'.db.rows store job) := by
  cases write with
  | @ingested _ _ row inbox inserted received _ =>
      rcases Rows.find_insert_cases inserted job with after | ⟨rfl, absent, after⟩
      · refine .inl ?_
        unfold LocalDB.rows
        rw [after]
      · refine .inr ?_
        unfold LocalDB.rows
        rw [after, absent]
        exact .ingested received
  | @claimed jobId token lease row valid found open_ fresh =>
      rw [rows_updateInbox]
      by_cases same : job = jobId
      · subst same
        rw [if_pos rfl]
        refine .inr ?_
        have before : s.db.rows store job = ⟨some row, (s.db.rows store job).effect⟩ := by
          unfold LocalDB.rows
          rw [found]
        generalize effects : (s.db.rows store job).effect = effect at before
        rw [before]
        refine .claimed open_ rfl rfl fresh ?_
        rintro ⟨unfinished, rfl, unsettled⟩
        refine ⟨valid, ?_⟩
        rw [before]
        exact ⟨unsettled, fun previous had => fresh previous had⟩
      · rw [if_neg same]
        exact .inl rfl
  | @retokened jobId result now row token effect found had stored lower =>
      rw [rows_updateOutbox]
      by_cases same : job = jobId
      · subst same
        rw [if_pos rfl]
        refine .inr ?_
        unfold LocalDB.rows
        rw [found, stored]
        exact .retokened had lower rfl rfl
      · rw [if_neg same]
        exact .inl rfl
  | @prepared jobId result now row token effect outbox record found had inserted id _ token' fresh
      _ _ =>
      obtain ⟨absent, _⟩ := Rows.insert_eq_some.mp inserted
      have after := Rows.find_insert inserted (store.effectId job)
      have inbox := find_updateInbox { s.db with outbox := outbox } jobId
        (fun row => { row with state := .effectPending }) (fun _ => rfl) job
      by_cases same : job = jobId
      · subst same
        rw [if_pos id] at after
        rw [if_pos rfl] at inbox
        rw [id] at absent
        refine .inr ?_
        have before : s.db.rows store job = ⟨some row, none⟩ := by
          unfold LocalDB.rows
          rw [found, absent]
        have moved : Moves (Reclaims store s (.prepareEffect job result now)) ⟨some row, none⟩
            ⟨some { row with state := .effectPending }, some effect⟩ :=
          .prepared had had rfl token' fresh
        rw [found] at inbox
        rw [before]
        have written : ({ s.db with outbox := outbox }.updateInbox job
            (fun row => { row with state := .effectPending }) fun _ => rfl).rows store job =
            ⟨some { row with state := .effectPending }, some effect⟩ :=
          JobRows.ext inbox after
        exact written ▸ moved
      · have other : effect.effectId ≠ store.effectId job := by
          rw [id]
          exact fun equal => same (effectId_injective store equal).symm
        rw [if_neg other] at after
        rw [if_neg same] at inbox
        exact .inl (JobRows.ext inbox after)
  | @succeeded effect reconciled record mem holds _ =>
      obtain ⟨row, before, dispatching⟩ := rows_of_holds keyed mem holds
      dsimp only
      rw [rows_appendReplayAudit, rows_updateInbox, keyed.records effect mem, rows_updateOutbox]
      by_cases same : job = effect.jobId
      · subst same
        rw [if_pos rfl, if_pos rfl, before]
        exact .inr (.completed (not_finished_of_dispatching dispatching) rfl rfl)
      · rw [if_neg same, if_neg same]
        exact .inl rfl
  | @failed effect errorCode indeterminate now record mem holds _ =>
      obtain ⟨row, before, dispatching⟩ := rows_of_holds keyed mem holds
      dsimp only
      rw [rows_appendReplayAudit, keyed.records effect mem, rows_updateOutbox]
      by_cases same : job = effect.jobId
      · subst same
        rw [if_pos rfl, before]
        exact .inr (.dispatched (not_finished_of_dispatching dispatching)
          (not_finished_failedState effect indeterminate) rfl)
      · rw [if_neg same]
        exact .inl rfl
  | @conflicted effect record mem holds _ =>
      obtain ⟨row, before, dispatching⟩ := rows_of_holds keyed mem holds
      dsimp only
      rw [rows_appendReplayAudit, rows_updateInbox, keyed.records effect mem, rows_updateOutbox]
      by_cases same : job = effect.jobId
      · subst same
        rw [if_pos rfl, if_pos rfl, before]
        exact .inr (.conflicted (not_finished_of_dispatching dispatching) rfl rfl)
      · rw [if_neg same, if_neg same]
        exact .inl rfl
  | @requeued effectId attempt now row record found open_ _ _ =>
      dsimp only
      rw [rows_appendReplayAudit, keyed.effects effectId row found, rows_updateOutbox]
      by_cases same : job = row.jobId
      · subst same
        rw [if_pos rfl]
        refine .inr ?_
        unfold LocalDB.rows
        rw [← keyed.effects effectId row found, found]
        exact .dispatched (not_finished_of_mem (by decide) open_)
          not_finished_pending rfl
      · rw [if_neg same]
        exact .inl rfl

theorem Lease.moves {workerId : String} {effectId : EffectId}
    (lease : Lease workerId effectId s s') (keyed : Keyed store s) (job : JobId) :
    s'.db.rows store job = s.db.rows store job ∨
      Moves False (s.db.rows store job) (s'.db.rows store job) := by
  cases lease with
  | @claimed row leaseUntil now found due =>
      have id := keyed.effects effectId row found
      dsimp only
      rw [rows_appendReplayAudit, id, rows_updateOutbox]
      by_cases same : job = row.jobId
      · subst same
        rw [if_pos rfl]
        refine .inr ?_
        unfold LocalDB.rows
        rw [← id, found]
        exact .dispatched (not_finished_of_mem (by decide) (of_decide_eq_true due).1)
          (not_finished_of_dispatching rfl) rfl
      · rw [if_neg same]
        exact .inl rfl

/-! ### Runs -/

/-- What holds in every state. -/
structure Sound (store : JobEffectStore) (s : State) : Prop where
  keyed : Keyed store s
  paired : ∀ job, Paired (s.db.rows store job)

/-- The rows of every job before and after a part of a run. -/
def AllAdvance (store : JobEffectStore) (s s' : State) : Prop :=
  ∀ job, Advances (s.db.rows store job) (s'.db.rows store job)

theorem sound_of_moves {C : Prop} (sound : Sound store s) (keyed : Keyed store s')
    (moves : ∀ job, s'.db.rows store job = s.db.rows store job ∨
      Moves C (s.db.rows store job) (s'.db.rows store job)) :
    Sound store s' ∧ AllAdvance store s s' ∧
      (¬ C → (∀ job, Pending (s.db.rows store job)) → ∀ job, Pending (s'.db.rows store job)) := by
  refine ⟨⟨keyed, ?_⟩, ?_, ?_⟩
  · intro job
    rcases moves job with same | moves
    · rw [same]
      exact sound.paired job
    · exact moves.paired (sound.paired job)
  · intro job
    rcases moves job with same | moves
    · rw [same]
      exact .refl _
    · exact moves.advances (sound.paired job)
  · intro never pending job
    rcases moves job with same | moves
    · rw [same]
      exact pending job
    · exact moves.pending (pending job) never

theorem leases_sound {workerId : String} {effectIds : List EffectId}
    (leases : Leases workerId effectIds s s') (sound : Sound store s) :
    Sound store s' ∧ AllAdvance store s s' ∧
      ((∀ job, Pending (s.db.rows store job)) → ∀ job, Pending (s'.db.rows store job)) := by
  induction leases with
  | nil => exact ⟨sound, fun job => .refl _, id⟩
  | cons lease _ ih =>
      have one := sound_of_moves sound (lease.keyed sound.keyed) (lease.moves sound.keyed)
      obtain ⟨between, advance, pending⟩ := one
      obtain ⟨after, advance', pending'⟩ := ih between
      exact ⟨after, fun job => (advance job).trans (advance' job),
        fun start => pending' (pending id start)⟩

/-- What a step does to every job. -/
theorem step_sound (sound : Sound store s) (ok : step store s event = some s') :
    Sound store s' ∧ AllAdvance store s s' ∧
      (¬ Reclaims store s event → (∀ job, Pending (s.db.rows store job)) →
        ∀ job, Pending (s'.db.rows store job)) := by
  rcases step_cases ok with rfl | write | ⟨workerId, limit, now, _, leases⟩
  · exact ⟨sound, fun job => .refl _, fun _ => id⟩
  · exact sound_of_moves sound (write.keyed sound.keyed) (write.moves sound.keyed)
  · obtain ⟨after, advance, pending⟩ := leases_sound leases sound
    exact ⟨after, advance, fun _ => pending⟩

theorem sound_init (store : JobEffectStore) : Sound store (machine store).init where
  keyed := ⟨fun _ _ found => (nomatch found), fun _ mem => (nomatch mem)⟩
  paired _ := rfl

theorem sound_of_run {h : List (Transition State Event)} (run : Run (machine store) h s) :
    Sound store s :=
  run.invariant (sound_init store) fun sound ok => (step_sound sound ok).1

theorem mem_pendingJobs {db : LocalDB} {limit : Nat} {row : InboxRow}
    (mem : row ∈ db.pendingJobs limit) :
    db.inbox.find row.jobId = some row ∧ (row.state = .received ∨ row.state = .claimed) := by
  have selected := (List.mem_insertionSort _).mp (List.mem_of_mem_take mem)
  obtain ⟨stored, open_⟩ := Rows.mem_select.mp selected
  exact ⟨Rows.find_of_mem stored, by simpa using open_⟩

theorem agrees_of_pending (sound : Sound store s) (pending : ∀ job, Pending (s.db.rows store job)) :
    Agrees store s.db := by
  have both : ∀ {job row effect}, (s.db.rows store job).inbox = some row →
      (s.db.rows store job).effect = some effect → Paired ⟨some row, some effect⟩ := by
    intro job row effect inboxed prepared
    have rows : s.db.rows store job = ⟨some row, some effect⟩ := JobRows.ext inboxed prepared
    exact rows ▸ sound.paired job
  have inboxed : ∀ {job effect}, (s.db.rows store job).effect = some effect →
      ∃ row, (s.db.rows store job).inbox = some row := by
    intro job effect prepared
    cases inbox : (s.db.rows store job).inbox with
    | some row => exact ⟨row, rfl⟩
    | none =>
        have rows : s.db.rows store job = ⟨none, some effect⟩ := JobRows.ext inbox prepared
        exact nomatch (rows ▸ sound.paired job : Paired ⟨none, some effect⟩)
  have unprepared : ∀ job row, (s.db.rows store job).inbox = some row →
      (s.db.rows store job).effect = none → row.state = .received ∨ row.state = .claimed := by
    intro job row inbox absent
    have rows : s.db.rows store job = ⟨some row, none⟩ := JobRows.ext inbox absent
    exact (rows ▸ sound.paired job : Paired ⟨some row, none⟩)
  have prepared : ∀ {job row}, (s.db.rows store job).inbox = some row → row.state.terminal →
      ∃ effect, (s.db.rows store job).effect = some effect := by
    intro job row inbox terminal
    cases absent : (s.db.rows store job).effect with
    | some effect => exact ⟨effect, rfl⟩
    | none =>
        rcases unprepared job row inbox absent with received | claimed
        · rw [received] at terminal
          exact absurd terminal (by decide)
        · rw [claimed] at terminal
          exact absurd terminal (by decide)
  refine ⟨?_, ?_, fun job => pending job, unprepared, ?_, ?_⟩
  · intro job
    constructor
    · rintro ⟨effect, is, succeeded⟩
      obtain ⟨row, inbox⟩ := inboxed is
      exact ⟨row, inbox, (both inbox is).1.mp succeeded⟩
    · rintro ⟨row, inbox, completed⟩
      obtain ⟨effect, is⟩ := prepared inbox (.inl completed)
      exact ⟨effect, is, (both inbox is).1.mpr completed⟩
  · intro job
    constructor
    · rintro ⟨effect, is, conflict⟩
      obtain ⟨row, inbox⟩ := inboxed is
      exact ⟨row, inbox, (both inbox is).2.1.mp conflict⟩
    · rintro ⟨row, inbox, conflict⟩
      obtain ⟨effect, is⟩ := prepared inbox (.inr conflict)
      exact ⟨effect, is, (both inbox is).2.1.mpr conflict⟩
  · intro job effect is
    obtain ⟨row, inbox⟩ := inboxed is
    obtain ⟨_, _, token, had, le⟩ := both inbox is
    exact ⟨row, token, inbox, had, le⟩
  · intro limit row mem
    obtain ⟨inbox, open_⟩ := mem_pendingJobs mem
    by_contra some_
    obtain ⟨effect, is⟩ := Option.ne_none_iff_exists'.mp some_
    by_cases finished : effect.state.finished
    · obtain ⟨succeeded, conflict, _⟩ := both inbox is
      rcases finished with done | done
      · rw [succeeded.mp done] at open_
        exact absurd open_ (by decide)
      · rw [conflict.mp done] at open_
        exact absurd open_ (by decide)
    · obtain ⟨row', inbox', waiting⟩ := pending row.jobId effect is finished
      cases inbox.symm.trans inbox'
      rw [waiting] at open_
      exact absurd open_ (by decide)

/-- A claim that reclaims leaves an unfinished effect with a claimed job. -/
theorem not_agrees_of_reclaims (sound : Sound store s) (ok : step store s event = some s')
    (reclaims : Reclaims store s event) : ¬ Agrees store s'.db := by
  intro agrees
  cases event with
  | markClaimed jobId token lease =>
      obtain ⟨valid, here⟩ := reclaims
      generalize rows : s.db.rows store jobId = before at here
      obtain ⟨_ | row, _ | effect⟩ := before
      · cases here
      · cases here
      · cases here
      · obtain ⟨unfinished, fresh⟩ := here
        have paired : Paired ⟨some row, some effect⟩ := rows ▸ sound.paired jobId
        have open_ := not_terminal_of_paired paired unfinished
        have found : s.db.inbox.find jobId = some row := congrArg JobRows.inbox rows
        have accepted := markClaimed_eq valid found open_ fresh
        have committed := congrArg State.db (Option.some.inj ok).symm
        rw [accepted] at committed
        have moved := congrArg (fun db : LocalDB => db.rows store jobId) committed
        dsimp only [State.commit] at moved
        rw [rows_updateInbox, if_pos rfl, rows] at moved
        obtain ⟨row', inbox, waiting⟩ :=
          agrees.pending jobId effect (congrArg JobRows.effect moved) unfinished
        cases (congrArg JobRows.inbox moved).symm.trans inbox
        cases waiting
  | _ => exact reclaims

/-- Inbox and outbox agree in every state of a run exactly if no job whose effect is
unfinished is claimed again; tokens never decrease and terminal states are never left. -/
theorem agree_iff {h : List (Transition State Event)} (run : Run (machine store) h s) :
    (∀ r ∈ h, Agrees store r.post.db ∧ AllAdvance store r.pre r.post) ↔
      ∀ r ∈ h, ¬ Reclaims store r.pre r.event := by
  constructor
  · intro agree r mem reclaims
    obtain ⟨later, earlier, rfl⟩ := List.append_of_mem mem
    obtain ⟨before, ok, _⟩ := run.split
    exact not_agrees_of_reclaims (sound_of_run before) ok reclaims (agree r mem).1
  · intro never r mem
    obtain ⟨later, earlier, rfl⟩ := List.append_of_mem mem
    obtain ⟨before, ok, _⟩ := run.split
    have pending : Sound store r.pre ∧ ∀ job, Pending (r.pre.db.rows store job) := by
      refine before.invariant_along (C := fun r => ¬ Reclaims store r.pre r.event)
        (I := fun s => Sound store s ∧ ∀ job, Pending (s.db.rows store job))
        (fun r mem => never r (List.mem_append_right _ (List.mem_cons_of_mem _ mem)))
        ⟨sound_init store, by
          intro job effect prepared
          cases prepared⟩ ?_
      intro t event t' ⟨sound, pending⟩ ok never
      obtain ⟨after, _, keep⟩ := step_sound sound ok
      exact ⟨after, keep never pending⟩
    obtain ⟨after, advance, keep⟩ := step_sound pending.1 ok
    exact ⟨agrees_of_pending after (keep (never r mem) pending.2), advance⟩

/-- A job up to the claim of its effect. -/
def dispatched : List Event :=
  [.ingest ⟨"job-1", "talos", "copy", "{}", none⟩ 0, .markClaimed "job-1" 7 none,
    .prepareEffect "job-1" "{}" 1, .claimDue "worker" none 2]

/-- The remote claim is refreshed while the result is submitted. -/
def refreshed : List Event :=
  dispatched ++ [.markClaimed "job-1" 8 none, .prepareEffect "job-1" "{}" 3]

def exampleRun (events : List Event) : List (Transition State Event) × State :=
  (machine exampleStore).play events ([], (machine exampleStore).init)

theorem agree_iff_dispatched :
    (exampleRun dispatched).1.length ≠ 0 ∧
      ∀ r ∈ (exampleRun dispatched).1, Agrees exampleStore r.post.db ∧
        AllAdvance exampleStore r.pre r.post :=
  ⟨by decide, (agree_iff ((machine exampleStore).play_run dispatched)).mpr
    (by decide)⟩

/-- The job whose result is prepared is offered again. -/
theorem refreshed_offered :
    Run (machine exampleStore) (exampleRun refreshed).1 (exampleRun refreshed).2 ∧
      (∃ row ∈ (exampleRun refreshed).2.db.pendingJobs 50,
        (exampleRun refreshed).2.db.outbox.find (exampleStore.effectId row.jobId) ≠ none) ∧
      ¬ Agrees exampleStore (exampleRun refreshed).2.db := by
  have offered : ∃ row ∈ (exampleRun refreshed).2.db.pendingJobs 50,
      (exampleRun refreshed).2.db.outbox.find (exampleStore.effectId row.jobId) ≠ none := by
    decide
  refine ⟨(machine exampleStore).play_run refreshed, offered, ?_⟩
  intro agrees
  obtain ⟨row, mem, prepared⟩ := offered
  exact prepared (agrees.offered 50 row mem)

end Talos.JobEffects
