import Talos.StorageMigration
import Talos.Soroban.FiniteMaps

/-!
# The migration history

Every operation leaves the version pointer and the lock alone, or moves them
together with one appended record (`Effect`). So the history is a chain from the
first version to the stored one, and while the lock is held the stored version
does not move.

The lock is a bare flag: it remembers neither `from` nor `to` of the migration
that took it. What completes a migration is bound to what began it by the stored
version only.
-/

namespace Talos.StorageMigration

open Talos.Soroban

variable {e : Env Unit} {s s' : Store} {c : Call} {u : Unit}

/-! ### What an operation can do -/

/-- The store with one more record. -/
def Store.appended (s : Store) (r : MigrationRecord) : Store :=
  { s with
    history := s.history.set (migrationHistoryLen s) r
    historyLen := some (migrationHistoryLen s + 1) }

/-- The version moved to the end of one more record. -/
def Store.moved (s : Store) (lock : Option Bool) (r : MigrationRecord) : Store :=
  { s with schemaVersion := some r.toVersion, migrationLock := lock }.appended r

theorem appendHistory_eq_ok {R E : Type} {e : Env R} {fromVersion toVersion : Nat}
    {rolledBack : Bool} :
    (appendHistory e s fromVersion toVersion rolledBack : Outcome E Store) = .ok s' ↔
      migrationHistoryLen s < u32Max ∧
        s' = s.appended ⟨fromVersion, toVersion, e.timestamp, rolledBack⟩ := by
  simp only [appendHistory, bind_eq_ok, addU32_eq_ok, Except.ok.injEq]
  constructor
  · rintro ⟨len', ⟨room, rfl⟩, rfl⟩
    exact ⟨room, rfl⟩
  · rintro ⟨room, rfl⟩
    exact ⟨_, ⟨room, rfl⟩, rfl⟩

theorem validateForwardStep_eq_ok {current fromVersion toVersion : Nat} {u : Unit} :
    validateForwardStep current fromVersion toVersion = .ok u ↔
      fromVersion < toVersion ∧ current = fromVersion := by
  unfold validateForwardStep
  split
  · next backward => simp [Nat.not_lt.mpr backward]
  · next forward => split <;> simp_all

theorem validateRollback_eq_ok {current target maxDepth : Nat} {u : Unit} :
    validateRollback current target maxDepth = .ok u ↔
      target < current ∧ current - target ≤ maxDepth := by
  unfold validateRollback
  split
  · next above => simp [Nat.not_lt.mpr above]
  · next below =>
    split
    · next deep => exact iff_of_false nofun fun within => Nat.not_le.mpr deep within.2
    · next within => exact iff_of_true rfl ⟨Nat.not_le.mp below, Nat.not_lt.mp within⟩

/-- The accepted operations. Version changes and appended records come together. -/
inductive Effect (e : Env Unit) (s : Store) : Call → Store → Prop where
  | initializeSchema {genesis : Nat} (unset : s.schemaVersion = none) :
      Effect e s (.initializeSchema genesis)
        (s.moved s.migrationLock ⟨genesis, genesis, e.timestamp, false⟩)
  | schemaKept {genesis : Nat} (isSet : s.schemaVersion ≠ none) :
      Effect e s (.initializeSchema genesis) s
  | beginMigration {current fromVersion toVersion : Nat} (forward : fromVersion < toVersion)
      (unlocked : isLocked s = false) (agrees : s.schemaVersion.getD current = current)
      (fromCurrent : current = fromVersion) :
      Effect e s (.beginMigration current fromVersion toVersion)
        { s with migrationLock := some true }
  | completeMigration {fromVersion toVersion : Nat} (forward : fromVersion < toVersion)
      (locked : isLocked s = true) (agrees : s.schemaVersion.getD fromVersion = fromVersion) :
      Effect e s (.completeMigration fromVersion toVersion)
        (s.moved (some false) ⟨fromVersion, toVersion, e.timestamp, false⟩)
  | abortMigration : Effect e s .abortMigration { s with migrationLock := some false }
  | rollback {current target maxDepth : Nat} (backward : target < current)
      (unlocked : isLocked s = false) (agrees : s.schemaVersion.getD current = current) :
      Effect e s (.rollback current target maxDepth)
        (s.moved s.migrationLock ⟨current, target, e.timestamp, true⟩)

theorem beginMigration_eq_ok {current fromVersion toVersion : Nat} :
    beginMigration s current fromVersion toVersion = .ok s' ↔
      s.schemaVersion.getD current = current ∧ fromVersion < toVersion ∧ current = fromVersion ∧
        isLocked s = false ∧ s' = { s with migrationLock := some true } := by
  by_cases agrees : s.schemaVersion.getD current = current
  · by_cases locked : isLocked s = true
    · simp [beginMigration, agrees, locked]
    · simp [beginMigration, agrees, locked, validateForwardStep_eq_ok, and_assoc,
        @eq_comm _ s']
  · simp [beginMigration, agrees]

theorem completeMigration_eq_ok {R E : Type} {e : Env R} {fromVersion toVersion : Nat} :
    (completeMigration e s fromVersion toVersion : Outcome E Store) = .ok s' ↔
      s.schemaVersion.getD fromVersion = fromVersion ∧ isLocked s = true ∧
        fromVersion < toVersion ∧ migrationHistoryLen s < u32Max ∧
        s' = s.moved (some false) ⟨fromVersion, toVersion, e.timestamp, false⟩ := by
  simp [completeMigration, appendHistory_eq_ok, migrationHistoryLen, Store.moved]

theorem rollback_eq_ok {R E : Type} {e : Env R} {current target maxDepth : Nat} :
    (rollback e s current target maxDepth : Outcome E (Except MigrationError Store)) =
        .ok (.ok s') ↔
      s.schemaVersion.getD current = current ∧ target < current ∧ current - target ≤ maxDepth ∧
        isLocked s = false ∧ migrationHistoryLen s < u32Max ∧
        s' = s.moved s.migrationLock ⟨current, target, e.timestamp, true⟩ := by
  by_cases agrees : s.schemaVersion.getD current = current
  · cases valid : validateRollback current target maxDepth with
    | error err =>
      have invalid : ¬ (target < current ∧ current - target ≤ maxDepth) := fun within => by
        cases valid.symm.trans (validateRollback_eq_ok.mpr within : _ = .ok ())
      simp only [rollback, agrees, valid, ne_eq, not_true_eq_false, if_false, Except.ok.injEq,
        reduceCtorEq, false_iff, true_and]
      exact fun within => invalid ⟨within.1, within.2.1⟩
    | ok u =>
      obtain ⟨below, within⟩ := validateRollback_eq_ok.mp valid
      by_cases locked : isLocked s = true
      · simp [rollback, agrees, valid, locked]
      · simp [rollback, agrees, valid, locked, below, within, appendHistory_eq_ok,
          migrationHistoryLen, Store.moved]
  · simp [rollback, agrees]

theorem exec_effect (ok : exec e s c = .ok (u, s')) : Effect e s c s' := by
  cases c with
  | initializeSchema genesis =>
    simp only [exec, silent_eq_ok, initializeSchema] at ok
    split at ok
    · next unset =>
      obtain ⟨-, rfl⟩ := appendHistory_eq_ok.mp ok.1
      exact .initializeSchema (by simpa using unset)
    · next isSet =>
      obtain rfl := Except.ok.inj ok.1
      exact .schemaKept (by simpa using isSet)
  | beginMigration current fromVersion toVersion =>
    simp only [exec, silent_eq_ok, mapError_eq_ok] at ok
    obtain ⟨agrees, forward, fromCurrent, unlocked, rfl⟩ := beginMigration_eq_ok.mp ok.1
    exact .beginMigration forward unlocked agrees fromCurrent
  | completeMigration fromVersion toVersion =>
    simp only [exec, silent_eq_ok] at ok
    obtain ⟨agrees, locked, forward, -, rfl⟩ := completeMigration_eq_ok.mp ok.1
    exact .completeMigration forward locked agrees
  | abortMigration =>
    obtain rfl : abortMigration s = s' := by simpa [exec] using ok
    exact .abortMigration
  | rollback current target maxDepth =>
    simp only [exec, silent_eq_ok, bind_eq_ok] at ok
    obtain ⟨⟨result, rolled, mapped⟩, -⟩ := ok
    obtain rfl := mapError_eq_ok.mp mapped
    obtain ⟨agrees, backward, -, unlocked, -, rfl⟩ := rollback_eq_ok.mp rolled
    exact .rollback backward unlocked agrees

/-! ### The chain of versions -/

/-- The log leads, record by record, to the stored version. -/
structure Chain (s : Store) : Prop where
  log : Chained (fun older newer => older.toVersion = newer.fromVersion)
    (migrationHistoryLen s) s.history
  current : s.schemaVersion = (newest (migrationHistoryLen s) s.history).map (·.toVersion)
  marked : ∀ i r, s.history i = some r → (r.rolledBack = true ↔ r.toVersion < r.fromVersion)

theorem Chain.empty : Chain .empty where
  log := .empty
  current := rfl
  marked _ _ found := nomatch found

/-- A record from the stored version, if there is one, moves the version to its end. -/
theorem Chain.moved (chain : Chain s) {r : MigrationRecord} {lock : Option Bool}
    (agrees : s.schemaVersion.getD r.fromVersion = r.fromVersion)
    (marked : r.rolledBack = true ↔ r.toVersion < r.fromVersion) :
    Chain (s.moved lock r) where
  log := by
    refine chain.log.append fun last found => ?_
    rw [chain.current, found] at agrees
    exact agrees
  current := congrArg (Option.map _) (newest_append (migrationHistoryLen s) s.history r).symm
  marked i r' found := by
    by_cases new : i = migrationHistoryLen s
    · obtain rfl : r = r' := by
        simpa [Store.moved, Store.appended, migrationHistoryLen, new] using found
      exact marked
    · have old : s.history i = some r' := (Map.set_of_ne s.history r new).symm.trans found
      exact chain.marked i r' old

theorem Chain.effect (chain : Chain s) (effect : Effect e s c s') : Chain s' := by
  cases effect with
  | initializeSchema unset => exact chain.moved (by rw [unset]; rfl) (by simp)
  | schemaKept isSet => exact chain
  | beginMigration | abortMigration => exact ⟨chain.log, chain.current, chain.marked⟩
  | completeMigration forward locked agrees =>
    exact chain.moved agrees (by simpa using Nat.le_of_lt forward)
  | rollback backward unlocked agrees => exact chain.moved agrees (by simpa using backward)

theorem chain_of_reachable (reach : Reachable contract s) : Chain s :=
  reach.invariant .empty fun chain ok => chain.effect (exec_effect ok)

/-- One record was appended, and the version is the one it leads to. -/
def Advanced (s s' : Store) : Prop :=
  ∃ r, s'.schemaVersion = some r.toVersion ∧
    migrationHistoryLen s' = migrationHistoryLen s + 1 ∧
    migrationRecordAt s' (migrationHistoryLen s) = some r ∧
    ∀ i < migrationHistoryLen s, migrationRecordAt s' i = migrationRecordAt s i

theorem advanced_moved {r : MigrationRecord} {lock : Option Bool} : Advanced s (s.moved lock r) :=
  ⟨r, rfl, rfl, Map.set_self .., fun _ older => Map.set_of_ne _ _ (Nat.ne_of_lt older)⟩

theorem Effect.advanced (effect : Effect e s c s') (moved : s'.schemaVersion ≠ s.schemaVersion) :
    Advanced s s' := by
  cases effect with
  | initializeSchema | completeMigration | rollback => exact advanced_moved
  | schemaKept | beginMigration | abortMigration => exact absurd rfl moved

/-- After any sequence of operations, the records are a chain without gaps from
the first version to the stored one, and the next operation moves the version
only by appending a record. -/
theorem history_chain (txs : List (Env Unit × Call)) :
    let s := contract.submitAll txs .empty
    (∀ i, (migrationRecordAt s i).isSome ↔ i < migrationHistoryLen s) ∧
    (∀ i r r', migrationRecordAt s i = some r → migrationRecordAt s (i + 1) = some r' →
      r.toVersion = r'.fromVersion) ∧
    s.schemaVersion = (newest (migrationHistoryLen s) (migrationRecordAt s)).map (·.toVersion) ∧
    (∀ i r, migrationRecordAt s i = some r → (r.rolledBack = true ↔ r.toVersion < r.fromVersion)) ∧
    ∀ e c, (contract.submit e c s).schemaVersion ≠ s.schemaVersion →
      Advanced s (contract.submit e c s) := by
  intro s
  have chain : Chain s := chain_of_reachable (Reachable.init.submitAll txs)
  refine ⟨chain.log.stored, chain.log.linked, chain.current, chain.marked, ?_⟩
  intro e c moved
  cases executed : contract.exec e s c with
  | error t => exact absurd (congrArg _ (Contract.submit_of_error executed)) moved
  | ok result =>
    rw [Contract.submit_of_ok executed] at moved ⊢
    exact (exec_effect executed).advanced moved

/-! ### What holds the lock -/

/-- `b` began a migration, and since then nothing but `initialize_schema` was accepted. -/
def HeldSince (b : Entry Unit Store Call Unit) (later : List (Entry Unit Store Call Unit))
    (fromVersion toVersion : Nat) : Prop :=
  (∃ current, b.call = .beginMigration current fromVersion toVersion) ∧
    ∀ r ∈ later, ∃ genesis, r.call = .initializeSchema genesis

variable {h later : List (Entry Unit Store Call Unit)} {b : Entry Unit Store Call Unit}
  {fromVersion toVersion : Nat}

theorem HeldSince.initializeSchema {r : Entry Unit Store Call Unit}
    (held : HeldSince b later fromVersion toVersion) {genesis : Nat}
    (call : r.call = .initializeSchema genesis) : HeldSince b (r :: later) fromVersion toVersion :=
  ⟨held.1, List.forall_mem_cons.mpr ⟨⟨genesis, call⟩, held.2⟩⟩

/-- A held lock was taken by a `begin_migration`, and a version stored by then is
the one the migration starts from and is still stored. -/
theorem held_of_locked (run : Run contract h s) (locked : isLocked s = true) :
    ∃ later b earlier fromVersion toVersion, h = later ++ b :: earlier ∧
      HeldSince b later fromVersion toVersion ∧ fromVersion < toVersion ∧
      (b.pre.schemaVersion ≠ none → s.schemaVersion = some fromVersion) := by
  induction run with
  | refl => cases locked
  | @step h t t' e c u run ok ih =>
    cases exec_effect ok with
    | initializeSchema unset =>
      obtain ⟨later, b, earlier, fromVersion, toVersion, rfl, held, forward, same⟩ := ih locked
      refine ⟨_ :: later, b, earlier, fromVersion, toVersion, rfl, held.initializeSchema rfl,
        forward, ?_⟩
      intro isSet
      cases unset.symm.trans (same isSet)
    | schemaKept isSet =>
      obtain ⟨later, b, earlier, fromVersion, toVersion, rfl, held, forward, same⟩ := ih locked
      exact ⟨_ :: later, b, earlier, fromVersion, toVersion, rfl, held.initializeSchema rfl,
        forward, same⟩
    | @beginMigration current fromVersion toVersion forward unlocked agrees fromCurrent =>
      refine ⟨[], _, h, fromVersion, toVersion, rfl, ⟨⟨current, rfl⟩, nofun⟩, forward, ?_⟩
      intro isSet
      obtain ⟨stored, found⟩ := Option.ne_none_iff_exists'.mp isSet
      rw [found] at agrees
      exact found.trans (congrArg some (agrees.trans fromCurrent))
    | completeMigration | abortMigration => cases locked
    | rollback backward unlocked agrees => cases unlocked.symm.trans locked

/-- A migration is completed from the version stored, under a lock that a
`begin_migration` took and that nothing has released since. If a version was
stored when the migration was begun, it is completed from where it was begun;
the target is the completing caller's own. -/
theorem completed_from_begun {t : Store} {e : Env Unit} (run : Run contract h s)
    (ok : exec e s (.completeMigration fromVersion toVersion) = .ok (u, t)) :
    fromVersion < toVersion ∧ s.schemaVersion.getD fromVersion = fromVersion ∧
    ∃ later b earlier begunFrom begunTo, h = later ++ b :: earlier ∧
      HeldSince b later begunFrom begunTo ∧ begunFrom < begunTo ∧
      (b.pre.schemaVersion ≠ none → fromVersion = begunFrom) := by
  cases exec_effect ok with
  | completeMigration forward locked agrees =>
    obtain ⟨later, b, earlier, begunFrom, begunTo, split, held, begunForward, same⟩ :=
      held_of_locked run locked
    refine ⟨forward, agrees, later, b, earlier, begunFrom, begunTo, split, held, begunForward, ?_⟩
    intro isSet
    rw [same isSet] at agrees
    exact agrees.symm

/-! ### Completing another migration than the one begun -/

/-- The operations submitted to a fresh store at time 0, with their history. -/
def played (calls : List Call) : List (Entry Unit Store Call Unit) × Store :=
  contract.play (calls.map fun call => (⟨0, 0, fun _ => true, ()⟩, call)) ([], .empty)

theorem played_run (calls : List Call) : Run contract (played calls).1 (played calls).2 :=
  Contract.play_steps .refl _

/-- At version 1, a migration from 1 to 2 is begun and completed. -/
theorem completed_from_begun_oneToTwo :
    ∃ later b earlier begunFrom begunTo,
      (played [.initializeSchema 1, .beginMigration 1 1 2]).1 = later ++ b :: earlier ∧
      HeldSince b later begunFrom begunTo ∧ begunFrom < begunTo ∧
      (b.pre.schemaVersion ≠ none → 1 = begunFrom) := by
  obtain ⟨t, ok⟩ : ∃ t, exec ⟨0, 0, fun _ => true, ()⟩
      (played [.initializeSchema 1, .beginMigration 1 1 2]).2 (.completeMigration 1 2) =
        .ok ((), t) := ⟨_, rfl⟩
  exact (completed_from_begun (played_run _) ok).2.2

/-- A migration begun from 1 to 2 is completed from 1 to 3, and on a store that
has no version one begun from 5 to 6 is completed from 7 to 9. -/
theorem completed_other_than_begun :
    (∃ t, exec ⟨0, 0, fun _ => true, ()⟩
        (played [.initializeSchema 1, .beginMigration 1 1 2]).2 (.completeMigration 1 3) =
          .ok ((), t) ∧
      (played [.initializeSchema 1, .beginMigration 1 1 2]).1.map (·.call) =
        [.beginMigration 1 1 2, .initializeSchema 1]) ∧
    (∃ t, exec ⟨0, 0, fun _ => true, ()⟩
        (played [.beginMigration 5 5 6]).2 (.completeMigration 7 9) = .ok ((), t) ∧
      (played [.beginMigration 5 5 6]).1.map (·.call) = [.beginMigration 5 5 6]) :=
  ⟨⟨_, rfl, rfl⟩, ⟨_, rfl, rfl⟩⟩

end Talos.StorageMigration
