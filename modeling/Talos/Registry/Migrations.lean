import Talos.Registry.Effects
import Talos.StorageMigration.History

/-!
# Schema migrations of the registry

An initialized registry is at schema version 0, 1 or 2, with the migration lock
free. Only version 1 has a step to the latest version: `rollback_schema` may move
the pointer below it, one version a call, and from version 0 no migration runs
any more, although `run_migrations` still succeeds.
-/

namespace Talos.Registry

open Talos.Soroban Talos.AdminControls Talos.StorageMigration

variable {e : Env Remote} {s s' : Storage} {c : Call} {v : Value}

/-! ### What a migration call does -/

/-- The storage after the step from version 1 to version 2. -/
def Storage.migrated (e : Env Remote) (s : Storage) : Storage :=
  { s with
    timelockConfig := some (getTimelockConfig s)
    schema := s.schema.moved (some false)
      ⟨schemaGenesis, schemaTimelockDefaults, e.timestamp, false⟩ }

/-- The step from version 1 to version 2 can run. -/
def CanMigrate (s : Storage) : Prop :=
  isLocked s.schema = false ∧ migrationHistoryLen s.schema < u32Max

/-- A migration to `target` stays where it is, or takes the step from 1 to 2. -/
inductive Migration (e : Env Remote) (s : Storage) (target : Nat) : Nat → Storage → Prop where
  | upToDate (same : schemaVersion s = target) : Migration e s target (schemaVersion s) s
  | step (genesis : schemaVersion s = schemaGenesis) (latest : target = schemaLatest)
      (can : CanMigrate s) : Migration e s target schemaLatest (s.migrated e)
  | noStep (below : schemaVersion s < schemaGenesis) :
      Migration e s target (schemaVersion s) s

/-- The calls that touch the schema version. -/
def Call.migrates : Call → Prop
  | .initializeContract _ | .runMigrations | .runMigrationsTo _ | .rollbackSchema _ => True
  | _ => False

theorem schemaVersion_getD (s : Storage) :
    s.schema.schemaVersion.getD (schemaVersion s) = schemaVersion s := by
  unfold schemaVersion
  cases s.schema.schemaVersion <;> rfl

theorem wallet_of_requireAdmin {admin : Address} (ok : requireAdmin e s = .ok admin) :
    s.protocolWallet ≠ none := by
  rw [(requireAdmin_eq_ok.mp ok).1]
  exact Option.some_ne_none admin

theorem runMigrationsTo_migration {target version : Nat}
    (ok : runMigrationsTo e s target = .ok (version, s')) :
    s.protocolWallet ≠ none ∧ Migration e s target version s' := by
  simp only [runMigrationsTo, bind_eq_ok, rejectIf_eq_ok] at ok
  obtain ⟨_, isAdmin, _, forward, _, supported, ok⟩ := ok
  refine ⟨wallet_of_requireAdmin isAdmin, ?_⟩
  split at ok
  · next same =>
    obtain ⟨rfl, rfl⟩ := by simpa using ok
    exact .upToDate same
  next ne =>
  split at ok
  · next genesis =>
    have latest : target = schemaLatest :=
      Nat.le_antisymm (Nat.le_of_not_lt supported) genesis.2
    split at ok
    · cases ok
    · next schema began =>
      obtain ⟨-, -, -, unlocked, rfl⟩ := beginMigration_eq_ok.mp began
      simp only [bind_eq_ok, completeMigration_eq_ok, Except.ok.injEq, Prod.mk.injEq] at ok
      obtain ⟨_, ⟨-, -, -, room, rfl⟩, rfl, rfl⟩ := ok
      exact .step genesis.1 latest ⟨unlocked, room⟩
  · next noStep =>
    obtain ⟨rfl, rfl⟩ := by simpa using ok
    have supported : target ≤ 2 := Nat.le_of_not_lt supported
    refine .noStep ?_
    simp only [schemaGenesis, schemaTimelockDefaults] at noStep ⊢
    omega

/-- An accepted rollback moves the pointer down by one version. -/
theorem rollbackSchema_moved {target : Nat} (ok : rollbackSchema e s target = .ok s') :
    s.protocolWallet ≠ none ∧ target < schemaVersion s ∧ s' = { s with
      schema := s.schema.moved s.schema.migrationLock
        ⟨schemaVersion s, target, e.timestamp, true⟩ } := by
  simp only [rollbackSchema, bind_eq_ok] at ok
  obtain ⟨_, isAdmin, moved, rolled, ok⟩ := ok
  cases moved with
  | error _ => cases ok
  | ok schema =>
    obtain rfl := Except.ok.inj ok
    obtain ⟨-, below, -, -, -, rfl⟩ := rollback_eq_ok.mp rolled
    exact ⟨wallet_of_requireAdmin isAdmin, below, rfl⟩

/-- The schema after initialization: version 1, with one record. -/
def genesisSchema (timestamp : Nat) : StorageMigration.Store :=
  Store.empty.moved none ⟨schemaGenesis, schemaGenesis, timestamp, false⟩

theorem initializeContract_genesis {wallet : Address} (ok : initializeContract e s wallet = .ok s')
    (fresh : s.protocolWallet = none → s.schema = .empty) :
    s'.protocolWallet = some wallet ∧ s'.schema = genesisSchema e.timestamp := by
  simp only [initializeContract, bind_eq_ok, rejectIf_eq_ok, Option.not_isSome_iff_eq_none,
    Except.ok.injEq] at ok
  obtain ⟨_, unset, schema, initialized, rfl⟩ := ok
  rw [fresh unset] at initialized
  obtain ⟨-, rfl⟩ := appendHistory_eq_ok.mp initialized
  exact ⟨rfl, rfl⟩

/-- The other calls leave the schema alone. -/
theorem schema_kept (ok : exec e s c = .ok (v, s')) (other : ¬ c.migrates) :
    s'.schema = s.schema := by
  cases exec_effect ok with
  | initializeContract | rollbackSchema => exact absurd trivial other
  | migrated version config schema call =>
    rcases call with rfl | ⟨target, rfl⟩
    · exact absurd trivial other
    · exact absurd trivial other
  | _ => rfl

/-- Once there is an admin, there always is one. -/
theorem wallet_kept (ok : exec e s c = .ok (v, s')) (unset : s'.protocolWallet = none) :
    s.protocolWallet = none := by
  cases exec_effect ok with
  | initializeContract | acceptAdmin => cases unset
  | _ => exact unset

theorem config_kept (ok : exec e s c = .ok (v, s')) (migrates : c.migrates) :
    getTimelockConfig s' = getTimelockConfig s := by
  cases exec_effect ok with
  | initializeContract | rollbackSchema => rfl
  | migrated version config schema call same => exact same
  | @edit c talosId t t' edits =>
    cases c with
    | initializeContract | runMigrations | runMigrationsTo | rollbackSchema => cases edits
    | _ => cases migrates
  | _ => cases migrates

/-! ### Every reachable registry -/

/-- No migration is in progress, and the version is at most the latest. -/
structure Settled (s : Storage) : Prop where
  unlocked : isLocked s.schema = false
  bounded : schemaVersion s ≤ schemaLatest
  fresh : s.protocolWallet = none → s.schema = .empty

theorem Settled.migration {target version : Nat} (old : Settled s)
    (configured : s'.protocolWallet ≠ none) (migration : Migration e s target version s') :
    Settled s' := by
  cases migration with
  | upToDate | noStep => exact old
  | step => exact ⟨rfl, Nat.le_refl _, fun unset => absurd unset configured⟩

theorem Settled.step (old : Settled s) (ok : exec e s c = .ok (v, s')) : Settled s' := by
  cases c with
  | initializeContract wallet =>
    obtain ⟨accepted, -⟩ := silent_eq_ok.mp ok
    obtain ⟨isSet, schema⟩ := initializeContract_genesis accepted old.fresh
    refine ⟨by rw [schema]; rfl, ?_, fun unset => nomatch isSet.symm.trans unset⟩
    rw [schemaVersion, schema]
    exact Nat.le_succ schemaGenesis
  | runMigrations =>
    obtain ⟨version, accepted, -⟩ := returning_eq_ok.mp ok
    obtain ⟨configured, migration⟩ := runMigrationsTo_migration accepted
    exact old.migration (mt (wallet_kept ok) configured) migration
  | runMigrationsTo target =>
    obtain ⟨version, accepted, -⟩ := returning_eq_ok.mp ok
    obtain ⟨configured, migration⟩ := runMigrationsTo_migration accepted
    exact old.migration (mt (wallet_kept ok) configured) migration
  | rollbackSchema target =>
    obtain ⟨accepted, -⟩ := silent_eq_ok.mp ok
    obtain ⟨configured, below, rfl⟩ := rollbackSchema_moved accepted
    exact ⟨old.unlocked, Nat.le_trans (Nat.le_of_lt below) old.bounded,
      fun unset => absurd unset configured⟩
  | _ =>
    have same := schema_kept ok not_false
    refine ⟨same ▸ old.unlocked, ?_, fun unset => same.trans (old.fresh (wallet_kept ok unset))⟩
    rw [schemaVersion, same]
    exact old.bounded

theorem settled_of_reachable (reach : Reachable contract s) : Settled s :=
  reach.invariant ⟨rfl, Nat.le_succ schemaGenesis, fun _ => rfl⟩ fun old ok => old.step ok

/-! ### Reaching the latest version -/

/-- A migration signed by the admin is accepted unless it has a step to take
that the history has no room for. -/
theorem runMigrations_accepted {admin : Address} (settled : Settled s)
    (isAdmin : s.protocolWallet = some admin) (signed : e.auth admin = true)
    (room : schemaVersion s = schemaGenesis → migrationHistoryLen s.schema < u32Max) :
    ∃ version s', runMigrations e s = .ok (version, s') := by
  have isAdmin : requireAdmin e s = .ok admin := requireAdmin_eq_ok.mpr ⟨isAdmin, signed⟩
  have forward : ¬ schemaLatest < schemaVersion s := Nat.not_lt.mpr settled.bounded
  by_cases genesis : schemaVersion s = 1
  · have current : s.schema.schemaVersion.getD 1 = 1 := genesis ▸ schemaVersion_getD s
    have began : beginMigration s.schema 1 1 2 = .ok { s.schema with migrationLock := some true } :=
      beginMigration_eq_ok.mpr ⟨current, Nat.lt_succ_self 1, rfl, settled.unlocked, rfl⟩
    have completed : (completeMigration e { s.schema with migrationLock := some true } 1 2 :
        Result Store) = .ok (s.migrated e).schema :=
      completeMigration_eq_ok.mpr ⟨current, rfl, Nat.lt_succ_self 1, room genesis, rfl⟩
    refine ⟨schemaLatest, s.migrated e, ?_⟩
    simp [runMigrations, runMigrationsTo, isAdmin, rejectIf, genesis, began, completed,
      schemaLatest, schemaGenesis, schemaTimelockDefaults]
    rfl
  · refine ⟨schemaVersion s, s, ?_⟩
    simp [runMigrations, runMigrationsTo, isAdmin, rejectIf, forward, schemaGenesis, genesis]

/-- A migration to the latest version signed by the admin gets there, and one to
any version gets exactly there; no call on the schema changes the timelock. -/
structure ReachesLatest (s : Storage) : Prop where
  latest : ∀ e admin, s.protocolWallet = some admin → e.auth admin = true →
    ∃ v s', exec e s .runMigrations = .ok (v, s') ∧ schemaVersion s' = schemaLatest ∧
      isLocked s'.schema = false
  exact : ∀ e target v s', exec e s (.runMigrationsTo target) = .ok (v, s') →
    schemaVersion s' = target
  config : ∀ e c v s', c.migrates → exec e s c = .ok (v, s') →
    getTimelockConfig s' = getTimelockConfig s

theorem Settled.reachesLatest (settled : Settled s) (supported : schemaVersion s ≠ 0)
    (room : schemaVersion s = schemaGenesis → migrationHistoryLen s.schema < u32Max) :
    ReachesLatest s where
  latest e admin isAdmin signed := by
    obtain ⟨version, s', ran⟩ := runMigrations_accepted settled isAdmin signed room
    have ok : exec e s .runMigrations = .ok (.version version, s') :=
      returning_eq_ok.mpr ⟨version, ran, rfl⟩
    refine ⟨.version version, s', ok, ?_, (settled.step ok).unlocked⟩
    cases (runMigrationsTo_migration ran).2 with
    | upToDate same => exact same
    | step => rfl
    | noStep below => exact absurd (Nat.lt_one_iff.mp below) supported
  exact e target v s' ok := by
    obtain ⟨version, ran, -⟩ := returning_eq_ok.mp ok
    cases (runMigrationsTo_migration ran).2 with
    | upToDate same => exact same
    | step genesis latest => exact latest.symm
    | noStep below => exact absurd (Nat.lt_one_iff.mp below) supported
  config _ _ _ _ migrates ok := config_kept ok migrates

/-- A reachable registry can be migrated exactly when its version has not been
rolled back below 1 and the history has room for the step it still needs. -/
theorem reachesLatest_iff (reach : Reachable contract s) : ReachesLatest s ↔
    schemaVersion s ≠ 0 ∧
      (schemaVersion s = schemaGenesis → migrationHistoryLen s.schema < u32Max) := by
  have settled := settled_of_reachable reach
  refine ⟨fun reaches => ?_, fun able => settled.reachesLatest able.1 able.2⟩
  cases wallet : s.protocolWallet with
  | none =>
    -- nothing has happened to the schema yet
    rw [schemaVersion, settled.fresh wallet]
    exact ⟨nofun, fun _ => by decide⟩
  | some admin =>
    obtain ⟨v, s', ok, latest, -⟩ := reaches.latest ⟨0, 0, fun _ => true, ⟨[]⟩⟩ admin wallet rfl
    obtain ⟨version, ran, -⟩ := returning_eq_ok.mp ok
    cases (runMigrationsTo_migration ran).2 with
    | upToDate same =>
      rw [same]
      exact ⟨nofun, nofun⟩
    | step genesis isLatest can =>
      rw [genesis]
      exact ⟨nofun, fun _ => can.2⟩
    | noStep below =>
      rw [latest] at below
      cases below with
      | step below => cases below

/-- The registry after calls that its admin signs, from deployment. -/
def administered (calls : List Call) : Storage :=
  contract.submitAll (calls.map fun call => (⟨0, 0, fun _ => true, ⟨[]⟩⟩, call)) contract.init

theorem reachesLatest_iff_rolledBackOnce :
    ReachesLatest (administered [.initializeContract ⟨0⟩, .runMigrations, .rollbackSchema 1]) :=
  (reachesLatest_iff (Reachable.init.submitAll _)).mpr ⟨by decide, fun _ => by decide⟩

/-- Rolled back to version 0, migrations succeed and the version stays 0. -/
theorem rolledBackTwice_stuck :
    let s := administered
      [.initializeContract ⟨0⟩, .runMigrations, .rollbackSchema 1, .rollbackSchema 0]
    Reachable contract s ∧ s.protocolWallet = some ⟨0⟩ ∧
    (∃ s', exec ⟨0, 0, fun _ => true, ⟨[]⟩⟩ s .runMigrations = .ok (.version 0, s') ∧
      schemaVersion s' ≠ schemaLatest) ∧
    ∃ s', exec ⟨0, 0, fun _ => true, ⟨[]⟩⟩ s (.runMigrationsTo 1) = .ok (.version 0, s') ∧
      schemaVersion s' ≠ 1 :=
  ⟨Reachable.init.submitAll _, rfl, ⟨_, rfl, by decide⟩, ⟨_, rfl, by decide⟩⟩

end Talos.Registry
