import Talos.StorageMigration.History

/-!
# Dry runs

`dry_run` answers what `begin_migration` would, and `dry_run_to` what a plan of single steps up to
a target would. Both read the store only. The plan also appends a record for each step, and the
number of records is a `u32`.
-/

namespace Talos.StorageMigration

open Talos.Soroban

variable {R E : Type} {s s' : Store} {current fromVersion toVersion version target maxSupported n : Nat}

structure MigrationDryRun where
  currentVersion : Nat
  targetVersion : Nat
  steps : Nat
  upToDate : Bool
  locked : Bool
  applicable : Bool
  errorCode : Option Nat
deriving DecidableEq, Repr

def MigrationError.code : MigrationError → Nat
  | .notForward => 1
  | .outOfOrder => 2
  | .migrationInProgress => 3
  | .rollbackNotAllowed => 4
  | .rollbackTooDeep => 5
  | .targetExceedsMax => 6

def MigrationError.fromCode : Nat → Option MigrationError
  | 1 => some .notForward
  | 2 => some .outOfOrder
  | 3 => some .migrationInProgress
  | 4 => some .rollbackNotAllowed
  | 5 => some .rollbackTooDeep
  | 6 => some .targetExceedsMax
  | _ => none

@[simp] theorem MigrationError.fromCode_code (err : MigrationError) : fromCode err.code = some err := by
  cases err <;> rfl

def MigrationDryRun.error (d : MigrationDryRun) : Option MigrationError :=
  match d.errorCode with
  | some code => MigrationError.fromCode code
  | none => none

def validateMigrationTarget (current target maxSupported : Nat) : Except MigrationError Unit :=
  if target < current then .error .notForward
  else if target > maxSupported then .error .targetExceedsMax
  else .ok ()

/-- What both dry runs make of a validated plan. -/
def planError (valid : Except MigrationError Unit) (locked : Bool) : Option MigrationError :=
  match valid with
  | .error err => some err
  | .ok () => if locked then some .migrationInProgress else none

def dryRun (s : Store) (current fromVersion toVersion : Nat) : MigrationDryRun :=
  let storedCurrent := s.schemaVersion.getD current
  let locked := isLocked s
  if storedCurrent ≠ current then
    ⟨storedCurrent, toVersion, 0, false, locked, false, some MigrationError.outOfOrder.code⟩
  else if storedCurrent = toVersion then
    ⟨storedCurrent, toVersion, 0, true, locked, true, none⟩
  else
    let error := planError (validateForwardStep storedCurrent fromVersion toVersion) locked
    ⟨storedCurrent, toVersion, 1, false, locked, error.isNone, error.map (·.code)⟩

def dryRunTo (s : Store) (current target maxSupported : Nat) : MigrationDryRun :=
  let storedCurrent := s.schemaVersion.getD current
  let locked := isLocked s
  if storedCurrent ≠ current then
    ⟨storedCurrent, target, 0, false, locked, false, some MigrationError.outOfOrder.code⟩
  else if storedCurrent = target then
    ⟨storedCurrent, target, 0, true, locked, true, none⟩
  else
    let error := planError (validateMigrationTarget storedCurrent target maxSupported) locked
    ⟨storedCurrent, target, if error.isNone then target - storedCurrent else 0, false, locked,
      error.isNone, error.map (·.code)⟩

/-- `n` migrations by one version each, begun and completed one after the other, `current` being
what the caller takes for the stored version. Each is completed in a ledger of its own. -/
def applySteps (e : Nat → Env R) (s : Store) (current version : Nat) :
    Nat → Outcome MigrationError Store
  | 0 => .ok s
  | n + 1 => do
    let begun ← (beginMigration s current version (version + 1)).mapError .error
    let completed ← completeMigration (e n) begun version (version + 1)
    applySteps e completed (version + 1) (version + 1) n

/-! ### One step -/

/-- The dry run of a step that is not up to date says what beginning it does. -/
def PredictsBegin (s : Store) (current fromVersion toVersion : Nat) : Prop :=
  toVersion ≠ s.schemaVersion.getD current →
    ((dryRun s current fromVersion toVersion).applicable = true ↔
      ∃ s', beginMigration s current fromVersion toVersion = .ok s') ∧
    ∀ err, beginMigration s current fromVersion toVersion = .error err →
      (dryRun s current fromVersion toVersion).error = some err

theorem predictsBegin (s : Store) (current fromVersion toVersion : Nat) :
    PredictsBegin s current fromVersion toVersion := by
  intro ahead
  by_cases agrees : s.schemaVersion.getD current = current
  · rw [agrees] at ahead
    cases valid : validateForwardStep current fromVersion toVersion with
    | error err =>
      simp [dryRun, beginMigration, agrees, ahead.symm, valid, planError, MigrationDryRun.error]
    | ok u =>
      cases locked : isLocked s with
      | true =>
        simp [dryRun, beginMigration, agrees, ahead.symm, valid, locked, planError,
          MigrationDryRun.error]
      | false => simp [dryRun, beginMigration, agrees, ahead.symm, valid, locked, planError]
  · simp [dryRun, beginMigration, agrees, MigrationDryRun.error]

/-! ### Plans -/

theorem validateMigrationTarget_eq_ok {u : Unit} :
    validateMigrationTarget current target maxSupported = .ok u ↔
      current ≤ target ∧ target ≤ maxSupported := by
  unfold validateMigrationTarget
  split
  · next below => exact iff_of_false nofun fun within => Nat.not_le.mpr below within.1
  · next reaches =>
    split
    · next beyond => exact iff_of_false nofun fun within => Nat.not_le.mpr beyond within.2
    · next within => exact iff_of_true rfl ⟨Nat.not_lt.mp reaches, Nat.not_lt.mp within⟩

theorem planError_eq_none {valid : Except MigrationError Unit} {locked : Bool} :
    planError valid locked = none ↔ valid = .ok () ∧ locked = false := by
  rcases valid with err | u
  · simp [planError]
  · cases locked <;> simp [planError]

/-- The plan to the target is one that `dry_run_to` offers. -/
structure Offered (s : Store) (current target maxSupported : Nat) : Prop where
  agrees : s.schemaVersion.getD current = current
  ahead : current < target
  supported : target ≤ maxSupported
  unlocked : isLocked s = false

theorem dryRunTo_applicable : ((dryRunTo s current target maxSupported).applicable = true ∧
      (dryRunTo s current target maxSupported).steps = n ∧ 0 < n) ↔
    Offered s current target maxSupported ∧ n = target - current := by
  by_cases agrees : s.schemaVersion.getD current = current
  · by_cases same : current = target
    · have idle : ¬ Offered s current target maxSupported := fun offered =>
        Nat.ne_of_lt offered.ahead same
      simp only [dryRunTo, agrees, ne_eq, not_true_eq_false, if_false, if_pos same, idle, false_and,
        iff_false, true_and]
      rintro ⟨rfl, positive⟩
      exact Nat.lt_irrefl 0 positive
    · simp only [dryRunTo, agrees, ne_eq, not_true_eq_false, if_false, if_neg same]
      by_cases offered : planError (validateMigrationTarget current target maxSupported)
          (isLocked s) = none
      · obtain ⟨valid, unlocked⟩ := planError_eq_none.mp offered
        obtain ⟨reaches, supported⟩ := validateMigrationTarget_eq_ok.mp valid
        have ahead : current < target := Nat.lt_of_le_of_ne reaches same
        simp only [offered, Option.isNone_none, if_true, true_and]
        constructor
        · rintro ⟨rfl, -⟩
          exact ⟨⟨agrees, ahead, supported, unlocked⟩, rfl⟩
        · rintro ⟨-, rfl⟩
          exact ⟨rfl, Nat.sub_pos_of_lt ahead⟩
      · have rejected : ¬ Offered s current target maxSupported := by
          intro plan
          apply offered
          exact planError_eq_none.mpr ⟨validateMigrationTarget_eq_ok.mpr
            ⟨Nat.le_of_lt plan.ahead, plan.supported⟩, plan.unlocked⟩
        simp [Option.isNone_iff_eq_none, offered, rejected]
  · have rejected : ¬ Offered s current target maxSupported := fun offered => agrees offered.agrees
    simp [dryRunTo, agrees, rejected]

/-- The store after one step of a plan. -/
def Store.stepped (s : Store) (version appliedAt : Nat) : Store :=
  s.moved (some false) ⟨version, version + 1, appliedAt, false⟩

theorem applySteps_succ {e : Nat → Env R} : applySteps e s current version (n + 1) = .ok s' ↔
    (s.schemaVersion.getD current = current ∧ current = version ∧ isLocked s = false ∧
      migrationHistoryLen s < u32Max) ∧
    applySteps e (s.stepped version (e n).timestamp) (version + 1) (version + 1) n = .ok s' := by
  simp only [applySteps, bind_eq_ok, mapError_eq_ok, beginMigration_eq_ok, completeMigration_eq_ok]
  constructor
  · rintro ⟨begun, ⟨agrees, -, rfl, unlocked, rfl⟩, completed, ⟨-, -, -, room, rfl⟩, rest⟩
    exact ⟨⟨agrees, rfl, unlocked, room⟩, rest⟩
  · rintro ⟨⟨agrees, rfl, unlocked, room⟩, rest⟩
    exact ⟨_, ⟨agrees, Nat.lt_succ_self _, rfl, unlocked, rfl⟩, _,
      ⟨agrees, rfl, Nat.lt_succ_self _, room, rfl⟩, rest⟩

/-- From the version just stored, with the lock released, only the records can run out. -/
theorem applySteps_stored {e : Nat → Env R} (stored : s.schemaVersion = some version)
    (unlocked : isLocked s = false) : (∃ s', applySteps e s version version n = .ok s') ↔
      n = 0 ∨ migrationHistoryLen s + n ≤ u32Max := by
  induction n generalizing s version with
  | zero => simp [applySteps]
  | succ n ih =>
    have agrees : s.schemaVersion.getD version = version := by
      rw [stored]
      rfl
    have length : migrationHistoryLen (s.stepped version (e n).timestamp) =
        migrationHistoryLen s + 1 := rfl
    simp only [applySteps_succ, exists_and_left, ih (s := s.stepped version (e n).timestamp) rfl rfl,
      length, agrees, unlocked, true_and]
    omega

/-- What a plan from the stored version needs. -/
theorem applySteps_accepted {e : Nat → Env R} (positive : 0 < n) :
    (∃ s', applySteps e s current (s.schemaVersion.getD current) n = .ok s') ↔
      s.schemaVersion.getD current = current ∧ isLocked s = false ∧
        migrationHistoryLen s + n ≤ u32Max := by
  obtain ⟨n, rfl⟩ := Nat.exists_eq_succ_of_ne_zero (Nat.ne_of_gt positive)
  have length (version : Nat) : migrationHistoryLen (s.stepped version (e n).timestamp) =
      migrationHistoryLen s + 1 := rfl
  simp only [Nat.succ_eq_add_one, applySteps_succ, exists_and_left,
    applySteps_stored (s := s.stepped _ (e n).timestamp) rfl rfl, length]
  constructor
  · rintro ⟨⟨agrees, -, unlocked, room⟩, rest⟩
    exact ⟨agrees, unlocked, by omega⟩
  · rintro ⟨agrees, unlocked, fits⟩
    exact ⟨⟨agrees, agrees.symm, unlocked, by omega⟩, by omega⟩

/-- The dry run offers exactly the plans whose steps all succeed. -/
def PredictsSteps (e : Nat → Env R) (s : Store) (current target maxSupported : Nat) : Prop :=
  ∀ n, ((dryRunTo s current target maxSupported).applicable = true ∧
      (dryRunTo s current target maxSupported).steps = n ∧ 0 < n) ↔
    0 < n ∧ target = s.schemaVersion.getD current + n ∧ target ≤ maxSupported ∧
      ∃ s', applySteps e s current (s.schemaVersion.getD current) n = .ok s'

/-- The history has room for the records of the plan. -/
def RoomFor (s : Store) (current target : Nat) : Prop :=
  migrationHistoryLen s + (target - current) ≤ u32Max

theorem predictsSteps_iff (e : Nat → Env R) : PredictsSteps e s current target maxSupported ↔
    (Offered s current target maxSupported → RoomFor s current target) := by
  constructor
  · intro predicts offered
    have positive : 0 < target - current := Nat.sub_pos_of_lt offered.ahead
    obtain ⟨-, -, -, steps⟩ := (predicts (target - current)).mp
      (dryRunTo_applicable.mpr ⟨offered, rfl⟩)
    exact ((applySteps_accepted positive).mp steps).2.2
  · intro room n
    rw [dryRunTo_applicable]
    constructor
    · rintro ⟨offered, rfl⟩
      have positive : 0 < target - current := Nat.sub_pos_of_lt offered.ahead
      refine ⟨positive, ?_, offered.supported, (applySteps_accepted positive).mpr
        ⟨offered.agrees, offered.unlocked, room offered⟩⟩
      rw [offered.agrees]
      exact (Nat.add_sub_cancel' (Nat.le_of_lt offered.ahead)).symm
    · rintro ⟨positive, target_eq, supported, steps⟩
      obtain ⟨agrees, unlocked, -⟩ := (applySteps_accepted positive).mp steps
      rw [agrees] at target_eq
      exact ⟨⟨agrees, by omega, supported, unlocked⟩, by omega⟩

/-- The dry runs predict the calls, unless a plan that is offered needs more records than there is
room for. -/
theorem dry_run_predicts_iff (e : Nat → Env R) (s : Store)
    (current fromVersion toVersion target maxSupported : Nat) :
    PredictsBegin s current fromVersion toVersion ∧
        PredictsSteps e s current target maxSupported ↔
      (Offered s current target maxSupported → RoomFor s current target) := by
  constructor
  · exact fun predicts => (predictsSteps_iff e).mp predicts.2
  · exact fun room => ⟨predictsBegin s current fromVersion toVersion, (predictsSteps_iff e).mpr room⟩

/-- Genesis is version 0. -/
def genesisStore : Store := (played [.initializeSchema 0]).2

/-- From version 0 the dry run offers a plan up to the highest version, of which the last step
cannot be recorded. -/
theorem last_step_unrecorded : Reachable contract genesisStore ∧
    ∀ e : Nat → Env Unit, ¬ PredictsSteps e genesisStore 0 u32Max u32Max := by
  refine ⟨⟨_, played_run _⟩, fun e predicts => ?_⟩
  have offered : Offered genesisStore 0 u32Max u32Max := ⟨rfl, by decide, Nat.le_refl _, rfl⟩
  have room : RoomFor genesisStore 0 u32Max := (predictsSteps_iff e).mp predicts offered
  exact absurd (show 1 + (u32Max - 0) ≤ u32Max from room) (by decide)

end Talos.StorageMigration
