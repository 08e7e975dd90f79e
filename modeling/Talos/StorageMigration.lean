import Talos.Soroban.Contract

/-!
# storage_migration

Versioned schema migrations (`contracts/storage_migration`): a version pointer,
a lock held while a migration runs, and an append-only history log. A function
returning `Result<_, MigrationError>` is an `Except MigrationError`; the panics of
`completeMigration` are traps.
-/

namespace Talos.StorageMigration

open Talos.Soroban

variable {R E : Type}

inductive MigrationError where
  | notForward
  | outOfOrder
  | migrationInProgress
  | rollbackNotAllowed
  | rollbackTooDeep
  | targetExceedsMax
deriving DecidableEq, Repr

structure MigrationRecord where
  fromVersion : Nat
  toVersion : Nat
  appliedAt : Nat
  rolledBack : Bool
deriving DecidableEq, Repr

/-- The keys of `MigrationKey`. -/
structure Store where
  schemaVersion : Option Nat
  migrationLock : Option Bool
  historyLen : Option Nat
  history : Map Nat MigrationRecord

def Store.empty : Store := ⟨none, none, none, .empty⟩

def migrationHistoryLen (s : Store) : Nat := s.historyLen.getD 0

def migrationRecordAt (s : Store) (index : Nat) : Option MigrationRecord := s.history index

def appendHistory (e : Env R) (s : Store) (fromVersion toVersion : Nat) (rolledBack : Bool) :
    Outcome E Store := do
  let len := s.historyLen.getD 0
  let len' ← addU32 len 1
  .ok { s with
    history := s.history.set len ⟨fromVersion, toVersion, e.timestamp, rolledBack⟩
    historyLen := some len' }

def isLocked (s : Store) : Bool := s.migrationLock.getD false

def validateForwardStep (current fromVersion toVersion : Nat) : Except MigrationError Unit :=
  if toVersion ≤ fromVersion then .error .notForward
  else if current ≠ fromVersion then .error .outOfOrder
  else .ok ()

def validateRollback (current target maxDepth : Nat) : Except MigrationError Unit :=
  if target ≥ current then .error .rollbackNotAllowed
  else if current - target > maxDepth then .error .rollbackTooDeep
  else .ok ()

/-- Idempotent: an existing version is preserved. -/
def initializeSchema (e : Env R) (s : Store) (genesis : Nat) : Outcome E Store :=
  if s.schemaVersion.isNone then
    appendHistory e { s with schemaVersion := some genesis } genesis genesis false
  else .ok s

/-- The stored version is authoritative; `current` is only the baseline of a
contract that has none. -/
def beginMigration (s : Store) (current fromVersion toVersion : Nat) :
    Except MigrationError Store := do
  let storedCurrent := s.schemaVersion.getD current
  if storedCurrent ≠ current then .error .outOfOrder
  else
    validateForwardStep storedCurrent fromVersion toVersion
    if isLocked s then .error .migrationInProgress
    else .ok { s with migrationLock := some true }

def completeMigration (e : Env R) (s : Store) (fromVersion toVersion : Nat) :
    Outcome E Store := do
  let current := s.schemaVersion.getD fromVersion
  rejectIf (current ≠ fromVersion) (.panic "Migration completion version mismatch")
  rejectIf (isLocked s = false) (.panic "No migration is currently in progress")
  rejectIf (toVersion ≤ fromVersion) (.panic "Migration target must be greater than source")
  appendHistory e { s with schemaVersion := some toVersion, migrationLock := some false }
    fromVersion toVersion false

def abortMigration (s : Store) : Store := { s with migrationLock := some false }

/-- Moves the version pointer only; data written by a migration stays. -/
def rollback (e : Env R) (s : Store) (current target maxDepth : Nat) :
    Outcome E (Except MigrationError Store) := do
  let storedCurrent := s.schemaVersion.getD current
  if storedCurrent ≠ current then .ok (.error .outOfOrder)
  else
    match validateRollback storedCurrent target maxDepth with
    | .error err => .ok (.error err)
    | .ok () =>
      if isLocked s then .ok (.error .migrationInProgress)
      else do
        let s' ← appendHistory e { s with schemaVersion := some target } storedCurrent target true
        .ok (.ok s')

/-! ### Dispatch -/

inductive Call where
  | initializeSchema (genesis : Nat)
  | beginMigration (current fromVersion toVersion : Nat)
  | completeMigration (fromVersion toVersion : Nat)
  | abortMigration
  | rollback (current target maxDepth : Nat)
deriving DecidableEq, Repr

/-- A host contract that exposes the operations one to one; an `Err` they return
rejects the invocation. -/
def exec (e : Env Unit) (s : Store) : Call → Outcome MigrationError (Unit × Store)
  | .initializeSchema genesis => silent () (initializeSchema e s genesis)
  | .beginMigration current fromVersion toVersion =>
    silent () ((beginMigration s current fromVersion toVersion).mapError .error)
  | .completeMigration fromVersion toVersion =>
    silent () (completeMigration e s fromVersion toVersion)
  | .abortMigration => silent () (.ok (abortMigration s))
  | .rollback current target maxDepth =>
    silent () (do (← rollback e s current target maxDepth).mapError .error)

def contract : Contract Unit Store Call Unit MigrationError := ⟨.empty, exec⟩

end Talos.StorageMigration
