import Mathlib.Data.Int.Notation

/-!
# The finality state machine

The pure transitions of a tracked transaction. A `TxRecord` is followed from the
ledger it was submitted in until it is settled; what the caller persists is the
`TxRecordUpdate` that `computeTransition` proposes. Ledger numbers are sequence
numbers, times are in milliseconds.
-/

namespace Talos.Reconciler

abbrev RecordId := Nat

inductive FinalityStatus where
  | pending
  | confirming
  | confirmed
  | failed
  | expired
  | notFound
  deriving DecidableEq

def FinalityStatus.name : FinalityStatus → String
  | .pending => "PENDING"
  | .confirming => "CONFIRMING"
  | .confirmed => "CONFIRMED"
  | .failed => "FAILED"
  | .expired => "EXPIRED"
  | .notFound => "NOT_FOUND"

/-- `ACTIVE_STATES`. -/
def activeStates : List FinalityStatus := [.pending, .confirming]

/-- `TERMINAL_STATES`. -/
def terminalStates : List FinalityStatus := [.confirmed, .failed, .expired, .notFound]

inductive TxSourceType where
  | commerceJob
  | tokenPurchase
  | other
  deriving DecidableEq

/-- A row of `tls_stellar_tx_records`. -/
structure TxRecord where
  id : RecordId
  txHash : String
  sourceType : TxSourceType
  sourceId : Option String
  finalityStatus : FinalityStatus
  ledgerSubmitted : Option Int
  lastLedgerChecked : Option Int
  confirmedLedger : Option Int
  pollCount : Nat
  lastError : Option String
  repairApplied : Bool
  expiresAt : Option Int
  updatedAt : Int
  deriving DecidableEq

/-- A field left out is `none`. -/
structure TxRecordUpdate where
  finalityStatus : Option FinalityStatus := none
  lastLedgerChecked : Option Int := none
  confirmedLedger : Option Int := none
  pollCount : Option Nat := none
  lastError : Option (Option String) := none
  updatedAt : Option Int := none
  deriving DecidableEq

inductive HorizonPollResult where
  | confirmed (ledger : Int)
  | failed (ledger : Int) (detail : Option String)
  | notFound
  | error (message : String)
  deriving DecidableEq

structure ReconcilerConfig where
  maxLedgerGap : Nat
  notFoundThreshold : Nat
  batchSize : Nat
  confirmationDepth : Nat
  concurrencyLimit : Option Nat

/-! ### Transitions -/

def isTerminal (record : TxRecord) : Bool := record.finalityStatus ∈ terminalStates

def isActive (record : TxRecord) : Bool := record.finalityStatus ∈ activeStates

def isWallClockExpired (record : TxRecord) (now : Int) : Bool :=
  match record.expiresAt with
  | none => false
  | some expiresAt => now ≥ expiresAt

def isLedgerExpired (record : TxRecord) (currentLedger : Int) (maxLedgerGap : Nat) : Bool :=
  match record.ledgerSubmitted with
  | none => false
  | some ledgerSubmitted =>
      -- A submission ledger of zero counts as unknown.
      ledgerSubmitted ≠ 0 ∧ currentLedger > ledgerSubmitted + maxLedgerGap

def ledgerGapError (record : TxRecord) (currentLedger : Int) (maxLedgerGap : Nat) : String :=
  "Ledger gap exceeded: current=" ++ toString currentLedger ++ ", submitted=" ++
    (record.ledgerSubmitted.elim "null" toString) ++ ", max=" ++ toString maxLedgerGap

def transitionFromPending (record : TxRecord) (pollResult : HorizonPollResult)
    (currentLedger : Int) (config : ReconcilerConfig) (now : Int) : Option TxRecordUpdate :=
  if record.finalityStatus ≠ .pending then none
  else if isWallClockExpired record now then
    some
      { finalityStatus := some .expired
        lastLedgerChecked := some currentLedger
        lastError := some (some "Wall-clock expiry exceeded")
        pollCount := some (record.pollCount + 1)
        updatedAt := some now }
  else if isLedgerExpired record currentLedger config.maxLedgerGap then
    some
      { finalityStatus := some .expired
        lastLedgerChecked := some currentLedger
        lastError := some (some (ledgerGapError record currentLedger config.maxLedgerGap))
        pollCount := some (record.pollCount + 1)
        updatedAt := some now }
  else
    match pollResult with
    | .confirmed ledger => some
        { finalityStatus := some .confirming
          lastLedgerChecked := some currentLedger
          confirmedLedger := some ledger
          lastError := some none
          pollCount := some (record.pollCount + 1)
          updatedAt := some now }
    | .failed ledger detail => some
        { finalityStatus := some .failed
          lastLedgerChecked := some currentLedger
          confirmedLedger := some ledger
          lastError := some (some (detail.getD "Transaction unsuccessful on-chain"))
          pollCount := some (record.pollCount + 1)
          updatedAt := some now }
    | .notFound =>
        let newPollCount := record.pollCount + 1
        if newPollCount ≥ config.notFoundThreshold then
          some
            { finalityStatus := some .notFound
              lastLedgerChecked := some currentLedger
              lastError := some (some ("NOT_FOUND after " ++ toString newPollCount ++ " polls"))
              pollCount := some newPollCount
              updatedAt := some now }
        else
          some
            { lastLedgerChecked := some currentLedger
              pollCount := some newPollCount
              updatedAt := some now }
    | .error message => some
        { lastLedgerChecked := some currentLedger
          lastError := some (some message)
          pollCount := some (record.pollCount + 1)
          updatedAt := some now }

def transitionFromConfirming (record : TxRecord) (currentLedger : Int)
    (config : ReconcilerConfig) (now : Int) : Option TxRecordUpdate :=
  if record.finalityStatus ≠ .confirming then none
  else if isWallClockExpired record now then
    some
      { finalityStatus := some .expired
        lastLedgerChecked := some currentLedger
        lastError := some (some "Confirmation window expired (wall-clock)")
        updatedAt := some now }
  else if record.ledgerSubmitted.any (· ≠ 0) &&
      isLedgerExpired record currentLedger config.maxLedgerGap then
    some
      { finalityStatus := some .expired
        lastLedgerChecked := some currentLedger
        lastError := some (some
          ("Confirmation ledger gap exceeded: current=" ++ toString currentLedger))
        updatedAt := some now }
  else if record.confirmedLedger.any (currentLedger ≥ · + config.confirmationDepth) then
    some
      { finalityStatus := some .confirmed
        lastLedgerChecked := some currentLedger
        lastError := some none
        updatedAt := some now }
  else
    some { lastLedgerChecked := some currentLedger, updatedAt := some now }

def computeTransition (record : TxRecord) (pollResult : Option HorizonPollResult)
    (currentLedger : Int) (config : ReconcilerConfig) (now : Int) : Option TxRecordUpdate :=
  if isTerminal record then none
  else
    match record.finalityStatus with
    | .pending =>
        match pollResult with
        | none => none
        | some pollResult => transitionFromPending record pollResult currentLedger config now
    | .confirming => transitionFromConfirming record currentLedger config now
    | _ => none

/-- The repair of the originating row is due. -/
def needsRepair (record : TxRecord) : Bool := !record.repairApplied && isTerminal record

/-! ### Validation -/

/-- `ALLOWED`. -/
def allowed : FinalityStatus → List FinalityStatus
  | .pending => [.confirming, .failed, .expired, .notFound]
  | .confirming => [.confirmed, .failed, .expired]
  | .confirmed => []
  | .failed => []
  | .expired => []
  | .notFound => []

/-- The text of the error, or `none` for a legal transition. -/
def validateTransition (old new : FinalityStatus) : Option String :=
  if old = new then none
  else if old ∈ terminalStates then
    some ("Illegal transition: cannot leave terminal state \"" ++ old.name ++ "\"")
  else if new ∉ allowed old then
    some ("Illegal transition: \"" ++ old.name ++ "\" → \"" ++ new.name ++ "\"")
  else none

theorem isActive_iff (record : TxRecord) : isActive record = true ↔ isTerminal record = false := by
  cases status : record.finalityStatus <;> simp [isActive, isTerminal, status, activeStates,
    terminalStates]

theorem validateTransition_eq_none {old new : FinalityStatus} :
    validateTransition old new = none ↔ old = new ∨ new ∈ allowed old := by
  cases old <;> cases new <;> decide

theorem transitionFromPending_allowed {record : TxRecord} {pollResult : HorizonPollResult}
    {currentLedger now : Int} {config : ReconcilerConfig} {update : TxRecordUpdate}
    {next : FinalityStatus}
    (proposed : transitionFromPending record pollResult currentLedger config now = some update)
    (status : update.finalityStatus = some next) : next ∈ allowed .pending := by
  unfold transitionFromPending at proposed
  split at proposed
  · cases proposed
  · split at proposed
    · cases proposed
      cases status
      decide
    · split at proposed
      · cases proposed
        cases status
        decide
      · cases pollResult with
        | confirmed | failed =>
            cases proposed
            cases status
            decide
        | notFound =>
            dsimp only at proposed
            split at proposed
            · cases proposed
              cases status
              decide
            · cases proposed
              cases status
        | error =>
            cases proposed
            cases status

theorem transitionFromConfirming_allowed {record : TxRecord} {currentLedger now : Int}
    {config : ReconcilerConfig} {update : TxRecordUpdate} {next : FinalityStatus}
    (proposed : transitionFromConfirming record currentLedger config now = some update)
    (status : update.finalityStatus = some next) : next ∈ allowed .confirming := by
  unfold transitionFromConfirming at proposed
  repeat' split at proposed
  all_goals cases proposed
  all_goals cases status
  all_goals decide

/-- The validation before a write never refuses a transition that the machine
proposes: it compares the proposal with the record it was computed from. -/
theorem computeTransition_allowed {record : TxRecord} {pollResult : Option HorizonPollResult}
    {currentLedger now : Int} {config : ReconcilerConfig} {update : TxRecordUpdate}
    {next : FinalityStatus}
    (proposed : computeTransition record pollResult currentLedger config now = some update)
    (status : update.finalityStatus = some next) : next ∈ allowed record.finalityStatus := by
  unfold computeTransition at proposed
  split at proposed
  · cases proposed
  · split at proposed
    · next pending =>
        rw [pending]
        cases pollResult with
        | none => cases proposed
        | some pollResult => exact transitionFromPending_allowed proposed status
    · next confirming =>
        rw [confirming]
        exact transitionFromConfirming_allowed proposed status
    · cases proposed

end Talos.Reconciler
