import Talos.TtlManager
import Talos.PauseControl
import Talos.AdminControls
import Talos.StorageMigration

/-!
# TalosRegistry

The registry contract (`contracts/talos_registry`): Talos records, protocol
configuration, the admin timelock, guardians and emergency pauses, the asset
allowlist, TTL sweeps and schema migrations. Storage has one field per `DataKey`
family, plus the keys of the helper crates it uses. Soroban strings are their
bytes, which is what every length check of the contract measures. Events are not
part of the storage and are left out.

Two pause records live side by side: `pauseState`, keyed by `PauseDomain`, is
what `pause` writes and `isPaused` reads; `pauseControl`, keyed by number, is
what the guard of a write path reads.
-/

namespace Talos.Registry

open Talos.Soroban Talos.TtlManager Talos.PauseControl Talos.AdminControls Talos.StorageMigration

inductive ContractError where
  | invalidPatronShares
  | talosNotFound
  | metadataFieldTooLong
deriving DecidableEq, Repr

abbrev Bytes := List UInt8

structure Patron where
  creatorShare : Nat
  investorShare : Nat
  treasuryShare : Nat
  creatorAddr : Address
  investorAddr : Address
  treasuryAddr : Address
deriving DecidableEq, Repr

structure Kernel where
  approvalThreshold : Int
  gtmBudget : Int
  minPatronPulse : Int
deriving DecidableEq, Repr

structure Pulse where
  totalSupply : Int
  priceUsdCents : Int
  tokenSymbol : Bytes
deriving DecidableEq, Repr

set_option linter.dupNamespace false in
structure Talos where
  id : Nat
  name : Bytes
  category : Bytes
  description : Bytes
  creator : Address
  patron : Patron
  kernel : Kernel
  pulse : Pulse
  createdAt : Nat
  active : Bool
  metadata : Option Bytes
deriving DecidableEq, Repr

inductive AdminAction where
  | setProtocolFee (feeBps : Nat)
  | proposeAdmin (newAdmin : Address)
deriving DecidableEq, Repr

inductive PauseDomain where
  | talosCreation
  | patronUpdates
  | kernelUpdates
  | pulseUpdates
  | deactivation
  | metadataUpdates
deriving DecidableEq, Repr

structure PauseState where
  pausedBy : Address
  pausedAt : Nat
  /-- `0` means indefinite. -/
  expiresAt : Nat
deriving DecidableEq, Repr

structure PauseInfo where
  active : Bool
  pausedBy : Option Address
  pausedAt : Option Nat
  expiresAt : Option Nat
deriving DecidableEq, Repr

structure Storage where
  nextTalosId : Option Nat
  talos : Map Nat Talos
  creatorOf : Map Nat Address
  protocolWallet : Option Address
  protocolFeeBps : Option Nat
  pendingAdmin : Option Address
  timelockConfig : Option TimelockConfig
  timelockProposal : Map Nat (TimelockProposal AdminAction)
  nextTimelockId : Option Nat
  lastTouched : Map Nat Nat
  guardians : Option (List Address)
  pauseState : Map PauseDomain PauseState
  pauseController : Map Nat Address
  resumeController : Map Nat Address
  allowedAsset : Map Address Bool
  pauseControl : PauseControl.Store
  schema : StorageMigration.Store

def Storage.empty : Storage where
  nextTalosId := none
  talos := .empty
  creatorOf := .empty
  protocolWallet := none
  protocolFeeBps := none
  pendingAdmin := none
  timelockConfig := none
  timelockProposal := .empty
  nextTimelockId := none
  lastTouched := .empty
  guardians := none
  pauseState := .empty
  pauseController := .empty
  resumeController := .empty
  allowedAsset := .empty
  pauseControl := .empty
  schema := .empty

/-- The registry calls no other contract. `remaining` is the list that
`remove_guardian` stores: the source names it without binding it, so every value
of it is allowed here. -/
structure Remote where
  remaining : List Address

abbrev Result (α : Type) := Outcome ContractError α

/-! ### Constants -/

def protocolFeeBpsDefault : Nat := 300

def maxProtocolFeeBps : Nat := 10000

def maxStringLen : Nat := 256

def maxNameBytes : Nat := 64

def maxCategoryBytes : Nat := 32

def maxDescriptionBytes : Nat := 512

def maxTokenSymbolBytes : Nat := 12

def schemaGenesis : Nat := 1

def schemaTimelockDefaults : Nat := 2

def schemaLatest : Nat := schemaTimelockDefaults

def maxRollbackDepth : Nat := 1

def contractVersion : Nat × Nat × Nat := (1, 5, 0)

def interfaceId : Bytes := [
  0x54, 0x61, 0x6C, 0x6F, 0x73, 0x52, 0x65, 0x67,
  0x69, 0x73, 0x74, 0x72, 0x79, 0x00, 0x00, 0x00,
  0x00, 0x00, 0x00, 0x01,
  0x00, 0x00, 0x00, 0x04,
  0x00, 0x00, 0x00, 0x00,
  0x00, 0x00, 0x00, 0x00]

def pauseTalosCreation : Nat := 1

def pauseTalosUpdate : Nat := 2

def pauseTalosDeactivation : Nat := 3

def pauseTalosActivation : Nat := 5

def pauseProtocolConfig : Nat := 4

/-! ### Helpers -/

/-- `creator_share.checked_add(investor_share).and_then(|s| s.checked_add(treasury_share))`. -/
def Patron.shareSum (patron : Patron) : Option Nat :=
  (checkedAddU32 patron.creatorShare patron.investorShare).bind
    (checkedAddU32 · patron.treasuryShare)

def validatePatronShares (patron : Patron) : Result Unit :=
  rejectIf (patron.shareSum ≠ some 100) (.error .invalidPatronShares)

def validateTokenSymbol (tokenSymbol : Bytes) : Result Unit := do
  rejectIf (tokenSymbol.length = 0) (.panic "Token symbol cannot be empty")
  rejectIf (tokenSymbol.length > maxTokenSymbolBytes)
    (.panic "Token symbol exceeds maximum byte length")

def validateTalosMetadata (name category description : Bytes) (pulse : Pulse) : Result Unit := do
  rejectIf (name.length = 0) (.panic "Name cannot be empty")
  rejectIf (name.length > maxNameBytes) (.panic "Name exceeds maximum byte length")
  rejectIf (category.length > maxCategoryBytes) (.panic "Category exceeds maximum byte length")
  rejectIf (description.length > maxDescriptionBytes)
    (.panic "Description exceeds maximum byte length")
  validateTokenSymbol pulse.tokenSymbol

def validateStringInput (input : Bytes) (fieldName : String) : Result Unit :=
  rejectIf (input.length > maxStringLen)
    (.panic ("Registry input validation failed: " ++ fieldName ++ " exceeds max length"))

def validateCreatorMetadataFields (name category description : Bytes) : Result Unit := do
  validateStringInput name "name"
  validateStringInput category "category"
  validateStringInput description "description"

/-- `get(&ProtocolWallet).expect("Contract not initialized")`, then its signature. -/
def requireAdmin (e : Env Remote) (s : Storage) : Result Address := do
  let admin ← orReject s.protocolWallet (.panic "Contract not initialized")
  requireAuth e admin
  .ok admin

/-- `pause_control::check_not_paused`, whose lazy expiry may write. -/
def checkNotPaused (e : Env Remote) (s : Storage) (domainId : Nat) : Result Storage := do
  let store ← PauseControl.checkNotPaused e s.pauseControl domainId
  .ok { s with pauseControl := store }

def getGuardians (s : Storage) : List Address := s.guardians.getD []

/-! ### Talos records -/

structure CreateArgs where
  name : Bytes
  category : Bytes
  description : Bytes
  patron : Patron
  kernel : Kernel
  pulse : Pulse
  protocolWallet : Address
deriving DecidableEq, Repr

def createTalos (e : Env Remote) (s : Storage) (a : CreateArgs) : Result (Nat × Storage) := do
  let s ← checkNotPaused e s pauseTalosCreation
  requireAuth e a.patron.creatorAddr
  validatePatronShares a.patron
  validateTalosMetadata a.name a.category a.description a.pulse
  rejectIf (∃ wallet ∈ s.protocolWallet, wallet ≠ a.protocolWallet)
    (.panic "Protocol wallet mismatch")
  let nextId := s.nextTalosId.getD 1
  let talos : Talos :=
    { id := nextId, name := a.name, category := a.category, description := a.description
      creator := a.patron.creatorAddr, patron := a.patron, kernel := a.kernel, pulse := a.pulse
      createdAt := e.timestamp, active := true, metadata := none }
  let nextId' ← addU32 nextId 1
  .ok (nextId, { s with
    talos := s.talos.set nextId talos
    creatorOf := s.creatorOf.set nextId talos.creator
    nextTalosId := some nextId' })

def getTalos (s : Storage) (talosId : Nat) : Option Talos := s.talos talosId

def creatorOf (s : Storage) (talosId : Nat) : Option Address := s.creatorOf talosId

def isActive (s : Storage) (talosId : Nat) : Bool := ((s.talos talosId).map (·.active)).getD false

def nextTalosId (s : Storage) : Nat := s.nextTalosId.getD 1

def updatePatron (e : Env Remote) (s : Storage) (talosId : Nat) (patron : Patron) :
    Result Storage := do
  let s ← checkNotPaused e s pauseTalosUpdate
  let talos ← orReject (s.talos talosId) (.panic "Talos not found")
  requireAuth e talos.creator
  validatePatronShares patron
  .ok { s with talos := s.talos.set talosId { talos with patron } }

def updateKernel (e : Env Remote) (s : Storage) (talosId : Nat) (kernel : Kernel) :
    Result Storage := do
  let s ← checkNotPaused e s pauseTalosUpdate
  let talos ← orReject (s.talos talosId) (.panic "Talos not found")
  requireAuth e talos.creator
  .ok { s with talos := s.talos.set talosId { talos with kernel } }

def updatePulse (e : Env Remote) (s : Storage) (talosId : Nat) (pulse : Pulse) :
    Result Storage := do
  let s ← checkNotPaused e s pauseTalosUpdate
  let talos ← orReject (s.talos talosId) (.panic "Talos not found")
  requireAuth e talos.creator
  validateTokenSymbol pulse.tokenSymbol
  .ok { s with talos := s.talos.set talosId { talos with pulse } }

def updateCreatorMetadata (e : Env Remote) (s : Storage) (talosId : Nat)
    (name category description : Bytes) : Result Storage := do
  let s ← checkNotPaused e s pauseTalosUpdate
  let talos ← orReject (s.talos talosId) (.error .talosNotFound)
  requireAuth e talos.creator
  validateCreatorMetadataFields name category description
  .ok { s with talos := s.talos.set talosId { talos with name, category, description } }

def deactivateTalos (e : Env Remote) (s : Storage) (talosId : Nat) (controller : Address) :
    Result Storage := do
  let s ← checkNotPaused e s pauseTalosDeactivation
  let talos ← orReject (s.talos talosId) (.panic "Talos not found")
  requireAuth e controller
  rejectIf (talos.creator ≠ controller ∧ s.pauseController talosId ≠ some controller)
    (.panic "Unauthorized: only creator or pause controller can deactivate")
  .ok { s with talos := s.talos.set talosId { talos with active := false } }

def activateTalos (e : Env Remote) (s : Storage) (talosId : Nat) (controller : Address) :
    Result Storage := do
  let s ← checkNotPaused e s pauseTalosActivation
  let talos ← orReject (s.talos talosId) (.panic "Talos not found")
  requireAuth e controller
  rejectIf (talos.creator ≠ controller ∧ s.resumeController talosId ≠ some controller)
    (.panic "Unauthorized: only creator or resume controller can activate")
  .ok { s with talos := s.talos.set talosId { talos with active := true } }

def setPauseController (e : Env Remote) (s : Storage) (talosId : Nat) (controller : Address) :
    Result Storage := do
  let talos ← orReject (s.talos talosId) (.panic "Talos not found")
  requireAuth e talos.creator
  .ok { s with pauseController := s.pauseController.set talosId controller }

def setResumeController (e : Env Remote) (s : Storage) (talosId : Nat) (controller : Address) :
    Result Storage := do
  let talos ← orReject (s.talos talosId) (.panic "Talos not found")
  requireAuth e talos.creator
  .ok { s with resumeController := s.resumeController.set talosId controller }

/-! ### Protocol configuration -/

def initializeContract (e : Env Remote) (s : Storage) (protocolWallet : Address) :
    Result Storage := do
  rejectIf (s.protocolWallet.isSome = true) (.panic "Already initialized")
  let schema ← initializeSchema e s.schema schemaGenesis
  .ok { s with
    protocolWallet := some protocolWallet
    protocolFeeBps := some protocolFeeBpsDefault
    nextTalosId := some 1
    schema }

def getTimelockConfig (s : Storage) : TimelockConfig :=
  s.timelockConfig.getD ⟨0, defaultGracePeriod⟩

def setProtocolFeeInternal (s : Storage) (feeBps : Nat) : Result Storage := do
  rejectIf (feeBps > maxProtocolFeeBps) (.panic "Protocol fee cannot exceed 100%")
  .ok { s with protocolFeeBps := some feeBps }

def proposeAdminInternal (s : Storage) (newAdmin : Address) : Storage :=
  { s with pendingAdmin := some newAdmin }

def setProtocolFee (e : Env Remote) (s : Storage) (feeBps : Nat) : Result Storage := do
  let s ← checkNotPaused e s pauseProtocolConfig
  rejectIf (feeBps > maxProtocolFeeBps) (.panic "Protocol fee cannot exceed 100%")
  let _admin ← requireAdmin e s
  rejectIf ((getTimelockConfig s).minDelay > 0)
    (.panic "Timelock enabled: action must be scheduled")
  setProtocolFeeInternal s feeBps

def proposeAdmin (e : Env Remote) (s : Storage) (newAdmin : Address) : Result Storage := do
  let s ← checkNotPaused e s pauseProtocolConfig
  let _current ← requireAdmin e s
  rejectIf ((getTimelockConfig s).minDelay > 0)
    (.panic "Timelock enabled: action must be scheduled")
  .ok (proposeAdminInternal s newAdmin)

def acceptAdmin (e : Env Remote) (s : Storage) : Result Storage := do
  let s ← checkNotPaused e s pauseProtocolConfig
  let pending ← orReject s.pendingAdmin (.panic "No pending admin transfer")
  requireAuth e pending
  .ok { s with protocolWallet := some pending, pendingAdmin := none }

def cancelAdminTransfer (e : Env Remote) (s : Storage) : Result Storage := do
  let s ← checkNotPaused e s pauseProtocolConfig
  let _current ← requireAdmin e s
  let _pending ← orReject s.pendingAdmin (.panic "No pending admin transfer")
  .ok { s with pendingAdmin := none }

def calculateProtocolFee (s : Storage) (amount : Int) : Result Int := do
  rejectIf (amount < 0) (.panic "Amount must be non-negative")
  let product ← i128 (amount * (s.protocolFeeBps.getD protocolFeeBpsDefault : Nat))
  .ok (product.tdiv maxProtocolFeeBps)

/-! ### Timelock -/

def setTimelockConfigInternal (s : Storage) (minDelay gracePeriod : Nat) : Result Storage := do
  validateTimelockConfig minDelay gracePeriod
  .ok { s with timelockConfig := some ⟨minDelay, gracePeriod⟩ }

def setTimelockConfig (e : Env Remote) (s : Storage) (minDelay gracePeriod : Nat) :
    Result Storage := do
  let s ← checkNotPaused e s pauseProtocolConfig
  let _admin ← requireAdmin e s
  setTimelockConfigInternal s minDelay gracePeriod

def scheduleActionInternal (e : Env Remote) (s : Storage) (admin : Address)
    (action : AdminAction) (delay : Nat) : Result (Nat × Storage) := do
  validateDelay delay (getTimelockConfig s)
  let id := s.nextTimelockId.getD 1
  let proposal : TimelockProposal AdminAction :=
    { id, action, eta := saturatingAddU64 e.timestamp delay, status := .scheduled
      scheduledAt := e.timestamp, scheduledBy := admin }
  let nextId ← addU64 id 1
  .ok (id, { s with
    timelockProposal := s.timelockProposal.set id proposal
    nextTimelockId := some nextId })

def scheduleAction (e : Env Remote) (s : Storage) (action : AdminAction) (delay : Nat) :
    Result (Nat × Storage) := do
  let s ← checkNotPaused e s pauseProtocolConfig
  let admin ← requireAdmin e s
  scheduleActionInternal e s admin action delay

def validateExecutableProposal (e : Env Remote) (s : Storage) (proposalId : Nat) :
    Result (TimelockProposal AdminAction) := do
  let proposal ← orReject (s.timelockProposal proposalId) (.panic "Timelock proposal not found")
  rejectIf (proposal.status ≠ .scheduled) (.panic "Proposal not active")
  validateExecutable e proposal.eta (getTimelockConfig s).gracePeriod
  .ok proposal

def markExecuted (s : Storage) (proposal : TimelockProposal AdminAction) : Storage :=
  { s with timelockProposal :=
      s.timelockProposal.set proposal.id { proposal with status := .executed } }

/-- Callable by anyone, and not gated by any pause domain. -/
def executeAction (e : Env Remote) (s : Storage) (proposalId : Nat) : Result Storage := do
  let proposal ← validateExecutableProposal e s proposalId
  let s ← match proposal.action with
    | .setProtocolFee feeBps => setProtocolFeeInternal s feeBps
    | .proposeAdmin newAdmin => do
        let _current ← orReject s.protocolWallet (.panic "Contract not initialized")
        .ok (proposeAdminInternal s newAdmin)
  .ok (markExecuted s proposal)

def cancelAction (e : Env Remote) (s : Storage) (proposalId : Nat) : Result Storage := do
  let s ← checkNotPaused e s pauseProtocolConfig
  let _admin ← requireAdmin e s
  let proposal ← orReject (s.timelockProposal proposalId) (.panic "Timelock proposal not found")
  rejectIf (proposal.status ≠ .scheduled) (.panic "Proposal not active")
  .ok { s with timelockProposal :=
    s.timelockProposal.set proposalId { proposal with status := .cancelled } }

/-! ### Emergency pause and guardians -/

def isDomainPaused (e : Env Remote) (s : Storage) (domain : PauseDomain) : Bool :=
  match s.pauseState domain with
  | none => false
  | some state => state.expiresAt == 0 || decide (e.timestamp < state.expiresAt)

def applyPause (e : Env Remote) (s : Storage) (caller admin : Address) (isAdminCaller : Bool)
    (domain : PauseDomain) (duration : Nat) : Result Storage := do
  rejectIf (isAdminCaller = false ∧ ∃ existing ∈ s.pauseState domain, existing.pausedBy = admin)
    (.panic "Domain locked by admin; guardians cannot modify")
  let expiresAt ← computeExpiresAt e isAdminCaller duration
  .ok { s with pauseState := s.pauseState.set domain ⟨caller, e.timestamp, expiresAt⟩ }

def pause (e : Env Remote) (s : Storage) (caller : Address) (domain : PauseDomain)
    (duration : Nat) : Result Storage := do
  requireAuth e caller
  let admin ← orReject s.protocolWallet (.panic "Contract not initialized")
  let isAdminCaller := decide (caller = admin)
  rejectIf (isAdminCaller = false ∧ AdminControls.isGuardian (getGuardians s) caller = false)
    (.panic "Caller is not admin or guardian")
  applyPause e s caller admin isAdminCaller domain duration

def unpause (e : Env Remote) (s : Storage) (domain : PauseDomain) : Result Storage := do
  let _admin ← requireAdmin e s
  if (s.pauseState domain).isNone then .ok s
  else .ok { s with pauseState := s.pauseState.remove domain }

def isPaused (e : Env Remote) (s : Storage) (domain : PauseDomain) : Bool :=
  isDomainPaused e s domain

def pauseInfo (e : Env Remote) (s : Storage) (domain : PauseDomain) : PauseInfo :=
  match s.pauseState domain with
  | none => ⟨false, none, none, none⟩
  | some state =>
    { active := state.expiresAt == 0 || decide (e.timestamp < state.expiresAt)
      pausedBy := some state.pausedBy
      pausedAt := some state.pausedAt
      expiresAt := if state.expiresAt = 0 then none else some state.expiresAt }

/-- Appends without a membership or a limit check. -/
def addGuardian (e : Env Remote) (s : Storage) (guardian : Address) : Result Storage := do
  let _admin ← requireAdmin e s
  .ok { s with guardians := some (getGuardians s ++ [guardian]) }

def removeGuardian (e : Env Remote) (s : Storage) (_guardian : Address) : Result Storage := do
  let _admin ← requireAdmin e s
  .ok { s with guardians := some e.remote.remaining }

def isGuardian (s : Storage) (addr : Address) : Bool :=
  AdminControls.isGuardian (getGuardians s) addr

def listGuardians (s : Storage) : List Address := getGuardians s

/-! ### Asset allowlist -/

def isAssetAllowed (s : Storage) (asset : Address) : Bool := (s.allowedAsset asset).getD false

def addAssetToAllowlist (e : Env Remote) (s : Storage) (asset : Address) : Result Storage := do
  let admin ← requireAdmin e s
  requireAuth e admin
  .ok { s with allowedAsset := s.allowedAsset.set asset true }

def removeAssetFromAllowlist (e : Env Remote) (s : Storage) (asset : Address) :
    Result Storage := do
  let admin ← requireAdmin e s
  requireAuth e admin
  .ok { s with allowedAsset := s.allowedAsset.remove asset }

/-! ### Storage TTL management -/

/-- The Talos records as age-tracked entries. -/
def trackedTalos : Tracked Storage where
  present s id := (s.talos id).isSome
  lastTouched s id := (s.lastTouched id).getD 0
  renew currentLedger s id :=
    match s.talos id with
    | some talos => { s with
        talos := s.talos.set id talos
        lastTouched := s.lastTouched.set id currentLedger }
    | none => s

def touchTalos (e : Env Remote) (s : Storage) (talosId : Nat) : Result (Bool × Storage) := do
  let _talos ← orReject (s.talos talosId) (.panic "Talos not found")
  if needsTouch (trackedTalos.lastTouched s talosId) e.sequence then
    .ok (true, trackedTalos.renew e.sequence s talosId)
  else .ok (false, s)

def touchBatch (e : Env Remote) (s : Storage) (startId limit : Nat) :
    Result ((Nat × Nat) × Storage) := do
  let s ← checkNotPaused e s pauseProtocolConfig
  let _admin ← requireAdmin e s
  let range := idRange startId (min (nextTalosId s) (saturatingAddU32 startId limit))
  let (swept, s) := sweep trackedTalos e.sequence .renewal range s
  .ok ((swept.touched, swept.skipped), s)

def extendTtlBatch (e : Env Remote) (s : Storage) (startId limit minAge maxAge : Nat) :
    Result ((Nat × Nat) × Storage) := do
  let s ← checkNotPaused e s pauseProtocolConfig
  let _admin ← requireAdmin e s
  let bounds : TtlBounds := ⟨minAge, maxAge, defaultMaxBatchKeys⟩
  let range ← orPanic (boundedRange startId limit bounds (nextTalosId s))
  let (swept, s) := sweep trackedTalos e.sequence bounds range s
  .ok ((swept.touched, swept.skipped), s)

/-! ### Storage schema migrations -/

def schemaVersion (s : Storage) : Nat := s.schema.schemaVersion.getD schemaGenesis

def runMigrationsTo (e : Env Remote) (s : Storage) (targetVersion : Nat) :
    Result (Nat × Storage) := do
  let _admin ← requireAdmin e s
  let current := schemaVersion s
  rejectIf (targetVersion < current)
    (.panic "Migration target must be greater than or equal to current version")
  rejectIf (targetVersion > schemaLatest)
    (.panic "Migration target exceeds supported schema version")
  if current = targetVersion then .ok (current, s)
  else if current = schemaGenesis ∧ targetVersion ≥ schemaTimelockDefaults then
    match beginMigration s.schema current schemaGenesis schemaTimelockDefaults with
    | .error _ => .error (.panic "Migration out of order or already in progress")
    | .ok schema => do
      let schema ← completeMigration e schema schemaGenesis schemaTimelockDefaults
      .ok (schemaTimelockDefaults,
        { s with timelockConfig := some (getTimelockConfig s), schema })
  else .ok (current, s)

def runMigrations (e : Env Remote) (s : Storage) : Result (Nat × Storage) :=
  runMigrationsTo e s schemaLatest

def rollbackSchema (e : Env Remote) (s : Storage) (targetVersion : Nat) : Result Storage := do
  let _admin ← requireAdmin e s
  match ← rollback e s.schema (schemaVersion s) targetVersion maxRollbackDepth with
  | .error _ => .error (.panic "Rollback rejected: out of range or migration in progress")
  | .ok schema => .ok { s with schema }

/-! ### The contract -/

inductive Call where
  | createTalos (args : CreateArgs)
  | updatePatron (talosId : Nat) (patron : Patron)
  | updateKernel (talosId : Nat) (kernel : Kernel)
  | updatePulse (talosId : Nat) (pulse : Pulse)
  | updateCreatorMetadata (talosId : Nat) (name category description : Bytes)
  | deactivateTalos (talosId : Nat) (controller : Address)
  | activateTalos (talosId : Nat) (controller : Address)
  | setPauseController (talosId : Nat) (controller : Address)
  | setResumeController (talosId : Nat) (controller : Address)
  | initializeContract (protocolWallet : Address)
  | setProtocolFee (feeBps : Nat)
  | proposeAdmin (newAdmin : Address)
  | acceptAdmin
  | cancelAdminTransfer
  | setTimelockConfig (minDelay gracePeriod : Nat)
  | scheduleAction (action : AdminAction) (delay : Nat)
  | executeAction (proposalId : Nat)
  | cancelAction (proposalId : Nat)
  | pause (caller : Address) (domain : PauseDomain) (duration : Nat)
  | unpause (domain : PauseDomain)
  | addGuardian (guardian : Address)
  | removeGuardian (guardian : Address)
  | addAssetToAllowlist (asset : Address)
  | removeAssetFromAllowlist (asset : Address)
  | touchTalos (talosId : Nat)
  | touchBatch (startId limit : Nat)
  | extendTtlBatch (startId limit minAge maxAge : Nat)
  | runMigrations
  | runMigrationsTo (targetVersion : Nat)
  | rollbackSchema (targetVersion : Nat)
deriving DecidableEq, Repr

inductive Value where
  | unit
  | id (n : Nat)
  | flag (b : Bool)
  | counts (touched skipped : Nat)
  | version (n : Nat)
deriving DecidableEq, Repr

def exec (e : Env Remote) (s : Storage) : Call → Result (Value × Storage)
  | .createTalos args => returning .id (createTalos e s args)
  | .updatePatron talosId patron => silent .unit (updatePatron e s talosId patron)
  | .updateKernel talosId kernel => silent .unit (updateKernel e s talosId kernel)
  | .updatePulse talosId pulse => silent .unit (updatePulse e s talosId pulse)
  | .updateCreatorMetadata talosId name category description =>
      silent .unit (updateCreatorMetadata e s talosId name category description)
  | .deactivateTalos talosId controller => silent .unit (deactivateTalos e s talosId controller)
  | .activateTalos talosId controller => silent .unit (activateTalos e s talosId controller)
  | .setPauseController talosId controller =>
      silent .unit (setPauseController e s talosId controller)
  | .setResumeController talosId controller =>
      silent .unit (setResumeController e s talosId controller)
  | .initializeContract protocolWallet => silent .unit (initializeContract e s protocolWallet)
  | .setProtocolFee feeBps => silent .unit (setProtocolFee e s feeBps)
  | .proposeAdmin newAdmin => silent .unit (proposeAdmin e s newAdmin)
  | .acceptAdmin => silent .unit (acceptAdmin e s)
  | .cancelAdminTransfer => silent .unit (cancelAdminTransfer e s)
  | .setTimelockConfig minDelay gracePeriod =>
      silent .unit (setTimelockConfig e s minDelay gracePeriod)
  | .scheduleAction action delay => returning .id (scheduleAction e s action delay)
  | .executeAction proposalId => silent .unit (executeAction e s proposalId)
  | .cancelAction proposalId => silent .unit (cancelAction e s proposalId)
  | .pause caller domain duration => silent .unit (pause e s caller domain duration)
  | .unpause domain => silent .unit (unpause e s domain)
  | .addGuardian guardian => silent .unit (addGuardian e s guardian)
  | .removeGuardian guardian => silent .unit (removeGuardian e s guardian)
  | .addAssetToAllowlist asset => silent .unit (addAssetToAllowlist e s asset)
  | .removeAssetFromAllowlist asset => silent .unit (removeAssetFromAllowlist e s asset)
  | .touchTalos talosId => returning .flag (touchTalos e s talosId)
  | .touchBatch startId limit =>
      returning (fun counts => .counts counts.1 counts.2) (touchBatch e s startId limit)
  | .extendTtlBatch startId limit minAge maxAge =>
      returning (fun counts => .counts counts.1 counts.2)
        (extendTtlBatch e s startId limit minAge maxAge)
  | .runMigrations => returning .version (runMigrations e s)
  | .runMigrationsTo targetVersion => returning .version (runMigrationsTo e s targetVersion)
  | .rollbackSchema targetVersion => silent .unit (rollbackSchema e s targetVersion)

def contract : Contract Remote Storage Call Value ContractError where
  init := .empty
  exec := exec

end Talos.Registry
