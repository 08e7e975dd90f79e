import Talos.NameService.Validation
import Talos.TtlManager
import Talos.PauseControl
import Talos.AdminControls

/-!
# TalosNameService

The name service (`contracts/talos_name_service`): name registration in two
mutually inverse maps, the registration fee, the admin timelock, guardians and
pauses, and TTL sweeps. Storage has one field per `DataKey` family plus the keys
of `pause_control`. Events are not part of the storage and are left out.

As in the registry there are two pause records: `pauseState`, written by
`pause`, and `pauseControl`, written by `pauseDomain` and read by the guards.
-/

namespace Talos.NameService

open Talos.Soroban Talos.TtlManager Talos.PauseControl Talos.AdminControls

inductive ContractError where
  | alreadyInitialized
  | unauthorizedCaller
  | timelockEnabled
  | domainPaused
  | notAdminOrGuardian
  | domainLockedByAdmin
  | invalidPauseDuration
  | guardianLimitReached
deriving DecidableEq, Repr

inductive AdminAction where
  | setRegistryContract (newRegistryId : Address)
  | setAdmin (newAdmin : Address)
deriving DecidableEq, Repr

inductive PauseDomain where
  | nameRegistration
deriving DecidableEq, Repr

structure PauseState where
  pausedBy : Address
  pausedAt : Nat
  /-- `0` means indefinite. -/
  expiresAt : Nat
deriving DecidableEq, Repr

structure PauseInfo where
  active : Bool
  pausedBy : Option Address
  pausedAt : Option Nat
  expiresAt : Option Nat
deriving DecidableEq, Repr

structure Storage where
  nameRecord : Map Bytes Nat
  talosName : Map Nat Bytes
  registryContract : Option Address
  admin : Option Address
  timelockConfig : Option TimelockConfig
  timelockProposal : Map Nat (TimelockProposal AdminAction)
  nextTimelockId : Option Nat
  lastTouched : Map Nat Nat
  nameFeeAmount : Option Int
  guardians : Option (List Address)
  pauseState : Map PauseDomain PauseState
  pauseControl : PauseControl.Store

def Storage.empty : Storage where
  nameRecord := .empty
  talosName := .empty
  registryContract := none
  admin := none
  timelockConfig := none
  timelockProposal := .empty
  nextTimelockId := none
  lastTouched := .empty
  nameFeeAmount := none
  guardians := none
  pauseState := .empty
  pauseControl := .empty

/-- Answers of the contracts this one calls, `none` when the call traps: the
registry's `creator_of` and `is_asset_allowed`, and a token's `transfer`. -/
structure Remote where
  creatorOf : Address → Nat → Option (Option Address)
  isAssetAllowed : Address → Address → Option Bool
  transfer : (asset payer admin : Address) → Int → Option Unit

abbrev Result (α : Type) := Outcome ContractError α

def pauseNameRegistration : Nat := 5

def pauseNameConfig : Nat := 6

/-! ### Helpers -/

/-- `get(&Admin).expect("Admin not configured")`, then its signature. -/
def requireAdmin (e : Env Remote) (s : Storage) : Result Address := do
  let admin ← orReject s.admin (.panic "Admin not configured")
  requireAuth e admin
  .ok admin

/-- `pause_control::check_not_paused`, whose lazy expiry may write. -/
def checkNotPaused (e : Env Remote) (s : Storage) (domainId : Nat) : Result Storage := do
  let store ← PauseControl.checkNotPaused e s.pauseControl domainId
  .ok { s with pauseControl := store }

def getGuardians (s : Storage) : List Address := s.guardians.getD []

/-! ### Names -/

/-- The writes of a registration: the old name of the Talos is freed. -/
def Storage.setName (s : Storage) (talosId : Nat) (name : Bytes) : Storage :=
  let nameRecord := match s.talosName talosId with
    | some oldName => s.nameRecord.remove oldName
    | none => s.nameRecord
  { s with nameRecord := nameRecord.set name talosId, talosName := s.talosName.set talosId name }

def registerName (e : Env Remote) (s : Storage) (owner : Address) (talosId : Nat)
    (name : Bytes) : Result Storage := do
  let s ← checkNotPaused e s pauseNameRegistration
  requireAuth e owner
  let name ← canonicalizeName name
  rejectIf (validateName name = false) (.panic ("Invalid name. Must be 3-32 chars, " ++
    "lowercase alphanumeric + hyphens, no consecutive hyphens."))
  rejectIf ((s.nameRecord name).isSome = true) (.panic "Name already taken")
  let registryContract ←
    orReject s.registryContract (.panic "Registry contract not initialized")
  let creator ← orReject (e.remote.creatorOf registryContract talosId)
    (.panic "creator_of call failed")
  rejectIf (creator ≠ some owner) (.error .unauthorizedCaller)
  .ok (s.setName talosId name)

def registerNameWithFee (e : Env Remote) (s : Storage) (owner : Address) (talosId : Nat)
    (name : Bytes) (payer asset : Address) : Result Storage := do
  let s ← registerName e s owner talosId name
  let fee := s.nameFeeAmount.getD 0
  if fee ≤ 0 then .ok s
  else do
    let registryContract ←
      orReject s.registryContract (.panic "Registry contract not initialized")
    let admin ← orReject s.admin (.panic "admin not set")
    let allowed ← orReject (e.remote.isAssetAllowed registryContract asset)
      (.panic "is_asset_allowed call failed")
    rejectIf (allowed = false) (.panic "Asset not in registry allowlist; cannot pay name fee")
    requireAuth e payer
    let _paid ← orReject (e.remote.transfer asset payer admin fee) (.panic "transfer call failed")
    .ok s

def nameFee (s : Storage) : Int := s.nameFeeAmount.getD 0

def resolveName (s : Storage) (name : Bytes) : Result (Option Nat) := do
  let name ← canonicalizeName name
  .ok (s.nameRecord name)

def nameOf (s : Storage) (talosId : Nat) : Option Bytes := s.talosName talosId

def isNameAvailable (s : Storage) (name : Bytes) : Result Bool := do
  let name ← canonicalizeName name
  if validateName name = false then .ok false
  else .ok (s.nameRecord name).isNone

def hasName (s : Storage) (talosId : Nat) : Bool := (s.talosName talosId).isSome

/-! ### Configuration -/

def initializeContract (s : Storage) (registryId admin : Address) (nameFee : Int) :
    Result Storage := do
  rejectIf (s.registryContract.isSome = true) (.error .alreadyInitialized)
  rejectIf (nameFee < 0) (.panic "name_fee must be non-negative")
  .ok { s with
    registryContract := some registryId
    admin := some admin
    nameFeeAmount := some nameFee }

def setNameFee (e : Env Remote) (s : Storage) (newFee : Int) : Result Storage := do
  rejectIf (newFee < 0) (.panic "name_fee must be non-negative")
  let admin ← orReject s.admin (.panic "admin not set")
  requireAuth e admin
  .ok { s with nameFeeAmount := some newFee }

/-- The current admin signs if there is one. There is no timelock check. -/
def setAdmin (e : Env Remote) (s : Storage) (newAdmin : Address) : Result Storage := do
  let s ← checkNotPaused e s pauseNameConfig
  match s.admin with
    | some admin => requireAuth e admin
    | none => .ok ()
  .ok { s with admin := some newAdmin }

def getTimelockConfig (s : Storage) : TimelockConfig :=
  s.timelockConfig.getD ⟨0, defaultGracePeriod⟩

def setRegistryContract (e : Env Remote) (s : Storage) (newRegistryId : Address) :
    Result Storage := do
  let s ← checkNotPaused e s pauseNameConfig
  let _admin ← requireAdmin e s
  rejectIf ((getTimelockConfig s).minDelay > 0) (.error .timelockEnabled)
  let _old ← orReject s.registryContract (.panic "Registry contract not initialized")
  .ok { s with registryContract := some newRegistryId }

/-! ### Timelock -/

def setTimelockConfig (e : Env Remote) (s : Storage) (minDelay gracePeriod : Nat) :
    Result Storage := do
  let s ← checkNotPaused e s pauseNameConfig
  let _admin ← requireAdmin e s
  rejectIf (gracePeriod = 0) (.panic "Grace period must be positive")
  rejectIf (minDelay > maxMinDelay) (.panic "Min delay exceeds maximum limit")
  .ok { s with timelockConfig := some ⟨minDelay, gracePeriod⟩ }

def scheduleAction (e : Env Remote) (s : Storage) (action : AdminAction) (delay : Nat) :
    Result (Nat × Storage) := do
  let s ← checkNotPaused e s pauseNameConfig
  let admin ← requireAdmin e s
  rejectIf (delay < (getTimelockConfig s).minDelay)
    (.panic "Delay less than minimum required delay")
  let id := s.nextTimelockId.getD 1
  let proposal : TimelockProposal AdminAction :=
    { id, action, eta := saturatingAddU64 e.timestamp delay, status := .scheduled
      scheduledAt := e.timestamp, scheduledBy := admin }
  let nextId ← addU64 id 1
  .ok (id, { s with
    timelockProposal := s.timelockProposal.set id proposal
    nextTimelockId := some nextId })

/-- Callable by anyone, and not gated by any pause domain. -/
def executeAction (e : Env Remote) (s : Storage) (proposalId : Nat) : Result Storage := do
  let proposal ← orReject (s.timelockProposal proposalId) (.panic "Timelock proposal not found")
  rejectIf (proposal.status ≠ .scheduled) (.panic "Proposal not active")
  rejectIf (e.timestamp < proposal.eta) (.panic "Timelock delay not met")
  rejectIf (e.timestamp > saturatingAddU64 proposal.eta (getTimelockConfig s).gracePeriod)
    (.panic "Proposal expired")
  let s ← match proposal.action with
    | .setRegistryContract newRegistryId => do
        let _old ← orReject s.registryContract (.panic "Registry contract not initialized")
        .ok { s with registryContract := some newRegistryId }
    | .setAdmin newAdmin => .ok { s with admin := some newAdmin }
  .ok { s with timelockProposal :=
    s.timelockProposal.set proposalId { proposal with status := .executed } }

def cancelAction (e : Env Remote) (s : Storage) (proposalId : Nat) : Result Storage := do
  let s ← checkNotPaused e s pauseNameConfig
  let _admin ← requireAdmin e s
  let proposal ← orReject (s.timelockProposal proposalId) (.panic "Timelock proposal not found")
  rejectIf (proposal.status ≠ .scheduled) (.panic "Proposal not active")
  .ok { s with timelockProposal :=
    s.timelockProposal.set proposalId { proposal with status := .cancelled } }

/-! ### Pauses and guardians -/

def isDomainPaused (e : Env Remote) (s : Storage) (domain : PauseDomain) : Bool :=
  match s.pauseState domain with
  | none => false
  | some state => state.expiresAt == 0 || decide (e.timestamp < state.expiresAt)

/-- The duration rules written out inside `pause`: `0` is indefinite and for the
admin only. -/
def pauseExpiresAt (e : Env Remote) (isAdminCaller : Bool) (duration : Nat) : Result Nat :=
  if isAdminCaller then
    if duration = 0 then .ok 0
    else do
      rejectIf (duration > maxAdminPauseSecs) (.error .invalidPauseDuration)
      .ok (saturatingAddU64 e.timestamp duration)
  else do
    rejectIf (duration = 0 ∨ duration > maxGuardianPauseSecs) (.error .invalidPauseDuration)
    .ok (saturatingAddU64 e.timestamp duration)

def pause (e : Env Remote) (s : Storage) (caller : Address) (domain : PauseDomain)
    (duration : Nat) : Result Storage := do
  requireAuth e caller
  let admin ← orReject s.admin (.panic "Admin not configured")
  let isAdminCaller := decide (caller = admin)
  rejectIf (isAdminCaller = false ∧ AdminControls.isGuardian (getGuardians s) caller = false)
    (.error .notAdminOrGuardian)
  rejectIf (isAdminCaller = false ∧ ∃ existing ∈ s.pauseState domain, existing.pausedBy = admin)
    (.error .domainLockedByAdmin)
  let expiresAt ← pauseExpiresAt e isAdminCaller duration
  .ok { s with pauseState := s.pauseState.set domain ⟨caller, e.timestamp, expiresAt⟩ }

def unpause (e : Env Remote) (s : Storage) (domain : PauseDomain) : Result Storage := do
  let _admin ← requireAdmin e s
  if (s.pauseState domain).isNone then .ok s
  else .ok { s with pauseState := s.pauseState.remove domain }

def isPaused (e : Env Remote) (s : Storage) (domain : PauseDomain) : Bool :=
  isDomainPaused e s domain

def pauseInfo (e : Env Remote) (s : Storage) (domain : PauseDomain) : PauseInfo :=
  match s.pauseState domain with
  | none => ⟨false, none, none, none⟩
  | some state =>
    { active := state.expiresAt == 0 || decide (e.timestamp < state.expiresAt)
      pausedBy := some state.pausedBy
      pausedAt := some state.pausedAt
      expiresAt := if state.expiresAt = 0 then none else some state.expiresAt }

def addGuardian (e : Env Remote) (s : Storage) (guardian : Address) : Result Storage := do
  let _admin ← requireAdmin e s
  if guardian ∈ getGuardians s then .ok s
  else do
    rejectIf ((getGuardians s).length ≥ maxGuardians) (.error .guardianLimitReached)
    .ok { s with guardians := some (getGuardians s ++ [guardian]) }

def removeGuardian (e : Env Remote) (s : Storage) (guardian : Address) : Result Storage := do
  let _admin ← requireAdmin e s
  if guardian ∈ getGuardians s then
    .ok { s with guardians := some ((getGuardians s).filter (· ≠ guardian)) }
  else .ok s

def isGuardian (s : Storage) (addr : Address) : Bool :=
  AdminControls.isGuardian (getGuardians s) addr

def pauseDomain (e : Env Remote) (s : Storage) (domainId duration : Nat) : Result Storage := do
  let admin ← orReject s.admin (.panic "Admin not configured")
  let store ← PauseControl.pauseDomain e s.pauseControl domainId admin duration
  .ok { s with pauseControl := store }

def unpauseDomain (e : Env Remote) (s : Storage) (domainId : Nat) : Result Storage := do
  let admin ← orReject s.admin (.panic "Admin not configured")
  let store ← PauseControl.unpauseDomain e s.pauseControl domainId admin
  .ok { s with pauseControl := store }

/-- The entry point `is_domain_paused`: it runs the guard, so it traps where the
answer would be `true`, and it may write an elapsed pause back. -/
def isDomainPausedScoped (e : Env Remote) (s : Storage) (domainId : Nat) :
    Result (Bool × Storage) := do
  let s ← checkNotPaused e s domainId
  .ok (PauseControl.isPaused s.pauseControl domainId, s)

/-! ### Storage TTL management -/

/-- The names, by Talos, as age-tracked entries. -/
def trackedNames : Tracked Storage where
  present s id := (s.talosName id).isSome
  lastTouched s id := (s.lastTouched id).getD 0
  renew currentLedger s id :=
    match s.talosName id with
    | some name => { s with
        nameRecord := s.nameRecord.refresh name
        talosName := s.talosName.set id name
        lastTouched := s.lastTouched.set id currentLedger }
    | none => s

/-- The name is looked up as given, without canonicalization. -/
def touchName (e : Env Remote) (s : Storage) (name : Bytes) : Result (Bool × Storage) := do
  let talosId ← orReject (s.nameRecord name) (.panic "Name not found")
  if needsTouch ((s.lastTouched talosId).getD 0) e.sequence then
    .ok (true, { s with
      nameRecord := s.nameRecord.set name talosId
      talosName := s.talosName.refresh talosId
      lastTouched := s.lastTouched.set talosId e.sequence })
  else .ok (false, s)

def touchAllTtl (e : Env Remote) (s : Storage) (maxTalosId : Nat) : Result (Nat × Storage) := do
  let s ← checkNotPaused e s pauseNameConfig
  let admin ← requireAdmin e s
  let touched := 1 + (match s.registryContract with | some _ => 1 | none => 0)
  let s := { s with admin := some admin }
  let (swept, s) :=
    sweep trackedNames e.sequence .renewal (idRange 1 (saturatingAddU32 maxTalosId 1)) s
  let total ← addU32 touched swept.touched
  .ok (total, s)

def extendTtlBatch (e : Env Remote) (s : Storage) (maxTalosId limit minAge maxAge : Nat) :
    Result ((Nat × Nat) × Storage) := do
  let s ← checkNotPaused e s pauseNameConfig
  let _admin ← requireAdmin e s
  let bounds : TtlBounds := ⟨minAge, maxAge, defaultMaxBatchKeys⟩
  let range ← orPanic (boundedRange 1 limit bounds (saturatingAddU32 maxTalosId 1))
  let (swept, s) := sweep trackedNames e.sequence bounds range s
  .ok ((swept.touched, swept.skipped), s)

/-! ### The contract -/

inductive Call where
  | registerName (owner : Address) (talosId : Nat) (name : Bytes)
  | registerNameWithFee (owner : Address) (talosId : Nat) (name : Bytes) (payer asset : Address)
  | initializeContract (registryId admin : Address) (nameFee : Int)
  | setNameFee (newFee : Int)
  | setAdmin (newAdmin : Address)
  | setRegistryContract (newRegistryId : Address)
  | setTimelockConfig (minDelay gracePeriod : Nat)
  | scheduleAction (action : AdminAction) (delay : Nat)
  | executeAction (proposalId : Nat)
  | cancelAction (proposalId : Nat)
  | pause (caller : Address) (domain : PauseDomain) (duration : Nat)
  | unpause (domain : PauseDomain)
  | addGuardian (guardian : Address)
  | removeGuardian (guardian : Address)
  | pauseDomain (domainId duration : Nat)
  | unpauseDomain (domainId : Nat)
  | isDomainPaused (domainId : Nat)
  | touchName (name : Bytes)
  | touchAllTtl (maxTalosId : Nat)
  | extendTtlBatch (maxTalosId limit minAge maxAge : Nat)
deriving DecidableEq, Repr

inductive Value where
  | unit
  | id (n : Nat)
  | flag (b : Bool)
  | counts (touched skipped : Nat)
deriving DecidableEq, Repr

def exec (e : Env Remote) (s : Storage) : Call → Result (Value × Storage)
  | .registerName owner talosId name => silent .unit (registerName e s owner talosId name)
  | .registerNameWithFee owner talosId name payer asset =>
      silent .unit (registerNameWithFee e s owner talosId name payer asset)
  | .initializeContract registryId admin nameFee =>
      silent .unit (initializeContract s registryId admin nameFee)
  | .setNameFee newFee => silent .unit (setNameFee e s newFee)
  | .setAdmin newAdmin => silent .unit (setAdmin e s newAdmin)
  | .setRegistryContract newRegistryId => silent .unit (setRegistryContract e s newRegistryId)
  | .setTimelockConfig minDelay gracePeriod =>
      silent .unit (setTimelockConfig e s minDelay gracePeriod)
  | .scheduleAction action delay => returning .id (scheduleAction e s action delay)
  | .executeAction proposalId => silent .unit (executeAction e s proposalId)
  | .cancelAction proposalId => silent .unit (cancelAction e s proposalId)
  | .pause caller domain duration => silent .unit (pause e s caller domain duration)
  | .unpause domain => silent .unit (unpause e s domain)
  | .addGuardian guardian => silent .unit (addGuardian e s guardian)
  | .removeGuardian guardian => silent .unit (removeGuardian e s guardian)
  | .pauseDomain domainId duration => silent .unit (pauseDomain e s domainId duration)
  | .unpauseDomain domainId => silent .unit (unpauseDomain e s domainId)
  | .isDomainPaused domainId => returning .flag (isDomainPausedScoped e s domainId)
  | .touchName name => returning .flag (touchName e s name)
  | .touchAllTtl maxTalosId => returning .id (touchAllTtl e s maxTalosId)
  | .extendTtlBatch maxTalosId limit minAge maxAge =>
      returning (fun counts => .counts counts.1 counts.2)
        (extendTtlBatch e s maxTalosId limit minAge maxAge)

def contract : Contract Remote Storage Call Value ContractError where
  init := .empty
  exec := exec

end Talos.NameService
