import Talos.TtlManager

/-!
# TalosDividends

The pull-based dividend contract (`contracts/talos_dividends`): the admin commits
an epoch per Talos, patrons claim from it until the deadline, the admin recovers
what is left afterwards. Storage has one field per `DataKey` family; `Claimed` is
keyed by epoch id and claimant alone, without the Talos, as in the source.
Events are not part of the storage and are left out.
-/

namespace Talos.Dividends

open Talos.Soroban Talos.TtlManager

inductive ContractError where
  | alreadyInitialized
  | notInitialized
  | unauthorized
  | epochNotFound
  | alreadyClaimed
  | epochExpired
  | epochNotExpired
  | zeroAllocation
  | invalidEpochParams
  | notAPatron
  | overflow
  | epochAlreadyExists
  | talosNotFound
  | accountingOverflow
  | alreadyRecovered
  | invalidPatronShares
  | inconsistentShareData
  | noPendingAdmin
  | incompatibleRegistry
deriving DecidableEq, Repr

inductive PatronRole where
  | creator
  | investor
  | treasury
deriving DecidableEq, Repr

inductive EpochStatus where
  | active
  | expired
  | recovered
deriving DecidableEq, Repr

structure EpochRecord where
  epochId : Nat
  talosId : Nat
  totalAmount : Int
  claimedAmount : Int
  createdAt : Nat
  expirySecs : Nat
  status : EpochStatus
deriving DecidableEq, Repr

structure Storage where
  admin : Option Address
  registryContract : Option Address
  /-- `Epoch(talos_id, epoch_id)`. -/
  epoch : Map (Nat × Nat) EpochRecord
  /-- `Claimed(epoch_id, patron)`. -/
  claimed : Map (Nat × Address) Bool
  nextEpochId : Map Nat Nat
  roundingDust : Map (Nat × Nat) Int
  pendingAdmin : Option Address
  lastTouched : Map (Nat × Nat) Nat

def Storage.empty : Storage :=
  ⟨none, none, .empty, .empty, .empty, .empty, none, .empty⟩

/-- Answers of a registry to `interface_id` and `version`; `none` when the
cross-contract call traps. -/
structure Remote where
  interfaceId : Address → Option (List UInt8)
  version : Address → Option (Nat × Nat × Nat)

def minExpirySecs : Nat := 3600

def maxExpirySecs : Nat := 31536000

def minEpochAmount : Int := 1

def expectedRegistryInterfaceId : List UInt8 := [
  0x54, 0x61, 0x6C, 0x6F, 0x73, 0x52, 0x65, 0x67,
  0x69, 0x73, 0x74, 0x72, 0x79, 0x00, 0x00, 0x00,
  0x00, 0x00, 0x00, 0x01,
  0x00, 0x00, 0x00, 0x04,
  0x00, 0x00, 0x00, 0x00,
  0x00, 0x00, 0x00, 0x00]

def versionSupports (actual required : Nat × Nat × Nat) : Bool :=
  if actual.1 ≠ required.1 then false
  else if actual.2.1 > required.2.1 then true
  else if actual.2.1 < required.2.1 then false
  else decide (required.2.2 ≤ actual.2.2)

abbrev Result (α : Type) := Outcome ContractError α

/-! ### Helpers -/

def requireAdminAddr (s : Storage) : Result Address := orReject s.admin (.error .notInitialized)

def requireAdmin (e : Env Remote) (s : Storage) (caller : Address) : Result Unit := do
  requireAuth e caller
  let stored ← requireAdminAddr s
  rejectIf (stored ≠ caller) (.error .unauthorized)

def computeAllocation (totalAmount : Int) (sharePct : Nat) : Result Int := do
  let numerator ← orReject (checkedI128 (totalAmount * sharePct)) (.error .overflow)
  let allocation := numerator.tdiv 100
  rejectIf (allocation ≤ 0) (.error .zeroAllocation)
  .ok allocation

def computeRoundingDust (totalAmount : Int) (creatorShare investorShare treasuryShare : Nat) :
    Result Int := do
  let creator ← orReject (checkedI128 (totalAmount * creatorShare)) (.error .overflow)
  let investor ← orReject (checkedI128 (totalAmount * investorShare)) (.error .overflow)
  let treasury ← orReject (checkedI128 (totalAmount * treasuryShare)) (.error .overflow)
  let both ← orReject (checkedI128 (creator.tdiv 100 + investor.tdiv 100)) (.error .overflow)
  let distributed ← orReject (checkedI128 (both + treasury.tdiv 100)) (.error .overflow)
  orReject (checkedI128 (totalAmount - distributed)) (.error .overflow)

def checkRegistryCompatible (e : Env Remote) (registry : Address) : Result Unit := do
  let registryId ← orReject (e.remote.interfaceId registry) (.panic "interface_id call failed")
  rejectIf (registryId ≠ expectedRegistryInterfaceId) (.error .incompatibleRegistry)
  let version ← orReject (e.remote.version registry) (.panic "version call failed")
  rejectIf (versionSupports version (1, 1, 0) = false) (.error .incompatibleRegistry)

/-! ### Entry points -/

def initializeContract (s : Storage) (admin registryContract : Address) : Result Storage := do
  rejectIf (s.admin.isSome = true) (.error .alreadyInitialized)
  .ok { s with admin := some admin, registryContract := some registryContract }

def commitEpoch (e : Env Remote) (s : Storage) (admin : Address) (talosId : Nat)
    (totalAmount : Int) (expirySecs : Nat) : Result (Nat × Storage) := do
  requireAdmin e s admin
  rejectIf (totalAmount < minEpochAmount) (.error .invalidEpochParams)
  rejectIf (expirySecs < minExpirySecs ∨ expirySecs > maxExpirySecs) (.error .invalidEpochParams)
  let epochId := (s.nextEpochId talosId).getD 1
  rejectIf ((s.epoch (talosId, epochId)).isSome = true) (.error .epochAlreadyExists)
  let record : EpochRecord :=
    { epochId, talosId, totalAmount, claimedAmount := 0, createdAt := e.timestamp, expirySecs
      status := .active }
  let nextId ← addU64 epochId 1
  .ok (epochId, { s with
    epoch := s.epoch.set (talosId, epochId) record
    nextEpochId := s.nextEpochId.set talosId nextId
    lastTouched := s.lastTouched.set (talosId, epochId) e.sequence })

/-- The arguments of `claim_dividend`. All of them are supplied by the caller. -/
structure ClaimArgs where
  claimant : Address
  talosId : Nat
  epochId : Nat
  patronCreator : Address
  patronInvestor : Address
  patronTreasury : Address
  creatorShare : Nat
  investorShare : Nat
  treasuryShare : Nat
deriving DecidableEq, Repr

/-- The role the claimant occupies among the supplied patron addresses, with
the supplied share of that role: creator first, then investor, then treasury. -/
def ClaimArgs.role (a : ClaimArgs) : Option (PatronRole × Nat) :=
  if a.claimant = a.patronCreator then some (.creator, a.creatorShare)
  else if a.claimant = a.patronInvestor then some (.investor, a.investorShare)
  else if a.claimant = a.patronTreasury then some (.treasury, a.treasuryShare)
  else none

/-- `creator_share.checked_add(investor_share).and_then(|s| s.checked_add(treasury_share))`. -/
def ClaimArgs.shareSum (a : ClaimArgs) : Option Nat :=
  (checkedAddU32 a.creatorShare a.investorShare).bind (checkedAddU32 · a.treasuryShare)

def EpochRecord.deadline (record : EpochRecord) : Option Nat :=
  checkedAddU64 record.createdAt record.expirySecs

def claimDividend (e : Env Remote) (s : Storage) (a : ClaimArgs) : Result (Int × Storage) := do
  requireAuth e a.claimant
  let record ← orReject (s.epoch (a.talosId, a.epochId)) (.error .epochNotFound)
  rejectIf (record.status ≠ .active) (.error .epochExpired)
  -- Accepted up to and including the deadline.
  let deadline ← orReject record.deadline (.error .overflow)
  rejectIf (e.timestamp > deadline) (.error .epochExpired)
  let shareSum ← orReject a.shareSum (.error .overflow)
  rejectIf (shareSum ≠ 100) (.error .invalidPatronShares)
  let (_, sharePct) ← orReject a.role (.error .notAPatron)
  rejectIf ((s.claimed (a.epochId, a.claimant)).isSome = true) (.error .alreadyClaimed)
  let allocation ← computeAllocation record.totalAmount sharePct
  let dust ← computeRoundingDust record.totalAmount a.creatorShare a.investorShare a.treasuryShare
  -- The first claim of an epoch records its dust; later ones must reproduce it.
  let recordedDust := (s.roundingDust (a.talosId, a.epochId)).getD dust
  rejectIf (recordedDust ≠ dust) (.error .inconsistentShareData)
  let newClaimed ← orReject (checkedI128 (record.claimedAmount + allocation)) (.error .overflow)
  rejectIf (newClaimed > record.totalAmount) (.error .accountingOverflow)
  .ok (allocation, { s with
    roundingDust := s.roundingDust.set (a.talosId, a.epochId) dust
    claimed := s.claimed.set (a.epochId, a.claimant) true
    epoch := s.epoch.set (a.talosId, a.epochId) { record with claimedAmount := newClaimed }
    lastTouched := s.lastTouched.set (a.talosId, a.epochId) e.sequence })

def recoverExpired (e : Env Remote) (s : Storage) (admin : Address) (talosId epochId : Nat) :
    Result (Int × Storage) := do
  requireAdmin e s admin
  let record ← orReject (s.epoch (talosId, epochId)) (.error .epochNotFound)
  rejectIf (record.status = .recovered) (.error .alreadyRecovered)
  -- Accepted strictly after the deadline.
  let deadline ← orReject record.deadline (.error .overflow)
  rejectIf (e.timestamp ≤ deadline) (.error .epochNotExpired)
  let unclaimed ← orReject (checkedI128 (record.totalAmount - record.claimedAmount))
    (.error .overflow)
  .ok (unclaimed, { s with
    epoch := s.epoch.set (talosId, epochId) { record with status := .recovered } })

def setRegistryContract (e : Env Remote) (s : Storage) (admin newRegistry : Address) :
    Result Storage := do
  requireAdmin e s admin
  checkRegistryCompatible e newRegistry
  let _old ← orReject s.registryContract (.error .notInitialized)
  .ok { s with registryContract := some newRegistry }

def proposeAdmin (e : Env Remote) (s : Storage) (newAdmin : Address) : Result Storage := do
  let current ← requireAdminAddr s
  requireAuth e current
  .ok { s with pendingAdmin := some newAdmin }

def acceptAdmin (e : Env Remote) (s : Storage) : Result Storage := do
  let pending ← orReject s.pendingAdmin (.error .noPendingAdmin)
  requireAuth e pending
  .ok { s with admin := some pending, pendingAdmin := none }

def cancelAdminTransfer (e : Env Remote) (s : Storage) : Result Storage := do
  let current ← requireAdminAddr s
  requireAuth e current
  let _pending ← orReject s.pendingAdmin (.error .noPendingAdmin)
  .ok { s with pendingAdmin := none }

/-- The epoch records of one Talos as age-tracked entries. -/
def trackedEpochs (talosId : Nat) : Tracked Storage where
  present s eid := (s.epoch (talosId, eid)).isSome
  lastTouched s eid := (s.lastTouched (talosId, eid)).getD 0
  renew currentLedger s eid :=
    match s.epoch (talosId, eid) with
    | some record => { s with
        epoch := s.epoch.set (talosId, eid) record
        lastTouched := s.lastTouched.set (talosId, eid) currentLedger }
    | none => s

def touchEpoch (e : Env Remote) (s : Storage) (talosId epochId : Nat) :
    Result (Bool × Storage) := do
  let _record ← orReject (s.epoch (talosId, epochId)) (.error .epochNotFound)
  if needsTouch ((trackedEpochs talosId).lastTouched s epochId) e.sequence then
    .ok (true, (trackedEpochs talosId).renew e.sequence s epochId)
  else .ok (false, s)

def extendTtlBatch (e : Env Remote) (s : Storage) (admin : Address)
    (talosId startEpochId limit minAge maxAge : Nat) : Result ((Nat × Nat) × Storage) := do
  requireAdmin e s admin
  let bounds : TtlBounds := ⟨minAge, maxAge, defaultMaxBatchKeys⟩
  let cappedLimit ← orPanic (bounds.clampLimit limit)
  let nextId := (s.nextEpochId talosId).getD 1
  let endId := min nextId (saturatingAddU64 startEpochId cappedLimit)
  let (swept, s') := sweep (trackedEpochs talosId) e.sequence bounds (idRange startEpochId endId) s
  .ok ((swept.touched, swept.skipped), s')

/-! ### Queries -/

def getEpoch (s : Storage) (talosId epochId : Nat) : Option EpochRecord :=
  s.epoch (talosId, epochId)

def hasClaimed (s : Storage) (epochId : Nat) (claimant : Address) : Bool :=
  (s.claimed (epochId, claimant)).isSome

def getRoundingDust (s : Storage) (talosId epochId : Nat) : Option Int :=
  s.roundingDust (talosId, epochId)

/-! ### The contract -/

inductive Call where
  | initializeContract (admin registryContract : Address)
  | commitEpoch (admin : Address) (talosId : Nat) (totalAmount : Int) (expirySecs : Nat)
  | claimDividend (args : ClaimArgs)
  | recoverExpired (admin : Address) (talosId epochId : Nat)
  | setRegistryContract (admin newRegistry : Address)
  | proposeAdmin (newAdmin : Address)
  | acceptAdmin
  | cancelAdminTransfer
  | touchEpoch (talosId epochId : Nat)
  | extendTtlBatch (admin : Address) (talosId startEpochId limit minAge maxAge : Nat)
deriving DecidableEq, Repr

inductive Value where
  | unit
  | epochId (id : Nat)
  | amount (x : Int)
  | flag (b : Bool)
  | counts (touched skipped : Nat)
deriving DecidableEq, Repr

def exec (e : Env Remote) (s : Storage) : Call → Result (Value × Storage)
  | .initializeContract admin registryContract =>
      silent .unit (initializeContract s admin registryContract)
  | .commitEpoch admin talosId totalAmount expirySecs =>
      returning .epochId (commitEpoch e s admin talosId totalAmount expirySecs)
  | .claimDividend args => returning .amount (claimDividend e s args)
  | .recoverExpired admin talosId epochId =>
      returning .amount (recoverExpired e s admin talosId epochId)
  | .setRegistryContract admin newRegistry =>
      silent .unit (setRegistryContract e s admin newRegistry)
  | .proposeAdmin newAdmin => silent .unit (proposeAdmin e s newAdmin)
  | .acceptAdmin => silent .unit (acceptAdmin e s)
  | .cancelAdminTransfer => silent .unit (cancelAdminTransfer e s)
  | .touchEpoch talosId epochId => returning .flag (touchEpoch e s talosId epochId)
  | .extendTtlBatch admin talosId startEpochId limit minAge maxAge =>
      returning (fun counts => .counts counts.1 counts.2)
        (extendTtlBatch e s admin talosId startEpochId limit minAge maxAge)

def contract : Contract Remote Storage Call Value ContractError where
  init := .empty
  exec := exec

end Talos.Dividends
