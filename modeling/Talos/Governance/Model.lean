import Talos.TtlManager
import Talos.PauseControl

/-!
# TalosGovernance

Token-weighted governance (`contracts/talos_governance`): voting-power
checkpoints and delegation, proposals, votes and their decision, the executable
actions, configuration, the two-step admin handover and TTL sweeps. Storage has
one field per `DataKey` family plus the keys of `pause_control`. Events are not
part of the storage and are left out; the computation inside an event payload is
kept where it can trap.

Every rejection here is a panic, so there are no typed error codes.
-/

namespace Talos.Governance

open Talos.Soroban Talos.TtlManager Talos.PauseControl

abbrev Bytes := List UInt8

inductive ProposalAction where
  | pauseTalos (registry : Address) (talosId : Nat)
  | resumeTalos (registry : Address) (talosId : Nat)
  | updateConfig (quorumThreshold consensusThreshold : Int) (votingPeriodLedgers : Nat)
deriving DecidableEq, Repr

inductive VoteChoice where
  | approve
  | reject
deriving DecidableEq, Repr

inductive ProposalStatus where
  | active
  | approved
  | rejected
  | executed
  | cancelled
deriving DecidableEq, Repr

structure Vote where
  voter : Address
  choice : VoteChoice
  weight : Int
  votedAt : Nat
deriving DecidableEq, Repr

structure Proposal where
  id : Nat
  talosId : Nat
  proposer : Address
  title : Bytes
  description : Bytes
  snapshotLedger : Nat
  startLedger : Nat
  endLedger : Nat
  status : ProposalStatus
  yesVotes : Int
  noVotes : Int
  totalVoters : Nat
  createdAt : Nat
  action : Option ProposalAction
deriving DecidableEq, Repr

def defaultSnapshotOffsetLedgers : Nat := 10

def maxSnapshotOffsetLedgers : Nat := 120960

structure GovernanceConfig where
  quorumThreshold : Int
  consensusThreshold : Int
  votingPeriodLedgers : Nat
  pulseTokenAddress : Address
  snapshotOffsetLedgers : Option Nat
  quorumBps : Option Nat
deriving DecidableEq, Repr

structure Checkpoint where
  ledger : Nat
  votes : Int
deriving DecidableEq, Repr

def maxTitleLen : Nat := 128

def maxDescriptionLen : Nat := 2048

structure DividendSnapshot where
  epoch : Nat
  talosId : Nat
  totalUsdc : Int
  perTokenUsdc : Int
  snapshotLedger : Nat
  createdAt : Nat
deriving DecidableEq, Repr

structure Storage where
  admin : Option Address
  config : Option GovernanceConfig
  nextProposalId : Option Nat
  proposal : Map Nat Proposal
  /-- `Vote(proposal_id, voter)`. -/
  vote : Map (Nat × Address) Vote
  /-- `TokenBalanceSnapshot(ledger, account)`. -/
  tokenBalanceSnapshot : Map (Nat × Address) Int
  /-- `Checkpoint(account, index)`. -/
  checkpoint : Map (Address × Nat) Checkpoint
  checkpointCount : Map Address Nat
  totalSupplyCheckpoint : Map Nat Checkpoint
  totalSupplyCheckpointCount : Option Nat
  delegation : Map Address Address
  lastTouched : Map Nat Nat
  nextDividendEpoch : Option Nat
  dividendSnapshot : Map Nat DividendSnapshot
  quorumReached : Map Nat Bool
  registryContract : Option Address
  pendingAdmin : Option Address
  pauseControl : PauseControl.Store

def Storage.empty : Storage where
  admin := none
  config := none
  nextProposalId := none
  proposal := .empty
  vote := .empty
  tokenBalanceSnapshot := .empty
  checkpoint := .empty
  checkpointCount := .empty
  totalSupplyCheckpoint := .empty
  totalSupplyCheckpointCount := none
  delegation := .empty
  lastTouched := .empty
  nextDividendEpoch := none
  dividendSnapshot := .empty
  quorumReached := .empty
  registryContract := none
  pendingAdmin := none
  pauseControl := .empty

/-- Answers of a registry to `is_active`, `deactivate_talos` and
`activate_talos`; `none` when the cross-contract call traps. -/
structure Remote where
  isActive : Address → Nat → Option Bool
  deactivateTalos : Address → Nat → Option Unit
  activateTalos : Address → Nat → Option Unit

abbrev Result (α : Type) := Outcome Empty α

def pauseProposalCreation : Nat := 7

def pauseGovernanceVoting : Nat := 8

def pauseGovernanceConfig : Nat := 9

/-! ### Helpers -/

def requireConfig (s : Storage) : Result GovernanceConfig :=
  orReject s.config (.panic "Contract not initialized")

def requireAdmin (e : Env Remote) (s : Storage) (admin : Address) : Result Unit := do
  requireAuth e admin
  let storedAdmin ← orReject s.admin (.panic "Contract not initialized")
  rejectIf (storedAdmin ≠ admin) (.panic "Unauthorized admin")

/-- `pause_control::check_not_paused`, whose lazy expiry may write. -/
def checkNotPaused (e : Env Remote) (s : Storage) (domainId : Nat) : Result Storage := do
  let store ← PauseControl.checkNotPaused e s.pauseControl domainId
  .ok { s with pauseControl := store }

def nextProposalId (s : Storage) : Nat := s.nextProposalId.getD 1

/-! ### Voting power

The lookups at a past ledger and the writes of `update_voting_power` have the
same code for accounts and for the total supply, over different keys. -/

/-- `.unwrap()` of a missing checkpoint. -/
def missingCheckpoint : Trap Empty := .panic "called Option::unwrap() on a None value"

/-- The binary search of both lookups over the checkpoints `ck`. -/
def searchCheckpoints (ck : Nat → Option Checkpoint) (ledger low high : Nat) : Result Int :=
  if low < high then
    let mid := high - (high - low) / 2
    match ck mid with
    | none => .error missingCheckpoint
    | some c =>
      if c.ledger = ledger then .ok c.votes
      else if c.ledger < ledger then searchCheckpoints ck ledger mid high
      else searchCheckpoints ck ledger low (mid - 1)
  else do
    let found ← orReject (ck low) missingCheckpoint
    .ok found.votes
termination_by high - low

/-- The votes of the last of `count` checkpoints at or before `ledger`, or
`fallback` when all of them are later. -/
def lookupCheckpoints (ck : Nat → Option Checkpoint) (count ledger : Nat) (fallback : Int) :
    Result Int :=
  if count = 0 then .ok fallback
  else do
    let latest ← orReject (ck (count - 1)) missingCheckpoint
    if latest.ledger ≤ ledger then .ok latest.votes
    else do
      let earliest ← orReject (ck 0) missingCheckpoint
      if earliest.ledger > ledger then .ok fallback
      else searchCheckpoints ck ledger 0 (count - 1)

def getPastVotes (s : Storage) (account : Address) (ledger : Nat) : Result Int :=
  lookupCheckpoints (fun i => s.checkpoint (account, i)) ((s.checkpointCount account).getD 0)
    ledger ((s.tokenBalanceSnapshot (ledger, account)).getD 0)

def getPastTotalSupply (s : Storage) (ledger : Nat) : Result Int :=
  lookupCheckpoints s.totalSupplyCheckpoint (s.totalSupplyCheckpointCount.getD 0) ledger 0

/-- The account whose power a vote of `voter` counts. -/
def delegateeOf (s : Storage) (voter : Address) : Address := (s.delegation voter).getD voter

def getVoteWeight (s : Storage) (snapshotLedger : Nat) (voter : Address) : Result Int :=
  getPastVotes s (delegateeOf s voter) snapshotLedger

def computeQuorumThreshold (s : Storage) (config : GovernanceConfig) (snapshotLedger : Nat) :
    Result Int :=
  match config.quorumBps with
  | some bps => do
      let supply ← getPastTotalSupply s snapshotLedger
      if supply ≤ 0 then .ok 0
      else do
        let scaled ← i128 (supply * bps)
        let raised ← i128 (scaled + 9999)
        divI128 raised 10000
  | none => .ok config.quorumThreshold

/-- The last of `count` checkpoints, whose votes are `0` when there is none. -/
def lastVotes {K : Type} (m : Map K Checkpoint) (key : Nat → K) (count : Nat) : Result Int :=
  if count > 0 then do
    let last ← orReject (m (key (count - 1))) missingCheckpoint
    .ok last.votes
  else .ok 0

/-- Record `votes` at `ledger`: over the last checkpoint when it is of the same
ledger, after it otherwise. Returns the new count. -/
def writeCheckpoint {K : Type} [DecidableEq K] (m : Map K Checkpoint) (key : Nat → K)
    (count ledger : Nat) (votes : Int) : Result (Map K Checkpoint × Nat) :=
  if count > 0 then do
    let last ← orReject (m (key (count - 1))) missingCheckpoint
    if last.ledger = ledger then .ok (m.set (key (count - 1)) { last with votes }, count)
    else do
      let next ← addU32 count 1
      .ok (m.set (key count) ⟨ledger, votes⟩, next)
  else do
    let next ← addU32 count 1
    .ok (m.set (key count) ⟨ledger, votes⟩, next)

/-- Where a count does not change it is written back as it was read. There is no
check on the sign of `newBalance`. -/
def updateVotingPower (e : Env Remote) (s : Storage) (admin account : Address)
    (newBalance : Int) : Result Storage := do
  let s ← checkNotPaused e s pauseGovernanceConfig
  requireAdmin e s admin
  let count := (s.checkpointCount account).getD 0
  let oldBalance ← lastVotes s.checkpoint (account, ·) count
  let delta ← i128 (newBalance - oldBalance)
  let (checkpoint, newCount) ←
    writeCheckpoint s.checkpoint (account, ·) count e.sequence newBalance
  let totalCount := s.totalSupplyCheckpointCount.getD 0
  let prevTotalSupply ← lastVotes s.totalSupplyCheckpoint id totalCount
  let newTotalSupply ← i128 (prevTotalSupply + delta)
  let (totalSupplyCheckpoint, newTotalCount) ←
    writeCheckpoint s.totalSupplyCheckpoint id totalCount e.sequence newTotalSupply
  .ok { s with
    checkpoint
    checkpointCount := s.checkpointCount.set account newCount
    totalSupplyCheckpoint
    totalSupplyCheckpointCount := some newTotalCount }

def cacheTokenBalance (e : Env Remote) (s : Storage) (admin : Address) (ledger : Nat)
    (address : Address) (balance : Int) : Result Storage := do
  let s ← checkNotPaused e s pauseGovernanceConfig
  requireAdmin e s admin
  rejectIf (balance < 0) (.panic "Balance cannot be negative")
  .ok { s with tokenBalanceSnapshot := s.tokenBalanceSnapshot.set (ledger, address) balance }

def delegate (e : Env Remote) (s : Storage) (delegator delegatee : Address) : Result Storage := do
  let s ← checkNotPaused e s pauseGovernanceConfig
  requireAuth e delegator
  .ok { s with delegation := s.delegation.set delegator delegatee }

/-! ### Deciding a proposal -/

/-- Decide a proposal on the votes it has. Without votes and with a quorum of
`0` this divides by zero. -/
def finalizeStatus (s : Storage) (proposal : Proposal) : Result Proposal := do
  let config ← requireConfig s
  let totalVotes ← i128 (proposal.yesVotes + proposal.noVotes)
  let quorumThreshold ← computeQuorumThreshold s config proposal.snapshotLedger
  if totalVotes < quorumThreshold then .ok { proposal with status := .rejected }
  else do
    let scaled ← i128 (proposal.yesVotes * 10000)
    let approvalBps ← divI128 scaled totalVotes
    .ok { proposal with
      status := if approvalBps ≥ config.consensusThreshold then .approved else .rejected }

/-- `approval_bps` in the payload of `EventQuorumReached`. -/
def quorumEventBps (proposal : Proposal) (totalVotes : Int) : Result Int :=
  if totalVotes > 0 then do
    let scaled ← i128 (proposal.yesVotes * 10000)
    divI128 scaled totalVotes
  else .ok 0

/-- The sentinel of `EventQuorumReached`, written once, and the trap its payload
can cause. -/
def markQuorumReached (s : Storage) (proposal : Proposal) (totalVotes : Int) : Result Storage :=
  if (s.quorumReached proposal.id).getD false = false then do
    let _approvalBps ← quorumEventBps proposal totalVotes
    .ok { s with quorumReached := s.quorumReached.set proposal.id true }
  else .ok s

/-- Decide the proposal as soon as its votes reach the quorum. -/
def updateStatusIfQuorum (s : Storage) (proposal : Proposal) : Result (Proposal × Storage) := do
  let config ← requireConfig s
  let totalVotes ← i128 (proposal.yesVotes + proposal.noVotes)
  let quorumThreshold ← computeQuorumThreshold s config proposal.snapshotLedger
  if totalVotes ≥ quorumThreshold then do
    let s ← markQuorumReached s proposal totalVotes
    let proposal ← finalizeStatus s proposal
    .ok (proposal, s)
  else .ok (proposal, s)

/-! ### Proposals and votes -/

/-- The registry must know the Talos as active; without a registry the check is
skipped. -/
def verifyTalos (e : Env Remote) (s : Storage) (talosId : Nat) : Result Unit :=
  match s.registryContract with
  | none => .ok ()
  | some registry => do
      let isActive ← orReject (e.remote.isActive registry talosId) (.panic "is_active call failed")
      rejectIf (isActive = false) (.panic "Talos is not active or does not exist")

def validateTexts (title description : Bytes) : Result Unit := do
  rejectIf (title.length = 0) (.panic "Title cannot be empty")
  rejectIf (title.length > maxTitleLen) (.panic "Title exceeds maximum length")
  rejectIf (description.length = 0) (.panic "Description cannot be empty")
  rejectIf (description.length > maxDescriptionLen) (.panic "Description exceeds maximum length")

/-- The part of both creation entry points after their checks. -/
def storeProposal (e : Env Remote) (s : Storage) (proposer : Address) (talosId : Nat)
    (title description : Bytes) (action : Option ProposalAction) : Result (Nat × Storage) := do
  let config ← requireConfig s
  let snapshotOffset := config.snapshotOffsetLedgers.getD defaultSnapshotOffsetLedgers
  let snapshotLedger := e.sequence - snapshotOffset
  let proposalId := nextProposalId s
  let endLedger ← addU32 e.sequence config.votingPeriodLedgers
  let proposal : Proposal :=
    { id := proposalId, talosId, proposer, title, description, snapshotLedger
      startLedger := e.sequence, endLedger, status := .active
      yesVotes := 0, noVotes := 0, totalVoters := 0, createdAt := e.timestamp, action }
  let nextId ← addU32 proposalId 1
  .ok (proposalId, { s with
    proposal := s.proposal.set proposalId proposal
    nextProposalId := some nextId })

/-- The registry is asked twice. -/
def createProposal (e : Env Remote) (s : Storage) (proposer : Address) (talosId : Nat)
    (title description : Bytes) : Result (Nat × Storage) := do
  let s ← checkNotPaused e s pauseProposalCreation
  requireAuth e proposer
  validateTexts title description
  verifyTalos e s talosId
  verifyTalos e s talosId
  storeProposal e s proposer talosId title description none

def createProposalWithAction (e : Env Remote) (s : Storage) (proposer : Address) (talosId : Nat)
    (title description : Bytes) (action : Option ProposalAction) : Result (Nat × Storage) := do
  let s ← checkNotPaused e s pauseProposalCreation
  requireAuth e proposer
  validateTexts title description
  verifyTalos e s talosId
  storeProposal e s proposer talosId title description action

/-- Not gated by any pause domain. -/
def cancelProposal (e : Env Remote) (s : Storage) (proposer : Address) (proposalId : Nat) :
    Result Storage := do
  requireAuth e proposer
  let proposal ← orReject (s.proposal proposalId) (.panic "Proposal not found")
  rejectIf (proposal.proposer ≠ proposer) (.panic "Only the proposer can cancel this proposal")
  rejectIf (proposal.status ≠ .active) (.panic "Only active proposals can be cancelled")
  rejectIf (proposal.totalVoters > 0)
    (.panic "Cannot cancel a proposal that has already received votes")
  .ok { s with proposal := s.proposal.set proposalId { proposal with status := .cancelled } }

/-- Add the weight of a vote to its side and count the voter. -/
def Proposal.addVote (proposal : Proposal) (choice : VoteChoice) (weight : Int) :
    Result Proposal := do
  let proposal ← match choice with
    | .approve => do
        let yesVotes ← i128 (proposal.yesVotes + weight)
        .ok { proposal with yesVotes }
    | .reject => do
        let noVotes ← i128 (proposal.noVotes + weight)
        .ok { proposal with noVotes }
  let totalVoters ← addU32 proposal.totalVoters 1
  .ok { proposal with totalVoters }

def vote (e : Env Remote) (s : Storage) (voter : Address) (proposalId : Nat)
    (choice : VoteChoice) : Result Storage := do
  let s ← checkNotPaused e s pauseGovernanceVoting
  requireAuth e voter
  let proposal ← orReject (s.proposal proposalId) (.panic "Proposal not found")
  rejectIf (proposal.status ≠ .active) (.panic "Proposal is not active")
  rejectIf (e.sequence > proposal.endLedger) (.panic "Voting period has ended")
  rejectIf ((s.vote (proposalId, voter)).isSome = true) (.panic "Already voted on this proposal")
  let weight ← getVoteWeight s proposal.snapshotLedger voter
  rejectIf (weight ≤ 0) (.panic "No voting power")
  let proposal ← proposal.addVote choice weight
  let s := { s with vote := s.vote.set (proposalId, voter) ⟨voter, choice, weight, e.timestamp⟩ }
  let (proposal, s) ← updateStatusIfQuorum s proposal
  .ok { s with proposal := s.proposal.set proposalId proposal }

/-- Not gated by any pause domain. -/
def finalizeProposal (e : Env Remote) (s : Storage) (proposalId : Nat) : Result Storage := do
  let proposal ← orReject (s.proposal proposalId) (.panic "Proposal not found")
  rejectIf (proposal.status ≠ .active) (.panic "Proposal is not active")
  rejectIf (e.sequence ≤ proposal.endLedger) (.panic "Voting period has not ended")
  let proposal ← finalizeStatus s proposal
  .ok { s with proposal := s.proposal.set proposalId proposal }

/-- The numeric bounds of `initialize` and of an `UpdateConfig` action. -/
def validateThresholds (quorumThreshold consensusThreshold : Int) (votingPeriodLedgers : Nat) :
    Result Unit := do
  rejectIf (quorumThreshold ≤ 0) (.panic "Quorum must be positive")
  rejectIf (consensusThreshold ≤ 0 ∨ consensusThreshold > 10000)
    (.panic "Consensus threshold must be 1..10000 bps")
  rejectIf (votingPeriodLedgers = 0) (.panic "Voting period must be positive")

def dispatchAction (e : Env Remote) (s : Storage) : ProposalAction → Result Storage
  | .pauseTalos registry talosId => do
      let _done ← orReject (e.remote.deactivateTalos registry talosId)
        (.panic "deactivate_talos call failed")
      .ok s
  | .resumeTalos registry talosId => do
      let _done ← orReject (e.remote.activateTalos registry talosId)
        (.panic "activate_talos call failed")
      .ok s
  | .updateConfig quorumThreshold consensusThreshold votingPeriodLedgers => do
      validateThresholds quorumThreshold consensusThreshold votingPeriodLedgers
      let existing ← requireConfig s
      .ok { s with
        config := some { existing with quorumThreshold, consensusThreshold, votingPeriodLedgers } }

/-- A title-only proposal has nothing to dispatch. -/
def dispatchOptional (e : Env Remote) (s : Storage) : Option ProposalAction → Result Storage
  | some action => dispatchAction e s action
  | none => .ok s

/-- Callable by anyone, and not gated by any pause domain. -/
def executeProposal (e : Env Remote) (s : Storage) (proposalId : Nat) : Result Storage := do
  let proposal ← orReject (s.proposal proposalId) (.panic "Proposal not found")
  rejectIf (proposal.status ≠ .approved) (.panic "Proposal is not approved")
  let s ← dispatchOptional e s proposal.action
  .ok { s with proposal := s.proposal.set proposalId { proposal with status := .executed } }

/-! ### Configuration and admin -/

def initializeContract (e : Env Remote) (s : Storage) (admin pulseTokenAddress : Address)
    (quorumThreshold consensusThreshold : Int) (votingPeriodLedgers : Nat) : Result Storage := do
  requireAuth e admin
  rejectIf (s.admin.isSome = true) (.panic "Already initialized")
  validateThresholds quorumThreshold consensusThreshold votingPeriodLedgers
  .ok { s with
    admin := some admin
    config := some
      { quorumThreshold, consensusThreshold, votingPeriodLedgers, pulseTokenAddress
        snapshotOffsetLedgers := none, quorumBps := none }
    nextProposalId := some 1
    nextDividendEpoch := some 1 }

/-- With `quorum_bps` set the absolute threshold may be `0`. -/
def validateQuorum (config : GovernanceConfig) : Result Unit :=
  match config.quorumBps with
  | some bps => do
      rejectIf (bps = 0 ∨ bps > 10000) (.panic "Quorum bps must be 1..10000")
      rejectIf (config.quorumThreshold < 0) (.panic "Quorum threshold cannot be negative")
  | none => rejectIf (config.quorumThreshold ≤ 0) (.panic "Quorum must be positive")

def updateConfig (e : Env Remote) (s : Storage) (admin : Address) (config : GovernanceConfig) :
    Result Storage := do
  let s ← checkNotPaused e s pauseGovernanceConfig
  requireAdmin e s admin
  validateQuorum config
  rejectIf (config.consensusThreshold ≤ 0 ∨ config.consensusThreshold > 10000)
    (.panic "Consensus threshold must be 1..10000 bps")
  rejectIf (config.votingPeriodLedgers = 0) (.panic "Voting period must be positive")
  rejectIf (∃ offset ∈ config.snapshotOffsetLedgers, offset > maxSnapshotOffsetLedgers)
    (.panic "Snapshot offset exceeds maximum allowed")
  let _old ← requireConfig s
  .ok { s with config := some config }

def setRegistryContract (e : Env Remote) (s : Storage) (admin registry : Address) :
    Result Storage := do
  let s ← checkNotPaused e s pauseGovernanceConfig
  requireAdmin e s admin
  .ok { s with registryContract := some registry }

/-- Not gated by any pause domain. -/
def recordDividendSnapshot (e : Env Remote) (s : Storage) (admin : Address) (talosId : Nat)
    (totalUsdc perTokenUsdc : Int) : Result (Nat × Storage) := do
  requireAdmin e s admin
  rejectIf (totalUsdc < 0) (.panic "total_usdc cannot be negative")
  rejectIf (perTokenUsdc < 0) (.panic "per_token_usdc cannot be negative")
  let epoch := s.nextDividendEpoch.getD 1
  let snapshot : DividendSnapshot :=
    { epoch, talosId, totalUsdc, perTokenUsdc, snapshotLedger := e.sequence
      createdAt := e.timestamp }
  let nextEpoch ← addU32 epoch 1
  .ok (epoch, { s with
    dividendSnapshot := s.dividendSnapshot.set epoch snapshot
    nextDividendEpoch := some nextEpoch })

def proposeAdmin (e : Env Remote) (s : Storage) (newAdmin : Address) : Result Storage := do
  let s ← checkNotPaused e s pauseGovernanceConfig
  let current ← orReject s.admin (.panic "Contract not initialized")
  requireAuth e current
  .ok { s with pendingAdmin := some newAdmin }

def acceptAdmin (e : Env Remote) (s : Storage) : Result Storage := do
  let pending ← orReject s.pendingAdmin (.panic "No pending admin transfer")
  requireAuth e pending
  .ok { s with admin := some pending, pendingAdmin := none }

def cancelAdminTransfer (e : Env Remote) (s : Storage) : Result Storage := do
  let current ← orReject s.admin (.panic "Contract not initialized")
  requireAuth e current
  let _pending ← orReject s.pendingAdmin (.panic "No pending admin transfer")
  .ok { s with pendingAdmin := none }

/-! ### Pauses -/

def pauseDomain (e : Env Remote) (s : Storage) (domainId duration : Nat) : Result Storage := do
  let admin ← orReject s.admin (.panic "Contract not initialized")
  let store ← PauseControl.pauseDomain e s.pauseControl domainId admin duration
  .ok { s with pauseControl := store }

def unpauseDomain (e : Env Remote) (s : Storage) (domainId : Nat) : Result Storage := do
  let admin ← orReject s.admin (.panic "Contract not initialized")
  let store ← PauseControl.unpauseDomain e s.pauseControl domainId admin
  .ok { s with pauseControl := store }

/-- It runs the guard, so it traps where the answer would be `true`, and it may
write an elapsed pause back. -/
def isDomainPaused (e : Env Remote) (s : Storage) (domainId : Nat) : Result (Bool × Storage) := do
  let s ← checkNotPaused e s domainId
  .ok (PauseControl.isPaused s.pauseControl domainId, s)

/-! ### Storage TTL management -/

/-- The admin key, under marker id 0, and the proposals as age-tracked entries. -/
def trackedKeys : Tracked Storage where
  present s id := if id = 0 then s.admin.isSome else (s.proposal id).isSome
  lastTouched s id := (s.lastTouched id).getD 0
  renew currentLedger s id :=
    if id = 0 then { s with lastTouched := s.lastTouched.set 0 currentLedger }
    else { s with
      proposal := s.proposal.refresh id
      lastTouched := s.lastTouched.set id currentLedger }

def touchProposal (e : Env Remote) (s : Storage) (proposalId : Nat) : Result (Bool × Storage) := do
  let proposal ← orReject (s.proposal proposalId) (.panic "Proposal not found")
  if needsTouch ((s.lastTouched proposalId).getD 0) e.sequence then
    .ok (true, { s with
      proposal := s.proposal.set proposalId proposal
      lastTouched := s.lastTouched.set proposalId e.sequence })
  else .ok (false, s)

/-- `range` holds proposal ids, which start at 1. -/
def sweepGovernanceTtl (e : Env Remote) (s : Storage) (bounds : TtlBounds) (range : List Nat) :
    (Nat × Nat) × Storage :=
  let (swept, s) := sweep trackedKeys e.sequence bounds (0 :: range) s
  ((swept.touched, swept.skipped), s)

def touchAllTtl (e : Env Remote) (s : Storage) : Result ((Nat × Nat) × Storage) := do
  let s ← checkNotPaused e s pauseGovernanceConfig
  let admin ← orReject s.admin (.panic "Contract not initialized")
  requireAuth e admin
  .ok (sweepGovernanceTtl e s .renewal (idRange 1 (nextProposalId s)))

def extendTtlBatch (e : Env Remote) (s : Storage) (limit minAge maxAge : Nat) :
    Result ((Nat × Nat) × Storage) := do
  let s ← checkNotPaused e s pauseGovernanceConfig
  let admin ← orReject s.admin (.panic "Contract not initialized")
  requireAuth e admin
  let bounds : TtlBounds := ⟨minAge, maxAge, defaultMaxBatchKeys⟩
  let range ← orPanic (boundedRange 1 limit bounds (nextProposalId s))
  .ok (sweepGovernanceTtl e s bounds range)

/-! ### The contract -/

inductive Call where
  | initializeContract (admin pulseTokenAddress : Address)
      (quorumThreshold consensusThreshold : Int) (votingPeriodLedgers : Nat)
  | createProposal (proposer : Address) (talosId : Nat) (title description : Bytes)
  | createProposalWithAction (proposer : Address) (talosId : Nat) (title description : Bytes)
      (action : Option ProposalAction)
  | cancelProposal (proposer : Address) (proposalId : Nat)
  | vote (voter : Address) (proposalId : Nat) (choice : VoteChoice)
  | finalizeProposal (proposalId : Nat)
  | executeProposal (proposalId : Nat)
  | cacheTokenBalance (admin : Address) (ledger : Nat) (address : Address) (balance : Int)
  | updateConfig (admin : Address) (config : GovernanceConfig)
  | setRegistryContract (admin registry : Address)
  | setRegistry (admin registry : Address)
  | recordDividendSnapshot (admin : Address) (talosId : Nat) (totalUsdc perTokenUsdc : Int)
  | delegate (delegator delegatee : Address)
  | updateVotingPower (admin account : Address) (newBalance : Int)
  | proposeAdmin (newAdmin : Address)
  | acceptAdmin
  | cancelAdminTransfer
  | pauseDomain (domainId duration : Nat)
  | unpauseDomain (domainId : Nat)
  | isDomainPaused (domainId : Nat)
  | touchProposal (proposalId : Nat)
  | touchAllTtl
  | extendTtlBatch (limit minAge maxAge : Nat)
deriving DecidableEq, Repr

inductive Value where
  | unit
  | id (n : Nat)
  | flag (b : Bool)
  | counts (touched skipped : Nat)
deriving DecidableEq, Repr

def exec (e : Env Remote) (s : Storage) : Call → Result (Value × Storage)
  | .initializeContract admin pulseTokenAddress quorumThreshold consensusThreshold
      votingPeriodLedgers =>
      silent .unit (initializeContract e s admin pulseTokenAddress quorumThreshold
        consensusThreshold votingPeriodLedgers)
  | .createProposal proposer talosId title description =>
      returning .id (createProposal e s proposer talosId title description)
  | .createProposalWithAction proposer talosId title description action =>
      returning .id (createProposalWithAction e s proposer talosId title description action)
  | .cancelProposal proposer proposalId => silent .unit (cancelProposal e s proposer proposalId)
  | .vote voter proposalId choice => silent .unit (vote e s voter proposalId choice)
  | .finalizeProposal proposalId => silent .unit (finalizeProposal e s proposalId)
  | .executeProposal proposalId => silent .unit (executeProposal e s proposalId)
  | .cacheTokenBalance admin ledger address balance =>
      silent .unit (cacheTokenBalance e s admin ledger address balance)
  | .updateConfig admin config => silent .unit (updateConfig e s admin config)
  | .setRegistryContract admin registry | .setRegistry admin registry =>
      silent .unit (setRegistryContract e s admin registry)
  | .recordDividendSnapshot admin talosId totalUsdc perTokenUsdc =>
      returning .id (recordDividendSnapshot e s admin talosId totalUsdc perTokenUsdc)
  | .delegate delegator delegatee => silent .unit (delegate e s delegator delegatee)
  | .updateVotingPower admin account newBalance =>
      silent .unit (updateVotingPower e s admin account newBalance)
  | .proposeAdmin newAdmin => silent .unit (proposeAdmin e s newAdmin)
  | .acceptAdmin => silent .unit (acceptAdmin e s)
  | .cancelAdminTransfer => silent .unit (cancelAdminTransfer e s)
  | .pauseDomain domainId duration => silent .unit (pauseDomain e s domainId duration)
  | .unpauseDomain domainId => silent .unit (unpauseDomain e s domainId)
  | .isDomainPaused domainId => returning .flag (isDomainPaused e s domainId)
  | .touchProposal proposalId => returning .flag (touchProposal e s proposalId)
  | .touchAllTtl => returning (fun counts => .counts counts.1 counts.2) (touchAllTtl e s)
  | .extendTtlBatch limit minAge maxAge =>
      returning (fun counts => .counts counts.1 counts.2) (extendTtlBatch e s limit minAge maxAge)

def contract : Contract Remote Storage Call Value Empty where
  init := .empty
  exec := exec

end Talos.Governance
