import Talos.Governance.Model

/-!
# What the governance entry points do

As for the registry: `Effect` lists the ways an accepted call can change the
storage, each with the guards it passed, and `exec_effect` says that there are
no others. Deciding a proposal reads the configuration and the total supply
only, so a vote decides as if the proposal were finalized where the vote found
the storage.
-/

namespace Talos.Governance

open Talos.Soroban Talos.TtlManager Talos.PauseControl

variable {e : Env Remote} {s s' : Storage} {c : Call} {v : Value} {p p' : Proposal}

/-! ### The guard -/

/-- The storage after the pause guard of a domain let a call through. -/
def Storage.guarded (e : Env Remote) (s : Storage) (domainId : Nat) : Storage :=
  { s with pauseControl := (expireIfElapsed e s.pauseControl domainId).2 }

/-- The pause guard lets calls of the domain through. -/
def Open (e : Env Remote) (s : Storage) (domainId : Nat) : Prop :=
  inForce e.timestamp s.pauseControl domainId = false

theorem checkNotPaused_eq_ok {domainId : Nat} :
    checkNotPaused e s domainId = .ok s' ↔ Open e s domainId ∧ s' = s.guarded e domainId := by
  simp only [checkNotPaused, bind_eq_ok, PauseControl.checkNotPaused_eq_ok, Except.ok.injEq]
  constructor
  · rintro ⟨_, ⟨isOpen, rfl⟩, rfl⟩
    exact ⟨isOpen, rfl⟩
  · rintro ⟨isOpen, rfl⟩
    exact ⟨_, ⟨isOpen, rfl⟩, rfl⟩

theorem requireAdmin_eq_ok {admin : Address} {u : Unit} :
    requireAdmin e s admin = .ok u ↔ e.auth admin = true ∧ s.admin = some admin := by
  simp only [requireAdmin, bind_eq_ok, requireAuth_eq_ok, orReject_eq_ok, rejectIf_eq_ok,
    Decidable.not_not]
  constructor
  · rintro ⟨_, signed, _, stored, rfl⟩
    exact ⟨signed, stored⟩
  · rintro ⟨signed, stored⟩
    exact ⟨(), signed, admin, stored, rfl⟩

/-! ### Decisions -/

theorem computeQuorumThreshold_congr (config : GovernanceConfig) (ledger : Nat)
    (checkpoints : s'.totalSupplyCheckpoint = s.totalSupplyCheckpoint)
    (count : s'.totalSupplyCheckpointCount = s.totalSupplyCheckpointCount) :
    computeQuorumThreshold s' config ledger = computeQuorumThreshold s config ledger := by
  rw [computeQuorumThreshold, computeQuorumThreshold, getPastTotalSupply, getPastTotalSupply,
    checkpoints, count]

/-- The quorum a proposal has to reach, under the configuration in force. -/
def Quorum (s : Storage) (p : Proposal) (config : GovernanceConfig) (q : Int) : Prop :=
  s.config = some config ∧ computeQuorumThreshold s config p.snapshotLedger = .ok q

/-- All votes cast on a proposal. -/
def Proposal.totalVotes (p : Proposal) : Int := p.yesVotes + p.noVotes

/-- The consensus check: the floored share of approving votes, in basis points. -/
def Proposal.hasConsensus (p : Proposal) (config : GovernanceConfig) : Prop :=
  p.totalVotes ≠ 0 ∧ config.consensusThreshold ≤ (p.yesVotes * 10000).tdiv p.totalVotes

/-- The approval of a proposal with votes is computed without a trap when its
scaled tally fits. -/
theorem approval_ok (yes : 0 ≤ p.yesVotes) (some : 0 < p.totalVotes)
    (fits : p.yesVotes * 10000 ≤ i128Max) : ∃ bps, (do
      let scaled ← i128 (p.yesVotes * 10000)
      divI128 scaled p.totalVotes : Result Int) = .ok bps := by
  have small : 0 ≤ (p.yesVotes * 10000).tdiv p.totalVotes ∧
      (p.yesVotes * 10000).tdiv p.totalVotes ≤ p.yesVotes * 10000 := by
    rw [Int.tdiv_eq_ediv_of_nonneg (by omega)]
    exact ⟨Int.ediv_nonneg (by omega) (by omega), Int.ediv_le_self _ (by omega)⟩
  refine ⟨(p.yesVotes * 10000).tdiv p.totalVotes, ?_⟩
  simp only [bind_eq_ok, i128_eq_ok, divI128_eq_ok, i128Min]
  exact ⟨p.yesVotes * 10000, ⟨by omega, rfl⟩, by omega, by omega, rfl⟩

theorem finalizeStatus_ok (ok : finalizeStatus s p = .ok p') :
    ∃ config q, Quorum s p config q ∧
      ((p.totalVotes < q ∧ p' = { p with status := .rejected }) ∨
        (q ≤ p.totalVotes ∧ p.hasConsensus config ∧ p' = { p with status := .approved }) ∨
        (q ≤ p.totalVotes ∧ ¬ p.hasConsensus config ∧ p' = { p with status := .rejected })) := by
  simp only [finalizeStatus, requireConfig, bind_eq_ok, orReject_eq_ok, i128_eq_ok] at ok
  obtain ⟨config, configured, total, ⟨_, rfl⟩, q, threshold, ok⟩ := ok
  refine ⟨config, q, ⟨configured, threshold⟩, ?_⟩
  split at ok
  · next below =>
    obtain rfl := by simpa using ok
    exact .inl ⟨below, rfl⟩
  · next reached =>
    simp only [bind_eq_ok, i128_eq_ok, divI128_eq_ok, Except.ok.injEq] at ok
    obtain ⟨_, ⟨_, rfl⟩, _, ⟨nonzero, _, rfl⟩, rfl⟩ := ok
    have reached' : q ≤ p.totalVotes := Int.not_lt.mp reached
    split
    · next agreed => exact .inr (.inl ⟨reached', ⟨nonzero, agreed⟩, rfl⟩)
    · next refused => exact .inr (.inr ⟨reached', fun consensus => refused consensus.2, rfl⟩)

/-- What a vote does to the proposal once it is counted: nothing below the
quorum, else the decision. -/
def Decides (s : Storage) (counted decided : Proposal) : Prop :=
  ∃ config q, Quorum s counted config q ∧
    ((counted.totalVotes < q ∧ decided = counted) ∨
      (q ≤ counted.totalVotes ∧ finalizeStatus s counted = .ok decided))

theorem markQuorumReached_ok {total : Int} (ok : markQuorumReached s p total = .ok s') :
    ∃ quorumReached, s' = { s with quorumReached } := by
  unfold markQuorumReached at ok
  split at ok
  · simp only [bind_eq_ok, Except.ok.injEq] at ok
    obtain ⟨_, _, rfl⟩ := ok
    exact ⟨_, rfl⟩
  · cases ok
    exact ⟨s.quorumReached, rfl⟩

theorem updateStatusIfQuorum_ok (ok : updateStatusIfQuorum s p = .ok (p', s')) :
    Decides s p p' ∧ ∃ quorumReached, s' = { s with quorumReached } := by
  simp only [updateStatusIfQuorum, requireConfig, bind_eq_ok, orReject_eq_ok, i128_eq_ok] at ok
  obtain ⟨config, configured, total, ⟨_, rfl⟩, q, threshold, ok⟩ := ok
  split at ok
  · next reached =>
    simp only [bind_eq_ok, Except.ok.injEq, Prod.mk.injEq] at ok
    obtain ⟨s₁, sentinel, decided, final, rfl, rfl⟩ := ok
    obtain ⟨quorumReached, rfl⟩ := markQuorumReached_ok sentinel
    exact ⟨⟨config, q, ⟨configured, threshold⟩, .inr ⟨reached, final⟩⟩, quorumReached, rfl⟩
  · next below =>
    cases ok
    exact ⟨⟨config, q, ⟨configured, threshold⟩, .inl ⟨Int.not_le.mp below, rfl⟩⟩, _, rfl⟩

/-- What a vote counts for one side. -/
def Vote.weightFor (side : VoteChoice) (v : Vote) : Int := if v.choice = side then v.weight else 0

theorem addVote_ok {choice : VoteChoice} {weight : Int} {counted : Proposal}
    (ok : p.addVote choice weight = .ok counted) (voter : Address) (votedAt : Nat) :
    counted = { p with
      yesVotes := p.yesVotes + Vote.weightFor .approve ⟨voter, choice, weight, votedAt⟩
      noVotes := p.noVotes + Vote.weightFor .reject ⟨voter, choice, weight, votedAt⟩
      totalVoters := p.totalVoters + 1 } := by
  cases choice with
  | approve | reject =>
    simp only [Proposal.addVote, bind_eq_ok, i128_eq_ok, addU32_eq_ok, Except.ok.injEq] at ok
    obtain ⟨_, ⟨_, rfl⟩, _, rfl, _, ⟨_, rfl⟩, rfl⟩ := ok
    simp [Vote.weightFor]

/-! ### Effects -/

/-- A proposal as it is created: undecided, without votes, its snapshot and its
end computed from the configuration of the moment. -/
structure Proposed (e : Env Remote) (s : Storage) (p : Proposal) : Prop where
  id : p.id = nextProposalId s
  status : p.status = .active
  yesVotes : p.yesVotes = 0
  noVotes : p.noVotes = 0
  totalVoters : p.totalVoters = 0
  startLedger : p.startLedger = e.sequence
  window : ∃ config, s.config = some config ∧
    p.snapshotLedger =
      e.sequence - config.snapshotOffsetLedgers.getD defaultSnapshotOffsetLedgers ∧
    p.endLedger = e.sequence + config.votingPeriodLedgers

/-- The proposer of the proposal a call creates. -/
def Call.creator : Call → Option Address
  | .createProposal proposer _ _ _ | .createProposalWithAction proposer _ _ _ _ => some proposer
  | _ => none

/-- The configuration after the action of an executed proposal. -/
def ConfigAfter (s : Storage) (config : Option GovernanceConfig) : Option ProposalAction → Prop
  | some (.updateConfig quorumThreshold consensusThreshold votingPeriodLedgers) =>
      ∃ existing, s.config = some existing ∧ 0 < quorumThreshold ∧ 0 < consensusThreshold ∧
        consensusThreshold ≤ 10000 ∧ 0 < votingPeriodLedgers ∧
        config =
          some { existing with quorumThreshold, consensusThreshold, votingPeriodLedgers }
  | _ => config = s.config

/-- What a vote has checked and counted. -/
structure Cast (e : Env Remote) (s : Storage) (voter : Address) (proposalId : Nat)
    (choice : VoteChoice) (p counted : Proposal) (weight : Int) : Prop where
  isOpen : Open e s pauseGovernanceVoting
  signed : e.auth voter = true
  found : s.proposal proposalId = some p
  active : p.status = .active
  inTime : e.sequence ≤ p.endLedger
  fresh : s.vote (proposalId, voter) = none
  power : getVoteWeight s p.snapshotLedger voter = .ok weight
  positive : 0 < weight
  adds : p.addVote choice weight = .ok counted

inductive Effect (e : Env Remote) (s : Storage) : Call → Value → Storage → Prop where
  | initializeContract {admin pulseTokenAddress : Address}
      {quorumThreshold consensusThreshold : Int} {votingPeriodLedgers : Nat}
      (config : GovernanceConfig) (unset : s.admin = none) :
      Effect e s (.initializeContract admin pulseTokenAddress quorumThreshold consensusThreshold
        votingPeriodLedgers) .unit { s with
          admin := some admin
          config := some config
          nextProposalId := some 1
          nextDividendEpoch := some 1 }
  | create {c : Call} {proposer : Address} (call : c.creator = some proposer) (p : Proposal)
      (isOpen : Open e s pauseProposalCreation) (isProposer : p.proposer = proposer)
      (proposed : Proposed e s p) (room : nextProposalId s + 1 ≤ u32Max) :
      Effect e s c (.id (nextProposalId s)) { s.guarded e pauseProposalCreation with
        proposal := s.proposal.set (nextProposalId s) p
        nextProposalId := some (nextProposalId s + 1) }
  | cancelProposal {proposer : Address} {proposalId : Nat} (p : Proposal)
      (signed : e.auth proposer = true) (found : s.proposal proposalId = some p)
      (isProposer : p.proposer = proposer) (active : p.status = .active)
      (noVotes : p.totalVoters = 0) :
      Effect e s (.cancelProposal proposer proposalId) .unit { s with
        proposal := s.proposal.set proposalId { p with status := .cancelled } }
  | vote {voter : Address} {proposalId : Nat} {choice : VoteChoice} (p counted decided : Proposal)
      (weight : Int) (quorumReached : Map Nat Bool)
      (cast : Cast e s voter proposalId choice p counted weight)
      (decides : Decides s counted decided) :
      Effect e s (.vote voter proposalId choice) .unit { s.guarded e pauseGovernanceVoting with
        vote := s.vote.set (proposalId, voter) ⟨voter, choice, weight, e.timestamp⟩
        quorumReached
        proposal := s.proposal.set proposalId decided }
  | finalizeProposal {proposalId : Nat} (p decided : Proposal)
      (found : s.proposal proposalId = some p) (active : p.status = .active)
      (ended : p.endLedger < e.sequence) (final : finalizeStatus s p = .ok decided) :
      Effect e s (.finalizeProposal proposalId) .unit
        { s with proposal := s.proposal.set proposalId decided }
  | executeProposal {proposalId : Nat} (p : Proposal) (config : Option GovernanceConfig)
      (found : s.proposal proposalId = some p) (approved : p.status = .approved)
      (after : ConfigAfter s config p.action) :
      Effect e s (.executeProposal proposalId) .unit { s with
        config
        proposal := s.proposal.set proposalId { p with status := .executed } }
  | cacheTokenBalance {admin : Address} {ledger : Nat} {address : Address} {balance : Int}
      (signed : e.auth admin = true) (isAdmin : s.admin = some admin) (nonneg : 0 ≤ balance) :
      Effect e s (.cacheTokenBalance admin ledger address balance) .unit
        { s.guarded e pauseGovernanceConfig with
          tokenBalanceSnapshot := s.tokenBalanceSnapshot.set (ledger, address) balance }
  | updateConfig {admin : Address} {config : GovernanceConfig} (old : GovernanceConfig)
      (signed : e.auth admin = true) (isAdmin : s.admin = some admin)
      (configured : s.config = some old) :
      Effect e s (.updateConfig admin config) .unit
        { s.guarded e pauseGovernanceConfig with config := some config }
  | setRegistryContract {c : Call} {admin registry : Address}
      (call : c = .setRegistryContract admin registry ∨ c = .setRegistry admin registry)
      (isAdmin : s.admin = some admin) :
      Effect e s c .unit
        { s.guarded e pauseGovernanceConfig with registryContract := some registry }
  | recordDividendSnapshot {admin : Address} {talosId : Nat} {totalUsdc perTokenUsdc : Int}
      (dividendSnapshot : Map Nat DividendSnapshot) (isAdmin : s.admin = some admin) :
      Effect e s (.recordDividendSnapshot admin talosId totalUsdc perTokenUsdc)
        (.id (s.nextDividendEpoch.getD 1)) { s with
          dividendSnapshot
          nextDividendEpoch := some (s.nextDividendEpoch.getD 1 + 1) }
  | delegate {delegator delegatee : Address} (signed : e.auth delegator = true) :
      Effect e s (.delegate delegator delegatee) .unit
        { s.guarded e pauseGovernanceConfig with
          delegation := s.delegation.set delegator delegatee }
  | updateVotingPower {admin account : Address} {newBalance : Int} (oldBalance prevSupply : Int)
      (checkpoint : Map (Address × Nat) Checkpoint) (newCount : Nat)
      (totalSupplyCheckpoint : Map Nat Checkpoint) (newTotalCount : Nat)
      (signed : e.auth admin = true) (isAdmin : s.admin = some admin)
      (old : lastVotes s.checkpoint (account, ·) ((s.checkpointCount account).getD 0) =
        .ok oldBalance)
      (written : writeCheckpoint s.checkpoint (account, ·) ((s.checkpointCount account).getD 0)
        e.sequence newBalance = .ok (checkpoint, newCount))
      (prev : lastVotes s.totalSupplyCheckpoint id (s.totalSupplyCheckpointCount.getD 0) =
        .ok prevSupply)
      (totalWritten : writeCheckpoint s.totalSupplyCheckpoint id
        (s.totalSupplyCheckpointCount.getD 0) e.sequence (prevSupply + (newBalance - oldBalance)) =
        .ok (totalSupplyCheckpoint, newTotalCount)) :
      Effect e s (.updateVotingPower admin account newBalance) .unit
        { s.guarded e pauseGovernanceConfig with
          checkpoint
          checkpointCount := s.checkpointCount.set account newCount
          totalSupplyCheckpoint
          totalSupplyCheckpointCount := some newTotalCount }
  | proposeAdmin {newAdmin : Address} (current : Address) (isAdmin : s.admin = some current)
      (signed : e.auth current = true) :
      Effect e s (.proposeAdmin newAdmin) .unit
        { s.guarded e pauseGovernanceConfig with pendingAdmin := some newAdmin }
  | acceptAdmin (pending : Address) (nominated : s.pendingAdmin = some pending)
      (signed : e.auth pending = true) :
      Effect e s .acceptAdmin .unit { s with admin := some pending, pendingAdmin := none }
  | cancelAdminTransfer (current : Address) (isAdmin : s.admin = some current)
      (signed : e.auth current = true) :
      Effect e s .cancelAdminTransfer .unit { s with pendingAdmin := none }
  | pauseDomain {domainId duration : Nat} (pauseControl : PauseControl.Store) :
      Effect e s (.pauseDomain domainId duration) .unit { s with pauseControl }
  | unpauseDomain {domainId : Nat} (pauseControl : PauseControl.Store) :
      Effect e s (.unpauseDomain domainId) .unit { s with pauseControl }
  | isDomainPaused {domainId : Nat} (b : Bool) :
      Effect e s (.isDomainPaused domainId) (.flag b) (s.guarded e domainId)
  | touchProposal {proposalId : Nat} (b : Bool) (lastTouched : Map Nat Nat) :
      Effect e s (.touchProposal proposalId) (.flag b) { s with lastTouched }
  | touchAllTtl (n m : Nat) (lastTouched : Map Nat Nat) :
      Effect e s .touchAllTtl (.counts n m) { s.guarded e pauseGovernanceConfig with lastTouched }
  | extendTtlBatch {limit minAge maxAge : Nat} (n m : Nat) (lastTouched : Map Nat Nat) :
      Effect e s (.extendTtlBatch limit minAge maxAge) (.counts n m)
        { s.guarded e pauseGovernanceConfig with lastTouched }

/-! ### Sweeps -/

/-- Renewing a proposal writes back the record it read. -/
theorem renew_lastTouched (currentLedger : Nat) (s : Storage) (id : Nat) :
    ∃ lastTouched, trackedKeys.renew currentLedger s id = { s with lastTouched } := by
  simp only [trackedKeys, Map.refresh_eq_self]
  split
  · exact ⟨_, rfl⟩
  · exact ⟨_, rfl⟩

theorem sweep_lastTouched (currentLedger : Nat) (bounds : TtlBounds) (ids : List Nat)
    (s : Storage) : ∃ lastTouched,
      (sweep trackedKeys currentLedger bounds ids s).2 = { s with lastTouched } := by
  refine sweep_relates (r := fun s s' => ∃ lastTouched, s' = { s with lastTouched })
    (fun s => ⟨s.lastTouched, rfl⟩) ?_ (fun s id _ => renew_lastTouched _ s id) ids s
  rintro a b c ⟨_, rfl⟩ ⟨lastTouched, rfl⟩
  exact ⟨lastTouched, rfl⟩

theorem sweepGovernanceTtl_lastTouched (e : Env Remote) (s : Storage) (bounds : TtlBounds)
    (range : List Nat) :
    ∃ lastTouched, (sweepGovernanceTtl e s bounds range).2 = { s with lastTouched } :=
  sweep_lastTouched e.sequence bounds (0 :: range) s

/-! ### Every accepted call has an effect -/

theorem storeProposal_ok {proposer : Address} {talosId id : Nat} {title description : Bytes}
    {action : Option ProposalAction}
    (ok : storeProposal e s proposer talosId title description action = .ok (id, s')) :
    id = nextProposalId s ∧ nextProposalId s + 1 ≤ u32Max ∧ ∃ p, p.proposer = proposer ∧
      Proposed e s p ∧ s' = { s with
        proposal := s.proposal.set (nextProposalId s) p
        nextProposalId := some (nextProposalId s + 1) } := by
  simp only [storeProposal, requireConfig, bind_eq_ok, orReject_eq_ok, addU32_eq_ok,
    Except.ok.injEq, Prod.mk.injEq] at ok
  obtain ⟨config, configured, _, ⟨_, rfl⟩, _, ⟨room, rfl⟩, rfl, rfl⟩ := ok
  exact ⟨rfl, room, _, rfl, ⟨rfl, rfl, rfl, rfl, rfl, rfl, config, configured, rfl, rfl⟩, rfl⟩

theorem dispatchOptional_ok {action : Option ProposalAction}
    (ok : dispatchOptional e s action = .ok s') :
    ∃ config, ConfigAfter s config action ∧ s' = { s with config } := by
  cases action with
  | none =>
    cases ok
    exact ⟨s.config, rfl, rfl⟩
  | some action =>
    cases action with
    | pauseTalos registry talosId | resumeTalos registry talosId =>
      simp only [dispatchOptional, dispatchAction, bind_eq_ok, Except.ok.injEq] at ok
      obtain ⟨_, _, rfl⟩ := ok
      exact ⟨s.config, rfl, rfl⟩
    | updateConfig quorumThreshold consensusThreshold votingPeriodLedgers =>
      simp only [dispatchOptional, dispatchAction, validateThresholds, requireConfig, bind_eq_ok,
        rejectIf_eq_ok, orReject_eq_ok, not_or, Int.not_le, Int.not_lt, gt_iff_lt,
        Except.ok.injEq] at ok
      obtain ⟨_, ⟨_, quorum, _, consensus, period⟩, existing, configured, rfl⟩ := ok
      exact ⟨_, ⟨existing, configured, quorum, consensus.1, consensus.2,
        Nat.pos_of_ne_zero period, rfl⟩, rfl⟩

theorem vote_effect {voter : Address} {proposalId : Nat} {choice : VoteChoice}
    (ok : vote e s voter proposalId choice = .ok s') :
    Effect e s (.vote voter proposalId choice) .unit s' := by
  simp only [vote, bind_eq_ok, checkNotPaused_eq_ok, requireAuth_eq_ok, orReject_eq_ok,
    rejectIf_eq_ok, Decidable.not_not, Bool.not_eq_true, Option.isSome_eq_false_iff,
    Option.isNone_iff_eq_none, Except.ok.injEq] at ok
  obtain ⟨_, ⟨isOpen, rfl⟩, _, signed, p, found, _, active, _, inTime, _, fresh, weight, power, _,
    positive, counted, adds, ⟨decided, s₁⟩, decision, rfl⟩ := ok
  obtain ⟨decides, quorumReached, rfl⟩ := updateStatusIfQuorum_ok decision
  exact .vote p counted decided weight quorumReached
    ⟨isOpen, signed, found, active, Nat.le_of_not_lt inTime, fresh, power, Int.not_le.mp positive,
      adds⟩ decides

theorem touchProposal_effect {proposalId : Nat} {b : Bool}
    (ok : touchProposal e s proposalId = .ok (b, s')) :
    Effect e s (.touchProposal proposalId) (.flag b) s' := by
  simp only [touchProposal, bind_eq_ok, orReject_eq_ok] at ok
  obtain ⟨p, found, ok⟩ := ok
  rw [Map.set_eq_self found] at ok
  split at ok
  · cases ok
    exact .touchProposal _ _
  · cases ok
    exact .touchProposal _ s.lastTouched

/-- Every accepted call has one of the effects. -/
theorem exec_effect (ok : exec e s c = .ok (v, s')) : Effect e s c v s' := by
  cases c with
  | initializeContract admin pulseTokenAddress quorumThreshold consensusThreshold
      votingPeriodLedgers =>
    simp only [exec, silent_eq_ok, initializeContract, bind_eq_ok, rejectIf_eq_ok,
      Bool.not_eq_true, Option.isSome_eq_false_iff, Option.isNone_iff_eq_none,
      Except.ok.injEq] at ok
    obtain ⟨⟨_, _, _, unset, _, _, rfl⟩, rfl⟩ := ok
    exact .initializeContract _ unset
  | createProposal proposer talosId title description =>
    simp only [exec, returning_eq_ok, createProposal, bind_eq_ok, checkNotPaused_eq_ok] at ok
    obtain ⟨_, ⟨_, ⟨isOpen, rfl⟩, _, _, _, _, _, _, _, _, stored⟩, rfl⟩ := ok
    obtain ⟨rfl, room, p, isProposer, proposed, rfl⟩ := storeProposal_ok stored
    exact .create rfl p isOpen isProposer
      ⟨proposed.id, proposed.status, proposed.yesVotes, proposed.noVotes, proposed.totalVoters,
        proposed.startLedger, proposed.window⟩ room
  | createProposalWithAction proposer talosId title description action =>
    simp only [exec, returning_eq_ok, createProposalWithAction, bind_eq_ok,
      checkNotPaused_eq_ok] at ok
    obtain ⟨_, ⟨_, ⟨isOpen, rfl⟩, _, _, _, _, _, _, stored⟩, rfl⟩ := ok
    obtain ⟨rfl, room, p, isProposer, proposed, rfl⟩ := storeProposal_ok stored
    exact .create rfl p isOpen isProposer
      ⟨proposed.id, proposed.status, proposed.yesVotes, proposed.noVotes, proposed.totalVoters,
        proposed.startLedger, proposed.window⟩ room
  | cancelProposal proposer proposalId =>
    simp only [exec, silent_eq_ok, cancelProposal, bind_eq_ok, requireAuth_eq_ok, orReject_eq_ok,
      rejectIf_eq_ok, Decidable.not_not, gt_iff_lt, Nat.not_lt, Nat.le_zero_eq,
      Except.ok.injEq] at ok
    obtain ⟨⟨_, signed, p, found, _, isProposer, _, active, _, noVotes, rfl⟩, rfl⟩ := ok
    exact .cancelProposal p signed found isProposer active noVotes
  | vote voter proposalId choice =>
    obtain ⟨accepted, rfl⟩ := silent_eq_ok.mp ok
    exact vote_effect accepted
  | finalizeProposal proposalId =>
    simp only [exec, silent_eq_ok, finalizeProposal, bind_eq_ok, orReject_eq_ok, rejectIf_eq_ok,
      Decidable.not_not, Nat.not_le, Except.ok.injEq] at ok
    obtain ⟨⟨p, found, _, active, _, ended, decided, final, rfl⟩, rfl⟩ := ok
    exact .finalizeProposal p decided found active ended final
  | executeProposal proposalId =>
    simp only [exec, silent_eq_ok, executeProposal, bind_eq_ok, orReject_eq_ok, rejectIf_eq_ok,
      Decidable.not_not, Except.ok.injEq] at ok
    obtain ⟨⟨p, found, _, approved, _, dispatched, rfl⟩, rfl⟩ := ok
    obtain ⟨config, after, rfl⟩ := dispatchOptional_ok dispatched
    exact .executeProposal p config found approved after
  | cacheTokenBalance admin ledger address balance =>
    simp only [exec, silent_eq_ok, cacheTokenBalance, bind_eq_ok, checkNotPaused_eq_ok,
      requireAdmin_eq_ok, rejectIf_eq_ok, Int.not_lt, Except.ok.injEq] at ok
    obtain ⟨⟨_, ⟨_, rfl⟩, _, ⟨signed, isAdmin⟩, _, nonneg, rfl⟩, rfl⟩ := ok
    exact .cacheTokenBalance signed isAdmin nonneg
  | updateConfig admin config =>
    simp only [exec, silent_eq_ok, updateConfig, requireConfig, bind_eq_ok, checkNotPaused_eq_ok,
      requireAdmin_eq_ok, orReject_eq_ok, Except.ok.injEq] at ok
    obtain ⟨⟨_, ⟨_, rfl⟩, _, ⟨signed, isAdmin⟩, _, _, _, _, _, _, _, _, old, configured, rfl⟩,
      rfl⟩ := ok
    exact .updateConfig old signed isAdmin configured
  | setRegistryContract admin registry | setRegistry admin registry =>
    simp only [exec, silent_eq_ok, setRegistryContract, bind_eq_ok, checkNotPaused_eq_ok,
      requireAdmin_eq_ok, Except.ok.injEq] at ok
    obtain ⟨⟨_, ⟨_, rfl⟩, _, ⟨_, isAdmin⟩, rfl⟩, rfl⟩ := ok
    exact .setRegistryContract (by simp) isAdmin
  | recordDividendSnapshot admin talosId totalUsdc perTokenUsdc =>
    simp only [exec, returning_eq_ok, recordDividendSnapshot, bind_eq_ok, requireAdmin_eq_ok,
      addU32_eq_ok, Except.ok.injEq, Prod.mk.injEq] at ok
    obtain ⟨_, ⟨_, ⟨_, isAdmin⟩, _, _, _, _, _, ⟨_, rfl⟩, rfl, rfl⟩, rfl⟩ := ok
    exact .recordDividendSnapshot _ isAdmin
  | delegate delegator delegatee =>
    simp only [exec, silent_eq_ok, delegate, bind_eq_ok, checkNotPaused_eq_ok, requireAuth_eq_ok,
      Except.ok.injEq] at ok
    obtain ⟨⟨_, ⟨_, rfl⟩, _, signed, rfl⟩, rfl⟩ := ok
    exact .delegate signed
  | updateVotingPower admin account newBalance =>
    simp only [exec, silent_eq_ok, updateVotingPower, bind_eq_ok, checkNotPaused_eq_ok,
      requireAdmin_eq_ok, i128_eq_ok, Except.ok.injEq] at ok
    obtain ⟨⟨_, ⟨_, rfl⟩, _, ⟨signed, isAdmin⟩, oldBalance, old, _, ⟨_, rfl⟩, written, write,
      prevSupply, prev, _, ⟨_, rfl⟩, totalWritten, totalWrite, rfl⟩, rfl⟩ := ok
    exact .updateVotingPower oldBalance prevSupply written.1 written.2 totalWritten.1
      totalWritten.2 signed isAdmin old write prev totalWrite
  | proposeAdmin newAdmin =>
    simp only [exec, silent_eq_ok, proposeAdmin, bind_eq_ok, checkNotPaused_eq_ok, orReject_eq_ok,
      requireAuth_eq_ok, Except.ok.injEq] at ok
    obtain ⟨⟨_, ⟨_, rfl⟩, current, isAdmin, _, signed, rfl⟩, rfl⟩ := ok
    exact .proposeAdmin current isAdmin signed
  | acceptAdmin =>
    simp only [exec, silent_eq_ok, acceptAdmin, bind_eq_ok, orReject_eq_ok, requireAuth_eq_ok,
      Except.ok.injEq] at ok
    obtain ⟨⟨pending, nominated, _, signed, rfl⟩, rfl⟩ := ok
    exact .acceptAdmin pending nominated signed
  | cancelAdminTransfer =>
    simp only [exec, silent_eq_ok, cancelAdminTransfer, bind_eq_ok, orReject_eq_ok,
      requireAuth_eq_ok, Except.ok.injEq] at ok
    obtain ⟨⟨current, isAdmin, _, signed, _, _, rfl⟩, rfl⟩ := ok
    exact .cancelAdminTransfer current isAdmin signed
  | pauseDomain domainId duration =>
    simp only [exec, silent_eq_ok, pauseDomain, bind_eq_ok, Except.ok.injEq] at ok
    obtain ⟨⟨_, _, store, _, rfl⟩, rfl⟩ := ok
    exact .pauseDomain store
  | unpauseDomain domainId =>
    simp only [exec, silent_eq_ok, unpauseDomain, bind_eq_ok, Except.ok.injEq] at ok
    obtain ⟨⟨_, _, store, _, rfl⟩, rfl⟩ := ok
    exact .unpauseDomain store
  | isDomainPaused domainId =>
    simp only [exec, returning_eq_ok, isDomainPaused, bind_eq_ok, checkNotPaused_eq_ok,
      Except.ok.injEq, Prod.mk.injEq] at ok
    obtain ⟨_, ⟨_, ⟨_, rfl⟩, _, rfl⟩, rfl⟩ := ok
    exact .isDomainPaused _
  | touchProposal proposalId =>
    obtain ⟨b, accepted, rfl⟩ := returning_eq_ok.mp ok
    exact touchProposal_effect accepted
  | touchAllTtl =>
    simp only [exec, returning_eq_ok, touchAllTtl, bind_eq_ok, checkNotPaused_eq_ok,
      Except.ok.injEq] at ok
    obtain ⟨counts, ⟨_, ⟨_, rfl⟩, _, _, _, _, swept⟩, rfl⟩ := ok
    obtain ⟨lastTouched, eq⟩ := sweepGovernanceTtl_lastTouched e
      (s.guarded e pauseGovernanceConfig) .renewal (idRange 1 (nextProposalId s))
    obtain rfl : _ = s' := eq.symm.trans (congrArg Prod.snd swept)
    exact .touchAllTtl _ _ lastTouched
  | extendTtlBatch limit minAge maxAge =>
    simp only [exec, returning_eq_ok, extendTtlBatch, bind_eq_ok, checkNotPaused_eq_ok,
      Except.ok.injEq] at ok
    obtain ⟨counts, ⟨_, ⟨_, rfl⟩, _, _, _, _, range, _, swept⟩, rfl⟩ := ok
    obtain ⟨lastTouched, eq⟩ := sweepGovernanceTtl_lastTouched e
      (s.guarded e pauseGovernanceConfig) ⟨minAge, maxAge, defaultMaxBatchKeys⟩ range
    obtain rfl : _ = s' := eq.symm.trans (congrArg Prod.snd swept)
    exact .extendTtlBatch _ _ lastTouched

/-- What an accepted vote has checked, and all it writes. -/
theorem vote_inversion {voter : Address} {proposalId : Nat} {choice : VoteChoice}
    (ok : exec e s (.vote voter proposalId choice) = .ok (v, s')) :
    ∃ p counted decided weight quorumReached,
      Cast e s voter proposalId choice p counted weight ∧ Decides s counted decided ∧
      s' = { s.guarded e pauseGovernanceVoting with
        vote := s.vote.set (proposalId, voter) ⟨voter, choice, weight, e.timestamp⟩
        quorumReached
        proposal := s.proposal.set proposalId decided } := by
  cases exec_effect ok with
  | create call => cases call
  | setRegistryContract call => rcases call with call | call <;> cases call
  | vote p counted decided weight quorumReached cast decides =>
    exact ⟨p, counted, decided, weight, quorumReached, cast, decides, rfl⟩

end Talos.Governance
