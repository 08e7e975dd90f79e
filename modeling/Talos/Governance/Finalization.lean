import Talos.Governance.Lifecycle

/-!
# Finalizing an expired proposal

`finalize_proposal` either decides an expired proposal or traps. It divides by the
number of votes without asking whether there are any, which
`update_status_if_quorum` does ask before the same division, and its arithmetic is
checked. With a quorum that is a share of a supply of `0` the quorum is `0`, and an
expired proposal without votes can never be finalized. `Conclusive` is exactly when
the decision goes through; nothing else can trap in a reachable storage.
-/

namespace Talos.Governance

open Talos.Soroban

variable {e : Env Remote} {s s' : Storage} {c : Call} {v : Value} {p : Proposal}
  {config : GovernanceConfig} {supply total : Int} {proposalId ledger : Nat}

/-! ### The configuration in force -/

/-- What every entry point that writes the quorum has checked. -/
structure GovernanceConfig.Valid (config : GovernanceConfig) : Prop where
  absolute : config.quorumBps = none → 0 < config.quorumThreshold
  share : ∀ bps, config.quorumBps = some bps → 0 < bps

theorem initializeContract_valid {admin pulseTokenAddress : Address}
    {quorumThreshold consensusThreshold : Int} {votingPeriodLedgers : Nat}
    (ok : exec e s (.initializeContract admin pulseTokenAddress quorumThreshold consensusThreshold
      votingPeriodLedgers) = .ok (v, s')) :
    ∃ config, s'.config = some config ∧ config.Valid := by
  simp only [exec, silent_eq_ok, initializeContract, validateThresholds, bind_eq_ok,
    rejectIf_eq_ok, Except.ok.injEq] at ok
  obtain ⟨⟨_, _, _, _, _, ⟨_, positive, -⟩, rfl⟩, -⟩ := ok
  refine ⟨_, rfl, fun _ => Int.not_le.mp positive, fun bps share => ?_⟩
  cases share

theorem validateQuorum_valid {u : Unit} (ok : validateQuorum config = .ok u) : config.Valid := by
  unfold validateQuorum at ok
  split at ok
  · next bps share =>
    simp only [bind_eq_ok, rejectIf_eq_ok] at ok
    obtain ⟨_, bounds, -⟩ := ok
    refine ⟨fun absolute => ?_, fun bps' share' => ?_⟩
    · rw [share] at absolute
      cases absolute
    · obtain rfl := Option.some.inj (share.symm.trans share')
      omega
  · next absolute =>
    rw [rejectIf_eq_ok] at ok
    refine ⟨fun _ => Int.not_le.mp ok, fun bps share => ?_⟩
    rw [absolute] at share
    cases share

theorem updateConfig_valid {admin : Address}
    (ok : exec e s (.updateConfig admin config) = .ok (v, s')) : config.Valid := by
  simp only [exec, silent_eq_ok, updateConfig, bind_eq_ok] at ok
  obtain ⟨⟨_, _, _, _, _, quorum, -⟩, -⟩ := ok
  exact validateQuorum_valid quorum

/-- The configuration in force is valid, and there is one once there is a
proposal. -/
structure Configured (s : Storage) : Prop where
  valid : ∀ config, s.config = some config → config.Valid
  unset : s.config = none → ∀ id, s.proposal id = none

theorem Configured.step (configured : Configured s) (ok : exec e s c = .ok (v, s')) :
    Configured s' := by
  have stored : ∀ {id : Nat} {q : Proposal}, s.proposal id = some q → s.config ≠ none := by
    intro id q found none
    rw [configured.unset none id] at found
    cases found
  have ok' := ok
  cases exec_effect ok with
  | initializeContract config' unset =>
    obtain ⟨config, isConfig, valid⟩ := initializeContract_valid ok'
    refine ⟨fun other isOther => ?_, fun none => absurd none (Option.some_ne_none _)⟩
    obtain rfl := Option.some.inj (isConfig.symm.trans isOther)
    exact valid
  | create call q isOpen isProposer proposed room =>
    obtain ⟨config, isConfig, -⟩ := proposed.window
    refine ⟨configured.valid, fun none => ?_⟩
    cases isConfig.symm.trans none
  | cancelProposal q signed found =>
    exact ⟨configured.valid, fun none => absurd none (stored found)⟩
  | vote q counted decided weight quorumReached cast =>
    exact ⟨configured.valid, fun none => absurd none (stored cast.found)⟩
  | finalizeProposal q decided found =>
    exact ⟨configured.valid, fun none => absurd none (stored found)⟩
  | executeProposal q config found approved after =>
    unfold ConfigAfter at after
    split at after
    · obtain ⟨existing, isConfig, positive, -, -, -, rfl⟩ := after
      refine ⟨fun other isOther => ?_, fun none => absurd none (Option.some_ne_none _)⟩
      obtain rfl := Option.some.inj isOther
      exact ⟨fun _ => positive, (configured.valid existing isConfig).share⟩
    · subst after
      exact ⟨configured.valid, fun none => absurd none (stored found)⟩
  | updateConfig old =>
    refine ⟨fun other isOther => ?_, fun none => absurd none (Option.some_ne_none _)⟩
    obtain rfl := Option.some.inj isOther
    exact updateConfig_valid ok'
  | _ => exact ⟨configured.valid, configured.unset⟩

theorem Configured.empty : Configured .empty :=
  ⟨fun _ isConfig => (nomatch isConfig), fun _ _ => rfl⟩

theorem Configured.of_reachable (reach : Reachable contract s) : Configured s :=
  reach.invariant .empty fun configured ok => configured.step ok

/-! ### Lookups of the supply -/

/-- All `count` checkpoints are there, in whatever order of ledgers. -/
def Indexed (ck : Nat → Option Checkpoint) (count : Nat) : Prop := ∀ i < count, ck i ≠ none

variable {ck : Nat → Option Checkpoint} {count : Nat}

theorem Indexed.get (indexed : Indexed ck count) {i : Nat} (lt : i < count) :
    ∃ checkpoint, ck i = some checkpoint := Option.ne_none_iff_exists'.mp (indexed i lt)

theorem writeCheckpoint_indexed {K : Type} [DecidableEq K] {m m' : Map K Checkpoint}
    {key : Nat → K} {votes : Int} {count' : Nat} (indexed : Indexed (fun i => m (key i)) count)
    (ok : writeCheckpoint m key count ledger votes = .ok (m', count')) :
    Indexed (fun i => m' (key i)) count' := by
  -- Whichever index is written, all others below the new count were below the old one.
  have written : ∀ {n count' : Nat} {checkpoint : Checkpoint},
      (∀ i < count', i ≠ n → i < count) →
      Indexed (fun i => m.set (key n) checkpoint (key i)) count' := by
    intro n count' checkpoint others i lt
    dsimp only
    rw [Map.set_apply]
    split
    · exact Option.some_ne_none _
    · next ne =>
      refine indexed i (others i lt ?_)
      rintro rfl
      exact ne rfl
  unfold writeCheckpoint at ok
  split at ok
  · simp only [bind_eq_ok, orReject_eq_ok] at ok
    obtain ⟨last, _, ok⟩ := ok
    split at ok
    · cases ok
      exact written fun i lt _ => lt
    · simp only [bind_eq_ok, addU32_eq_ok, Except.ok.injEq, Prod.mk.injEq] at ok
      obtain ⟨_, ⟨_, rfl⟩, rfl, rfl⟩ := ok
      exact written fun i lt ne => by omega
  · simp only [bind_eq_ok, addU32_eq_ok, Except.ok.injEq, Prod.mk.injEq] at ok
    obtain ⟨_, ⟨_, rfl⟩, rfl, rfl⟩ := ok
    exact written fun i lt ne => by omega

theorem indexed_of_reachable (reach : Reachable contract s) :
    Indexed s.totalSupplyCheckpoint (s.totalSupplyCheckpointCount.getD 0) := by
  apply Reachable.invariant
    (I := fun s => Indexed s.totalSupplyCheckpoint (s.totalSupplyCheckpointCount.getD 0)) reach
  · exact fun i lt => absurd lt (Nat.not_lt_zero i)
  intro e s c v s' indexed ok
  cases exec_effect ok with
  | updateVotingPower old prev checkpoint newCount total newTotal signed isAdmin _ _ _ written =>
    exact writeCheckpoint_indexed indexed written
  | _ => exact indexed

/-- The search stays between its bounds, so it only reads checkpoints there are. -/
theorem searchCheckpoints_ok (indexed : Indexed ck count) {low high : Nat} (le : low ≤ high)
    (bound : high < count) : ∃ votes, searchCheckpoints ck ledger low high = .ok votes := by
  fun_induction searchCheckpoints ck ledger low high with
  | case1 low high lt mid missing => exact absurd missing (indexed mid (by omega))
  | case2 low high lt mid c found hit => exact ⟨c.votes, rfl⟩
  | case3 low high lt mid c found miss before ih => exact ih (by omega) bound
  | case4 low high lt mid c found miss after ih => exact ih (by omega) (by omega)
  | case5 low high met =>
    obtain ⟨found, eq⟩ := indexed.get (show low < count by omega)
    exact ⟨found.votes, by rw [eq]; rfl⟩

theorem lookupCheckpoints_ok (indexed : Indexed ck count) (fallback : Int) :
    ∃ votes, lookupCheckpoints ck count ledger fallback = .ok votes := by
  unfold lookupCheckpoints
  split
  · exact ⟨fallback, rfl⟩
  next nonzero =>
  obtain ⟨latest, foundLatest⟩ := indexed.get (show count - 1 < count by omega)
  obtain ⟨earliest, foundEarliest⟩ := indexed.get (show 0 < count by omega)
  rw [foundLatest, foundEarliest]
  simp only [orReject_some, bind_ok]
  split
  · exact ⟨latest.votes, rfl⟩
  split
  · exact ⟨fallback, rfl⟩
  · exact searchCheckpoints_ok indexed (Nat.zero_le _) (by omega)

theorem getPastTotalSupply_ok (reach : Reachable contract s) (ledger : Nat) :
    ∃ supply, getPastTotalSupply s ledger = .ok supply :=
  lookupCheckpoints_ok (indexed_of_reachable reach) 0

/-! ### When a decision goes through -/

/-- `total` votes reach the quorum: a share of the supply, or a number of votes. -/
def QuorumMet (config : GovernanceConfig) (supply total : Int) : Prop :=
  match config.quorumBps with
  | some bps => supply * bps ≤ total * 10000
  | none => config.quorumThreshold ≤ total

/-- No sum or product of the decision leaves `i128`, and a proposal without votes
is short of the quorum, since under a share of nothing it would not be. -/
structure Conclusive (config : GovernanceConfig) (supply : Int) (p : Proposal) : Prop where
  total : p.totalVotes ≤ i128Max
  share : ∀ bps, config.quorumBps = some bps → supply * bps + 9999 ≤ i128Max
  votes : p.totalVotes = 0 → ∀ bps, config.quorumBps = some bps → 0 < supply
  scaled : QuorumMet config supply p.totalVotes → p.yesVotes * 10000 ≤ i128Max

theorem computeQuorumThreshold_ok (supplied : getPastTotalSupply s ledger = .ok supply) :
    (∃ q, computeQuorumThreshold s config ledger = .ok q) ↔
      ∀ bps, config.quorumBps = some bps → supply * bps + 9999 ≤ i128Max := by
  unfold computeQuorumThreshold
  cases config.quorumBps with
  | none => simp
  | some bps =>
    simp only [supplied, bind_ok, Option.some.injEq, forall_eq']
    split
    · next none =>
      have nonpos : supply * bps ≤ 0 := Int.mul_nonpos_of_nonpos_of_nonneg none (by omega)
      simp only [Except.ok.injEq, exists_eq', i128Max, true_iff]
      omega
    · next some =>
      have nonneg : 0 ≤ supply * bps := Int.mul_nonneg (by omega) (by omega)
      simp only [bind_eq_ok, i128_eq_ok, divI128_eq_ok, i128Min, i128Max]
      generalize supply * bps = scaled at nonneg
      constructor
      · rintro ⟨_, _, ⟨_, rfl⟩, _, ⟨fits, rfl⟩, _⟩
        exact fits.2
      · intro fits
        have small : (scaled + 9999).tdiv 10000 = (scaled + 9999) / 10000 :=
          Int.tdiv_eq_ediv_of_nonneg (by omega)
        refine ⟨_, scaled, ⟨by omega, rfl⟩, scaled + 9999, ⟨by omega, rfl⟩, by decide, ?_, rfl⟩
        rw [small]
        omega

/-- The rounded threshold is reached exactly at the share. -/
theorem quorum_le_iff (supplied : getPastTotalSupply s ledger = .ok supply) {q : Int}
    (quorum : computeQuorumThreshold s config ledger = .ok q) (nonneg : 0 ≤ total) :
    q ≤ total ↔ QuorumMet config supply total := by
  unfold computeQuorumThreshold at quorum
  unfold QuorumMet
  cases share : config.quorumBps with
  | none =>
    rw [share] at quorum
    cases quorum
    rfl
  | some bps =>
    simp only [share, supplied, bind_ok] at quorum
    dsimp only
    split at quorum
    · next none =>
      have nonpos : supply * bps ≤ 0 := Int.mul_nonpos_of_nonpos_of_nonneg none (by omega)
      cases quorum
      omega
    · next some =>
      have positive : 0 ≤ supply * bps := Int.mul_nonneg (by omega) (by omega)
      simp only [bind_eq_ok, i128_eq_ok, divI128_eq_ok] at quorum
      obtain ⟨_, ⟨_, rfl⟩, _, ⟨_, rfl⟩, _, _, rfl⟩ := quorum
      rw [Int.tdiv_eq_ediv_of_nonneg (by omega)]
      omega

/-- No votes are short of a valid quorum unless it is a share of nothing. -/
theorem quorumMet_zero_iff (valid : config.Valid) :
    ¬ QuorumMet config supply 0 ↔ ∀ bps, config.quorumBps = some bps → 0 < supply := by
  unfold QuorumMet
  split
  · next bps share =>
    have positive : (0 : Int) < bps := Int.natCast_pos.mpr (valid.share bps share)
    simp only [share, Option.some.injEq, forall_eq', Int.zero_mul, Int.not_le]
    constructor
    · exact fun product => Int.pos_of_mul_pos_left product positive
    · exact fun some => Int.mul_pos some positive
  · next absolute =>
    have positive := valid.absolute absolute
    simp only [absolute, reduceCtorEq, false_implies, implies_true, iff_true]
    omega

theorem conclusive_of_finalizeStatus (isConfig : s.config = some config) (valid : config.Valid)
    (supplied : getPastTotalSupply s p.snapshotLedger = .ok supply) (yes : 0 ≤ p.yesVotes)
    (no : 0 ≤ p.noVotes) {p' : Proposal} (final : finalizeStatus s p = .ok p') :
    Conclusive config supply p := by
  have total : p.totalVotes = p.yesVotes + p.noVotes := rfl
  simp only [finalizeStatus, requireConfig, isConfig, orReject_some, bind_ok, bind_eq_ok,
    i128_eq_ok, ← total] at final
  obtain ⟨_, ⟨fits, rfl⟩, q, quorum, final⟩ := final
  have met : q ≤ p.totalVotes ↔ QuorumMet config supply p.totalVotes :=
    quorum_le_iff supplied quorum (by omega)
  refine ⟨fits.2, (computeQuorumThreshold_ok supplied).mp ⟨q, quorum⟩, ?_, ?_⟩
  · intro noVotes
    rw [← quorumMet_zero_iff valid, ← noVotes, ← met]
    intro above
    rw [if_neg (Int.not_lt.mpr above)] at final
    simp only [bind_eq_ok, divI128_eq_ok] at final
    obtain ⟨_, _, _, ⟨some, _⟩, _⟩ := final
    exact some noVotes
  · intro reached
    rw [if_neg (Int.not_lt.mpr (met.mpr reached))] at final
    simp only [bind_eq_ok, i128_eq_ok] at final
    obtain ⟨_, ⟨fits', rfl⟩, _⟩ := final
    exact fits'.2

theorem Conclusive.finalizeStatus (conclusive : Conclusive config supply p)
    (isConfig : s.config = some config) (valid : config.Valid)
    (supplied : getPastTotalSupply s p.snapshotLedger = .ok supply) (yes : 0 ≤ p.yesVotes)
    (no : 0 ≤ p.noVotes) : ∃ p', finalizeStatus s p = .ok p' := by
  have total : p.totalVotes = p.yesVotes + p.noVotes := rfl
  obtain ⟨q, quorum⟩ := (computeQuorumThreshold_ok supplied).mpr conclusive.share
  have met : q ≤ p.totalVotes ↔ QuorumMet config supply p.totalVotes :=
    quorum_le_iff supplied quorum (by omega)
  have sum : (i128 p.totalVotes : Result Int) = .ok p.totalVotes := by
    refine i128_eq_ok.mpr ⟨⟨?_, conclusive.total⟩, rfl⟩
    simp only [i128Min]
    omega
  simp only [Governance.finalizeStatus, requireConfig, isConfig, orReject_some, bind_ok, ← total,
    sum, quorum]
  split
  · exact ⟨_, rfl⟩
  next above =>
  have reached : QuorumMet config supply p.totalVotes := met.mp (Int.not_lt.mp above)
  have nonzero : p.totalVotes ≠ 0 := by
    intro noVotes
    rw [noVotes] at reached
    exact (quorumMet_zero_iff valid).mpr (conclusive.votes noVotes) reached
  obtain ⟨bps, approval⟩ := approval_ok yes (by omega) (conclusive.scaled reached)
  obtain ⟨scaled, scales, divides⟩ := bind_eq_ok.mp approval
  simp only [scales, divides, bind_ok]
  exact ⟨_, rfl⟩

/-- In every reachable storage an expired active proposal is decided by
`finalize_proposal` exactly when its decision is conclusive. -/
theorem finalizes_iff (reach : Reachable contract s) (found : s.proposal proposalId = some p)
    (active : p.status = .active) (ended : p.endLedger < e.sequence) :
    ∃ config supply, s.config = some config ∧
      getPastTotalSupply s p.snapshotLedger = .ok supply ∧
      ((∃ v s' p', exec e s (.finalizeProposal proposalId) = .ok (v, s') ∧
          s'.proposal proposalId = some p' ∧
          (p'.status = .approved ∨ p'.status = .rejected)) ↔
        Conclusive config supply p) := by
  have configured := Configured.of_reachable reach
  obtain ⟨config, isConfig⟩ : ∃ config, s.config = some config := by
    apply Option.ne_none_iff_exists'.mp
    intro none
    rw [configured.unset none proposalId] at found
    cases found
  obtain ⟨supply, supplied⟩ := getPastTotalSupply_ok reach p.snapshotLedger
  obtain ⟨yes, no⟩ := ((Sound.of_reachable reach).booked proposalId p found).nonneg
  refine ⟨config, supply, isConfig, supplied, ?_⟩
  have valid := configured.valid config isConfig
  have running : exec e s (.finalizeProposal proposalId) = silent .unit (do
      let decided ← finalizeStatus s p
      .ok { s with proposal := s.proposal.set proposalId decided }) := by
    simp only [exec, finalizeProposal, found, orReject_some, bind_ok]
    rw [rejectIf_neg (not_not.mpr active), rejectIf_neg (Nat.not_le.mpr ended)]
    rfl
  rw [running]
  constructor
  · rintro ⟨v, s', p', ok, -⟩
    simp only [silent_eq_ok, bind_eq_ok] at ok
    obtain ⟨⟨decided, final, -⟩, -⟩ := ok
    exact conclusive_of_finalizeStatus isConfig valid supplied yes no final
  · intro conclusive
    obtain ⟨decided, final⟩ := conclusive.finalizeStatus isConfig valid supplied yes no
    rw [final]
    exact ⟨.unit, { s with proposal := s.proposal.set proposalId decided }, decided, rfl,
      Map.set_self .., (finalizeStatus_status final).2⟩

/-- A quorum of a share of the supply, in basis points. -/
def shareConfig (bps : Nat) : GovernanceConfig :=
  ⟨100, 5000, 20, ⟨9⟩, none, some bps⟩

/-- With 110 votes there are, 60 do not reach a quorum of 60%. -/
def shortOfQuorum : Storage :=
  contract.submitAll [(signedAt 1, .initializeContract ⟨0⟩ ⟨9⟩ 100 5000 20),
    (signedAt 1, .updateConfig ⟨0⟩ (shareConfig 6000)),
    (signedAt 1, .updateVotingPower ⟨0⟩ ⟨1⟩ 60), (signedAt 1, .updateVotingPower ⟨0⟩ ⟨2⟩ 50),
    (signedAt 20, .createProposal ⟨1⟩ 1 [97] [97]), (signedAt 21, .vote ⟨1⟩ 1 .approve)]
    contract.init

theorem finalizes_iff_shortOfQuorum : ∃ p, shortOfQuorum.proposal 1 = some p ∧
    p.totalVotes = 60 ∧ ∃ config supply, shortOfQuorum.config = some config ∧
      getPastTotalSupply shortOfQuorum p.snapshotLedger = .ok supply ∧
      ((∃ v s' p', exec (signedAt 41) shortOfQuorum (.finalizeProposal 1) = .ok (v, s') ∧
          s'.proposal 1 = some p' ∧ (p'.status = .approved ∨ p'.status = .rejected)) ↔
        Conclusive config supply p) :=
  ⟨_, rfl, by decide,
    finalizes_iff (Reachable.init.submitAll _) rfl (by decide) (by decide)⟩

/-- A share is set as the quorum while nobody has voting power. -/
def withoutSupply : Storage :=
  contract.submitAll [(signedAt 1, .initializeContract ⟨0⟩ ⟨9⟩ 100 5000 20),
    (signedAt 1, .updateConfig ⟨0⟩ (shareConfig 5000)),
    (signedAt 20, .createProposal ⟨1⟩ 1 [97] [97])] contract.init

/-- The expired proposal cannot be finalized: its decision divides by zero. -/
theorem finalize_divides_by_zero : Reachable contract withoutSupply ∧
    ∃ p, withoutSupply.proposal 1 = some p ∧ p.status = .active ∧ p.endLedger < 41 ∧
      exec (signedAt 41) withoutSupply (.finalizeProposal 1) =
        .error (.panic "attempt to divide by zero") :=
  ⟨Reachable.init.submitAll _, _, rfl, by decide, by decide, rfl⟩

end Talos.Governance
