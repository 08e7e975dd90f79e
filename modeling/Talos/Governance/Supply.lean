import Talos.Governance.Finalization
import Talos.Governance.Snapshot
import Talos.Soroban.Timeline

/-!
# The supply a quorum is a share of

`update_voting_power` keeps the total supply next to the accounts' checkpoints, and
at every past ledger the one is the sum of the others. Voting power can also be a
cached balance, which `get_past_votes` falls back to and `get_past_total_supply`
does not. A quorum in basis points is then a share of less than the power that can
vote. It is the share it says wherever no balance cached at the snapshot is read.
-/

namespace Talos.Governance

open Talos.Soroban

variable {e : Env Remote} {s s' : Storage} {c : Call} {v : Value} {p p' : Proposal}
  {now ledger bps : Nat} {h : List (Entry Remote Storage Call Value)}
  {lines : Address → Timeline Nat Int} {total : Timeline Nat Int} {holders : Finset Address}

/-! ### The supply is the sum of the checkpoints -/

/-- The accounts' timelines, and the one of the total supply that adds them up. -/
structure Balanced (s : Storage) (now : Nat) (lines : Address → Timeline Nat Int)
    (total : Timeline Nat Int) (holders : Finset Address) : Prop where
  power : ∀ account, PowerOf s account (lines account) now
  supply : Keeps s.totalSupplyCheckpoint (s.totalSupplyCheckpointCount.getD 0) total now
  totals : Timeline.Totals lines total holders

theorem Balanced.empty : Balanced .empty now (fun _ => []) [] ∅ :=
  ⟨fun _ => .empty rfl, .empty rfl, .empty⟩

theorem Balanced.mono (balanced : Balanced s now lines total holders) {later : Nat}
    (le : now ≤ later) : Balanced s later lines total holders :=
  ⟨fun account => (balanced.power account).mono le, balanced.supply.mono le, balanced.totals⟩

theorem lastVotes_ok {K : Type} {m : Map K Checkpoint} {key : Nat → K} {count : Nat}
    {l : Timeline Nat Int} {votes : Int} (keeps : Keeps (fun i => m (key i)) count l now)
    (ok : lastVotes m key count = .ok votes) : votes = l.latest := by
  have length := keeps.count
  unfold lastVotes at ok
  cases l with
  | nil =>
    rw [if_neg (by simp [length])] at ok
    exact (Except.ok.inj ok).symm
  | cons newest rest =>
    obtain rfl : count = rest.length + 1 := length
    obtain ⟨last, found, rfl⟩ := Option.map_eq_some_iff.mp keeps.stored.1
    rw [if_pos (Nat.succ_pos _), Nat.add_sub_cancel, found] at ok
    exact (Except.ok.inj ok).symm

theorem Balanced.step (balanced : Balanced s now lines total holders) (le : now ≤ e.sequence)
    (ok : exec e s c = .ok (v, s')) :
    ∃ lines total holders, Balanced s' e.sequence lines total holders := by
  have ok' := ok
  cases exec_effect ok with
  | @updateVotingPower admin account newBalance oldBalance prevSupply checkpoint newCount
      totalSupplyCheckpoint newTotal signed isAdmin old _ prev totalWritten =>
    have recorded : Recorded s now :=
      ⟨fun account => ⟨lines account, balanced.power account⟩, total, balanced.supply⟩
    obtain ⟨own, others⟩ := powerOf_update le recorded ok'
    obtain rfl := lastVotes_ok (balanced.power account) old
    obtain rfl := lastVotes_ok balanced.supply prev
    refine ⟨_, _, _, fun other => ?_,
      writeCheckpoint_keeps Function.injective_id balanced.supply le totalWritten,
      balanced.totals.record account newBalance (balanced.power account).ordered
        balanced.supply.ordered le⟩
    by_cases same : other = account
    · subst same
      rw [Function.update_self]
      exact own _ (balanced.power other)
    · rw [Function.update_of_ne same]
      exact others other _ same (balanced.power other)
  | _ => exact ⟨lines, total, holders, (balanced.mono le).power, (balanced.mono le).supply,
      balanced.totals⟩

theorem balanced_of_run (run : Run contract h s) (ordered : LedgersInOrder h)
    (past : ∀ r ∈ h, r.env.sequence ≤ now) :
    ∃ lines total holders, Balanced s now lines total holders := by
  induction run generalizing now with
  | refl => exact ⟨_, _, _, .empty⟩
  | step _ ok ih =>
    obtain ⟨older, ordered'⟩ := List.pairwise_cons.mp ordered
    obtain ⟨lines, total, holders, before⟩ := ih ordered' older
    obtain ⟨lines, total, holders, after⟩ := before.step (Nat.le_refl _) ok
    exact ⟨lines, total, holders, after.mono (past _ List.mem_cons_self)⟩

/-! ### The power that can vote -/

/-- No cached balance is read at the ledger, unless it is `0`. -/
def Backed (s : Storage) (ledger : Nat) : Prop :=
  ∀ account balance, s.tokenBalanceSnapshot (ledger, account) = some balance → balance ≠ 0 →
    Checkpointed s account ledger

theorem Balanced.votesAt (balanced : Balanced s now lines total holders)
    (backed : Backed s ledger) (account : Address) :
    votesAt s account ledger = (lines account).amountAt ledger := by
  rw [(balanced.power account).votesAt, Timeline.amountAt]
  cases value : (lines account).valueAt ledger with
  | some votes => rfl
  | none =>
    cases cached : s.tokenBalanceSnapshot (ledger, account) with
    | none => rfl
    | some balance =>
      by_contra nonzero
      have checkpointed := backed account balance cached nonzero
      exact (balanced.power account).valueAt_ne_none_iff.mpr checkpointed value

/-- Where no cached balance is read, the supply is the power of all accounts. -/
theorem Balanced.getPastTotalSupply (balanced : Balanced s now lines total holders)
    (backed : Backed s ledger) : ∃ accounts : Finset Address,
      (∀ account, account ∈ accounts ↔ Governance.votesAt s account ledger ≠ 0) ∧
      getPastTotalSupply s ledger =
        .ok (∑ account ∈ accounts, Governance.votesAt s account ledger) := by
  have outside : ∀ account, Governance.votesAt s account ledger ≠ 0 → account ∈ holders := by
    intro account nonzero
    by_contra out
    rw [balanced.votesAt backed, balanced.totals.outside account out] at nonzero
    exact nonzero rfl
  refine ⟨holders.filter fun account => Governance.votesAt s account ledger ≠ 0, ?_, ?_⟩
  · intro account
    rw [Finset.mem_filter]
    exact ⟨fun mem => mem.2, fun nonzero => ⟨outside account nonzero, nonzero⟩⟩
  · rw [Finset.sum_filter_ne_zero]
    have supply := balanced.totals.sum ledger
    simp only [← balanced.votesAt backed] at supply
    rw [← supply]
    exact lookupCheckpoints_eq balanced.supply ledger 0

/-! ### Decisions by a share -/

/-- The proposal becomes `p'` by a decision, its votes having reached a quorum of
`bps` basis points. -/
structure DecidedByShare (s : Storage) (p p' : Proposal) (bps : Nat) : Prop where
  active : p.status = .active
  decided : p'.status = .approved ∨ p'.status = .rejected
  reached : ∃ config q, Quorum s p' config q ∧ config.quorumBps = some bps ∧ q ≤ p'.totalVotes

/-- The votes are that share, rounded up, of the power of all accounts at the
snapshot. -/
def MeetsShare (s : Storage) (p : Proposal) (bps : Nat) : Prop :=
  (∀ account, getPastVotes s account p.snapshotLedger =
    .ok (votesAt s account p.snapshotLedger)) ∧
  ∃ accounts : Finset Address,
    (∀ account, account ∈ accounts ↔ votesAt s account p.snapshotLedger ≠ 0) ∧
    (bps * ∑ account ∈ accounts, votesAt s account p.snapshotLedger + 9999) / 10000 ≤
      p.yesVotes + p.noVotes

theorem Balanced.meetsShare (balanced : Balanced s now lines total holders)
    (backed : Backed s p.snapshotLedger) {config : GovernanceConfig} {q : Int}
    (quorum : Quorum s p config q) (share : config.quorumBps = some bps)
    (reached : q ≤ p.totalVotes) (nonneg : 0 ≤ p.totalVotes) : MeetsShare s p bps := by
  obtain ⟨accounts, all, supplied⟩ := balanced.getPastTotalSupply backed
  refine ⟨fun account => ?_, accounts, all, ?_⟩
  · rw [(balanced.power account).votesAt]
    exact (balanced.power account).getPastVotes
  · have met := (quorum_le_iff supplied quorum.2 nonneg).mp reached
    rw [QuorumMet, share] at met
    rw [mul_comm]
    show _ ≤ p.totalVotes
    omega

/-- In a run with ledgers in order, every decision by a share where no cached
balance is read has that share of all voting power behind it. -/
theorem decided_by_share (run : Run contract h s) (chronological : Chronological h) :
    ∀ r ∈ h, ∀ s' id p p' bps, exec r.env r.pre r.call = .ok (r.result, s') →
      r.pre.proposal id = some p → s'.proposal id = some p' →
      DecidedByShare r.pre p p' bps → Backed r.pre p.snapshotLedger →
      MeetsShare r.pre p' bps := by
  intro r mem s' id p p' bps ok found found' decision backed
  obtain ⟨later, earlier, rfl⟩ := List.append_of_mem mem
  obtain ⟨-, before, -, -⟩ := run.split
  obtain ⟨older, chronological'⟩ :=
    List.pairwise_cons.mp (List.pairwise_append.mp chronological).2.1
  obtain ⟨lines, total, holders, balanced⟩ :=
    balanced_of_run before (ledgersInOrder_of_chronological chronological')
      fun q mem => (older q mem).2
  have sound := Sound.of_reachable ⟨earlier, before⟩
  obtain ⟨q, stored, turn⟩ := turn_of_ok sound.fresh found ok
  obtain rfl := Option.some.inj (stored.symm.trans found')
  obtain ⟨yes, no⟩ := ((sound.booked id p found).turn turn).nonneg
  rw [← turn.window.1] at backed
  obtain ⟨config, n, quorum, share, reached⟩ := decision.reached
  exact balanced.meetsShare backed quorum share reached (Int.add_nonneg yes no)

/-- Half of 110 votes is the quorum, and 60 reach it. -/
def decidedByHalf : List (Entry Remote Storage Call Value) × Storage :=
  contract.play [(signedAt 1, .initializeContract ⟨0⟩ ⟨9⟩ 100 5000 20),
    (signedAt 1, .updateConfig ⟨0⟩ (shareConfig 5000)),
    (signedAt 1, .updateVotingPower ⟨0⟩ ⟨1⟩ 60), (signedAt 1, .updateVotingPower ⟨0⟩ ⟨2⟩ 50),
    (signedAt 20, .createProposal ⟨1⟩ 1 [97] [97]), (signedAt 21, .vote ⟨1⟩ 1 .approve)]
    ([], contract.init)

theorem decided_by_share_half : ∃ r ∈ decidedByHalf.1, ∃ p', decidedByHalf.2.proposal 1 = some p' ∧
    p'.totalVotes = 60 ∧ MeetsShare r.pre p' 5000 := by
  have run : Run contract decidedByHalf.1 decidedByHalf.2 := Contract.play_steps .refl _
  refine ⟨_, List.mem_cons_self, _, rfl, by decide, ?_⟩
  refine decided_by_share run (by decide) _ List.mem_cons_self
    decidedByHalf.2 1 _ _ 5000 rfl rfl rfl ⟨rfl, .inl rfl, _, 55, ⟨rfl, rfl⟩, rfl, by decide⟩ ?_
  exact fun account balance cached => nomatch cached

/-- Two accounts whose power is cached balances, 10 and 90. -/
def cachedPower : List (Entry Remote Storage Call Value) × Storage :=
  contract.play [(signedAt 1, .initializeContract ⟨0⟩ ⟨9⟩ 100 5000 20),
    (signedAt 1, .updateConfig ⟨0⟩ (shareConfig 5000)),
    (signedAt 20, .createProposal ⟨1⟩ 1 [97] [97]),
    (signedAt 21, .cacheTokenBalance ⟨0⟩ 10 ⟨1⟩ 10),
    (signedAt 21, .cacheTokenBalance ⟨0⟩ 10 ⟨2⟩ 90)] ([], contract.init)

theorem votesAt_cachedPower {account : Address} (one : account ≠ ⟨1⟩) (two : account ≠ ⟨2⟩) :
    votesAt cachedPower.2 account 10 = 0 := by
  have uncached : cachedPower.2.tokenBalanceSnapshot (10, account) = none :=
    (Map.set_of_ne _ _ fun same => two (congrArg Prod.snd same)).trans
      (Map.set_of_ne _ _ fun same => one (congrArg Prod.snd same))
  have power : PowerOf cachedPower.2 account [] 0 := Keeps.empty rfl
  rw [power.votesAt, uncached]
  rfl

/-- Of the 100 votes there are, 10 decide the proposal under a quorum of one half,
because the supply at the snapshot is `0`. -/
theorem cached_power_uncounted : Run contract cachedPower.1 cachedPower.2 ∧
    Chronological cachedPower.1 ∧
    ∃ v s' p p', cachedPower.2.proposal 1 = some p ∧
      exec (signedAt 21) cachedPower.2 (.vote ⟨1⟩ 1 .approve) = .ok (v, s') ∧
      s'.proposal 1 = some p' ∧ p'.status = .approved ∧
      DecidedByShare cachedPower.2 p p' 5000 ∧ ¬ MeetsShare cachedPower.2 p' 5000 := by
  refine ⟨Contract.play_steps .refl _, by decide, _, _, _, _, rfl, rfl, rfl, rfl,
    ⟨rfl, .inl rfl, _, 0, ⟨rfl, rfl⟩, rfl, by decide⟩, ?_⟩
  rintro ⟨-, accounts, all, enough⟩
  change ∀ account, account ∈ accounts ↔ votesAt cachedPower.2 account 10 ≠ 0 at all
  change (5000 * ∑ account ∈ accounts, votesAt cachedPower.2 account 10 + 9999) / 10000 ≤
    (10 : Int) at enough
  have both : accounts = {⟨1⟩, ⟨2⟩} := by
    ext account
    rw [all, Finset.mem_insert, Finset.mem_singleton]
    constructor
    · intro nonzero
      by_contra other
      obtain ⟨one, two⟩ := not_or.mp other
      exact nonzero (votesAt_cachedPower one two)
    · rintro (rfl | rfl) <;> decide
  have sum : ∑ account ∈ ({⟨1⟩, ⟨2⟩} : Finset Address), votesAt cachedPower.2 account 10 = 100 := by
    decide
  rw [both, sum] at enough
  exact absurd enough (by decide)

end Talos.Governance
