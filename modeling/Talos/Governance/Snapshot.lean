import Talos.Governance.VoteWeight

/-!
# The snapshot of a proposal

The weight of a vote is looked up when it is cast, at the snapshot ledger the
proposal got when it was created. Three calls reach back to it. Delegations are
not checkpointed and hold at once; a cached balance is read where the account has
no checkpoint; and without a snapshot offset an update of voting power in the
ledger of the creation is still in time. No other call changes the weight a voter
had when the proposal was created.
-/

namespace Talos.Governance

open Talos.Soroban

variable {e : Env Remote} {s s' t : Storage} {c : Call} {v : Value} {p p' : Proposal}
  {voter : Address} {now proposalId : Nat} {h later : List (Entry Remote Storage Call Value)}

/-- The accepted call can change what a vote of `voter` weighs on the proposal: it
delegates the vote, or sets the power at the snapshot of the account it counts. -/
inductive Touches (p : Proposal) (voter : Address) (r : Entry Remote Storage Call Value) :
    Prop where
  | delegate (delegatee : Address) (call : r.call = .delegate voter delegatee)
  | cache (admin : Address) (balance : Int)
      (call : r.call =
        .cacheTokenBalance admin p.snapshotLedger (delegateeOf r.pre voter) balance)
      (unset : ¬ Checkpointed r.pre (delegateeOf r.pre voter) p.snapshotLedger)
  | update (admin : Address) (newBalance : Int)
      (call : r.call = .updateVotingPower admin (delegateeOf r.pre voter) newBalance)
      (noOffset : p.snapshotLedger = p.startLedger)
      (sameLedger : r.env.sequence = p.startLedger)

/-! ### One call -/

theorem delegate_of_changed (ok : exec e s c = .ok (v, s'))
    (changed : delegateeOf s' voter ≠ delegateeOf s voter) :
    ∃ delegatee, c = .delegate voter delegatee := by
  cases exec_effect ok with
  | @delegate delegator delegatee signed =>
    by_cases same : voter = delegator
    · subst same
      exact ⟨delegatee, rfl⟩
    · refine absurd ?_ changed
      have kept := Map.set_of_ne s.delegation delegatee same
      simp only [delegateeOf, kept]
  | _ => exact absurd rfl changed

/-- An update of voting power is dated with its own ledger, so from the creation on
it reaches the snapshot only if that is the ledger of the creation. -/
theorem getVoteWeight_of_ok (recorded : Recorded s now) (le : now ≤ e.sequence)
    (offset : p.snapshotLedger ≤ p.startLedger) (created : p.startLedger ≤ e.sequence)
    (ok : exec e s c = .ok (v, s')) (untouched : ¬ Touches p voter ⟨s, e, c, v⟩) :
    getVoteWeight s' p.snapshotLedger voter = getVoteWeight s p.snapshotLedger voter := by
  have same : delegateeOf s' voter = delegateeOf s voter := by
    by_contra changed
    obtain ⟨delegatee, call⟩ := delegate_of_changed ok changed
    exact untouched (.delegate delegatee call)
  have change := powerChange_of_ok recorded le ok (delegateeOf s voter) p.snapshotLedger
  rw [getVoteWeight, getVoteWeight, same, (recorded.step le ok).getPastVotes,
    recorded.getPastVotes]
  generalize votesAt s' (delegateeOf s voter) p.snapshotLedger = votes' at change
  cases change with
  | same => rfl
  | @update admin _ due =>
    exact absurd (.update admin _ rfl (by omega) (show e.sequence = _ by omega)) untouched
  | @cache admin _ unset => exact absurd (.cache admin _ rfl unset) untouched

/-! ### Runs -/

theorem Turn.window {ballots' : Map Address Vote} (turn : Turn e s proposalId p c p' ballots') :
    p'.snapshotLedger = p.snapshotLedger ∧ p'.startLedger = p.startLedger := by
  cases turn with
  | vote counted decided weight cast decides =>
    rw [decides.status.1, addVote_ok cast.adds ⟨0⟩ 0]
    exact ⟨rfl, rfl⟩
  | finalize decided active final =>
    rw [(finalizeStatus_status final).1]
    exact ⟨rfl, rfl⟩
  | _ => exact ⟨rfl, rfl⟩

/-- The proposal was created by a call of the run, its snapshot not after it. -/
structure Started (h : List (Entry Remote Storage Call Value)) (p : Proposal) : Prop where
  offset : p.snapshotLedger ≤ p.startLedger
  created : ∃ r ∈ h, r.env.sequence = p.startLedger

theorem started_of_run (run : Run contract h s) (found : s.proposal proposalId = some p) :
    Started h p := by
  refine proposal_of_run (P := fun h _ p => Started h p) run ?_ ?_ found
  · intro h s e c v s' p _ _ _ proposed
    obtain ⟨config, _, snapshot, _⟩ := proposed.window
    refine ⟨?_, _, List.mem_cons_self, proposed.startLedger.symm⟩
    rw [snapshot, proposed.startLedger]
    exact Nat.sub_le ..
  · intro h s e c v s' p p' _ _ _ turn ⟨offset, r, mem, created⟩
    rw [← turn.window.1, ← turn.window.2] at offset
    rw [← turn.window.2] at created
    exact ⟨offset, r, List.mem_cons_of_mem _ mem, created⟩

/-- The weight stays what it was along every stretch of a run that does not touch
it. -/
theorem weight_of_steps (run : Run contract h s) (found : s.proposal proposalId = some p)
    (steps : Steps contract s later t) (chronological : Chronological (later ++ h))
    (untouched : ∀ r ∈ later, ¬ Touches p voter r) :
    (∃ p', t.proposal proposalId = some p' ∧ p'.snapshotLedger = p.snapshotLedger) ∧
      getVoteWeight t p.snapshotLedger voter = getVoteWeight s p.snapshotLedger voter := by
  induction steps with
  | refl => exact ⟨⟨p, found, rfl⟩, rfl⟩
  | @step later t t' e c v steps ok ih =>
    obtain ⟨older, chronological'⟩ := List.pairwise_cons.mp chronological
    obtain ⟨newest, earlier⟩ := List.forall_mem_cons.mp untouched
    obtain ⟨⟨q, stored, snapshot⟩, weight⟩ := ih chronological' earlier
    have run' : Run contract (later ++ h) t := run.trans steps
    obtain ⟨p', found', turn⟩ := turn_of_ok (Sound.of_reachable ⟨_, run'⟩).fresh stored ok
    refine ⟨⟨p', found', turn.window.1.trans snapshot⟩, ?_⟩
    obtain ⟨offset, r, mem, created⟩ := started_of_run run found
    have reached : p.startLedger ≤ e.sequence :=
      created ▸ (older r (List.mem_append_right _ mem)).2
    have recorded : Recorded t e.sequence :=
      recorded_of_run run' (ledgersInOrder_of_chronological chronological')
        fun r mem => (older r mem).2
    rw [← weight]
    exact getVoteWeight_of_ok recorded (Nat.le_refl _) offset reached ok newest

/-- From any moment of a proposal on, and so from its creation, the weight of a
voter is the same at every later moment before which no call touched it, and that
is the weight a vote there records. -/
theorem snapshot_weight_fixed (run : Run contract h s) (found : s.proposal proposalId = some p)
    (steps : Steps contract s later t) (chronological : Chronological (later ++ h))
    (untouched : ∀ r ∈ later, ¬ Touches p voter r) :
    ∃ p' weight, t.proposal proposalId = some p' ∧
      getVoteWeight s p.snapshotLedger voter = .ok weight ∧
      getVoteWeight t p'.snapshotLedger voter = .ok weight ∧
      ∀ e choice v t', exec e t (.vote voter proposalId choice) = .ok (v, t') →
        ∃ vote, t'.vote (proposalId, voter) = some vote ∧ vote.weight = weight := by
  obtain ⟨⟨p', found', snapshot⟩, same⟩ :=
    weight_of_steps run found steps chronological untouched
  obtain ⟨now, recorded⟩ := exists_recorded run (List.pairwise_append.mp chronological).2.1
  have weighs : getVoteWeight s p.snapshotLedger voter =
      .ok (votesAt s (delegateeOf s voter) p.snapshotLedger) := recorded.getPastVotes _ _
  have weighs' : getVoteWeight t p'.snapshotLedger voter =
      .ok (votesAt s (delegateeOf s voter) p.snapshotLedger) := by
    rw [snapshot, same, weighs]
  refine ⟨p', _, found', weighs, weighs', fun e choice v t' ok => ?_⟩
  obtain ⟨q, _, _, _, _, cast, _, rfl⟩ := vote_inversion ok
  obtain rfl := Option.some.inj (found'.symm.trans cast.found)
  refine ⟨_, Map.set_self .., ?_⟩
  exact Except.ok.inj (cast.power.symm.trans weighs')

/-- Proposals are snapshotted in the ledger they are created in. -/
def withoutOffset : GovernanceConfig := ⟨100, 5000, 20, ⟨9⟩, some 0, none⟩

def createdAtTwenty : List (Entry Remote Storage Call Value) × Storage :=
  contract.play [(signedAt 1, .initializeContract ⟨0⟩ ⟨9⟩ 100 5000 20),
    (signedAt 1, .updateConfig ⟨0⟩ withoutOffset), (signedAt 1, .updateVotingPower ⟨0⟩ ⟨1⟩ 60),
    (signedAt 1, .updateVotingPower ⟨0⟩ ⟨2⟩ 50), (signedAt 20, .createProposal ⟨1⟩ 1 [97] [97])]
    ([], contract.init)

/-- In the next ledger, address 1 has no voting power left. -/
def drainedLater : List (Entry Remote Storage Call Value) × Storage :=
  contract.play [(signedAt 21, .updateVotingPower ⟨0⟩ ⟨1⟩ 0)] ([], createdAtTwenty.2)

theorem snapshot_weight_fixed_drained :
    ∃ p p' weight, createdAtTwenty.2.proposal 1 = some p ∧ drainedLater.2.proposal 1 = some p' ∧
      getVoteWeight createdAtTwenty.2 p.snapshotLedger ⟨1⟩ = .ok weight ∧
      getVoteWeight drainedLater.2 p'.snapshotLedger ⟨1⟩ = .ok weight := by
  obtain ⟨p, found, start⟩ : ∃ p, createdAtTwenty.2.proposal 1 = some p ∧ p.startLedger = 20 :=
    ⟨_, rfl, rfl⟩
  have untouched : ∀ r ∈ drainedLater.1, ¬ Touches p ⟨1⟩ r := by
    rintro r mem touches
    obtain rfl := List.mem_singleton.mp mem
    cases touches with
    | update admin newBalance call noOffset sameLedger =>
      rw [start] at sameLedger
      cases sameLedger
    | delegate delegatee call | cache admin balance call => cases call
  obtain ⟨p', weight, found', before, after, -⟩ :=
    snapshot_weight_fixed (Contract.play_steps .refl _) found (Contract.play_steps .refl _)
      (by decide) untouched
  exact ⟨p, p', weight, found, found', before, after⟩

/-- The call changes what a vote of `voter` weighs on the active proposal. -/
def Reweighs (s : Storage) (e : Env Remote) (c : Call) (proposalId : Nat) (voter : Address) :
    Prop :=
  ∃ p v t before after, s.proposal proposalId = some p ∧ p.status = .active ∧
    exec e s c = .ok (v, t) ∧ t.proposal proposalId = some p ∧
    getVoteWeight s p.snapshotLedger voter = .ok before ∧
    getVoteWeight t p.snapshotLedger voter = .ok after ∧ before ≠ after

/-- Delegating or caching a balance at any later time, or updating voting power in
the ledger of the creation, changes a weight after the proposal was created. -/
theorem snapshot_weight_touched : Run contract createdAtTwenty.1 createdAtTwenty.2 ∧
    Chronological createdAtTwenty.1 ∧
    Reweighs createdAtTwenty.2 (signedAt 25) (.delegate ⟨1⟩ ⟨2⟩) 1 ⟨1⟩ ∧
    Reweighs createdAtTwenty.2 (signedAt 25) (.cacheTokenBalance ⟨0⟩ 20 ⟨3⟩ 70) 1 ⟨3⟩ ∧
    Reweighs createdAtTwenty.2 (signedAt 20) (.updateVotingPower ⟨0⟩ ⟨1⟩ 10) 1 ⟨1⟩ := by
  refine ⟨Contract.play_steps .refl _, by decide, ?_, ?_, ?_⟩
  · exact ⟨_, _, _, 60, 50, rfl, rfl, rfl, rfl, rfl, rfl, by decide⟩
  · exact ⟨_, _, _, 0, 70, rfl, rfl, rfl, rfl, rfl, rfl, by decide⟩
  · exact ⟨_, _, _, 60, 10, rfl, rfl, rfl, rfl, rfl, rfl, by decide⟩

end Talos.Governance
