import Talos.Governance.Lifecycle
import Mathlib.Algebra.Order.BigOperators.Group.Finset
import Mathlib.Tactic.Ring

/-!
# The order of votes

A proposal is decided as soon as its votes reach the quorum, and later votes are
rejected. So an order of votes matters by the set of votes it gets recorded, and
in no other way: the final status is what `finalize_status` decides on the
recorded votes. Orders agree when every set of votes that can be the one to
reach the quorum is decided alike.
-/

namespace Talos.Governance

open Talos.Soroban

variable {e : Env Remote} {s t t' : Storage} {c : Call} {v : Value} {p q : Proposal}
  {proposalId : Nat}

/-- A voter with its choice. -/
abbrev Ballot := Address × VoteChoice

variable {electors recorded : Finset Ballot} {l : List Ballot}

/-- The weight a vote has on a proposal, `0` when its lookup traps. -/
def power (s : Storage) (p : Proposal) (voter : Address) : Int :=
  match getVoteWeight s p.snapshotLedger voter with
  | .ok weight => weight
  | .error _ => 0

theorem power_of_ok {voter : Address} {weight : Int}
    (ok : getVoteWeight s p.snapshotLedger voter = .ok weight) : power s p voter = weight := by
  rw [power, ok]

/-- What a ballot counts for one side. -/
def powerFor (s : Storage) (p : Proposal) (side : VoteChoice) (b : Ballot) : Int :=
  if b.2 = side then power s p b.1 else 0

/-- The proposal with the votes of some ballots added to it. -/
def withVotes (s : Storage) (p : Proposal) (recorded : Finset Ballot) : Proposal := { p with
  yesVotes := p.yesVotes + ∑ b ∈ recorded, powerFor s p .approve b
  noVotes := p.noVotes + ∑ b ∈ recorded, powerFor s p .reject b
  totalVoters := p.totalVoters + recorded.card }

theorem withVotes_empty : withVotes s p ∅ = p := by
  simp [withVotes]

theorem powerFor_add (b : Ballot) :
    powerFor s p .approve b + powerFor s p .reject b = power s p b.1 := by
  unfold powerFor
  cases b.2 <;> simp

theorem totalVotes_withVotes :
    (withVotes s p recorded).totalVotes = p.totalVotes + ∑ b ∈ recorded, power s p b.1 := by
  have sides : ∑ b ∈ recorded, power s p b.1 =
      ∑ b ∈ recorded, powerFor s p .approve b + ∑ b ∈ recorded, powerFor s p .reject b := by
    rw [← Finset.sum_add_distrib]
    exact Finset.sum_congr rfl fun b _ => (powerFor_add b).symm
  rw [sides]
  simp only [Proposal.totalVotes, withVotes]
  ring

/-- Counting one more ballot. -/
theorem addVote_withVotes {b : Ballot} {weight : Int} {counted : Proposal}
    (new : b ∉ recorded) (weighs : power s p b.1 = weight)
    (adds : (withVotes s p recorded).addVote b.2 weight = .ok counted) :
    counted = withVotes s p (insert b recorded) := by
  rw [addVote_ok adds b.1 0]
  simp only [withVotes, Vote.weightFor, powerFor, Finset.sum_insert new,
    Finset.card_insert_of_notMem new, weighs]
  congr 1 <;> ring

/-! ### What the votes read -/

/-- Storage `t` has the configuration, the quorum and the voting power of `s`. -/
structure SameRules (s : Storage) (p : Proposal) (electors : Finset Ballot) (t : Storage) :
    Prop where
  config : t.config = s.config
  quorum : ∀ config, computeQuorumThreshold t config p.snapshotLedger =
    computeQuorumThreshold s config p.snapshotLedger
  weight : ∀ b ∈ electors, getVoteWeight t p.snapshotLedger b.1 =
    getVoteWeight s p.snapshotLedger b.1

theorem SameRules.refl : SameRules s p electors s := ⟨rfl, fun _ => rfl, fun _ _ => rfl⟩

theorem SameRules.trans (first : SameRules s p electors t) (second : SameRules t p electors t') :
    SameRules s p electors t' where
  config := second.config.trans first.config
  quorum config := (second.quorum config).trans (first.quorum config)
  weight b mem := (second.weight b mem).trans (first.weight b mem)

theorem SameRules.finalizeStatus (same : SameRules s p electors t)
    (snapshot : q.snapshotLedger = p.snapshotLedger) :
    finalizeStatus t q = finalizeStatus s q := by
  rw [Governance.finalizeStatus, Governance.finalizeStatus, requireConfig, requireConfig,
    same.config, snapshot]
  simp only [same.quorum]

theorem SameRules.quorum_iff (same : SameRules s p electors t)
    (snapshot : q.snapshotLedger = p.snapshotLedger) (config : GovernanceConfig) (n : Int) :
    Quorum t q config n ↔ Quorum s q config n := by
  rw [Quorum, Quorum, same.config, snapshot, same.quorum]

/-- What `finalize_status` makes of a proposal, which stays as it is if that
traps. -/
def outcome (s : Storage) (p : Proposal) : ProposalStatus :=
  match finalizeStatus s p with
  | .ok decided => decided.status
  | .error _ => p.status

/-! ### Orders of votes -/

/-- A stretch of the voting window: from `s`, the ballots `l` (latest first) are
submitted for the proposal, each signed, in time and while voting is not paused.
Other accepted calls may come in between as long as they leave the rules, the
proposal and the votes on it alone. -/
inductive Window (s : Storage) (proposalId : Nat) (p : Proposal) (electors : Finset Ballot) :
    List Ballot → Storage → Prop where
  | start : Window s proposalId p electors [] s
  | vote {l : List Ballot} {t : Storage} {e : Env Remote} {b : Ballot} :
      Window s proposalId p electors l t → b ∈ electors → Open e t pauseGovernanceVoting →
      e.auth b.1 = true → e.sequence ≤ p.endLedger →
      Window s proposalId p electors (b :: l) (contract.submit e (.vote b.1 proposalId b.2) t)
  | other {l : List Ballot} {t t' : Storage} {e : Env Remote} {c : Call} {v : Value} :
      Window s proposalId p electors l t → contract.exec e t c = .ok (v, t') →
      SameRules t p electors t' → t'.proposal proposalId = t.proposal proposalId →
      ballots t' proposalId = ballots t proposalId → Window s proposalId p electors l t'

/-- A ballot that can be recorded: its voter has power and has not voted. -/
def Eligible (s : Storage) (proposalId : Nat) (p : Proposal) (b : Ballot) : Prop :=
  s.vote (proposalId, b.1) = none ∧ 0 < power s p b.1

/-- A set of ballots that can be the one to reach the quorum: without its last
ballot the quorum is not reached. -/
structure Deciding (s : Storage) (proposalId : Nat) (p : Proposal) (recorded : Finset Ballot) :
    Prop where
  eligible : ∀ b ∈ recorded, Eligible s proposalId p b
  reached : ∃ config n, Quorum s p config n ∧ n ≤ (withVotes s p recorded).totalVotes ∧
    ∃ b ∈ recorded, recorded.erase b = ∅ ∨ (withVotes s p (recorded.erase b)).totalVotes < n

/-- No tally of the electors' votes overflows, and the quorum can be computed. -/
structure Room (s : Storage) (proposalId : Nat) (p : Proposal) (electors : Finset Ballot) :
    Prop where
  quorum : ∃ config n, Quorum s p config n
  votes : ∀ recorded ⊆ electors, (∀ b ∈ recorded, Eligible s proposalId p b) →
    (withVotes s p recorded).totalVotes * 10000 ≤ i128Max
  voters : p.totalVoters + electors.card ≤ u32Max

/-! ### Progress -/

/-- Where an order has got to: the ballots `recorded` have been, and the proposal
either waits for more or has been decided on them. -/
structure Progress (s : Storage) (proposalId : Nat) (p : Proposal) (electors : Finset Ballot)
    (t : Storage) (recorded : Finset Ballot) (q : Proposal) : Prop where
  rules : SameRules s p electors t
  sub : recorded ⊆ electors
  eligible : ∀ b ∈ recorded, Eligible s proposalId p b
  votes : ∀ b ∈ electors, t.vote (proposalId, b.1) = none ↔
    s.vote (proposalId, b.1) = none ∧ b ∉ recorded
  found : t.proposal proposalId = some q
  stage : (q = withVotes s p recorded ∧ (recorded = ∅ ∨ ∃ config n, Quorum s p config n ∧
      (withVotes s p recorded).totalVotes < n)) ∨
    (Deciding s proposalId p recorded ∧ finalizeStatus s (withVotes s p recorded) = .ok q)

theorem Progress.start (found : s.proposal proposalId = some p) :
    Progress s proposalId p electors s ∅ p where
  rules := .refl
  sub := Finset.empty_subset _
  eligible _ mem := absurd mem (Finset.notMem_empty _)
  votes b _ := by simp
  found := found
  stage := .inl ⟨withVotes_empty.symm, .inl rfl⟩

theorem Progress.other (progress : Progress s proposalId p electors t recorded q)
    (rules : SameRules t p electors t') (proposal : t'.proposal proposalId = t.proposal proposalId)
    (same : ballots t' proposalId = ballots t proposalId) :
    Progress s proposalId p electors t' recorded q where
  rules := progress.rules.trans rules
  sub := progress.sub
  eligible := progress.eligible
  votes b mem := by
    have slot : t'.vote (proposalId, b.1) = t.vote (proposalId, b.1) := congrFun same b.1
    rw [slot]
    exact progress.votes b mem
  found := proposal.trans progress.found
  stage := progress.stage

theorem Progress.eligible_insert (progress : Progress s proposalId p electors t recorded q)
    {b : Ballot} (eligible : Eligible s proposalId p b) :
    ∀ b' ∈ insert b recorded, Eligible s proposalId p b' := by
  intro b' mem
  rcases Finset.mem_insert.mp mem with rfl | mem
  · exact eligible
  · exact progress.eligible b' mem

/-- A proposal that is still active waits for votes. -/
theorem Progress.waits (progress : Progress s proposalId p electors t recorded q)
    (active : q.status = .active) : q = withVotes s p recorded ∧ (recorded = ∅ ∨
      ∃ config n, Quorum s p config n ∧ (withVotes s p recorded).totalVotes < n) := by
  rcases progress.stage with waiting | ⟨_, final⟩
  · exact waiting
  · obtain ⟨_, status⟩ := finalizeStatus_status final
    rw [active] at status
    rcases status with absurd | absurd <;> cases absurd

/-- An accepted vote is recorded, and decides the proposal if it reaches the
quorum. -/
theorem Progress.vote (progress : Progress s proposalId p electors t recorded q)
    (distinct : ∀ b ∈ electors, ∀ b' ∈ electors, b.1 = b'.1 → b = b') {b : Ballot}
    (mem : b ∈ electors) (ok : exec e t (.vote b.1 proposalId b.2) = .ok (v, t')) :
    q.status = .active ∧ ∃ q', Progress s proposalId p electors t' (insert b recorded) q' := by
  obtain ⟨q₁, counted, decided, weight, quorumReached, cast, decides, rfl⟩ := vote_inversion ok
  obtain rfl := Option.some.inj (progress.found.symm.trans cast.found)
  obtain ⟨unvoted, new⟩ := (progress.votes b mem).mp cast.fresh
  -- The proposal still takes votes, so it is the one that waits.
  obtain ⟨waits, short⟩ := progress.waits cast.active
  have snapshot : q.snapshotLedger = p.snapshotLedger := by rw [waits]; rfl
  have weighs : power s p b.1 = weight := by
    have ok := cast.power
    rw [snapshot, progress.rules.weight b mem] at ok
    exact power_of_ok ok
  have added : counted = withVotes s p (insert b recorded) :=
    addVote_withVotes new weighs (waits ▸ cast.adds)
  have eligible := progress.eligible_insert ⟨unvoted, weighs ▸ cast.positive⟩
  refine ⟨cast.active, decided, ?_, Finset.insert_subset mem progress.sub, eligible, ?_,
    Map.set_self .., ?_⟩
  · exact ⟨progress.rules.config, progress.rules.quorum, progress.rules.weight⟩
  · intro b' mem'
    dsimp only
    rw [Map.set_apply, Finset.mem_insert]
    by_cases same : b' = b
    · subst same
      simp
    · have ne : (proposalId, b'.1) ≠ (proposalId, b.1) := fun eq =>
        same (distinct b' mem' b mem (congrArg Prod.snd eq))
      rw [if_neg ne, progress.votes b' mem']
      simp only [same, false_or]
  · obtain ⟨config, n, quorum, decision⟩ := decides
    rw [added] at quorum decision
    have quorum' : Quorum s p config n := (progress.rules.quorum_iff rfl config n).mp quorum
    rcases decision with ⟨below, rfl⟩ | ⟨reached, final⟩
    · exact .inl ⟨rfl, .inr ⟨config, n, quorum', below⟩⟩
    · have same : finalizeStatus t (withVotes s p (insert b recorded)) =
          finalizeStatus s (withVotes s p (insert b recorded)) :=
        progress.rules.finalizeStatus rfl
      refine .inr ⟨⟨eligible, config, n, quorum', reached, b, Finset.mem_insert_self .., ?_⟩,
        same.symm.trans final⟩
      rw [Finset.erase_insert new]
      rcases short with empty | ⟨config', n', quorum'', below⟩
      · exact .inl empty
      · obtain rfl := Option.some.inj (quorum'.1.symm.trans quorum''.1)
        obtain rfl := Except.ok.inj (quorum'.2.symm.trans quorum''.2)
        exact .inr below

/-! ### Room for every vote -/

/-- Tallies on which no step of a decision traps. -/
structure Countable (p : Proposal) : Prop where
  yes : 0 ≤ p.yesVotes
  no : 0 ≤ p.noVotes
  some : 0 < p.totalVotes
  fits : p.totalVotes * 10000 ≤ i128Max

theorem Countable.total (countable : Countable p) :
    (i128 (p.yesVotes + p.noVotes) : Result Int) = .ok p.totalVotes := by
  obtain ⟨yes, no, some, fits⟩ := countable
  simp only [Proposal.totalVotes, i128Max] at *
  refine i128_eq_ok.mpr ⟨?_, rfl⟩
  simp only [i128Min, i128Max]
  omega

theorem Countable.approval (countable : Countable p) : ∃ bps, (do
    let scaled ← i128 (p.yesVotes * 10000)
    divI128 scaled p.totalVotes : Result Int) = .ok bps := by
  obtain ⟨yes, no, some, fits⟩ := countable
  have below : p.yesVotes ≤ p.totalVotes := by
    simp only [Proposal.totalVotes]
    omega
  exact approval_ok yes some (by omega)

theorem Countable.finalizes (countable : Countable p) {config : GovernanceConfig} {n : Int}
    (quorum : Quorum s p config n) : ∃ decided, finalizeStatus s p = .ok decided := by
  obtain ⟨bps, approval⟩ := countable.approval
  obtain ⟨scaled, scales, divides⟩ := bind_eq_ok.mp approval
  simp only [finalizeStatus, requireConfig, quorum.1, quorum.2, countable.total, scales, divides,
    orReject_some, bind_ok]
  split
  · exact ⟨_, rfl⟩
  · exact ⟨_, rfl⟩

theorem Countable.updates (countable : Countable p) {config : GovernanceConfig} {n : Int}
    (quorum : Quorum s p config n) : ∃ r, updateStatusIfQuorum s p = .ok r := by
  obtain ⟨bps, approval⟩ := countable.approval
  obtain ⟨s₁, marks⟩ : ∃ s₁, markQuorumReached s p p.totalVotes = .ok s₁ := by
    unfold markQuorumReached quorumEventBps
    rw [if_pos countable.some, approval]
    split
    · exact ⟨_, rfl⟩
    · exact ⟨_, rfl⟩
  obtain ⟨quorumReached, eq⟩ := markQuorumReached_ok marks
  have quorum₁ : Quorum s₁ p config n := by
    rw [eq]
    exact quorum
  obtain ⟨decided, final⟩ := countable.finalizes quorum₁
  simp only [updateStatusIfQuorum, requireConfig, quorum.1, quorum.2, countable.total, marks, final,
    orReject_some, bind_ok]
  split
  · exact ⟨_, rfl⟩
  · exact ⟨_, rfl⟩

theorem addVote_accepted {choice : VoteChoice} {weight : Int} (yes : 0 ≤ p.yesVotes)
    (no : 0 ≤ p.noVotes) (positive : 0 < weight) (fits : p.totalVotes + weight ≤ i128Max)
    (count : p.totalVoters + 1 ≤ u32Max) : ∃ counted, p.addVote choice weight = .ok counted := by
  have adds : ∀ x, 0 ≤ x → x ≤ p.totalVotes →
      (i128 (x + weight) : Result Int) = .ok (x + weight) := by
    intro x nonneg le
    refine i128_eq_ok.mpr ⟨?_, rfl⟩
    simp only [i128Min]
    omega
  have counts : (addU32 p.totalVoters 1 : Result Nat) = .ok (p.totalVoters + 1) :=
    addU32_eq_ok.mpr ⟨count, rfl⟩
  have sides : p.yesVotes ≤ p.totalVotes ∧ p.noVotes ≤ p.totalVotes := by
    simp only [Proposal.totalVotes]
    omega
  cases choice with
  | approve =>
    simp only [Proposal.addVote, adds _ yes sides.1, bind_ok, counts]
    exact ⟨_, rfl⟩
  | reject =>
    simp only [Proposal.addVote, adds _ no sides.2, bind_ok, counts]
    exact ⟨_, rfl⟩

theorem withVotes_nonneg (nonneg : 0 ≤ p.yesVotes ∧ 0 ≤ p.noVotes)
    (eligible : ∀ b ∈ recorded, Eligible s proposalId p b) :
    0 ≤ (withVotes s p recorded).yesVotes ∧ 0 ≤ (withVotes s p recorded).noVotes := by
  have sides : ∀ side, 0 ≤ ∑ b ∈ recorded, powerFor s p side b := by
    intro side
    apply Finset.sum_nonneg
    intro b mem
    unfold powerFor
    split
    · exact Int.le_of_lt (eligible b mem).2
    · exact Int.le_refl 0
  exact ⟨Int.add_nonneg nonneg.1 (sides _), Int.add_nonneg nonneg.2 (sides _)⟩

theorem Room.countable (room : Room s proposalId p electors)
    (nonneg : 0 ≤ p.yesVotes ∧ 0 ≤ p.noVotes) (sub : recorded ⊆ electors)
    (eligible : ∀ b ∈ recorded, Eligible s proposalId p b) {b : Ballot} (mem : b ∈ recorded) :
    Countable (withVotes s p recorded) := by
  obtain ⟨yes, no⟩ := withVotes_nonneg nonneg eligible
  refine ⟨yes, no, ?_, room.votes recorded sub eligible⟩
  have positive : ∀ b' ∈ recorded, 0 ≤ power s p b'.1 := fun b' mem' =>
    Int.le_of_lt (eligible b' mem').2
  have own := Finset.single_le_sum positive mem
  have total : 0 ≤ p.totalVotes := Int.add_nonneg nonneg.1 nonneg.2
  have some := (eligible b mem).2
  rw [totalVotes_withVotes]
  omega

/-- Where there is room, the vote of a new ballot can be added. -/
theorem Room.addVote (room : Room s proposalId p electors)
    (nonneg : 0 ≤ p.yesVotes ∧ 0 ≤ p.noVotes) {b : Ballot} (new : b ∉ recorded)
    (sub : insert b recorded ⊆ electors)
    (eligible : ∀ b' ∈ insert b recorded, Eligible s proposalId p b') :
    ∃ counted, (withVotes s p recorded).addVote b.2 (power s p b.1) = .ok counted := by
  obtain ⟨yes, no⟩ := withVotes_nonneg nonneg fun b' mem =>
    eligible b' (Finset.mem_insert_of_mem mem)
  have countable := room.countable nonneg sub eligible (Finset.mem_insert_self ..)
  have total : (withVotes s p (insert b recorded)).totalVotes =
      (withVotes s p recorded).totalVotes + power s p b.1 := by
    rw [totalVotes_withVotes, totalVotes_withVotes, Finset.sum_insert new]
    ring
  have some := countable.some
  have fits := countable.fits
  have card : (insert b recorded).card ≤ electors.card := Finset.card_le_card sub
  rw [Finset.card_insert_of_notMem new] at card
  have voters := room.voters
  apply addVote_accepted yes no (eligible b (Finset.mem_insert_self ..)).2
  · omega
  · show p.totalVoters + recorded.card + 1 ≤ u32Max
    omega

/-- A voter with power is found to have it. -/
theorem Eligible.weighs {b : Ballot} (eligible : Eligible s proposalId p b) :
    getVoteWeight s p.snapshotLedger b.1 = .ok (power s p b.1) := by
  have positive := eligible.2
  unfold power at positive ⊢
  cases lookup : getVoteWeight s p.snapshotLedger b.1 with
  | ok weight => rfl
  | error trap =>
    rw [lookup] at positive
    exact absurd positive (Int.lt_irrefl 0)

/-- A vote that passes the checks is accepted when its decision does not trap. -/
theorem vote_accepted {voter : Address} {choice : VoteChoice} {weight : Int} {counted : Proposal}
    {config : GovernanceConfig} {n : Int} (isOpen : Open e t pauseGovernanceVoting)
    (signed : e.auth voter = true) (found : t.proposal proposalId = some q)
    (active : q.status = .active) (inTime : e.sequence ≤ q.endLedger)
    (fresh : t.vote (proposalId, voter) = none)
    (weighs : getVoteWeight t q.snapshotLedger voter = .ok weight) (positive : 0 < weight)
    (adds : q.addVote choice weight = .ok counted) (countable : Countable counted)
    (quorum : Quorum t counted config n) :
    ∃ v t', contract.exec e t (.vote voter proposalId choice) = .ok (v, t') := by
  have guard : checkNotPaused e t pauseGovernanceVoting = .ok (t.guarded e pauseGovernanceVoting) :=
    checkNotPaused_eq_ok.mpr ⟨isOpen, rfl⟩
  have auth : requireAuth e voter = (.ok () : Result Unit) := requireAuth_eq_ok.mpr signed
  have found' : (t.guarded e pauseGovernanceVoting).proposal proposalId = some q := found
  have isActive : ¬ q.status ≠ .active := not_not_intro active
  have early : ¬ e.sequence > q.endLedger := Nat.not_lt.mpr inTime
  have unvoted : (t.guarded e pauseGovernanceVoting).vote (proposalId, voter) = none := fresh
  have notVoted : ¬ (none : Option Vote).isSome = true := Bool.false_ne_true
  have weighs' : getVoteWeight (t.guarded e pauseGovernanceVoting) q.snapshotLedger voter =
    .ok weight := weighs
  have hasPower : ¬ weight ≤ 0 := Int.not_le.mpr positive
  let voted := { t.guarded e pauseGovernanceVoting with
    vote := (t.guarded e pauseGovernanceVoting).vote.set (proposalId, voter)
      ⟨voter, choice, weight, e.timestamp⟩ }
  have quorum' : Quorum voted counted config n := by
    have threshold := computeQuorumThreshold_congr config counted.snapshotLedger
      (rfl : voted.totalSupplyCheckpoint = t.totalSupplyCheckpoint) rfl
    exact ⟨quorum.1, threshold.trans quorum.2⟩
  obtain ⟨r, decision⟩ := countable.updates quorum'
  apply silent_accepted
  intro trap rejected
  simp only [Governance.vote, guard, auth, found', orReject_some, bind_ok, rejectIf_neg isActive,
    rejectIf_neg early, unvoted, rejectIf_neg notVoted, weighs', rejectIf_neg hasPower,
    adds] at rejected
  rw [decision] at rejected
  cases rejected

/-- Where there is room, a ballot that can be recorded is accepted as long as the
proposal waits for votes. -/
theorem Progress.accepts (progress : Progress s proposalId p electors t recorded q)
    (room : Room s proposalId p electors) (nonneg : 0 ≤ p.yesVotes ∧ 0 ≤ p.noVotes)
    (active : q.status = .active) {b : Ballot} (mem : b ∈ electors) (new : b ∉ recorded)
    (eligible : Eligible s proposalId p b) (isOpen : Open e t pauseGovernanceVoting)
    (signed : e.auth b.1 = true) (inTime : e.sequence ≤ p.endLedger) :
    ∃ v t', contract.exec e t (.vote b.1 proposalId b.2) = .ok (v, t') := by
  obtain ⟨rfl, _⟩ := progress.waits active
  have sub : insert b recorded ⊆ electors := Finset.insert_subset mem progress.sub
  have eligible' := progress.eligible_insert eligible
  obtain ⟨counted, adds⟩ := room.addVote nonneg new sub eligible'
  obtain rfl := addVote_withVotes new rfl adds
  obtain ⟨config, n, quorum⟩ := room.quorum
  have weighs : getVoteWeight t p.snapshotLedger b.1 = .ok (power s p b.1) :=
    (progress.rules.weight b mem).trans eligible.weighs
  have quorum' : Quorum t (withVotes s p (insert b recorded)) config n :=
    (progress.rules.quorum_iff rfl config n).mpr quorum
  exact vote_accepted isOpen signed progress.found active inTime
    ((progress.votes b mem).mpr ⟨eligible.1, new⟩) weighs eligible.2 adds
    (room.countable nonneg sub eligible' (Finset.mem_insert_self ..)) quorum'

/-! ### Whole windows -/

/-- Where there is room, a proposal that still waits has recorded every ballot
that can be recorded. -/
def Complete (s : Storage) (proposalId : Nat) (p : Proposal) (electors : Finset Ballot)
    (l : List Ballot) (recorded : Finset Ballot) (q : Proposal) : Prop :=
  Room s proposalId p electors → q.status = .active →
    ∀ b ∈ l, Eligible s proposalId p b → b ∈ recorded

theorem progress_of_window (found : s.proposal proposalId = some p)
    (nonneg : 0 ≤ p.yesVotes ∧ 0 ≤ p.noVotes)
    (distinct : ∀ b ∈ electors, ∀ b' ∈ electors, b.1 = b'.1 → b = b')
    (window : Window s proposalId p electors l t) :
    ∃ recorded q, Progress s proposalId p electors t recorded q ∧
      Complete s proposalId p electors l recorded q := by
  induction window with
  | start => exact ⟨∅, p, .start found, fun _ _ b mem => nomatch mem⟩
  | @vote l t e b window mem isOpen signed inTime ih =>
    obtain ⟨recorded, q, progress, complete⟩ := ih
    cases ok : contract.exec e t (.vote b.1 proposalId b.2) with
    | ok accepted =>
      obtain ⟨active, q', progress'⟩ := progress.vote distinct mem ok
      rw [contract.submit_of_ok ok]
      refine ⟨_, q', progress', fun room _ b' mem' eligible => ?_⟩
      rcases List.mem_cons.mp mem' with rfl | mem'
      · exact Finset.mem_insert_self ..
      · exact Finset.mem_insert_of_mem (complete room active b' mem' eligible)
    | error trap =>
      rw [contract.submit_of_error ok]
      refine ⟨recorded, q, progress, fun room active b' mem' eligible => ?_⟩
      rcases List.mem_cons.mp mem' with rfl | mem'
      · by_contra new
        obtain ⟨v, t', accepted⟩ :=
          progress.accepts room nonneg active mem new eligible isOpen signed inTime
        rw [ok] at accepted
        cases accepted
      · exact complete room active b' mem' eligible
  | other window ok rules proposal same ih =>
    obtain ⟨recorded, q, progress, complete⟩ := ih
    exact ⟨recorded, q, progress.other rules proposal same, complete⟩

/-- The status of a proposal. -/
def statusOf (s : Storage) (proposalId : Nat) : Option ProposalStatus :=
  (s.proposal proposalId).map (·.status)

/-- After the window, the proposal has the status `finalize_status` decides on
the recorded votes, whether they decided it already or not. -/
theorem Progress.finalStatus (progress : Progress s proposalId p electors t recorded q)
    (active : p.status = .active) (ended : p.endLedger < e.sequence) :
    statusOf (contract.submit e (.finalizeProposal proposalId) t) proposalId =
      some (outcome s (withVotes s p recorded)) := by
  rcases progress.stage with ⟨waits, _⟩ | ⟨_, final⟩
  · have same : finalizeStatus t q = finalizeStatus s (withVotes s p recorded) := by
      rw [waits]
      exact progress.rules.finalizeStatus rfl
    have isActive : q.status = .active := by rw [waits]; exact active
    have inTime : ¬ e.sequence ≤ q.endLedger := by
      rw [waits]
      exact Nat.not_le.mpr ended
    have accepted : finalizeProposal e t proposalId = (do
        let decided ← finalizeStatus s (withVotes s p recorded)
        .ok { t with proposal := t.proposal.set proposalId decided }) := by
      simp only [finalizeProposal, progress.found, orReject_some, bind_ok, isActive,
        rejectIf_neg inTime, same]
      rfl
    cases decision : finalizeStatus s (withVotes s p recorded) with
    | ok decided =>
      rw [decision] at accepted
      have ok : contract.exec e t (.finalizeProposal proposalId) =
          .ok (.unit, { t with proposal := t.proposal.set proposalId decided }) :=
        silent_eq_ok.mpr ⟨accepted, rfl⟩
      rw [contract.submit_of_ok ok, statusOf, outcome, decision]
      simp
    | error trap =>
      rw [decision] at accepted
      have rejected : contract.exec e t (.finalizeProposal proposalId) = .error trap := by
        show silent Value.unit (finalizeProposal e t proposalId) = _
        rw [accepted]
        rfl
      rw [contract.submit_of_error rejected, statusOf, progress.found, outcome, decision, waits]
      rfl
  · obtain ⟨_, status⟩ := finalizeStatus_status final
    have decided : q.status ≠ .active := by
      intro isActive
      rw [isActive] at status
      rcases status with absurd | absurd <;> cases absurd
    have rejected : contract.exec e t (.finalizeProposal proposalId) =
        .error (.panic "Proposal is not active") := by
      show silent Value.unit (finalizeProposal e t proposalId) = _
      simp only [finalizeProposal, progress.found, orReject_some, bind_ok, rejectIf_pos decided]
      rfl
    rw [contract.submit_of_error rejected, statusOf, progress.found, outcome, final]
    rfl

/-- The same votes recorded are the same set of ballots. -/
theorem Progress.recorded_eq {recorded' : Finset Ballot} {q' : Proposal}
    (progress : Progress s proposalId p electors t recorded q)
    (progress' : Progress s proposalId p electors t' recorded' q')
    (same : ∀ voter, t.vote (proposalId, voter) = none ↔ t'.vote (proposalId, voter) = none) :
    recorded = recorded' := by
  ext b
  constructor
  · intro mem
    have inside := progress.sub mem
    by_contra out
    have unvoted := (progress'.votes b inside).mpr ⟨(progress.eligible b mem).1, out⟩
    exact ((progress.votes b inside).mp ((same b.1).mpr unvoted)).2 mem
  · intro mem
    have inside := progress'.sub mem
    by_contra out
    have unvoted := (progress.votes b inside).mpr ⟨(progress'.eligible b mem).1, out⟩
    exact ((progress'.votes b inside).mp ((same b.1).mp unvoted)).2 mem

/-- A proposal that waits at the end of a complete window has all ballots that
can be recorded, so no decision is possible. -/
theorem Progress.not_deciding (progress : Progress s proposalId p electors t recorded q)
    (complete : ∀ b ∈ electors, Eligible s proposalId p b → b ∈ recorded)
    (active : q.status = .active) {other : Finset Ballot} (sub : other ⊆ electors) :
    ¬ Deciding s proposalId p other := by
  intro deciding
  have inside : other ⊆ recorded := fun b mem =>
    complete b (sub mem) (deciding.eligible b mem)
  obtain ⟨config, n, quorum, reached, b, mem, _⟩ := deciding.reached
  rcases (progress.waits active).2 with empty | ⟨config', n', quorum', below⟩
  · rw [empty] at inside
    exact Finset.notMem_empty b (inside mem)
  · obtain rfl := Option.some.inj (quorum.1.symm.trans quorum'.1)
    obtain rfl := Except.ok.inj (quorum.2.symm.trans quorum'.2)
    have more : ∑ b ∈ other, power s p b.1 ≤ ∑ b ∈ recorded, power s p b.1 :=
      Finset.sum_le_sum_of_subset_of_nonneg inside fun b mem _ =>
        Int.le_of_lt (progress.eligible b mem).2
    rw [totalVotes_withVotes] at reached below
    omega

/-- Two orders in which all electors submit their votes inside the window give a
proposal the same final status when they get the same votes recorded, and
whenever there is room for every vote and every set of ballots that can be the
one to reach the quorum is decided alike. -/
theorem outcome_independent_of_order (reach : Reachable contract s)
    (found : s.proposal proposalId = some p) (active : p.status = .active)
    (distinct : ∀ b ∈ electors, ∀ b' ∈ electors, b.1 = b'.1 → b = b')
    {l₁ l₂ : List Ballot} {t₁ t₂ : Storage} {e₁ e₂ : Env Remote}
    (all₁ : l₁.toFinset = electors) (all₂ : l₂.toFinset = electors)
    (window₁ : Window s proposalId p electors l₁ t₁)
    (window₂ : Window s proposalId p electors l₂ t₂)
    (ended₁ : p.endLedger < e₁.sequence) (ended₂ : p.endLedger < e₂.sequence) :
    ((∀ voter, t₁.vote (proposalId, voter) = none ↔ t₂.vote (proposalId, voter) = none) →
      statusOf (contract.submit e₁ (.finalizeProposal proposalId) t₁) proposalId =
        statusOf (contract.submit e₂ (.finalizeProposal proposalId) t₂) proposalId) ∧
    (Room s proposalId p electors →
      (∀ r₁ ⊆ electors, ∀ r₂ ⊆ electors, Deciding s proposalId p r₁ → Deciding s proposalId p r₂ →
        outcome s (withVotes s p r₁) = outcome s (withVotes s p r₂)) →
      statusOf (contract.submit e₁ (.finalizeProposal proposalId) t₁) proposalId =
        statusOf (contract.submit e₂ (.finalizeProposal proposalId) t₂) proposalId) := by
  have nonneg := ((Sound.of_reachable reach).booked proposalId p found).nonneg
  obtain ⟨r₁, q₁, progress₁, complete₁⟩ := progress_of_window found nonneg distinct window₁
  obtain ⟨r₂, q₂, progress₂, complete₂⟩ := progress_of_window found nonneg distinct window₂
  rw [progress₁.finalStatus active ended₁, progress₂.finalStatus active ended₂]
  refine ⟨fun same => ?_, fun room alike => congrArg some ?_⟩
  · rw [progress₁.recorded_eq progress₂ same]
  · -- A waiting proposal has all ballots, and then the other order decides on none.
    have all : ∀ {l : List Ballot} {r : Finset Ballot} {q : Proposal}, l.toFinset = electors →
        Complete s proposalId p electors l r q → q.status = .active →
        ∀ b ∈ electors, Eligible s proposalId p b → b ∈ r := by
      intro l r q toFinset complete isActive b mem eligible
      rw [← toFinset, List.mem_toFinset] at mem
      exact complete room isActive b mem eligible
    rcases progress₁.stage with ⟨waits₁, _⟩ | ⟨decided₁, _⟩
    · have active₁ : q₁.status = .active := by rw [waits₁]; exact active
      have all₁' := all all₁ complete₁ active₁
      rcases progress₂.stage with ⟨waits₂, _⟩ | ⟨decided₂, _⟩
      · have active₂ : q₂.status = .active := by rw [waits₂]; exact active
        have all₂' := all all₂ complete₂ active₂
        have same : r₁ = r₂ := by
          apply Finset.Subset.antisymm
          · exact fun b mem => all₂' b (progress₁.sub mem) (progress₁.eligible b mem)
          · exact fun b mem => all₁' b (progress₂.sub mem) (progress₂.eligible b mem)
        rw [same]
      · exact absurd decided₂ (progress₁.not_deciding all₁' active₁ progress₂.sub)
    · rcases progress₂.stage with ⟨waits₂, _⟩ | ⟨decided₂, _⟩
      · have active₂ : q₂.status = .active := by rw [waits₂]; exact active
        exact absurd decided₁
          (progress₂.not_deciding (all all₂ complete₂ active₂) active₂ progress₁.sub)
      · exact alike r₁ progress₁.sub r₂ progress₂.sub decided₁ decided₂

/-- Power 60 and 100, a quorum of `quorum`, and a proposal. -/
def twoVoters (quorum : Int) : Storage :=
  contract.submitAll
    [(signedAt 1, .initializeContract ⟨0⟩ ⟨9⟩ quorum 5000 20),
      (signedAt 1, .updateVotingPower ⟨0⟩ ⟨1⟩ 60), (signedAt 1, .updateVotingPower ⟨0⟩ ⟨2⟩ 100),
      (signedAt 20, .createProposal ⟨1⟩ 1 [97] [97])] contract.init

/-- The smaller voter approves and the larger rejects. -/
def approves : Ballot := (⟨1⟩, .approve)

def rejects : Ballot := (⟨2⟩, .reject)

/-- Submit two ballots for the proposal, the first one at ledger 21. -/
def castBoth (s : Storage) (first second : Ballot) : Storage :=
  contract.submit (signedAt 22) (.vote second.1 1 second.2)
    (contract.submit (signedAt 21) (.vote first.1 1 first.2) s)

theorem castBoth_window {first second : Ballot} (mem₁ : first ∈ electors)
    (mem₂ : second ∈ electors) (open₁ : Open (signedAt 21) s pauseGovernanceVoting)
    (open₂ : Open (signedAt 22) (contract.submit (signedAt 21) (.vote first.1 1 first.2) s)
      pauseGovernanceVoting) (ends : p.endLedger = 40) :
    Window s 1 p electors [second, first] (castBoth s first second) := by
  have inTime : ∀ ledger ≤ 40, (signedAt ledger).sequence ≤ p.endLedger := by
    intro ledger le
    rw [ends]
    exact le
  exact .vote (.vote .start mem₁ open₁ rfl (inTime 21 (by decide))) mem₂ open₂ rfl
    (inTime 22 (by decide))

def approveFirst (s : Storage) : Storage := castBoth s approves rejects

def rejectFirst (s : Storage) : Storage := castBoth s rejects approves

/-- Neither order meets a pause. -/
theorem open_twoVoters (quorum : Int) (opened : quorum = 160 ∨ quorum = 50) :
    Open (signedAt 21) (twoVoters quorum) pauseGovernanceVoting ∧
    Open (signedAt 22) (contract.submit (signedAt 21) (.vote ⟨1⟩ 1 .approve) (twoVoters quorum))
      pauseGovernanceVoting ∧
    Open (signedAt 22) (contract.submit (signedAt 21) (.vote ⟨2⟩ 1 .reject) (twoVoters quorum))
      pauseGovernanceVoting := by
  unfold Open
  rcases opened with rfl | rfl
  · decide
  · decide

theorem windows_twoVoters {quorum : Int} (opened : quorum = 160 ∨ quorum = 50)
    (ends : p.endLedger = 40) :
    Window (twoVoters quorum) 1 p {approves, rejects} [rejects, approves]
      (approveFirst (twoVoters quorum)) ∧
    Window (twoVoters quorum) 1 p {approves, rejects} [approves, rejects]
      (rejectFirst (twoVoters quorum)) := by
  obtain ⟨before, approved, rejected⟩ := open_twoVoters quorum opened
  exact ⟨castBoth_window (by decide) (by decide) before approved ends,
    castBoth_window (by decide) (by decide) before rejected ends⟩

/-- With a quorum of 160 both votes are needed, and recorded in both orders. -/
theorem outcome_independent_of_order_twoVoters :
    statusOf (contract.submit (signedAt 50) (.finalizeProposal 1)
        (approveFirst (twoVoters 160))) 1 =
      statusOf (contract.submit (signedAt 50) (.finalizeProposal 1)
        (rejectFirst (twoVoters 160))) 1 := by
  obtain ⟨p, found, active, ends⟩ : ∃ p, (twoVoters 160).proposal 1 = some p ∧
      p.status = .active ∧ p.endLedger = 40 := ⟨_, rfl, by decide, by decide⟩
  have distinct : ∀ b ∈ ({approves, rejects} : Finset Ballot), ∀ b' ∈ ({approves, rejects} :
      Finset Ballot), b.1 = b'.1 → b = b' := by decide
  obtain ⟨first, second⟩ := windows_twoVoters (.inl rfl) ends
  have ended : p.endLedger < (signedAt 50).sequence := by
    rw [ends]
    decide
  have recorded : ∀ voter, (approveFirst (twoVoters 160)).vote (1, voter) = none ↔
      (rejectFirst (twoVoters 160)).vote (1, voter) = none := by
    have inOrder : (approveFirst (twoVoters 160)).vote =
      (Map.set .empty (1, ⟨1⟩) ⟨⟨1⟩, .approve, 60, 21⟩).set (1, ⟨2⟩) ⟨⟨2⟩, .reject, 100, 22⟩ := rfl
    have reversed : (rejectFirst (twoVoters 160)).vote =
      (Map.set .empty (1, ⟨2⟩) ⟨⟨2⟩, .reject, 100, 21⟩).set (1, ⟨1⟩) ⟨⟨1⟩, .approve, 60, 22⟩ := rfl
    intro voter
    rw [inOrder, reversed]
    by_cases one : voter = ⟨1⟩ <;> by_cases two : voter = ⟨2⟩ <;> simp [Map.set_apply, one, two]
  exact (outcome_independent_of_order (Reachable.init.submitAll _) found active distinct
    (by decide) (by decide) first second ended ended).1 recorded

/-- With a quorum of 50 the first vote decides alone: approved in one order,
rejected in the other. -/
theorem first_vote_decides : Reachable contract (twoVoters 50) ∧
    ∃ p, (twoVoters 50).proposal 1 = some p ∧ p.status = .active ∧
      Window (twoVoters 50) 1 p {approves, rejects} [rejects, approves]
        (approveFirst (twoVoters 50)) ∧
      Window (twoVoters 50) 1 p {approves, rejects} [approves, rejects]
        (rejectFirst (twoVoters 50)) ∧
      statusOf (contract.submit (signedAt 50) (.finalizeProposal 1)
        (approveFirst (twoVoters 50))) 1 = some .approved ∧
      statusOf (contract.submit (signedAt 50) (.finalizeProposal 1)
        (rejectFirst (twoVoters 50))) 1 = some .rejected := by
  obtain ⟨p, found, active, ends⟩ : ∃ p, (twoVoters 50).proposal 1 = some p ∧
      p.status = .active ∧ p.endLedger = 40 := ⟨_, rfl, by decide, by decide⟩
  obtain ⟨first, second⟩ := windows_twoVoters (.inr rfl) ends
  exact ⟨Reachable.init.submitAll _, p, found, active, first, second, by decide, by decide⟩

end Talos.Governance
