import Talos.Governance.Lifecycle
import Talos.Governance.Checkpoints
import Mathlib.Algebra.Order.BigOperators.Group.Finset

/-!
# The weight of votes

A vote counts the power of the account its voter delegates to, and the guard
against voting twice is keyed by the voter. So one account's power is counted
once for itself and once more for everybody who delegates to it. The tallies
stay within the power there is in the runs where no two votes on a proposal
resolve to the same account and no counted power is lowered afterwards.
-/

namespace Talos.Governance

open Talos.Soroban

variable {e : Env Remote} {s s' : Storage} {c : Call} {v : Value} {p p' : Proposal}
  {account : Address} {ledger now proposalId : Nat} {l : Timeline Nat Int}
  {h before : List (Entry Remote Storage Call Value)}

/-! ### The power of an account -/

/-- The power of an account at a ledger, as `get_past_votes` returns it. -/
def votesAt (s : Storage) (account : Address) (ledger : Nat) : Int :=
  match getPastVotes s account ledger with
  | .ok votes => votes
  | .error _ => 0

theorem votesAt_of_ok {votes : Int} (ok : getPastVotes s account ledger = .ok votes) :
    votesAt s account ledger = votes := by
  rw [votesAt, ok]

theorem PowerOf.getPastVotes (power : PowerOf s account l now) :
    getPastVotes s account ledger =
      .ok ((l.valueAt ledger).getD ((s.tokenBalanceSnapshot (ledger, account)).getD 0)) :=
  lookupCheckpoints_eq power ledger _

theorem PowerOf.votesAt (power : PowerOf s account l now) :
    votesAt s account ledger =
      (l.valueAt ledger).getD ((s.tokenBalanceSnapshot (ledger, account)).getD 0) :=
  votesAt_of_ok power.getPastVotes

/-- With ledgers in order, `get_past_votes` never traps. -/
theorem Recorded.getPastVotes (recorded : Recorded s now) (account : Address) (ledger : Nat) :
    getPastVotes s account ledger = .ok (votesAt s account ledger) := by
  obtain ⟨l, power⟩ := recorded.power account
  rw [power.votesAt]
  exact power.getPastVotes

/-- The account has a checkpoint at or before the ledger, so its cached balance
there is not read. -/
def Checkpointed (s : Storage) (account : Address) (ledger : Nat) : Prop :=
  ∃ i checkpoint, i < (s.checkpointCount account).getD 0 ∧
    s.checkpoint (account, i) = some checkpoint ∧ checkpoint.ledger ≤ ledger

theorem PowerOf.valueAt_ne_none_iff (power : PowerOf s account l now) :
    l.valueAt ledger ≠ none ↔ Checkpointed s account ledger := by
  constructor
  · intro some
    obtain ⟨change, mem, le⟩ := Timeline.exists_of_valueAt_ne_none some
    obtain ⟨i, lt, found⟩ := power.stored.exists_index mem
    obtain ⟨checkpoint, found', rfl⟩ := Option.map_eq_some_iff.mp found
    rw [← power.count] at lt
    exact ⟨i, checkpoint, lt, found', le⟩
  · rintro ⟨i, checkpoint, lt, found, le⟩
    rw [power.count] at lt
    obtain ⟨other, found', mem⟩ := power.get lt
    obtain rfl := Option.some.inj (found.symm.trans found')
    exact Timeline.valueAt_ne_none mem le

/-- How the power of an account at a ledger can change: an update that is not in
the past of that ledger sets it, and so does caching a balance the account has
no checkpoint for. -/
inductive PowerChange (e : Env Remote) (s : Storage) (account : Address) (ledger : Nat) :
    Call → Int → Prop where
  | same {c : Call} : PowerChange e s account ledger c (votesAt s account ledger)
  | update {admin : Address} {newBalance : Int} (due : e.sequence ≤ ledger) :
      PowerChange e s account ledger (.updateVotingPower admin account newBalance) newBalance
  | cache {admin : Address} {balance : Int} (unset : ¬ Checkpointed s account ledger) :
      PowerChange e s account ledger (.cacheTokenBalance admin ledger account balance) balance

theorem powerChange_update {admin updated : Address} {newBalance : Int} (recorded : Recorded s now)
    (le : now ≤ e.sequence)
    (ok : exec e s (.updateVotingPower admin updated newBalance) = .ok (v, s'))
    (account : Address) (ledger : Nat) :
    PowerChange e s account ledger (.updateVotingPower admin updated newBalance)
      (votesAt s' account ledger) := by
  obtain ⟨own, others⟩ := powerOf_update le recorded ok
  obtain ⟨l, power⟩ := recorded.power account
  have balances : s'.tokenBalanceSnapshot = s.tokenBalanceSnapshot := by
    cases exec_effect ok <;> rfl
  by_cases target : account = updated
  · subst target
    rcases Nat.lt_or_ge ledger e.sequence with past | due
    · have same : votesAt s' account ledger = votesAt s account ledger := by
        rw [(own l power).votesAt, power.votesAt, Timeline.valueAt_record_of_lt past, balances]
      rw [same]
      exact .same
    · rw [(own l power).votesAt, Timeline.valueAt_record_of_le due]
      exact .update due
  · have same : votesAt s' account ledger = votesAt s account ledger := by
      rw [(others account l target power).votesAt, power.votesAt, balances]
    rw [same]
    exact .same

theorem powerChange_cache {admin address : Address} {cachedAt : Nat} {balance : Int}
    (recorded : Recorded s now)
    (ok : exec e s (.cacheTokenBalance admin cachedAt address balance) = .ok (v, s'))
    (account : Address) (ledger : Nat) :
    PowerChange e s account ledger (.cacheTokenBalance admin cachedAt address balance)
      (votesAt s' account ledger) := by
  obtain ⟨l, power⟩ := recorded.power account
  have fields : PowerOf s' account l now ∧
      s'.tokenBalanceSnapshot = s.tokenBalanceSnapshot.set (cachedAt, address) balance := by
    cases exec_effect ok with
    | create call => cases call
    | setRegistryContract call => rcases call with call | call <;> cases call
    | cacheTokenBalance => exact ⟨power, rfl⟩
  obtain ⟨power', balances⟩ := fields
  by_cases read : (ledger, account) = (cachedAt, address) ∧ ¬ Checkpointed s account ledger
  · obtain ⟨same, unset⟩ := read
    obtain ⟨rfl, rfl⟩ := Prod.mk.injEq .. ▸ same
    have none : l.valueAt ledger = none := not_not.mp fun some =>
      unset (power.valueAt_ne_none_iff.mp some)
    rw [power'.votesAt, none, balances, Map.set_self]
    exact .cache unset
  · have same : votesAt s' account ledger = votesAt s account ledger := by
      rw [power'.votesAt, power.votesAt]
      rcases not_and_or.mp read with elsewhere | checkpointed
      · rw [balances, Map.set_of_ne _ _ elsewhere]
      · obtain ⟨votes, value⟩ := Option.ne_none_iff_exists'.mp
          (power.valueAt_ne_none_iff.mpr (not_not.mp checkpointed))
        rw [value]
        rfl
    rw [same]
    exact .same

theorem powerChange_of_ok (recorded : Recorded s now) (le : now ≤ e.sequence)
    (ok : exec e s c = .ok (v, s')) (account : Address) (ledger : Nat) :
    PowerChange e s account ledger c (votesAt s' account ledger) := by
  cases c with
  | updateVotingPower admin updated newBalance =>
    exact powerChange_update recorded le ok account ledger
  | cacheTokenBalance admin cachedAt address balance =>
    exact powerChange_cache recorded ok account ledger
  | _ => cases exec_effect ok <;> exact .same

/-! ### What votes count -/

/-- The account an accepted vote on a proposal counted, and with what power. -/
def countedBy (proposalId : Nat) (r : Entry Remote Storage Call Value) : Option (Address × Int) :=
  match r.call with
  | .vote voter id _ =>
      if id = proposalId then
        (r.pre.proposal id).map fun p =>
          (delegateeOf r.pre voter, votesAt r.pre (delegateeOf r.pre voter) p.snapshotLedger)
      else none
  | _ => none

def counted (h : List (Entry Remote Storage Call Value)) (proposalId : Nat) :
    List (Address × Int) := h.filterMap (countedBy proposalId)

/-- A vote adds what it counted, any other call nothing. -/
theorem counted_cons_vote {choice : VoteChoice} {voter : Address}
    (found : s.proposal proposalId = some p) :
    counted (⟨s, e, .vote voter proposalId choice, v⟩ :: h) proposalId =
      (delegateeOf s voter, votesAt s (delegateeOf s voter) p.snapshotLedger) ::
        counted h proposalId := by
  rw [counted, List.filterMap_cons]
  simp [countedBy, found, counted]

theorem counted_cons_other (notVote : ∀ voter choice, c ≠ .vote voter proposalId choice) :
    counted (⟨s, e, c, v⟩ :: h) proposalId = counted h proposalId := by
  have none : countedBy proposalId ⟨s, e, c, v⟩ = none := by
    cases c with
    | vote voter id choice =>
      have ne : id ≠ proposalId := by
        rintro rfl
        exact notVote voter choice rfl
      simp [countedBy, ne]
    | _ => rfl
  rw [counted, List.filterMap_cons, none]
  rfl

theorem Vote.weightFor_add (vote : Vote) :
    vote.weightFor .approve + vote.weightFor .reject = vote.weight := by
  unfold Vote.weightFor
  cases vote.choice <;> simp

/-- A turn adds to the tallies what it counted, keeping the snapshot. -/
theorem Turn.totalVotes {ballots' : Map Address Vote}
    (turn : Turn e s proposalId p c p' ballots') (found : s.proposal proposalId = some p) :
    p'.snapshotLedger = p.snapshotLedger ∧ p'.totalVotes +
      ((counted h proposalId).map Prod.snd).sum = p.totalVotes +
        ((counted (⟨s, e, c, v⟩ :: h) proposalId).map Prod.snd).sum := by
  cases turn with
  | idle notVote =>
    rw [counted_cons_other notVote]
    exact ⟨rfl, rfl⟩
  | cancel active noVotes =>
    rw [counted_cons_other fun _ _ => Call.noConfusion]
    exact ⟨rfl, rfl⟩
  | finalize decided active final =>
    rw [counted_cons_other fun _ _ => Call.noConfusion, (finalizeStatus_status final).1]
    exact ⟨rfl, rfl⟩
  | execute approved =>
    rw [counted_cons_other fun _ _ => Call.noConfusion]
    exact ⟨rfl, rfl⟩
  | @vote voter choice added decided weight cast decides =>
    rw [counted_cons_vote found, votesAt_of_ok cast.power, decides.status.1,
      addVote_ok cast.adds voter e.timestamp]
    refine ⟨rfl, ?_⟩
    have sides := Vote.weightFor_add ⟨voter, choice, weight, e.timestamp⟩
    simp only [Proposal.totalVotes, List.map_cons, List.sum_cons]
    dsimp only at sides
    omega

/-- There is no voting on a proposal there is not. -/
theorem notVote_of_absent (absent : s.proposal proposalId = none)
    (ok : exec e s c = .ok (v, s')) : ∀ voter choice, c ≠ .vote voter proposalId choice := by
  rintro voter choice rfl
  obtain ⟨p, _, _, _, _, cast, -⟩ := vote_inversion ok
  cases absent.symm.trans cast.found

theorem counted_of_absent (run : Run contract h s) (absent : s.proposal proposalId = none) :
    counted h proposalId = [] := by
  induction run with
  | refl => rfl
  | @step h s s' e c v run ok ih =>
    cases found : s.proposal proposalId with
    | some p =>
      obtain ⟨p', found', _⟩ := turn_of_ok (Sound.of_reachable ⟨h, run⟩).fresh found ok
      rw [absent] at found'
      cases found'
    | none => rw [counted_cons_other (notVote_of_absent found ok), ih found]

/-- The call that creates a proposal counts nothing on it either. -/
theorem counted_of_created (run : Run contract h s) (ok : exec e s c = .ok (v, s'))
    (absent : s.proposal proposalId = none) : counted (⟨s, e, c, v⟩ :: h) proposalId = [] := by
  rw [counted_cons_other (notVote_of_absent absent ok), counted_of_absent run absent]

/-- The tallies of a proposal add up what its votes counted. -/
theorem totalVotes_of_run (run : Run contract h s) (found : s.proposal proposalId = some p) :
    p.totalVotes = ((counted h proposalId).map Prod.snd).sum := by
  refine proposal_of_run
    (P := fun h _ p => p.totalVotes = ((counted h proposalId).map Prod.snd).sum) run ?_ ?_ found
  · intro h s e c v s' p run ok absent proposed
    rw [counted_of_created run ok absent, Proposal.totalVotes, proposed.yesVotes,
      proposed.noVotes]
    rfl
  · intro h s e c v s' p p' run ok stored turn before
    have after := (turn.totalVotes (h := h) (v := v) stored).2
    omega

/-! ### Fair runs -/

/-- The call of an entry counts no account's power a second time and lowers no
power already counted, given the entries before it. -/
def Fair (before : List (Entry Remote Storage Call Value)) (r : Entry Remote Storage Call Value) :
    Prop :=
  match r.call with
  | .vote voter id _ => delegateeOf r.pre voter ∉ (counted before id).map Prod.fst
  | .updateVotingPower _ account newBalance =>
      ∀ id p w, r.pre.proposal id = some p → (account, w) ∈ counted before id →
        p.snapshotLedger < r.env.sequence ∨ w ≤ newBalance
  | .cacheTokenBalance _ ledger account balance =>
      ∀ id p w, r.pre.proposal id = some p → (account, w) ∈ counted before id →
        p.snapshotLedger = ledger → Checkpointed r.pre account ledger ∨ w ≤ balance
  | _ => True

def FairRun : List (Entry Remote Storage Call Value) → Prop
  | [] => True
  | r :: before => Fair before r ∧ FairRun before

/-- Every account is counted once, within the power it has. -/
structure Within (h : List (Entry Remote Storage Call Value)) (s : Storage) (proposalId : Nat)
    (p : Proposal) : Prop where
  once : ((counted h proposalId).map Prod.fst).Nodup
  covered : ∀ account w, (account, w) ∈ counted h proposalId →
    0 < w ∧ w ≤ votesAt s account p.snapshotLedger

/-- A fair call leaves the power of a counted account at what was counted. -/
theorem Fair.keeps_covered {account : Address} {w : Int} (fair : Fair h ⟨s, e, c, v⟩)
    (change : PowerChange e s account p.snapshotLedger c (votesAt s' account p.snapshotLedger))
    (found : s.proposal proposalId = some p) (mem : (account, w) ∈ counted h proposalId)
    (covered : w ≤ votesAt s account p.snapshotLedger) :
    w ≤ votesAt s' account p.snapshotLedger := by
  generalize votesAt s' account p.snapshotLedger = votes' at change
  cases change with
  | same => exact covered
  | update due =>
    rcases fair proposalId p w found mem with past | enough
    · exact absurd due (Nat.not_le.mpr past)
    · exact enough
  | cache unset =>
    rcases fair proposalId p w found mem rfl with checkpointed | enough
    · exact absurd checkpointed unset
    · exact enough

theorem Within.turn {ballots' : Map Address Vote} (within : Within h s proposalId p)
    (fair : Fair h ⟨s, e, c, v⟩) (found : s.proposal proposalId = some p)
    (power : ∀ account, PowerChange e s account p.snapshotLedger c
      (votesAt s' account p.snapshotLedger))
    (turn : Turn e s proposalId p c p' ballots') :
    Within (⟨s, e, c, v⟩ :: h) s' proposalId p' := by
  have snapshot : p'.snapshotLedger = p.snapshotLedger :=
    (turn.totalVotes (h := h) (v := v) found).1
  have kept : ∀ account w, (account, w) ∈ counted h proposalId →
      0 < w ∧ w ≤ votesAt s' account p'.snapshotLedger := by
    intro account w mem
    obtain ⟨positive, covered⟩ := within.covered account w mem
    rw [snapshot]
    exact ⟨positive, fair.keeps_covered (power account) found mem covered⟩
  rcases turn.vote_or_not with notVote | ⟨voter, choice, added, weight, rfl, cast⟩
  · rw [← counted_cons_other (s := s) (e := e) (v := v) notVote] at kept
    refine ⟨?_, kept⟩
    rw [counted_cons_other notVote]
    exact within.once
  · have counts : counted (⟨s, e, .vote voter proposalId choice, v⟩ :: h) proposalId =
        (delegateeOf s voter, weight) :: counted h proposalId := by
      rw [counted_cons_vote found, votesAt_of_ok cast.power]
    constructor
    · rw [counts, List.map_cons, List.nodup_cons]
      exact ⟨fair, within.once⟩
    · intro account w mem
      rw [counts] at mem
      rcases List.mem_cons.mp mem with new | mem
      · obtain ⟨rfl, rfl⟩ := Prod.mk.injEq .. ▸ new
        -- A vote changes no power.
        have same : votesAt s' (delegateeOf s voter) p.snapshotLedger = w := by
          have change := power (delegateeOf s voter)
          generalize votesAt s' (delegateeOf s voter) p.snapshotLedger = votes' at change
          cases change
          exact votesAt_of_ok cast.power
        rw [snapshot, same]
        exact ⟨cast.positive, Int.le_refl w⟩
      · exact kept account w mem

theorem within_of_run (run : Run contract h s) (chronological : Chronological h)
    (fair : FairRun h) (found : s.proposal proposalId = some p) : Within h s proposalId p := by
  refine proposal_of_run (P := fun h s p => Chronological h → FairRun h → Within h s proposalId p)
    run ?_ ?_ found chronological fair
  · intro h s e c v s' p run ok absent proposed _ _
    have empty := counted_of_created run ok absent
    constructor
    · rw [empty]
      exact List.nodup_nil
    · intro account w mem
      rw [empty] at mem
      cases mem
  · intro h s e c v s' p p' run ok stored turn before chronological fair
    obtain ⟨older, chronological'⟩ := List.pairwise_cons.mp chronological
    have recorded : Recorded s e.sequence :=
      recorded_of_run run (ledgersInOrder_of_chronological chronological')
        fun r mem => (older r mem).2
    exact (before chronological' fair.2).turn fair.1 stored
      (fun account => powerChange_of_ok recorded (Nat.le_refl _) ok account _) turn

/-- A run with ledgers in order got to some ledger, where its timelines end. -/
theorem exists_recorded (run : Run contract h s) (chronological : Chronological h) :
    ∃ now, Recorded s now :=
  ⟨_, recorded_of_run run (ledgersInOrder_of_chronological chronological) fun r mem =>
    List.single_le_sum (fun _ _ => Nat.zero_le _) r.env.sequence
      (List.mem_map_of_mem (f := fun r => r.env.sequence) mem)⟩

/-! ### The power there is -/

/-- Outside `accounts` there are neither checkpoints nor cached balances. -/
def PowerWithin (s : Storage) (accounts : Finset Address) : Prop :=
  ∀ account ∉ accounts, s.checkpointCount account = none ∧
    ∀ ledger, s.tokenBalanceSnapshot (ledger, account) = none

/-- Only finitely many accounts have power. -/
theorem finite_power (reach : Reachable contract s) : ∃ accounts, PowerWithin s accounts := by
  apply Reachable.invariant (I := fun s => ∃ accounts, PowerWithin s accounts) reach
  · exact ⟨∅, fun _ _ => ⟨rfl, fun _ => rfl⟩⟩
  rintro e s c v s' ⟨accounts, outside⟩ ok
  cases exec_effect ok with
  | @cacheTokenBalance _ ledger address =>
    refine ⟨insert address accounts, fun account out => ?_⟩
    obtain ⟨ne, out⟩ := not_or.mp fun mem => out (Finset.mem_insert.mpr mem)
    refine ⟨(outside account out).1, fun ledger' => ?_⟩
    exact (Map.set_of_ne _ _ fun same => ne (congrArg Prod.snd same)).trans
      ((outside account out).2 ledger')
  | @updateVotingPower _ updated =>
    refine ⟨insert updated accounts, fun account out => ?_⟩
    obtain ⟨ne, out⟩ := not_or.mp fun mem => out (Finset.mem_insert.mpr mem)
    exact ⟨(Map.set_of_ne _ _ ne).trans (outside account out).1, (outside account out).2⟩
  | _ => exact ⟨accounts, outside⟩

/-- The accounts that hold voting power at a ledger. -/
theorem exists_holders (reach : Reachable contract s) (ledger : Nat) :
    ∃ holders : Finset Address, ∀ account, account ∈ holders ↔ 0 < votesAt s account ledger := by
  obtain ⟨accounts, outside⟩ := finite_power reach
  refine ⟨accounts.filter fun account => 0 < votesAt s account ledger, fun account => ?_⟩
  rw [Finset.mem_filter, and_iff_right_iff_imp]
  intro positive
  by_contra out
  obtain ⟨uncounted, uncached⟩ := outside account out
  have power : PowerOf s account [] 0 := Keeps.empty (by rw [uncounted]; rfl)
  rw [power.votesAt, uncached] at positive
  exact absurd positive (Int.lt_irrefl 0)

/-- In every fair run with ledgers in order, the tallies of every proposal are at
most the power, at its snapshot, of the accounts that hold any. -/
theorem votes_within_power (run : Run contract h s) (chronological : Chronological h)
    (fair : FairRun h) : ∀ id p, s.proposal id = some p →
      (∀ account, getPastVotes s account p.snapshotLedger =
        .ok (votesAt s account p.snapshotLedger)) ∧
      ∃ holders : Finset Address,
        (∀ account, account ∈ holders ↔ 0 < votesAt s account p.snapshotLedger) ∧
        p.yesVotes + p.noVotes ≤ ∑ account ∈ holders, votesAt s account p.snapshotLedger := by
  intro id p found
  obtain ⟨now, recorded⟩ := exists_recorded run chronological
  obtain ⟨holders, holds⟩ := exists_holders ⟨h, run⟩ p.snapshotLedger
  have within := within_of_run run chronological fair found
  refine ⟨fun account => recorded.getPastVotes account _, holders, holds, ?_⟩
  calc p.yesVotes + p.noVotes = ((counted h id).map Prod.snd).sum :=
        totalVotes_of_run run found
    _ ≤ ∑ account ∈ holders, votesAt s account p.snapshotLedger := by
        apply sum_le_sum_bounds within.once
        · intro account w mem
          obtain ⟨positive, le⟩ := within.covered account w mem
          exact ⟨(holds account).mpr (Int.lt_of_lt_of_le positive le), le⟩
        · intro account mem
          exact Int.le_of_lt ((holds account).mp mem)

def contestedRun : List (Entry Remote Storage Call Value) × Storage :=
  contract.play contestedCalls ([], contract.init)

theorem fair_contestedRun : FairRun contestedRun.1 := by
  refine ⟨?_, ?_, trivial, ?_, ?_, trivial, trivial⟩
  · show _ ∉ _
    decide
  · show _ ∉ _
    decide
  · exact fun id p w _ mem => nomatch mem
  · exact fun id p w _ mem => nomatch mem

theorem votes_within_power_contested :
    ∃ p, contestedRun.2.proposal 1 = some p ∧ p.yesVotes + p.noVotes = 110 ∧
      ∃ holders : Finset Address,
        (∀ account, account ∈ holders ↔ 0 < votesAt contestedRun.2 account p.snapshotLedger) ∧
        p.yesVotes + p.noVotes ≤
          ∑ account ∈ holders, votesAt contestedRun.2 account p.snapshotLedger := by
  have run : Run contract contestedRun.1 contestedRun.2 := Contract.play_steps .refl contestedCalls
  obtain ⟨p, found, total⟩ :
      ∃ p, contestedRun.2.proposal 1 = some p ∧ p.yesVotes + p.noVotes = 110 :=
    ⟨_, rfl, by decide⟩
  have within := votes_within_power run (by decide) fair_contestedRun 1 p found
  exact ⟨p, found, total, within.2⟩

/-- Address 2 delegates to address 1, which holds all the power there is, and
both vote. -/
def delegatedRun : List (Entry Remote Storage Call Value) × Storage :=
  contract.play
    [(signedAt 1, .initializeContract ⟨0⟩ ⟨9⟩ 100 5000 20),
      (signedAt 1, .updateVotingPower ⟨0⟩ ⟨1⟩ 60), (signedAt 2, .delegate ⟨2⟩ ⟨1⟩),
      (signedAt 20, .createProposal ⟨1⟩ 1 [97] [97]), (signedAt 21, .vote ⟨1⟩ 1 .approve),
      (signedAt 22, .vote ⟨2⟩ 1 .approve)] ([], contract.init)

/-- The 60 votes of address 1 are counted twice: 120 votes are cast and approve
the proposal, while all accounts together hold 60. -/
theorem delegation_counts_twice :
    Run contract delegatedRun.1 delegatedRun.2 ∧ Chronological delegatedRun.1 ∧
    ∃ p, delegatedRun.2.proposal 1 = some p ∧ p.yesVotes = 120 ∧ p.status = .approved ∧
      ∀ holders : Finset Address,
        (∀ account, account ∈ holders ↔ 0 < votesAt delegatedRun.2 account p.snapshotLedger) →
        ∑ account ∈ holders, votesAt delegatedRun.2 account p.snapshotLedger = 60 := by
  refine ⟨Contract.play_steps .refl _, by decide, ?_⟩
  obtain ⟨p, found, yes, approved, snapshot⟩ : ∃ p, delegatedRun.2.proposal 1 = some p ∧
      p.yesVotes = 120 ∧ p.status = .approved ∧ p.snapshotLedger = 10 :=
    ⟨_, rfl, by decide, by decide, by decide⟩
  refine ⟨p, found, yes, approved, fun holders holds => ?_⟩
  rw [snapshot] at holds ⊢
  have all : votesAt delegatedRun.2 ⟨1⟩ 10 = 60 := by decide
  have only : holders = {⟨1⟩} := by
    ext account
    rw [holds, Finset.mem_singleton]
    constructor
    · intro positive
      by_contra other
      have none : delegatedRun.2.checkpointCount account = none := Map.set_of_ne _ _ other
      have power : PowerOf delegatedRun.2 account [] 0 := Keeps.empty (by rw [none]; rfl)
      rw [power.votesAt] at positive
      exact absurd positive (Int.lt_irrefl 0)
    · rintro rfl
      rw [all]
      decide
  rw [only, Finset.sum_singleton, all]

end Talos.Governance
