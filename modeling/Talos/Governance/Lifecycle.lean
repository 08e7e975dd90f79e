import Talos.Governance.Effects
import Talos.Soroban.FiniteMaps
import Mathlib.Logic.Relation

/-!
# The life of a proposal

Seen from one proposal, an accepted call is a `Turn`: the proposal is left
alone, cancelled, voted on, finalized or executed, and the votes on it change
only when it is voted on. From this follow the ledger of a proposal (its tallies
are the sums of the recorded votes), the order in which its status moves, and
what held at the step that approved it.
-/

namespace Talos.Governance

open Talos.Soroban

variable {e : Env Remote} {s s' t : Storage} {c : Call} {v : Value} {p p' : Proposal}
  {proposalId : Nat} {ballots' : Map Address Vote}

/-- The votes on one proposal, by voter. -/
def ballots (s : Storage) (proposalId : Nat) : Map Address Vote := s.vote.slice proposalId

/-! ### Turns -/

/-- What one accepted call can do to a proposal and the votes on it. -/
inductive Turn (e : Env Remote) (s : Storage) (proposalId : Nat) (p : Proposal) :
    Call → Proposal → Map Address Vote → Prop where
  | idle {c : Call} (notVote : ∀ voter choice, c ≠ .vote voter proposalId choice) :
      Turn e s proposalId p c p (ballots s proposalId)
  | cancel {proposer : Address} (active : p.status = .active) (noVotes : p.totalVoters = 0) :
      Turn e s proposalId p (.cancelProposal proposer proposalId) { p with status := .cancelled }
        (ballots s proposalId)
  | vote {voter : Address} {choice : VoteChoice} (counted decided : Proposal) (weight : Int)
      (cast : Cast e s voter proposalId choice p counted weight)
      (decides : Decides s counted decided) :
      Turn e s proposalId p (.vote voter proposalId choice) decided
        ((ballots s proposalId).set voter ⟨voter, choice, weight, e.timestamp⟩)
  | finalize (decided : Proposal) (active : p.status = .active)
      (final : finalizeStatus s p = .ok decided) :
      Turn e s proposalId p (.finalizeProposal proposalId) decided (ballots s proposalId)
  | execute (approved : p.status = .approved) :
      Turn e s proposalId p (.executeProposal proposalId) { p with status := .executed }
        (ballots s proposalId)

/-- A stored proposal takes one turn at every accepted call. -/
theorem turn_of_ok (fresh : ∀ id, nextProposalId s ≤ id → s.proposal id = none)
    (found : s.proposal proposalId = some p) (ok : exec e s c = .ok (v, s')) :
    ∃ p', s'.proposal proposalId = some p' ∧
      Turn e s proposalId p c p' (ballots s' proposalId) := by
  -- A write to another proposal leaves this one idle.
  have elsewhere : ∀ {other : Nat} (q : Proposal), proposalId ≠ other →
      s.proposal.set other q proposalId = some p := fun q ne => (Map.set_of_ne _ q ne).trans found
  cases exec_effect ok with
  | create call q isOpen isProposer proposed room =>
    have ne : proposalId ≠ nextProposalId s := by
      rintro rfl
      rw [fresh _ (Nat.le_refl _)] at found
      cases found
    refine ⟨p, elsewhere q ne, .idle ?_⟩
    rintro voter choice rfl
    cases call
  | @cancelProposal _ other q signed found' isProposer active noVotes =>
    by_cases same : proposalId = other
    · subst same
      obtain rfl := Option.some.inj (found.symm.trans found')
      exact ⟨_, Map.set_self .., .cancel active noVotes⟩
    · exact ⟨p, elsewhere _ same, .idle fun _ _ => Call.noConfusion⟩
  | @vote voter other choice q counted decided weight quorumReached cast decides =>
    by_cases same : proposalId = other
    · subst same
      obtain rfl := Option.some.inj (found.symm.trans cast.found)
      refine ⟨decided, Map.set_self .., ?_⟩
      have turn : Turn e s proposalId p (.vote voter proposalId choice) decided
          ((ballots s proposalId).set voter ⟨voter, choice, weight, e.timestamp⟩) :=
        .vote counted decided weight cast decides
      rwa [ballots, ← Map.slice_set_self] at turn
    · refine ⟨p, elsewhere _ same, ?_⟩
      have turn : Turn e s proposalId p (.vote voter other choice) p (ballots s proposalId) := by
        apply Turn.idle
        intro _ _ call
        apply same
        injection call with _ id
        exact id.symm
      rwa [ballots, ← Map.slice_set_of_ne s.vote voter ⟨voter, choice, weight, e.timestamp⟩ same]
        at turn
  | @finalizeProposal other q decided found' active ended final =>
    by_cases same : proposalId = other
    · subst same
      obtain rfl := Option.some.inj (found.symm.trans found')
      exact ⟨_, Map.set_self .., .finalize decided active final⟩
    · exact ⟨p, elsewhere _ same, .idle fun _ _ => Call.noConfusion⟩
  | @executeProposal other q config found' approved after =>
    by_cases same : proposalId = other
    · subst same
      obtain rfl := Option.some.inj (found.symm.trans found')
      exact ⟨_, Map.set_self .., .execute approved⟩
    · exact ⟨p, elsewhere _ same, .idle fun _ _ => Call.noConfusion⟩
  | setRegistryContract call =>
    refine ⟨p, found, .idle ?_⟩
    rintro voter choice rfl
    rcases call with call | call <;> cases call
  | _ => exact ⟨p, found, .idle fun _ _ => Call.noConfusion⟩

/-- A turn is a vote that was cast, or the call is no vote on the proposal. -/
theorem Turn.vote_or_not (turn : Turn e s proposalId p c p' ballots') :
    (∀ voter choice, c ≠ .vote voter proposalId choice) ∨
    ∃ voter choice counted weight, c = .vote voter proposalId choice ∧
      Cast e s voter proposalId choice p counted weight := by
  cases turn with
  | idle notVote => exact .inl notVote
  | vote counted decided weight cast decides => exact .inr ⟨_, _, counted, weight, rfl, cast⟩
  | _ => exact .inl fun _ _ => Call.noConfusion

/-- Where there is no proposal, an accepted call creates the next one or leaves
things as they are. -/
theorem absent_of_ok (absent : s.proposal proposalId = none) (ok : exec e s c = .ok (v, s')) :
    ballots s' proposalId = ballots s proposalId ∧
      (s'.proposal proposalId = none ∨
        ∃ p, Proposed e s p ∧ proposalId = nextProposalId s ∧
          s'.proposal proposalId = some p) := by
  have elsewhere : ∀ {other : Nat} {q : Proposal} (q' : Proposal), s.proposal other = some q →
      proposalId ≠ other ∧ s.proposal.set other q' proposalId = none := by
    intro other q q' found
    have ne : proposalId ≠ other := by
      rintro rfl
      rw [absent] at found
      cases found
    exact ⟨ne, (Map.set_of_ne _ q' ne).trans absent⟩
  cases exec_effect ok with
  | create call q isOpen isProposer proposed room =>
    refine ⟨rfl, ?_⟩
    by_cases same : proposalId = nextProposalId s
    · subst same
      exact .inr ⟨q, proposed, rfl, Map.set_self ..⟩
    · exact .inl ((Map.set_of_ne _ q same).trans absent)
  | cancelProposal q signed found => exact ⟨rfl, .inl (elsewhere _ found).2⟩
  | vote q counted decided weight quorumReached cast =>
    obtain ⟨ne, none⟩ := elsewhere decided cast.found
    exact ⟨Map.slice_set_of_ne s.vote _ _ ne, .inl none⟩
  | finalizeProposal q decided found => exact ⟨rfl, .inl (elsewhere _ found).2⟩
  | executeProposal q config found => exact ⟨rfl, .inl (elsewhere _ found).2⟩
  | _ => exact ⟨rfl, .inl absent⟩
/-! ### Statuses -/

/-- The moves of a status: out of `active` by a decision or a cancellation, out
of `approved` by execution. -/
inductive Moves : ProposalStatus → ProposalStatus → Prop where
  | approve : Moves .active .approved
  | reject : Moves .active .rejected
  | cancel : Moves .active .cancelled
  | execute : Moves .approved .executed

theorem Moves.leaves_active {from_ to_ : ProposalStatus} (moves : Moves from_ to_) :
    to_ ≠ .active := by
  cases moves <;> exact ProposalStatus.noConfusion

/-- Finalizing sets the status and nothing else. -/
theorem finalizeStatus_status (final : finalizeStatus s p = .ok p') :
    p' = { p with status := p'.status } ∧ (p'.status = .approved ∨ p'.status = .rejected) := by
  obtain ⟨config, q, _, decision⟩ := finalizeStatus_ok final
  rcases decision with ⟨_, rfl⟩ | ⟨_, _, rfl⟩ | ⟨_, _, rfl⟩
  · exact ⟨rfl, .inr rfl⟩
  · exact ⟨rfl, .inl rfl⟩
  · exact ⟨rfl, .inr rfl⟩

theorem Decides.status (decides : Decides s p p') : p' = { p with status := p'.status } ∧
    (p'.status = p.status ∨ p'.status = .approved ∨ p'.status = .rejected) := by
  obtain ⟨config, q, _, ⟨_, rfl⟩ | ⟨_, final⟩⟩ := decides
  · exact ⟨rfl, .inl rfl⟩
  · obtain ⟨eq, decided⟩ := finalizeStatus_status final
    exact ⟨eq, .inr decided⟩

theorem Turn.moves (turn : Turn e s proposalId p c p' ballots') :
    p'.status = p.status ∨ Moves p.status p'.status := by
  have decided : ∀ {q : ProposalStatus}, p.status = .active → q = .approved ∨ q = .rejected →
      Moves p.status q := by
    rintro q active (rfl | rfl)
    · exact active ▸ .approve
    · exact active ▸ .reject
  cases turn with
  | idle => exact .inl rfl
  | cancel active noVotes =>
    rw [active]
    exact .inr .cancel
  | vote counted decided' weight cast decides =>
    have counts := addVote_ok cast.adds ⟨0⟩ 0
    have same : counted.status = p.status := by rw [counts]
    rcases decides.status.2 with still | final
    · exact .inl (still.trans same)
    · exact .inr (decided cast.active final)
  | finalize decided' active final => exact .inr (decided active (finalizeStatus_status final).2)
  | execute approved =>
    rw [approved]
    exact .inr .execute

/-- What approved a proposal: a quorum and a consensus, under the configuration
in force. -/
structure ApprovedUnder (s : Storage) (p : Proposal) : Prop where
  decided : ∃ config q, Quorum s p config q ∧ q ≤ p.totalVotes ∧ p.hasConsensus config

theorem approvedUnder_of_final (final : finalizeStatus s p = .ok p')
    (approved : p'.status = .approved) : ApprovedUnder s p' := by
  obtain ⟨config, q, quorum, decision⟩ := finalizeStatus_ok final
  rcases decision with ⟨_, rfl⟩ | ⟨reached, consensus, rfl⟩ | ⟨_, _, rfl⟩
  · cases approved
  · exact ⟨config, q, quorum, reached, consensus⟩
  · cases approved

theorem Turn.approvedUnder (turn : Turn e s proposalId p c p' ballots')
    (before : p.status ≠ .approved) (after : p'.status = .approved) : ApprovedUnder s p' := by
  cases turn with
  | idle => exact absurd after before
  | cancel active noVotes => cases after
  | vote counted decided weight cast decides =>
    obtain ⟨config, q, _, ⟨_, rfl⟩ | ⟨_, final⟩⟩ := decides
    · have counts := addVote_ok cast.adds ⟨0⟩ 0
      have same : p'.status = p.status := by rw [counts]
      exact absurd (same.symm.trans after) before
    · exact approvedUnder_of_final final after
  | finalize decided active final => exact approvedUnder_of_final final after
  | execute approved => exact absurd approved before

/-! ### The ledger of a proposal -/

/-- The tallies are the sums of the recorded votes of `voters`, all of them. -/
structure Tally (p : Proposal) (ballots : Map Address Vote) (voters : Finset Address) : Prop where
  keys : Map.Keys ballots voters
  yes : p.yesVotes = Map.sumOver (Vote.weightFor .approve) ballots voters
  no : p.noVotes = Map.sumOver (Vote.weightFor .reject) ballots voters
  count : p.totalVoters = voters.card

/-- What holds of a stored proposal and the votes on it. -/
structure Booked (proposalId : Nat) (p : Proposal) (ballots : Map Address Vote) : Prop where
  id : p.id = proposalId
  tally : ∃ voters, Tally p ballots voters
  valid : ∀ voter vote, ballots voter = some vote → vote.voter = voter ∧ 0 < vote.weight
  cancelled : p.status = .cancelled → p.totalVoters = 0

theorem Tally.status {ballots : Map Address Vote} {voters : Finset Address}
    (tally : Tally p ballots voters) (status : ProposalStatus) :
    Tally { p with status } ballots voters :=
  ⟨tally.keys, tally.yes, tally.no, tally.count⟩

/-- Counting a vote of a new voter. -/
theorem Tally.vote {ballots : Map Address Vote} {voters : Finset Address} {counted : Proposal}
    {voter : Address} {choice : VoteChoice} {weight : Int} (tally : Tally p ballots voters)
    (fresh : ballots voter = none) (adds : p.addVote choice weight = .ok counted) (votedAt : Nat) :
    Tally counted (ballots.set voter ⟨voter, choice, weight, votedAt⟩) (insert voter voters) := by
  have notMem : voter ∉ voters := fun mem => (tally.keys voter).mp mem fresh
  obtain rfl := addVote_ok adds voter votedAt
  refine ⟨tally.keys.set _ _, ?_, ?_, ?_⟩
  · rw [Map.sumOver_set _ _ notMem, ← tally.yes]
  · rw [Map.sumOver_set _ _ notMem, ← tally.no]
  · rw [Finset.card_insert_of_notMem notMem, ← tally.count]

theorem Booked.turn (booked : Booked proposalId p (ballots s proposalId))
    (turn : Turn e s proposalId p c p' ballots') : Booked proposalId p' ballots' := by
  obtain ⟨voters, tally⟩ := booked.tally
  cases turn with
  | idle => exact booked
  | cancel active noVotes =>
    exact ⟨booked.id, ⟨voters, tally.status _⟩, booked.valid, fun _ => noVotes⟩
  | @vote voter choice counted decided weight cast decides =>
    have counts := addVote_ok cast.adds ⟨0⟩ 0
    obtain ⟨eq, status⟩ := decides.status
    rw [eq]
    refine ⟨?_, ⟨_, (tally.vote cast.fresh cast.adds e.timestamp).status _⟩, ?_, ?_⟩
    · dsimp only
      rw [counts]
      exact booked.id
    · intro other vote recorded
      rw [Map.set_apply] at recorded
      split at recorded
      · next same =>
        obtain rfl := Option.some.inj recorded
        exact ⟨same.symm, cast.positive⟩
      · exact booked.valid other vote recorded
    · intro cancelled
      have active : counted.status = .active := by
        rw [counts]
        exact cast.active
      dsimp only at cancelled
      rw [cancelled, active] at status
      rcases status with absurd | absurd | absurd <;> cases absurd
  | finalize decided active final =>
    obtain ⟨eq, status⟩ := finalizeStatus_status final
    rw [eq]
    refine ⟨booked.id, ⟨voters, tally.status _⟩, booked.valid, ?_⟩
    intro cancelled
    dsimp only at cancelled
    rw [cancelled] at status
    rcases status with absurd | absurd <;> cases absurd
  | execute approved =>
    exact ⟨booked.id, ⟨voters, tally.status _⟩, booked.valid, fun cancelled => nomatch cancelled⟩

theorem Booked.nonneg {b : Map Address Vote} (booked : Booked proposalId p b) :
    0 ≤ p.yesVotes ∧ 0 ≤ p.noVotes := by
  have counts : ∀ (side : VoteChoice) voter vote, b voter = some vote →
      0 ≤ Vote.weightFor side vote := by
    intro side voter vote recorded
    have positive := (booked.valid voter vote recorded).2
    unfold Vote.weightFor
    split <;> omega
  obtain ⟨voters, tally⟩ := booked.tally
  rw [tally.yes, tally.no]
  exact ⟨Map.sumOver_nonneg (counts .approve) voters, Map.sumOver_nonneg (counts .reject) voters⟩

/-- A new proposal has an empty ledger. -/
theorem Proposed.booked (proposed : Proposed e s p) (empty : ballots s proposalId = .empty)
    (next : proposalId = nextProposalId s) : Booked proposalId p (ballots s proposalId) where
  id := proposed.id.trans next.symm
  tally := by
    rw [empty]
    exact ⟨∅, Map.Keys.empty, by rw [proposed.yesVotes, Map.sumOver_empty],
      by rw [proposed.noVotes, Map.sumOver_empty], proposed.totalVoters⟩
  valid := by
    intro voter vote recorded
    rw [empty] at recorded
    cases recorded
  cancelled _ := proposed.totalVoters

/-! ### Reachable storages -/

/-- Before `initialize` there is no configuration and no proposal; ids from the
counter on are free, and every proposal is booked. -/
structure Sound (s : Storage) : Prop where
  unset : s.admin = none → s.config = none ∧ s.pendingAdmin = none ∧ ∀ id, s.proposal id = none
  fresh : ∀ id, nextProposalId s ≤ id → s.proposal id = none
  orphan : ∀ id, s.proposal id = none → ballots s id = .empty
  booked : ∀ id p, s.proposal id = some p → Booked id p (ballots s id)

theorem Sound.empty : Sound .empty where
  unset _ := ⟨rfl, rfl, fun _ => rfl⟩
  fresh _ _ := rfl
  orphan _ _ := rfl
  booked _ _ found := nomatch found

/-- Rewriting a stored proposal keeps the free ids free. -/
theorem Sound.fresh_set (sound : Sound s) (found : s.proposal proposalId = some p)
    (p' : Proposal) : ∀ id, nextProposalId s ≤ id → s.proposal.set proposalId p' id = none := by
  intro id le
  have ne : id ≠ proposalId := by
    rintro rfl
    rw [sound.fresh id le] at found
    cases found
  rw [Map.set_of_ne _ _ ne]
  exact sound.fresh id le

theorem Sound.step_fresh (sound : Sound s) (ok : exec e s c = .ok (v, s')) :
    ∀ id, nextProposalId s' ≤ id → s'.proposal id = none := by
  cases exec_effect ok with
  | initializeContract config unset => exact fun id _ => (sound.unset unset).2.2 id
  | create call q isOpen isProposer proposed room =>
    intro id le
    have later : nextProposalId s + 1 ≤ id := le
    have ne : id ≠ nextProposalId s := by omega
    exact (Map.set_of_ne _ q ne).trans (sound.fresh id (by omega))
  | cancelProposal q signed found => exact sound.fresh_set found _
  | vote q counted decided weight quorumReached cast => exact sound.fresh_set cast.found _
  | finalizeProposal q decided found => exact sound.fresh_set found _
  | executeProposal q config found => exact sound.fresh_set found _
  | _ => exact sound.fresh

theorem Sound.step_unset (sound : Sound s) (ok : exec e s c = .ok (v, s')) :
    s'.admin = none → s'.config = none ∧ s'.pendingAdmin = none ∧ ∀ id, s'.proposal id = none := by
  intro unset
  -- A stored proposal, a configuration or an admin rules an unset storage out.
  have noProposal : ∀ {id : Nat} {q : Proposal}, s.proposal id = some q → s.admin ≠ none := by
    intro id q found unset
    rw [(sound.unset unset).2.2 id] at found
    cases found
  have noAdmin : ∀ {admin : Address}, s.admin = some admin → s.admin ≠ none := by
    intro admin isAdmin
    rw [isAdmin]
    exact Option.some_ne_none admin
  cases exec_effect ok with
  | initializeContract config => cases unset
  | create call q isOpen isProposer proposed =>
    obtain ⟨config, configured, _⟩ := proposed.window
    rw [(sound.unset unset).1] at configured
    cases configured
  | cancelProposal q signed found => exact absurd unset (noProposal found)
  | vote q counted decided weight quorumReached cast => exact absurd unset (noProposal cast.found)
  | finalizeProposal q decided found => exact absurd unset (noProposal found)
  | executeProposal q config found => exact absurd unset (noProposal found)
  | updateConfig old signed isAdmin => exact absurd unset (noAdmin isAdmin)
  | proposeAdmin current isAdmin => exact absurd unset (noAdmin isAdmin)
  | acceptAdmin pending => cases unset
  | cancelAdminTransfer current isAdmin => exact absurd unset (noAdmin isAdmin)
  | _ => exact sound.unset unset

theorem Sound.step (sound : Sound s) (ok : exec e s c = .ok (v, s')) : Sound s' where
  unset := sound.step_unset ok
  fresh := sound.step_fresh ok
  orphan := by
    intro id absent
    cases found : s.proposal id with
    | none => exact (absent_of_ok found ok).1.trans (sound.orphan id found)
    | some p =>
      obtain ⟨p', found', _⟩ := turn_of_ok sound.fresh found ok
      rw [absent] at found'
      cases found'
  booked := by
    intro id p' found'
    cases found : s.proposal id with
    | some p =>
      obtain ⟨p'', stored, turn⟩ := turn_of_ok sound.fresh found ok
      obtain rfl := Option.some.inj (stored.symm.trans found')
      exact (sound.booked id p found).turn turn
    | none =>
      obtain ⟨same, none | ⟨q, proposed, next, stored⟩⟩ := absent_of_ok found ok
      · rw [none] at found'
        cases found'
      · obtain rfl := Option.some.inj (stored.symm.trans found')
        rw [same]
        exact proposed.booked (sound.orphan id found) next

theorem Sound.of_reachable (reach : Reachable contract s) : Sound s :=
  reach.invariant .empty fun sound ok => sound.step ok

/-! ### Runs -/

/-- What holds of a proposal at its creation, and is kept at each of its turns,
holds of every proposal a run has stored. -/
theorem proposal_of_run {P : List (Entry Remote Storage Call Value) → Storage → Proposal → Prop}
    {h : List (Entry Remote Storage Call Value)} (run : Run contract h s)
    (created : ∀ {h s e c v s' p}, Run contract h s → exec e s c = .ok (v, s') →
      s.proposal proposalId = none → Proposed e s p → P (⟨s, e, c, v⟩ :: h) s' p)
    (kept : ∀ {h s e c v s' p p'}, Run contract h s → exec e s c = .ok (v, s') →
      s.proposal proposalId = some p → Turn e s proposalId p c p' (ballots s' proposalId) →
      P h s p → P (⟨s, e, c, v⟩ :: h) s' p')
    (found : s.proposal proposalId = some p) : P h s p := by
  induction run generalizing p with
  | refl => cases found
  | @step h s s' e c v run ok ih =>
    cases stored : s.proposal proposalId with
    | some q =>
      obtain ⟨p', found', turn⟩ := turn_of_ok (Sound.of_reachable ⟨h, run⟩).fresh stored ok
      obtain rfl := Option.some.inj (found'.symm.trans found)
      exact kept run ok stored turn (ih stored)
    | none =>
      obtain ⟨_, none | ⟨q, proposed, _, stored'⟩⟩ := absent_of_ok stored ok
      · rw [none] at found
        cases found
      · obtain rfl := Option.some.inj (stored'.symm.trans found)
        exact created run ok stored proposed

/-- How a proposal and its votes may look later in a run. -/
structure Later (p : Proposal) (b : Map Address Vote) (p' : Proposal) (b' : Map Address Vote) :
    Prop where
  status : Relation.ReflTransGen Moves p.status p'.status
  records : ∀ voter vote, b voter = some vote → b' voter = some vote
  frozen : p.status ≠ .active → p'.yesVotes = p.yesVotes ∧ p'.noVotes = p.noVotes ∧
    p'.totalVoters = p.totalVoters ∧ b' = b

theorem Later.refl (p : Proposal) (b : Map Address Vote) : Later p b p b :=
  ⟨.refl, fun _ _ recorded => recorded, fun _ => ⟨rfl, rfl, rfl, rfl⟩⟩

/-- No status comes back to `active`. -/
theorem Later.decided {b b' : Map Address Vote} (later : Later p b p' b')
    (decided : p.status ≠ .active) : p'.status ≠ .active := by
  rcases later.status.cases_tail with same | ⟨q, _, last⟩
  · rwa [same]
  · exact last.leaves_active

theorem Later.trans {p'' : Proposal} {b b' b'' : Map Address Vote} (first : Later p b p' b')
    (second : Later p' b' p'' b'') : Later p b p'' b'' := by
  refine ⟨first.status.trans second.status, ?_, ?_⟩
  · intro voter vote recorded
    exact second.records voter vote (first.records voter vote recorded)
  · intro decided
    obtain ⟨yes₁, no₁, count₁, same₁⟩ := first.frozen decided
    obtain ⟨yes₂, no₂, count₂, same₂⟩ := second.frozen (first.decided decided)
    exact ⟨yes₂.trans yes₁, no₂.trans no₁, count₂.trans count₁, same₂.trans same₁⟩

theorem Turn.later (turn : Turn e s proposalId p c p' ballots') :
    Later p (ballots s proposalId) p' ballots' := by
  have status : Relation.ReflTransGen Moves p.status p'.status := by
    rcases turn.moves with same | moves
    · rw [same]
    · exact .single moves
  cases turn with
  | idle => exact .refl p _
  | cancel active noVotes | finalize decided active final =>
    exact ⟨status, fun _ _ recorded => recorded, fun decided => absurd active decided⟩
  | @vote voter choice counted decided weight cast decides =>
    refine ⟨status, ?_, fun decided => absurd cast.active decided⟩
    intro other vote recorded
    have ne : other ≠ voter := by
      rintro rfl
      have fresh : ballots s proposalId other = none := cast.fresh
      rw [fresh] at recorded
      cases recorded
    rw [Map.set_of_ne _ _ ne]
    exact recorded
  | execute approved =>
    exact ⟨status, fun _ _ recorded => recorded, fun _ => ⟨rfl, rfl, rfl, rfl⟩⟩

theorem later_of_steps (sound : Sound s) (found : s.proposal proposalId = some p)
    {h : List (Entry Remote Storage Call Value)} (steps : Steps contract s h t) :
    Sound t ∧ ∃ p', t.proposal proposalId = some p' ∧
      Later p (ballots s proposalId) p' (ballots t proposalId) := by
  induction steps with
  | refl => exact ⟨sound, p, found, .refl p _⟩
  | step _ ok ih =>
    obtain ⟨sound', p', found', later⟩ := ih
    obtain ⟨p'', found'', turn⟩ := turn_of_ok sound'.fresh found' ok
    exact ⟨sound'.step ok, p'', found'', later.trans turn.later⟩

/-- The life of every proposal of every reachable storage: its ledger, what may
become of it in any run from there, and what a step that changes its status has
met. Ids without a proposal only ever get an active one. -/
theorem proposal_lifecycle (reach : Reachable contract s) :
    (∀ id p, s.proposal id = some p →
      (∃ voters, Tally p (ballots s id) voters) ∧
      (∀ voter vote, s.vote (id, voter) = some vote → vote.voter = voter ∧ 0 < vote.weight) ∧
      (p.status = .cancelled → p.totalVoters = 0 ∧ ∀ voter, s.vote (id, voter) = none) ∧
      (∀ h t, Steps contract s h t → ∃ p', t.proposal id = some p' ∧
        Later p (ballots s id) p' (ballots t id)) ∧
      (∀ e c v s' p', exec e s c = .ok (v, s') → s'.proposal id = some p' →
        p'.status ≠ p.status → Moves p.status p'.status ∧
          (p'.status = .approved → ∃ config q, s.config = some config ∧
            computeQuorumThreshold s config p'.snapshotLedger = .ok q ∧
            q ≤ p'.yesVotes + p'.noVotes ∧ 0 < p'.yesVotes + p'.noVotes ∧
            config.consensusThreshold ≤ p'.yesVotes * 10000 / (p'.yesVotes + p'.noVotes)))) ∧
    (∀ e c v s' id p', s.proposal id = none → exec e s c = .ok (v, s') →
      s'.proposal id = some p' → p'.status = .active) := by
  have sound := Sound.of_reachable reach
  refine ⟨fun id p found => ?_, ?_⟩
  · have booked := sound.booked id p found
    refine ⟨booked.tally, booked.valid, ?_, ?_, ?_⟩
    · intro cancelled
      obtain ⟨voters, tally⟩ := booked.tally
      have none := booked.cancelled cancelled
      exact ⟨none, tally.keys.eq_empty (tally.count.symm.trans none)⟩
    · intro h t steps
      exact (later_of_steps sound found steps).2
    · intro e c v s' p' ok found' changed
      obtain ⟨q, stored, turn⟩ := turn_of_ok sound.fresh found ok
      obtain rfl := Option.some.inj (stored.symm.trans found')
      refine ⟨turn.moves.resolve_left changed, fun approved => ?_⟩
      have before : p.status ≠ .approved := fun already => changed (approved.trans already.symm)
      obtain ⟨config, quorum, ⟨configured, threshold⟩, reached, nonzero, consensus⟩ :=
        (turn.approvedUnder before approved).decided
      obtain ⟨yes, no⟩ := (booked.turn turn).nonneg
      rw [Int.tdiv_eq_ediv_of_nonneg (by omega)] at consensus
      have nonzero' : q.yesVotes + q.noVotes ≠ 0 := nonzero
      have positive : 0 < q.yesVotes + q.noVotes := by omega
      exact ⟨config, quorum, configured, threshold, reached, positive, consensus⟩
  · intro e c v s' id p' absent ok found'
    obtain ⟨_, none | ⟨q, proposed, _, stored⟩⟩ := absent_of_ok absent ok
    · rw [none] at found'
      cases found'
    · obtain rfl := Option.some.inj (stored.symm.trans found')
      exact proposed.status

/-- Every invocation signed, at ledger `ledger`. -/
def signedAt (ledger : Nat) : Env Remote :=
  ⟨ledger, ledger, fun _ => true, ⟨fun _ _ => none, fun _ _ => none, fun _ _ => none⟩⟩

/-- A proposal with a quorum of 100 and votes of 60 for and 50 against it. -/
def contestedCalls : List (Env Remote × Call) :=
  [(signedAt 1, .initializeContract ⟨0⟩ ⟨9⟩ 100 5000 20),
    (signedAt 1, .updateVotingPower ⟨0⟩ ⟨1⟩ 60), (signedAt 1, .updateVotingPower ⟨0⟩ ⟨2⟩ 50),
    (signedAt 20, .createProposal ⟨1⟩ 1 [97] [97]), (signedAt 21, .vote ⟨1⟩ 1 .approve),
    (signedAt 22, .vote ⟨2⟩ 1 .reject)]

def contested : Storage := contract.submitAll contestedCalls contract.init

theorem proposal_lifecycle_contested : ∃ p, contested.proposal 1 = some p ∧
    p.status = .approved ∧ p.yesVotes = 60 ∧ p.noVotes = 50 ∧
    ∃ voters, Tally p (ballots contested 1) voters :=
  ⟨_, rfl, by decide, by decide, by decide,
    ((proposal_lifecycle (Reachable.init.submitAll _)).1 1 _ rfl).1⟩

end Talos.Governance
