import Talos.Governance.Supply

/-!
# What the lookups at past ledgers find

`get_past_votes` finds the last balance an account was given at or before a ledger, whatever the
checkpoints keep of the updates before it, and `get_past_total_supply` finds the sum of the
accounts' last checkpoints. Only the ledger numbers of the updates have to be in order. In the
search `mid` is above `low`, so no unsigned subtraction passes zero.
-/

namespace Talos.Governance

open Talos.Soroban

variable {e : Env Remote} {s s' : Storage} {c : Call} {v : Value} {now ledger : Nat}
  {account : Address} {h : List (Entry Remote Storage Call Value)} {l : Timeline Nat Int}

/-! ### The updates of an account -/

def updateOf (account : Address) (r : Entry Remote Storage Call Value) : Option (Change Nat Int) :=
  match r.call with
  | .updateVotingPower _ updated newBalance =>
      if updated = account then some ⟨r.env.sequence, newBalance⟩ else none
  | _ => none

/-- The accepted updates of the account's voting power, newest first. -/
def updates (h : List (Entry Remote Storage Call Value)) (account : Address) : Timeline Nat Int :=
  h.filterMap (updateOf account)

theorem updates_cons_none {r : Entry Remote Storage Call Value}
    (none_ : updateOf account r = none) : updates (r :: h) account = updates h account :=
  List.filterMap_cons_none none_

theorem updates_cons_update {admin updated : Address} {newBalance : Int} :
    updates (⟨s, e, .updateVotingPower admin updated newBalance, v⟩ :: h) account =
      if updated = account then ⟨e.sequence, newBalance⟩ :: updates h account
      else updates h account := by
  by_cases same : updated = account
  · rw [if_pos same]
    exact List.filterMap_cons_some (if_pos same)
  · rw [if_neg same]
    exact List.filterMap_cons_none (if_neg same)

/-- A timeline of changes and a list of them agree on a new change. -/
theorem valueAt_record_cons {changes : Timeline Nat Int} {balance : Int} {t at_ : Nat}
    (agree : l.valueAt at_ = changes.valueAt at_) :
    (l.record t balance).valueAt at_ = Timeline.valueAt (⟨t, balance⟩ :: changes) at_ := by
  rcases Nat.lt_or_ge at_ t with before | due
  · rw [Timeline.valueAt_record_of_lt before, Timeline.valueAt_cons_of_lt (c := ⟨t, balance⟩) before,
      agree]
  · rw [Timeline.valueAt_record_of_le due, Timeline.valueAt_cons_of_le (c := ⟨t, balance⟩) due]

/-- The checkpoints of the account keep a timeline with the values of its updates. -/
def Logged (h : List (Entry Remote Storage Call Value)) (s : Storage) (account : Address)
    (now : Nat) : Prop :=
  ∃ l, PowerOf s account l now ∧ ∀ x, l.valueAt x = (updates h account).valueAt x

/-- Only updates of voting power write checkpoints. -/
theorem checkpoints_of_other (ok : exec e s c = .ok (v, s'))
    (other : ∀ admin updated newBalance, c ≠ .updateVotingPower admin updated newBalance) :
    s'.checkpoint = s.checkpoint ∧ s'.checkpointCount = s.checkpointCount := by
  cases exec_effect ok with
  | updateVotingPower => exact absurd rfl (other _ _ _)
  | _ => exact ⟨rfl, rfl⟩

theorem Logged.step (logged : ∀ account, Logged h s account now) (recorded : Recorded s now)
    (le : now ≤ e.sequence) (ok : exec e s c = .ok (v, s')) (account : Address) :
    Logged (⟨s, e, c, v⟩ :: h) s' account e.sequence := by
  obtain ⟨l, power, agree⟩ := logged account
  by_cases update : ∃ admin updated newBalance, c = .updateVotingPower admin updated newBalance
  · obtain ⟨admin, updated, newBalance, rfl⟩ := update
    obtain ⟨own, others⟩ := powerOf_update le recorded ok
    by_cases same : updated = account
    · subst same
      refine ⟨_, own l power, fun x => ?_⟩
      rw [updates_cons_update, if_pos rfl]
      exact valueAt_record_cons (agree x)
    · refine ⟨l, others account l (Ne.symm same) power, ?_⟩
      rw [updates_cons_update, if_neg same]
      exact agree
  · have other : ∀ admin updated newBalance, c ≠ .updateVotingPower admin updated newBalance :=
      fun admin updated newBalance is => update ⟨admin, updated, newBalance, is⟩
    obtain ⟨checkpoint, count⟩ := checkpoints_of_other ok other
    have none_ : updateOf account ⟨s, e, c, v⟩ = none := by
      cases c with
      | updateVotingPower admin updated newBalance => exact absurd rfl (other _ _ _)
      | _ => rfl
    refine ⟨l, ?_, ?_⟩
    · rw [PowerOf, checkpoint, count]
      exact power.mono le
    · rw [updates_cons_none none_]
      exact agree

theorem logged_of_run (run : Run contract h s) (ordered : LedgersInOrder h)
    (past : ∀ r ∈ h, r.env.sequence ≤ now) (account : Address) : Logged h s account now := by
  induction run generalizing now account with
  | refl => exact ⟨[], .empty rfl, fun _ => rfl⟩
  | step run ok ih =>
    obtain ⟨older, ordered'⟩ := List.pairwise_cons.mp ordered
    have recorded := recorded_of_run run ordered' older
    obtain ⟨l, power, agree⟩ := Logged.step (ih ordered' older) recorded (Nat.le_refl _) ok account
    exact ⟨l, power.mono (past _ List.mem_cons_self), agree⟩

/-- A run got to some ledger. -/
theorem exists_past (h : List (Entry Remote Storage Call Value)) :
    ∃ now, ∀ r ∈ h, r.env.sequence ≤ now :=
  ⟨_, fun r mem => List.single_le_sum (fun _ _ => Nat.zero_le _) r.env.sequence
    (List.mem_map_of_mem (f := fun r => r.env.sequence) mem)⟩

/-- With ledgers in order, the votes of an account at a ledger are the balance its last update at
or before it gave, or the balance cached there if there is none. So an update changes the votes at
no earlier ledger. -/
theorem past_votes_of_run (run : Run contract h s) (ordered : LedgersInOrder h) :
    (∀ account ledger, getPastVotes s account ledger =
      .ok (((updates h account).valueAt ledger).getD
        ((s.tokenBalanceSnapshot (ledger, account)).getD 0))) ∧
    ∀ e admin updated newBalance v s', (∀ r ∈ h, r.env.sequence ≤ e.sequence) →
      exec e s (.updateVotingPower admin updated newBalance) = .ok (v, s') →
      ∀ account ledger, ledger < e.sequence →
        getPastVotes s' account ledger = getPastVotes s account ledger := by
  have found : ∀ {h s}, Run contract h s → LedgersInOrder h → ∀ account ledger,
      getPastVotes s account ledger = .ok (((updates h account).valueAt ledger).getD
        ((s.tokenBalanceSnapshot (ledger, account)).getD 0)) := by
    intro h s run ordered account ledger
    obtain ⟨now, past⟩ := exists_past h
    obtain ⟨l, power, agree⟩ := logged_of_run run ordered past account
    rw [power.getPastVotes, agree]
  refine ⟨found run ordered, ?_⟩
  intro e admin updated newBalance v s' older ok account ledger before
  have balances : s'.tokenBalanceSnapshot = s.tokenBalanceSnapshot := by
    cases exec_effect ok <;> rfl
  have run' : Run contract (⟨s, e, .updateVotingPower admin updated newBalance, v⟩ :: h) s' :=
    .step run ok
  rw [found run' (List.pairwise_cons.mpr ⟨older, ordered⟩), found run ordered, balances,
    updates_cons_update]
  split
  · rw [Timeline.valueAt_cons_of_lt (c := ⟨e.sequence, newBalance⟩) before]
  · rfl

/-- The power of address 1 is set twice in ledger 5 and lowered in ledger 9. -/
def loweredPower : List (Entry Remote Storage Call Value) × Storage :=
  contract.play [(signedAt 1, .initializeContract ⟨0⟩ ⟨9⟩ 100 5000 20),
    (signedAt 5, .updateVotingPower ⟨0⟩ ⟨1⟩ 60), (signedAt 5, .updateVotingPower ⟨0⟩ ⟨1⟩ 70),
    (signedAt 5, .updateVotingPower ⟨0⟩ ⟨2⟩ 30), (signedAt 9, .updateVotingPower ⟨0⟩ ⟨1⟩ 20)]
    ([], contract.init)

theorem past_votes_of_run_lowered : LedgersInOrder loweredPower.1 ∧
    getPastVotes loweredPower.2 ⟨1⟩ 4 = .ok 0 ∧ getPastVotes loweredPower.2 ⟨1⟩ 8 = .ok 70 ∧
    getPastVotes loweredPower.2 ⟨1⟩ 9 = .ok 20 := by
  have ordered : LedgersInOrder loweredPower.1 := by decide
  obtain ⟨found, -⟩ := past_votes_of_run (Contract.play_steps .refl _) ordered
  exact ⟨ordered, found ⟨1⟩ 4, found ⟨1⟩ 8, found ⟨1⟩ 9⟩

/-! ### The total -/

/-- The votes of the last of `count` checkpoints at or before the ledger, `0` if there is none. -/
def lastVotesUpTo (ck : Nat → Option Checkpoint) (ledger : Nat) : Nat → Int
  | 0 => 0
  | count + 1 =>
      match ck count with
      | some c => if c.ledger ≤ ledger then c.votes else lastVotesUpTo ck ledger count
      | none => lastVotesUpTo ck ledger count

def checkpointVotes (s : Storage) (account : Address) (ledger : Nat) : Int :=
  lastVotesUpTo (fun i => s.checkpoint (account, i)) ledger ((s.checkpointCount account).getD 0)

theorem lastVotesUpTo_stored {ck : Nat → Option Checkpoint}
    (stored : Timeline.Stored (fun i => (ck i).map Checkpoint.change) l) :
    lastVotesUpTo ck ledger l.length = l.amountAt ledger := by
  induction l with
  | nil => rfl
  | cons newest rest ih =>
    obtain ⟨last, found, rfl⟩ := Option.map_eq_some_iff.mp stored.1
    rw [List.length_cons, lastVotesUpTo, found]
    by_cases due : last.ledger ≤ ledger
    · rw [Timeline.amountAt, Timeline.valueAt_cons_of_le (c := last.change) due]
      exact if_pos due
    · rw [Timeline.amountAt, Timeline.valueAt_cons_of_lt (c := last.change) (Nat.lt_of_not_le due)]
      exact (if_neg due).trans (ih stored.2)

theorem PowerOf.checkpointVotes (power : PowerOf s account l now) :
    checkpointVotes s account ledger = l.amountAt ledger := by
  rw [Governance.checkpointVotes, power.count]
  exact lastVotesUpTo_stored power.stored

/-- With ledgers in order, the total supply at a ledger is the sum, over the accounts that have
checkpoints, of the votes of their last one at or before it. -/
theorem past_supply_of_run (run : Run contract h s) (ordered : LedgersInOrder h) :
    ∃ accounts : Finset Address,
      (∀ account, account ∈ accounts ↔ (s.checkpointCount account).getD 0 ≠ 0) ∧
      ∀ ledger, getPastTotalSupply s ledger =
        .ok (∑ account ∈ accounts, checkpointVotes s account ledger) := by
  obtain ⟨now, past⟩ := exists_past h
  obtain ⟨lines, total, holders, balanced⟩ := balanced_of_run run ordered past
  have counted : ∀ account, (s.checkpointCount account).getD 0 = 0 →
      ∀ ledger, checkpointVotes s account ledger = 0 := by
    intro account none_ ledger
    rw [checkpointVotes, none_]
    rfl
  refine ⟨holders.filter fun account => (s.checkpointCount account).getD 0 ≠ 0, ?_, ?_⟩
  · intro account
    rw [Finset.mem_filter]
    refine ⟨fun mem => mem.2, fun some_ => ⟨?_, some_⟩⟩
    by_contra out
    apply some_
    rw [(balanced.power account).count, balanced.totals.outside account out]
    rfl
  · intro ledger
    have supply : getPastTotalSupply s ledger = .ok (total.amountAt ledger) :=
      lookupCheckpoints_eq balanced.supply ledger 0
    have votes : ∀ account ∈ holders,
        (lines account).amountAt ledger = checkpointVotes s account ledger :=
      fun account _ => (balanced.power account).checkpointVotes.symm
    rw [supply, balanced.totals.sum ledger, Finset.sum_congr rfl votes]
    refine congrArg _ (Finset.sum_subset (Finset.filter_subset _ _) ?_).symm
    intro account mem out
    refine counted account ?_ ledger
    by_contra some_
    exact out (Finset.mem_filter.mpr ⟨mem, some_⟩)

theorem past_supply_of_run_lowered : ∃ accounts : Finset Address,
    (∀ account, account ∈ accounts ↔ (loweredPower.2.checkpointCount account).getD 0 ≠ 0) ∧
    ∀ ledger, getPastTotalSupply loweredPower.2 ledger =
      .ok (∑ account ∈ accounts, checkpointVotes loweredPower.2 account ledger) :=
  past_supply_of_run (Contract.play_steps .refl _) (by decide : LedgersInOrder loweredPower.1)

end Talos.Governance
