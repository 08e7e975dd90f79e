import Talos.Governance.Effects
import Talos.Soroban.Timeline
import Mathlib.Data.Nat.Basic

/-!
# Voting power over time

The checkpoints of an account, and those of the total supply, keep a timeline:
one change per ledger, in order, as long as ledgers close in order. On such a
store the lookup at a past ledger never traps and finds the value in force.
-/

namespace Talos.Governance

open Talos.Soroban

variable {e : Env Remote} {s s' : Storage} {c : Call} {v : Value}

def Checkpoint.change (c : Checkpoint) : Change Nat Int := ⟨c.ledger, c.votes⟩

/-- `count` checkpoints hold the timeline `l`, nothing in it after `now`. -/
structure Keeps (ck : Nat → Option Checkpoint) (count : Nat) (l : Timeline Nat Int) (now : Nat) :
    Prop where
  count : count = l.length
  stored : Timeline.Stored (fun i => (ck i).map Checkpoint.change) l
  ordered : l.Ordered now

variable {ck : Nat → Option Checkpoint} {count ledger now : Nat} {l : Timeline Nat Int}

theorem Keeps.mono (keeps : Keeps ck count l now) {later : Nat} (le : now ≤ later) :
    Keeps ck count l later :=
  ⟨keeps.count, keeps.stored, keeps.ordered.mono le⟩

theorem Keeps.empty (absent : count = 0) : Keeps ck count [] now :=
  ⟨absent, trivial, .nil now⟩

theorem Keeps.get (keeps : Keeps ck count l now) {i : Nat} (lt : i < l.length) :
    ∃ c, ck i = some c ∧ c.change ∈ l := by
  obtain ⟨d, mem, found⟩ := keeps.stored.get_mem lt
  obtain ⟨c, found', rfl⟩ := Option.map_eq_some_iff.mp found
  exact ⟨c, found', mem⟩

theorem Keeps.ledger_lt (keeps : Keeps ck count l now) {i j : Nat} {a b : Checkpoint}
    (lt : i < j) (bound : j < l.length) (fi : ck i = some a) (fj : ck j = some b) :
    a.ledger < b.ledger :=
  keeps.stored.lt_of_lt keeps.ordered lt bound (congrArg (Option.map Checkpoint.change) fi)
    (congrArg (Option.map Checkpoint.change) fj)

/-- The last checkpoint at or before a ledger has the votes in force then. -/
theorem Keeps.valueAt_of_last (keeps : Keeps ck count l now) {i : Nat} {c : Checkpoint}
    (bound : i < l.length) (found : ck i = some c) (le : c.ledger ≤ ledger)
    (later : ∀ j d, i < j → j < l.length → ck j = some d → ledger < d.ledger) :
    l.valueAt ledger = some c.votes := by
  refine keeps.stored.valueAt_of_last (c := c.change) bound
    (congrArg (Option.map Checkpoint.change) found) le ?_
  intro j d lt bound found'
  obtain ⟨c', found'', rfl⟩ := Option.map_eq_some_iff.mp found'
  exact later j c' lt bound found''

/-! ### Lookups -/

/-- The search keeps `low` at or before the ledger and everything past `high`
after it, until they meet. -/
theorem searchCheckpoints_eq (keeps : Keeps ck count l now) {low high : Nat} (le : low ≤ high)
    (bound : high < l.length) (below : ∃ c, ck low = some c ∧ c.ledger ≤ ledger)
    (above : ∀ j d, high < j → j < l.length → ck j = some d → ledger < d.ledger) :
    ∃ votes, searchCheckpoints ck ledger low high = .ok votes ∧
      l.valueAt ledger = some votes := by
  fun_induction searchCheckpoints ck ledger low high with
  | case1 low high lt mid missing =>
    have inside : mid < l.length := by omega
    obtain ⟨c, found, _⟩ := keeps.get inside
    rw [missing] at found
    cases found
  | case2 low high lt mid c found hit =>
    have inside : mid < l.length := by omega
    refine ⟨c.votes, rfl, keeps.valueAt_of_last inside found (Nat.le_of_eq hit) ?_⟩
    intro j d later bound found'
    rw [← hit]
    exact keeps.ledger_lt later bound found found'
  | case3 low high lt mid c found miss before ih =>
    exact ih (by omega) bound ⟨c, found, Nat.le_of_lt before⟩ above
  | case4 low high lt mid c found miss notBefore ih =>
    have after : ledger < c.ledger := by omega
    apply ih (by omega) (by omega) below
    intro j d past inside found'
    rcases Nat.lt_or_eq_of_le (show mid ≤ j by omega) with later | rfl
    · exact Nat.lt_trans after (keeps.ledger_lt later inside found found')
    · obtain rfl := Option.some.inj (found.symm.trans found')
      exact after
  | case5 low high met =>
    obtain rfl : low = high := by omega
    obtain ⟨c, found, le'⟩ := below
    rw [found]
    exact ⟨c.votes, rfl, keeps.valueAt_of_last bound found le' above⟩

theorem lookupCheckpoints_eq (keeps : Keeps ck count l now) (ledger : Nat) (fallback : Int) :
    lookupCheckpoints ck count ledger fallback =
      .ok ((l.valueAt ledger).getD fallback) := by
  unfold lookupCheckpoints
  split
  · next zero =>
    have nil : l = [] := List.length_eq_zero_iff.mp (keeps.count.symm.trans zero)
    subst nil
    rfl
  next nonzero =>
  have length := keeps.count
  have first : 0 < l.length := by omega
  have last : count - 1 < l.length := by omega
  obtain ⟨latest, foundLatest, _⟩ := keeps.get last
  obtain ⟨earliest, foundEarliest, _⟩ := keeps.get first
  rw [foundLatest, foundEarliest]
  simp only [orReject_some, bind_ok]
  split
  · next le =>
    rw [keeps.valueAt_of_last last foundLatest le fun j d lt bound _ => by omega]
    rfl
  split
  · next after =>
    have none : l.valueAt ledger = none :=
      keeps.stored.valueAt_eq_none keeps.ordered
        (congrArg (Option.map Checkpoint.change) foundEarliest) after
    rw [none]
    rfl
  · next later notAfter =>
    obtain ⟨votes, eq, value⟩ := searchCheckpoints_eq keeps (Nat.zero_le _) last
      ⟨earliest, foundEarliest, Nat.le_of_not_lt notAfter⟩ fun j d lt bound _ => by omega
    rw [eq, value]
    rfl

/-! ### Writes -/

/-- One checkpoint is written, the last one of the new count. -/
theorem writeCheckpoint_ok {K : Type} [DecidableEq K] {m m' : Map K Checkpoint} {key : Nat → K}
    {votes : Int} {count' : Nat} (keeps : Keeps (fun i => m (key i)) count l now)
    (ok : writeCheckpoint m key count ledger votes = .ok (m', count')) :
    ∃ written : Checkpoint, written.change = ⟨ledger, votes⟩ ∧
      m' = m.set (key (count' - 1)) written ∧ count' = (l.record ledger votes).length := by
  have length := keeps.count
  unfold writeCheckpoint at ok
  cases l with
  | nil =>
    rw [if_neg (by simp [length])] at ok
    simp only [bind_eq_ok, addU32_eq_ok, Except.ok.injEq, Prod.mk.injEq] at ok
    obtain ⟨_, ⟨_, rfl⟩, rfl, rfl⟩ := ok
    exact ⟨⟨ledger, votes⟩, rfl, rfl, by simp [length, Timeline.record]⟩
  | cons newest rest =>
    obtain rfl : count = rest.length + 1 := length
    obtain ⟨last, found, newest'⟩ := Option.map_eq_some_iff.mp keeps.stored.1
    rw [if_pos (Nat.succ_pos _), Nat.add_sub_cancel, found] at ok
    simp only [orReject_some, bind_ok] at ok
    have time : newest.time = last.ledger := congrArg Change.time newest'.symm
    rw [Timeline.record, time]
    split at ok
    · next same =>
      cases ok
      rw [if_pos same]
      exact ⟨⟨last.ledger, votes⟩, by rw [Checkpoint.change, same], rfl, rfl⟩
    · next later =>
      simp only [bind_eq_ok, addU32_eq_ok, Except.ok.injEq, Prod.mk.injEq] at ok
      obtain ⟨_, ⟨_, rfl⟩, rfl, rfl⟩ := ok
      rw [if_neg later]
      exact ⟨⟨ledger, votes⟩, rfl, rfl, rfl⟩

theorem writeCheckpoint_keeps {K : Type} [DecidableEq K] {m m' : Map K Checkpoint}
    {key : Nat → K} {votes : Int} {count' : Nat} (inj : Function.Injective key)
    (keeps : Keeps (fun i => m (key i)) count l now) (le : now ≤ ledger)
    (ok : writeCheckpoint m key count ledger votes = .ok (m', count')) :
    Keeps (fun i => m' (key i)) count' (l.record ledger votes) ledger := by
  obtain ⟨written, change, rfl, rfl⟩ := writeCheckpoint_ok keeps ok
  refine ⟨rfl, keeps.stored.record ?_ ?_, keeps.ordered.record le votes⟩
  · rw [Map.set_self]
    exact congrArg some change
  · intro i lt
    rw [Map.set_of_ne _ _ fun same => Nat.ne_of_lt lt (inj same)]

/-- Writes of one key family leave the keys outside it alone. -/
theorem writeCheckpoint_elsewhere {K : Type} [DecidableEq K] {m m' : Map K Checkpoint}
    {key : Nat → K} {votes : Int} {count' : Nat} (keeps : Keeps (fun i => m (key i)) count l now)
    (ok : writeCheckpoint m key count ledger votes = .ok (m', count')) {k : K}
    (outside : ∀ i, k ≠ key i) : m' k = m k := by
  obtain ⟨written, _, rfl, _⟩ := writeCheckpoint_ok keeps ok
  exact Map.set_of_ne _ _ (outside _)

/-! ### Storages -/

/-- The timeline of an account's voting power. -/
def PowerOf (s : Storage) (account : Address) (l : Timeline Nat Int) (now : Nat) : Prop :=
  Keeps (fun i => s.checkpoint (account, i)) ((s.checkpointCount account).getD 0) l now

/-- All checkpoints keep timelines that end at ledger `now`. -/
structure Recorded (s : Storage) (now : Nat) : Prop where
  power : ∀ account, ∃ l, PowerOf s account l now
  supply : ∃ l, Keeps s.totalSupplyCheckpoint (s.totalSupplyCheckpointCount.getD 0) l now

theorem Recorded.empty : Recorded .empty now :=
  ⟨fun _ => ⟨[], .empty rfl⟩, [], .empty rfl⟩

theorem Recorded.mono (recorded : Recorded s now) {later : Nat} (le : now ≤ later) :
    Recorded s later where
  power account := (recorded.power account).imp fun _ keeps => keeps.mono le
  supply := recorded.supply.imp fun _ keeps => keeps.mono le

theorem key_injective (account : Address) : Function.Injective fun i : Nat => (account, i) :=
  fun _ _ same => congrArg Prod.snd same

/-- What `update_voting_power` does to the timelines of power: it records the new
balance for its account and leaves the others alone. -/
theorem powerOf_update {admin account : Address} {newBalance : Int} (le : now ≤ e.sequence)
    (recorded : Recorded s now)
    (ok : exec e s (.updateVotingPower admin account newBalance) = .ok (v, s')) :
    (∀ l, PowerOf s account l now →
      PowerOf s' account (l.record e.sequence newBalance) e.sequence) ∧
    ∀ other l, other ≠ account → PowerOf s other l now → PowerOf s' other l e.sequence := by
  cases exec_effect ok with
  | create call => cases call
  | setRegistryContract call => rcases call with call | call <;> cases call
  | updateVotingPower old prev checkpoint newCount total newTotal signed isAdmin _ written =>
    constructor
    · intro l power
      have keeps := writeCheckpoint_keeps (key_injective account) power le written
      rwa [← Option.getD_some (a := newCount) (b := 0), ← Map.set_self s.checkpointCount account]
        at keeps
    · intro other l ne power
      obtain ⟨own, keeps⟩ := recorded.power account
      have same : ∀ i, checkpoint (other, i) = s.checkpoint (other, i) := by
        intro i
        exact writeCheckpoint_elsewhere keeps written
          fun j same => ne (congrArg Prod.fst same)
      have count : s.checkpointCount.set account newCount other = s.checkpointCount other :=
        Map.set_of_ne _ _ ne
      have later : PowerOf s other l e.sequence := power.mono le
      simpa only [PowerOf, same, count] using later

theorem Recorded.step (recorded : Recorded s now) (le : now ≤ e.sequence)
    (ok : exec e s c = .ok (v, s')) : Recorded s' e.sequence := by
  have ok' := ok
  cases exec_effect ok with
  | @updateVotingPower admin account newBalance old prev checkpoint newCount total newTotal signed
      isAdmin _ _ _ totalWritten =>
    obtain ⟨own, others⟩ := powerOf_update le recorded ok'
    refine ⟨fun other => ?_, ?_⟩
    · obtain ⟨l, power⟩ := recorded.power other
      by_cases same : other = account
      · subst same
        exact ⟨_, own l power⟩
      · exact ⟨l, others other l same power⟩
    · obtain ⟨l, keeps⟩ := recorded.supply
      exact ⟨_, writeCheckpoint_keeps Function.injective_id keeps le totalWritten⟩
  | _ => exact ⟨(recorded.mono le).power, (recorded.mono le).supply⟩

/-- In a run with ledgers in order, every timeline ends where the run got to. -/
theorem recorded_of_run {h : List (Entry Remote Storage Call Value)} (run : Run contract h s)
    (ordered : LedgersInOrder h) (past : ∀ r ∈ h, r.env.sequence ≤ now) :
    Recorded s now := by
  induction run generalizing now with
  | refl => exact .empty
  | step _ ok ih =>
    obtain ⟨older, ordered'⟩ := List.pairwise_cons.mp ordered
    have before := ih ordered' older
    exact (before.step (Nat.le_refl _) ok).mono (past _ List.mem_cons_self)

end Talos.Governance
