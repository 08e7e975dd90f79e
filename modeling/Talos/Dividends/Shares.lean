import Talos.Dividends.Conservation
import Mathlib.Data.List.Pairwise

/-!
# Share data over the claims of an epoch

Every claim brings its own shares, and the first claim of an epoch records no more of them than the
rounding dust they leave. A later claim is compared with that one number, so it may bring other
shares as long as they leave the same dust. What the dust tells of the shares is the sum of their
three remainders.
-/

namespace Talos.Dividends

open Talos.Soroban

variable {e : Env Remote} {s s' : Storage} {a b : ClaimArgs} {c : Call} {v : Value} {x : Int}
  {key : Nat × Nat} {h : List Invocation}

/-- The three shares a claim brings. -/
def ClaimArgs.shares (a : ClaimArgs) : Nat × Nat × Nat :=
  (a.creatorShare, a.investorShare, a.treasuryShare)

/-- What the shares of a claim leave over of a total, in hundredths. -/
def ClaimArgs.remainders (a : ClaimArgs) (total : Int) : Int :=
  total * a.creatorShare % 100 + total * a.investorShare % 100 + total * a.treasuryShare % 100

/-- The claim brings the same shares, or shares that leave something else over. -/
def TellsApart (total : Int) (a b : ClaimArgs) : Prop :=
  a.shares = b.shares ∨ a.remainders total ≠ b.remainders total

/-! ### Dust and remainders -/

/-- Truncating a part of a nonnegative total drops its remainder. -/
theorem part_eq {total : Int} (nonneg : 0 ≤ total) (share : Nat) :
    100 * (total * share).tdiv 100 = total * share - total * share % 100 := by
  have product : 0 ≤ total * share := Int.mul_nonneg nonneg (Int.natCast_nonneg share)
  rw [Int.tdiv_eq_ediv_of_nonneg product]
  omega

/-- The dust of shares that make up the whole is what they leave over. -/
theorem hundred_mul_dust {total dust : Int} (nonneg : 0 ≤ total) (whole : a.shareSum = some 100)
    (computed : computeRoundingDust total a.creatorShare a.investorShare a.treasuryShare = .ok dust) :
    100 * dust = a.remainders total := by
  simp only [computeRoundingDust, bind_eq_ok, orReject_eq_ok, checkedI128_eq_some] at computed
  obtain ⟨_, ⟨-, rfl⟩, _, ⟨-, rfl⟩, _, ⟨-, rfl⟩, _, ⟨-, rfl⟩, _, ⟨-, rfl⟩, -, rfl⟩ := computed
  have creator := part_eq nonneg a.creatorShare
  have investor := part_eq nonneg a.investorShare
  have treasury := part_eq nonneg a.treasuryShare
  have parts : total * a.creatorShare + total * a.investorShare + total * a.treasuryShare =
      total * 100 := by
    simp only [ClaimArgs.shareSum, Option.bind_eq_some_iff, checkedAddU32_eq_some] at whole
    obtain ⟨_, ⟨-, rfl⟩, -, sum⟩ := whole
    rw [← Int.mul_add, ← Int.mul_add]
    exact congrArg _ (by exact_mod_cast sum.symm)
  rw [ClaimArgs.remainders]
  omega

/-! ### The recorded dust -/

/-- An accepted claim leaves its dust recorded, which is the one recorded before, if any. -/
theorem claimDividend_dust (ok : claimDividend e s a = .ok (x, s')) :
    ∃ record dust, s.epoch a.key = some record ∧ a.shareSum = some 100 ∧
      computeRoundingDust record.totalAmount a.creatorShare a.investorShare a.treasuryShare =
        .ok dust ∧ (s.roundingDust a.key).getD dust = dust ∧
      s'.roundingDust = s.roundingDust.set a.key dust := by
  rw [claimDividend_eq, bind_eq_ok] at ok
  obtain ⟨⟨x', dust, record'⟩, terms, ok⟩ := ok
  obtain ⟨rfl, rfl⟩ := by simpa using ok
  obtain ⟨record, _, _, _, found, _, _, _, whole, _⟩ := claimTerms_ok terms
  rw [found] at terms
  obtain ⟨computed, recorded⟩ := claimTerms_dust terms
  exact ⟨record, dust, found, whole, computed, recorded, rfl⟩

/-- Recorded dust stays as it is. -/
theorem dust_kept (ok : exec e s c = .ok (v, s')) {dust : Int}
    (recorded : s.roundingDust key = some dust) : s'.roundingDust key = some dust := by
  rcases exec_cases ok with ⟨_, _, _, _, _, _, _, ok⟩ | ⟨a, _, _, _, ok⟩ |
    ⟨_, _, _, _, _, _, ok⟩ | ⟨_, same⟩
  · obtain ⟨_, _, _, _, rfl⟩ := commitEpoch_ok ok
    exact recorded
  · obtain ⟨record, dust', _, _, _, matching, written⟩ := claimDividend_dust ok
    rw [written]
    by_cases same : key = a.key
    · subst same
      rw [recorded, Option.getD_some] at matching
      rw [Map.set_self, matching]
    · exact (Map.set_of_ne _ _ same).trans recorded
  · obtain ⟨_, _, _, _, _, _, _, rfl⟩ := recoverExpired_ok ok
    exact recorded
  · rw [same.roundingDust]
    exact recorded

/-- The record of an epoch and the dust of the shares of a claim. -/
structure Recorded (s : Storage) (b : ClaimArgs) (record : EpochRecord) (dust : Int) : Prop where
  found : s.epoch b.key = some record
  whole : b.shareSum = some 100
  computed : computeRoundingDust record.totalAmount b.creatorShare b.investorShare
    b.treasuryShare = .ok dust
  stored : s.roundingDust b.key = some dust

theorem Recorded.step {record : EpochRecord} {dust : Int} (recorded : Recorded s b record dust)
    (ok : exec e s c = .ok (v, s')) : ∃ record', Recorded s' b record' dust := by
  obtain ⟨record', found, same⟩ := record_kept ok recorded.found
  refine ⟨record', found, recorded.whole, ?_, dust_kept ok recorded.stored⟩
  rw [same.totalAmount]
  exact recorded.computed

/-- After an accepted claim, the recorded dust is the one of its shares. -/
theorem recorded_of_run (run : Run contract h s) {r : Invocation} (mem : r ∈ h)
    (claim : r.call = .claimDividend b) : ∃ record dust, Recorded s b record dust := by
  induction run with
  | refl => cases mem
  | @step h t t' e c v run ok ih =>
    rcases List.mem_cons.mp mem with rfl | earlier
    · obtain rfl : c = .claimDividend b := claim
      obtain ⟨x, accepted, -⟩ := returning_eq_ok.mp ok
      obtain ⟨record, dust, found, whole, computed, _, written⟩ := claimDividend_dust accepted
      have executed : exec e t (.claimDividend b) = .ok (v, t') := ok
      obtain ⟨record', found', same⟩ := record_kept executed found
      refine ⟨record', dust, found', whole, ?_, ?_⟩
      · rw [same.totalAmount]
        exact computed
      · rw [written, Map.set_self]
    · obtain ⟨record, dust, recorded⟩ := ih earlier
      obtain ⟨record', recorded'⟩ := recorded.step ok
      exact ⟨record', dust, recorded'⟩

/-! ### One more claim -/

/-- The claim passes every check before the comparison of the dust. -/
structure ClaimArgs.UpToShares (a : ClaimArgs) (e : Env Remote) (s : Storage) (record : EpochRecord)
    (pct : Nat) (x dust : Int) : Prop where
  check : claimCheck e (s.epoch a.key) a = .ok (record, pct)
  unclaimed : s.claimed a.guardKey = none
  allocation : computeAllocation record.totalAmount pct = .ok x
  computed : computeRoundingDust record.totalAmount a.creatorShare a.investorShare
    a.treasuryShare = .ok dust

/-- The claim is held to the shares of another: it succeeds with these only, and is rejected as
inconsistent with any others. -/
def ClaimArgs.HeldTo (a b : ClaimArgs) (e : Env Remote) (s : Storage) : Prop :=
  (∀ x s', claimDividend e s a = .ok (x, s') → a.shares = b.shares) ∧
  (a.shares ≠ b.shares → claimDividend e s a = .error (.error .inconsistentShareData))

theorem upToShares_of_ok (ok : claimDividend e s a = .ok (x, s')) :
    ∃ record pct x' dust, a.UpToShares e s record pct x' dust := by
  rw [claimDividend_eq, bind_eq_ok] at ok
  obtain ⟨terms, accepted, -⟩ := ok
  simp only [claimTerms, claimAmounts, bind_eq_ok, rejectIf_eq_ok, Bool.not_eq_true,
    Option.isSome_eq_false_iff, Option.isNone_iff_eq_none] at accepted
  obtain ⟨⟨record, pct⟩, check, _, unclaimed, x', allocation, dust, computed, -⟩ := accepted
  exact ⟨record, pct, x', dust, check, unclaimed, allocation, computed⟩

/-- A claim that gets as far as the dust is rejected as inconsistent exactly if the recorded dust is
another. -/
theorem ClaimArgs.UpToShares.inconsistent_iff {record : EpochRecord} {pct : Nat} {dust recorded : Int}
    (upTo : a.UpToShares e s record pct x dust) (stored : s.roundingDust a.key = some recorded) :
    claimDividend e s a = .error (.error .inconsistentShareData) ↔ recorded ≠ dust := by
  have free : ¬ (none : Option Bool).isSome = true := Bool.false_ne_true
  rw [claimDividend_eq, upTo.unclaimed, stored, claimTerms, upTo.check, bind_ok, rejectIf_neg free]
  simp only [bind_ok, claimAmounts, upTo.allocation, upTo.computed, Option.getD_some]
  by_cases same : recorded = dust
  · rw [rejectIf_neg (not_not_intro same), bind_ok]
    refine iff_of_false ?_ (not_not_intro same)
    -- What can still go wrong is the running total.
    intro rejected
    cases total : checkedI128 (record.claimedAmount + x) with
    | none =>
      rw [total] at rejected
      cases rejected
    | some newClaimed =>
      rw [total, orReject_some, bind_ok] at rejected
      by_cases exceeds : newClaimed > record.totalAmount
      · rw [rejectIf_pos exceeds] at rejected
        cases rejected
      · rw [rejectIf_neg exceeds] at rejected
        cases rejected
  · rw [rejectIf_pos same]
    exact iff_of_true rfl same

/-- The dust of two claims on an epoch is the same exactly if their shares leave the same over. -/
theorem dust_eq_iff {total dust dust' : Int} (nonneg : 0 ≤ total) (whole : a.shareSum = some 100)
    (whole' : b.shareSum = some 100)
    (computed : computeRoundingDust total a.creatorShare a.investorShare a.treasuryShare = .ok dust)
    (computed' : computeRoundingDust total b.creatorShare b.investorShare b.treasuryShare =
      .ok dust') : dust' = dust ↔ a.remainders total = b.remainders total := by
  have scaled := hundred_mul_dust nonneg whole computed
  have scaled' := hundred_mul_dust nonneg whole' computed'
  rw [← scaled, ← scaled']
  omega

/-- A claim that gets as far as the dust is held to the shares of an earlier one exactly if it
brings them or the remainders tell the two apart. -/
theorem heldTo_iff (run : Run contract h s) {r : Invocation} (mem : r ∈ h)
    (earlier : r.call = .claimDividend b) (onEpoch : a.key = b.key) {record : EpochRecord} {pct : Nat}
    {dust : Int} (upTo : a.UpToShares e s record pct x dust) :
    a.HeldTo b e s ↔ TellsApart record.totalAmount a b := by
  obtain ⟨record', recordedDust, found, whole', computed', stored⟩ := recorded_of_run run mem earlier
  obtain ⟨-, found', -, -, whole, -⟩ := claimCheck_eq_ok.mp upTo.check
  rw [← onEpoch] at found stored
  obtain rfl := Option.some.inj (found'.symm.trans found)
  have nonneg : 0 ≤ record.totalAmount := by
    have amounts := (LedgerInv.of_reachable ⟨h, run⟩).amounts _ _ found'
    omega
  have sameDust := dust_eq_iff nonneg whole whole' upTo.computed computed'
  have rejected := upTo.inconsistent_iff stored
  by_cases same : a.shares = b.shares
  · exact iff_of_true ⟨fun _ _ _ => same, fun other => absurd same other⟩ (.inl same)
  · constructor
    · intro held
      exact .inr (mt sameDust.mpr (rejected.mp (held.2 same)))
    · rintro (same' | apart)
      · exact absurd same' same
      · have inconsistent := rejected.mpr (mt sameDust.mp apart)
        refine ⟨?_, fun _ => inconsistent⟩
        intro y s' ok
        rw [inconsistent] at ok
        cases ok

/-! ### The claims of a run -/

/-- The claims of two invocations on one epoch bring the same shares. -/
def SameShares (r r' : Invocation) : Prop :=
  ∀ a b, r.call = .claimDividend a → r'.call = .claimDividend b → a.key = b.key →
    a.shares = b.shares

instance : Std.Symm SameShares where
  symm _ _ same a b claim claim' onEpoch := (same b a claim' claim onEpoch.symm).symm

/-- A claim brings the shares of an earlier one on its epoch, or other remainders. -/
def ToldApart (newer older : Invocation) : Prop :=
  ∀ a b, newer.call = .claimDividend a → older.call = .claimDividend b → a.key = b.key →
    ∀ record ∈ newer.pre.epoch a.key, TellsApart record.totalAmount a b

theorem pairwise_sameShares (run : Run contract h s) (careful : h.Pairwise ToldApart) :
    h.Pairwise SameShares := by
  induction run with
  | refl => exact .nil
  | @step h t t' e c v run ok ih =>
    obtain ⟨apart, rest⟩ := List.pairwise_cons.mp careful
    refine List.pairwise_cons.mpr ⟨?_, ih rest⟩
    intro r mem a b claim earlier onEpoch
    obtain rfl : c = .claimDividend a := claim
    obtain ⟨x, accepted, -⟩ := returning_eq_ok.mp ok
    obtain ⟨record, pct, x', dust, upTo⟩ := upToShares_of_ok accepted
    obtain ⟨-, found, -⟩ := claimCheck_eq_ok.mp upTo.check
    have told := apart r mem a b rfl earlier onEpoch record found
    exact ((heldTo_iff run mem earlier onEpoch upTo).mpr told).1 x t' accepted

theorem sameShares_of_pairwise (pairwise : h.Pairwise SameShares) :
    ∀ r ∈ h, ∀ r' ∈ h, SameShares r r' := by
  have itself : ∀ r ∈ h, SameShares r r := by
    intro r _ a b claim claim' _
    obtain rfl := Call.claimDividend.inj (claim.symm.trans claim')
    rfl
  intro r mem r' mem'
  exact pairwise.forall_of_forall itself mem mem'

/-- In every run whose claims bring the shares of the earlier ones on their epoch or other
remainders, all claims on an epoch bring the same shares; and after every run a claim that gets as
far as the dust is held to the shares of an earlier one exactly if it does. -/
theorem shares_consistent (run : Run contract h s) :
    (h.Pairwise ToldApart → ∀ r ∈ h, ∀ r' ∈ h, SameShares r r') ∧
    ∀ r ∈ h, ∀ b, r.call = .claimDividend b → ∀ e a, a.key = b.key →
      ∀ record pct x dust, a.UpToShares e s record pct x dust →
        (a.HeldTo b e s ↔ TellsApart record.totalAmount a b) :=
  ⟨fun careful => sameShares_of_pairwise (pairwise_sameShares run careful),
    fun _ mem _ earlier _ _ onEpoch _ _ _ _ upTo => heldTo_iff run mem earlier onEpoch upTo⟩

/-- The creator claims 60 percent of an epoch of the total, and further claims follow. -/
def creatorFirst (total : Int) (further : List ClaimArgs) : List Invocation × Storage :=
  contract.play
    ((Call.initializeContract ⟨0⟩ ⟨0⟩ :: Call.commitEpoch ⟨0⟩ 1 total 3600 ::
      Call.claimDividend ⟨⟨1⟩, 1, 1, ⟨1⟩, ⟨2⟩, ⟨3⟩, 60, 30, 10⟩ ::
        further.map Call.claimDividend).map
          fun call => (⟨0, 0, fun _ => true, ⟨fun _ => none, fun _ => none⟩⟩, call))
    ([], contract.init)

/-- Of 101 units, shares of 100, 0 and 0 leave nothing over, so they are told apart. -/
theorem shares_consistent_apart :
    claimDividend ⟨0, 0, fun _ => true, ⟨fun _ => none, fun _ => none⟩⟩ (creatorFirst 101 []).2
      ⟨⟨2⟩, 1, 1, ⟨2⟩, ⟨1⟩, ⟨3⟩, 100, 0, 0⟩ = .error (.error .inconsistentShareData) := by
  have run : Run contract (creatorFirst 101 []).1 (creatorFirst 101 []).2 :=
    Contract.play_steps .refl _
  have claimed : ⟨_, _, .claimDividend ⟨⟨1⟩, 1, 1, ⟨1⟩, ⟨2⟩, ⟨3⟩, 60, 30, 10⟩, .amount 60⟩ ∈
      (creatorFirst 101 []).1 := .head _
  have held := (shares_consistent run).2 _ claimed _ rfl
    ⟨0, 0, fun _ => true, ⟨fun _ => none, fun _ => none⟩⟩ ⟨⟨2⟩, 1, 1, ⟨2⟩, ⟨1⟩, ⟨3⟩, 100, 0, 0⟩ rfl
    ⟨1, 1, 101, 60, 0, 3600, .active⟩ 100 101 0 ⟨rfl, rfl, rfl, rfl⟩
  exact (held.mpr (.inr (by decide))).2 (by decide)

/-- Of 100 units no shares leave anything over: the investor claims with other shares than the
creator. -/
theorem shares_inconsistent :
    let run := creatorFirst 100 [⟨⟨2⟩, 1, 1, ⟨1⟩, ⟨2⟩, ⟨3⟩, 50, 30, 20⟩]
    Run contract run.1 run.2 ∧ ¬ ∀ r ∈ run.1, ∀ r' ∈ run.1, SameShares r r' := by
  intro run
  refine ⟨Contract.play_steps .refl _, ?_⟩
  intro same
  have later : ⟨_, _, .claimDividend ⟨⟨2⟩, 1, 1, ⟨1⟩, ⟨2⟩, ⟨3⟩, 50, 30, 20⟩, .amount 30⟩ ∈ run.1 :=
    .head _
  have earlier : ⟨_, _, .claimDividend ⟨⟨1⟩, 1, 1, ⟨1⟩, ⟨2⟩, ⟨3⟩, 60, 30, 10⟩, .amount 60⟩ ∈ run.1 :=
    .tail _ (.head _)
  exact absurd (same _ later _ earlier _ _ rfl rfl rfl) (by decide)

end Talos.Dividends
