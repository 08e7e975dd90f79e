import Talos.Dividends.Effects

/-!
# Epochs that can be claimed and recovered

A commit accepts every positive total and every window between an hour and a year, whatever the time
is. A claim then multiplies the total by a share, and claims and recoveries add the window to the
time of the commit. Whether any of this overflows is settled by the commit: it fits exactly if the
total fits a hundred times and the deadline is still a time.
-/

namespace Talos.Dividends

open Talos.Soroban

variable {e : Env Remote} {s s' : Storage} {a : ClaimArgs} {c : Call} {v : Value}
  {key : Nat × Nat} {record : EpochRecord}

/-- No claim with shares that sum to 100 and no recovery overflows. -/
structure OverflowFree (s : Storage) (key : Nat × Nat) : Prop where
  claims : ∀ e a, a.key = key → a.creatorShare + a.investorShare + a.treasuryShare = 100 →
    claimDividend e s a ≠ .error (.error .overflow)
  recoveries : ∀ e admin, recoverExpired e s admin key.1 key.2 ≠ .error (.error .overflow)

/-- The total fits a hundred times, and the deadline is a time. -/
structure Fits (totalAmount : Int) (createdAt expirySecs : Nat) : Prop where
  total : totalAmount * 100 ≤ i128Max
  deadline : createdAt + expirySecs ≤ u64Max

/-- The record has a sound claimed amount, and its terms fit. -/
structure EpochRecord.Sound (record : EpochRecord) : Prop where
  total : 1 ≤ record.totalAmount
  claimed : 0 ≤ record.claimedAmount ∧ record.claimedAmount ≤ record.totalAmount
  fits : Fits record.totalAmount record.createdAt record.expirySecs

/-! ### Where a sound record does not overflow -/

theorem EpochRecord.Sound.deadline_ne_none (sound : record.Sound) : record.deadline ≠ none := by
  intro none
  rw [EpochRecord.deadline, checkedAddU64, if_pos sound.fits.deadline] at none
  cases none

/-- A part of the total stays within a hundred times the total. -/
theorem EpochRecord.Sound.part (sound : record.Sound) {share : Nat} (le : share ≤ 100) :
    0 ≤ record.totalAmount * share ∧ record.totalAmount * share ≤ record.totalAmount * 100 := by
  have low := sound.total
  have share_le : (share : Int) ≤ 100 := by exact_mod_cast le
  exact ⟨Int.mul_nonneg (by omega) (Int.natCast_nonneg share),
    Int.mul_le_mul_of_nonneg_left share_le (by omega)⟩

theorem EpochRecord.Sound.checked_part (sound : record.Sound) {share : Nat} (le : share ≤ 100) :
    checkedI128 (record.totalAmount * share) = some (record.totalAmount * share) := by
  obtain ⟨low, high⟩ := sound.part le
  have fits := sound.fits.total
  rw [checkedI128_eq_some]
  refine ⟨⟨?_, high.trans fits⟩, rfl⟩
  rw [i128Min]
  omega

/-- The rounded part of the total. -/
theorem EpochRecord.Sound.rounded_part (sound : record.Sound) {share : Nat} (le : share ≤ 100) :
    0 ≤ (record.totalAmount * share).tdiv 100 ∧
      (record.totalAmount * share).tdiv 100 ≤ record.totalAmount := by
  obtain ⟨low, high⟩ := sound.part le
  rw [Int.tdiv_eq_ediv_of_nonneg low]
  omega

theorem EpochRecord.Sound.computeAllocation_ne (sound : record.Sound) {share : Nat}
    (le : share ≤ 100) :
    computeAllocation record.totalAmount share ≠ .error (.error .overflow) := by
  rw [computeAllocation, sound.checked_part le, orReject_some, bind_ok]
  simp [bind_eq_error, rejectIf_eq_error]

/-- The three rounded parts add up without overflow. -/
theorem EpochRecord.Sound.computeRoundingDust_ne (sound : record.Sound)
    (sum : a.creatorShare + a.investorShare + a.treasuryShare = 100) :
    computeRoundingDust record.totalAmount a.creatorShare a.investorShare a.treasuryShare ≠
      .error (.error .overflow) := by
  have creator := sound.rounded_part (show a.creatorShare ≤ 100 by omega)
  have investor := sound.rounded_part (show a.investorShare ≤ 100 by omega)
  have treasury := sound.rounded_part (show a.treasuryShare ≤ 100 by omega)
  have low := sound.total
  have fits := sound.fits.total
  have top : i128Max = 170141183460469231731687303715884105727 := rfl
  have both : checkedI128 ((record.totalAmount * a.creatorShare).tdiv 100 +
      (record.totalAmount * a.investorShare).tdiv 100) = some _ :=
    checkedI128_eq_some.mpr ⟨⟨by rw [i128Min]; omega, by omega⟩, rfl⟩
  have distributed : checkedI128 ((record.totalAmount * a.creatorShare).tdiv 100 +
      (record.totalAmount * a.investorShare).tdiv 100 +
        (record.totalAmount * a.treasuryShare).tdiv 100) = some _ :=
    checkedI128_eq_some.mpr ⟨⟨by rw [i128Min]; omega, by omega⟩, rfl⟩
  have dust : checkedI128 (record.totalAmount - ((record.totalAmount * a.creatorShare).tdiv 100 +
      (record.totalAmount * a.investorShare).tdiv 100 +
        (record.totalAmount * a.treasuryShare).tdiv 100)) = some _ :=
    checkedI128_eq_some.mpr ⟨⟨by rw [i128Min]; omega, by omega⟩, rfl⟩
  rw [computeRoundingDust, sound.checked_part (by omega), sound.checked_part (by omega),
    sound.checked_part (by omega)]
  simp only [orReject_some, bind_ok, both, distributed, dust]
  exact fun impossible => nomatch impossible

theorem claimAmounts_ne (sound : record.Sound) {pct : Nat} (le : pct ≤ 100)
    (sum : a.creatorShare + a.investorShare + a.treasuryShare = 100) (dust? : Option Int) :
    claimAmounts record pct dust? a ≠ .error (.error .overflow) := by
  intro overflows
  rw [claimAmounts, bind_eq_error] at overflows
  rcases overflows with allocation | ⟨x, allocation, overflows⟩
  · exact sound.computeAllocation_ne le allocation
  rw [bind_eq_error] at overflows
  rcases overflows with dust | ⟨dust, _, overflows⟩
  · exact sound.computeRoundingDust_ne sum dust
  rw [bind_eq_error] at overflows
  rcases overflows with inconsistent | ⟨_, _, overflows⟩
  · obtain ⟨-, ne⟩ := rejectIf_eq_error.mp inconsistent
    cases ne
  -- The claimed amount and the allocation are both within the total.
  have claimed : checkedI128 (record.claimedAmount + x) = some (record.claimedAmount + x) := by
    simp only [computeAllocation, bind_eq_ok, orReject_eq_ok, checkedI128_eq_some, rejectIf_eq_ok,
      Except.ok.injEq] at allocation
    obtain ⟨_, ⟨-, rfl⟩, _, -, rfl⟩ := allocation
    have part := sound.rounded_part le
    have low := sound.claimed
    have total := sound.total
    have fits := sound.fits.total
    exact checkedI128_eq_some.mpr ⟨⟨by rw [i128Min]; omega, by omega⟩, rfl⟩
  rw [claimed, orReject_some, bind_ok, bind_eq_error] at overflows
  rcases overflows with exceeds | ⟨_, _, impossible⟩
  · obtain ⟨-, ne⟩ := rejectIf_eq_error.mp exceeds
    cases ne
  · cases impossible

theorem shareSum_of_sum (sum : a.creatorShare + a.investorShare + a.treasuryShare = 100) :
    a.shareSum = some 100 := by
  have two : a.creatorShare + a.investorShare ≤ u32Max := by
    rw [u32Max]
    omega
  have three : a.creatorShare + a.investorShare + a.treasuryShare ≤ u32Max := by
    rw [sum]
    decide
  rw [ClaimArgs.shareSum, checkedAddU32, if_pos two, Option.bind_some, checkedAddU32, if_pos three,
    sum]

theorem claimCheck_ne (sound : record.Sound)
    (sum : a.creatorShare + a.investorShare + a.treasuryShare = 100) :
    claimCheck e (some record) a ≠ .error (.error .overflow) := by
  obtain ⟨deadline, due⟩ := Option.ne_none_iff_exists'.mp sound.deadline_ne_none
  simp [claimCheck, due, shareSum_of_sum sum, bind_eq_error, rejectIf_eq_error, orReject_eq_error,
    requireAuth]

/-- A claim on a sound record does not overflow. -/
theorem claimDividend_ne (sound : record.Sound) (found : s.epoch a.key = some record)
    (sum : a.creatorShare + a.investorShare + a.treasuryShare = 100) :
    claimDividend e s a ≠ .error (.error .overflow) := by
  intro overflows
  rw [claimDividend_eq, found, bind_eq_error] at overflows
  rcases overflows with overflows | ⟨_, _, impossible⟩
  · rw [claimTerms, bind_eq_error] at overflows
    rcases overflows with check | ⟨⟨record', pct⟩, check, overflows⟩
    · exact claimCheck_ne sound sum check
    · obtain ⟨-, same, -, -, -, role, isRole⟩ := claimCheck_eq_ok.mp check
      obtain rfl := Option.some.inj same
      have le := role_share_le isRole
      rw [bind_eq_error] at overflows
      rcases overflows with twice | ⟨_, _, overflows⟩
      · obtain ⟨-, ne⟩ := rejectIf_eq_error.mp twice
        cases ne
      · exact claimAmounts_ne sound (by omega) sum _ overflows
  · cases impossible

/-- A recovery of a sound record does not overflow. -/
theorem recoverExpired_ne {admin : Address} (sound : record.Sound)
    (found : s.epoch key = some record) :
    recoverExpired e s admin key.1 key.2 ≠ .error (.error .overflow) := by
  obtain ⟨deadline, due⟩ := Option.ne_none_iff_exists'.mp sound.deadline_ne_none
  have total := sound.total
  have claimed := sound.claimed
  have fits := sound.fits.total
  have rest : checkedI128 (record.totalAmount - record.claimedAmount) = some _ :=
    checkedI128_eq_some.mpr ⟨⟨by rw [i128Min]; omega, by omega⟩, rfl⟩
  simp [recoverExpired, found, due, rest, requireAdmin, requireAdminAddr, bind_eq_error,
    rejectIf_eq_error, orReject_eq_error, requireAuth]

/-! ### Along a run -/

/-- Records are never dropped, and their terms never change. -/
theorem record_of_steps {h : List (Entry Remote Storage Call Value)}
    (steps : Steps contract s h s') (found : s.epoch key = some record) :
    ∃ record', s'.epoch key = some record' ∧ record.SameTerms record' := by
  induction steps with
  | refl => exact ⟨record, found, .refl record⟩
  | step _ ok ih =>
    obtain ⟨record', found', same⟩ := ih
    obtain ⟨record'', found'', same'⟩ := record_kept ok found'
    exact ⟨record'', found'', same.trans same'⟩

/-- In a reachable storage, a record whose terms fit is sound. -/
theorem sound_of_fits (reach : Reachable contract s) (found : s.epoch key = some record)
    (fits : Fits record.totalAmount record.createdAt record.expirySecs) : record.Sound := by
  obtain ⟨total, low, high⟩ := (LedgerInv.of_reachable reach).amounts _ _ found
  exact ⟨total, ⟨low, high⟩, fits⟩

theorem overflowFree_of_sound (sound : record.Sound) (found : s.epoch key = some record) :
    OverflowFree s key := by
  constructor
  · rintro e a rfl sum
    exact claimDividend_ne sound found sum
  · intro e admin
    exact recoverExpired_ne sound found

/-! ### Terms that do not fit -/

/-- Every claimant with a guard has an id below some bound. -/
theorem claimants_bounded (reach : Reachable contract s) :
    ∃ n, ∀ k, s.claimed k ≠ none → k.2.id < n := by
  apply reach.invariant (I := fun s => ∃ n, ∀ k, s.claimed k ≠ none → k.2.id < n)
  · exact ⟨0, fun _ set => absurd rfl set⟩
  · rintro e s c v s' ⟨n, bounded⟩ ok
    rcases exec_cases ok with ⟨_, _, _, _, _, _, _, ok⟩ | ⟨a, _, _, _, ok⟩ |
      ⟨_, _, _, _, _, _, ok⟩ | ⟨_, same⟩
    · obtain ⟨_, _, _, _, rfl⟩ := commitEpoch_ok ok
      exact ⟨n, bounded⟩
    · obtain ⟨_, _, _, _, _, _, _, _, _, _, _, _, _, _, _, rfl⟩ := claimDividend_ok ok
      refine ⟨max n (a.claimant.id + 1), ?_⟩
      intro k set
      by_cases guarded : k = a.guardKey
      · subst guarded
        exact Nat.lt_of_lt_of_le (Nat.lt_succ_self _) (Nat.le_max_right _ _)
      · have before : s.claimed k ≠ none := by
          rw [← Map.set_of_ne s.claimed true guarded]
          exact set
        exact Nat.lt_of_lt_of_le (bounded k before) (Nat.le_max_left _ _)
    · obtain ⟨_, _, _, _, _, _, _, rfl⟩ := recoverExpired_ok ok
      exact ⟨n, bounded⟩
    · rw [same.claimed]
      exact ⟨n, bounded⟩

/-- The whole epoch for one claimant. -/
def wholeClaim (key : Nat × Nat) (claimant : Address) : ClaimArgs :=
  ⟨claimant, key.1, key.2, claimant, claimant, claimant, 100, 0, 0⟩

/-- An active epoch overflows for a new claimant of the whole if the total does not fit. -/
theorem claimDividend_overflows {claimant : Address} (found : s.epoch key = some record)
    (active : record.status = .active) (unclaimed : s.claimed (key.2, claimant) = none)
    {deadline : Nat} (due : record.deadline = some deadline) (signed : e.auth claimant = true)
    (window : e.timestamp ≤ deadline) (total : i128Max < record.totalAmount * 100) :
    claimDividend e s (wholeClaim key claimant) = .error (.error .overflow) := by
  have check : claimCheck e (some record) (wholeClaim key claimant) = .ok (record, 100) := by
    refine claimCheck_eq_ok.mpr ⟨signed, rfl, active, ⟨deadline, due, window⟩, rfl, .creator, ?_⟩
    exact if_pos rfl
  have free : ¬ (none : Option Bool).isSome = true := Bool.false_ne_true
  have wraps : checkedI128 (record.totalAmount * (100 : Nat)) = none :=
    if_neg fun range => absurd range.2 (not_le.mpr total)
  have found' : s.epoch (wholeClaim key claimant).key = some record := found
  have unclaimed' : s.claimed (wholeClaim key claimant).guardKey = none := unclaimed
  rw [claimDividend_eq, found', unclaimed', claimTerms, check, bind_ok, rejectIf_neg free]
  simp only [bind_ok, claimAmounts, computeAllocation, wraps, orReject_none, bind_error]

/-- A recovery overflows if the deadline is no time. -/
theorem recoverExpired_overflows {admin : Address} (isAdmin : s.admin = some admin)
    (found : s.epoch key = some record) (active : record.status = .active)
    (due : record.deadline = none) (signed : e.auth admin = true) :
    recoverExpired e s admin key.1 key.2 = .error (.error .overflow) := by
  have open' : ¬ record.status = .recovered := by
    rw [active]
    decide
  simp [recoverExpired, requireAdmin, requireAdminAddr, requireAuth, isAdmin, signed, found, due,
    rejectIf_neg open', rejectIf_neg]

/-! ### What the commit decides -/

theorem isAdmin_of_commit {admin : Address} {talosId : Nat} {totalAmount : Int} {expirySecs id : Nat}
    (ok : commitEpoch e s admin talosId totalAmount expirySecs = .ok (id, s')) :
    s.admin = some admin := by
  rw [commitEpoch, bind_eq_ok] at ok
  obtain ⟨_, authorised, -⟩ := ok
  simp only [requireAdmin, requireAdminAddr, bind_eq_ok, requireAuth_eq_ok, orReject_eq_ok,
    rejectIf_eq_ok, Decidable.not_not] at authorised
  obtain ⟨_, -, stored, isAdmin, rfl⟩ := authorised
  exact isAdmin

/-- The record of a commit, which changes neither the guards nor the admin. -/
theorem committed_record {admin : Address} {talosId : Nat} {totalAmount : Int} {expirySecs id : Nat}
    (ok : commitEpoch e s admin talosId totalAmount expirySecs = .ok (id, s')) :
    s'.epoch (talosId, id) = some ⟨id, talosId, totalAmount, 0, e.timestamp, expirySecs, .active⟩ ∧
      s'.claimed = s.claimed ∧ s'.admin = some admin := by
  have isAdmin := isAdmin_of_commit ok
  obtain ⟨-, -, -, -, rfl⟩ := commitEpoch_ok ok
  exact ⟨Map.set_self _ _ _, rfl, isAdmin⟩

/-- If no claim and no recovery overflows right after the commit, its terms fit. -/
theorem fits_of_overflowFree {admin : Address} {talosId : Nat} {totalAmount : Int}
    {expirySecs id : Nat} (reach : Reachable contract s)
    (ok : commitEpoch e s admin talosId totalAmount expirySecs = .ok (id, s'))
    (free : OverflowFree s' (talosId, id)) : Fits totalAmount e.timestamp expirySecs := by
  obtain ⟨n, bounded⟩ := claimants_bounded reach
  obtain ⟨found, sameGuards, isAdmin⟩ := committed_record ok
  -- The next address has not claimed from any epoch with this id.
  have unclaimed : s'.claimed (id, ⟨n⟩) = none := by
    rw [sameGuards]
    by_contra set
    exact absurd (bounded (id, ⟨n⟩) set) (Nat.lt_irrefl n)
  -- Everybody signs, at the time of the commit.
  let signed : Env Remote := { e with auth := fun _ => true }
  have deadline : e.timestamp + expirySecs ≤ u64Max := by
    by_contra late
    have due : EpochRecord.deadline
        ⟨id, talosId, totalAmount, 0, e.timestamp, expirySecs, .active⟩ = none := if_neg late
    exact free.recoveries signed admin (recoverExpired_overflows isAdmin found rfl due rfl)
  refine ⟨?_, deadline⟩
  by_contra large
  have due : EpochRecord.deadline
      ⟨id, talosId, totalAmount, 0, e.timestamp, expirySecs, .active⟩ =
        some (e.timestamp + expirySecs) := if_pos deadline
  have overflows := claimDividend_overflows (e := signed) found rfl unclaimed due rfl
    (Nat.le_add_right _ _) (not_le.mp large)
  exact free.claims signed (wholeClaim (talosId, id) ⟨n⟩) rfl rfl overflows

/-- An accepted commit leads to no overflow of a claim or a recovery, whatever follows it, exactly if
its terms fit. -/
theorem commit_overflowFree_iff {admin : Address} {talosId : Nat} {totalAmount : Int}
    {expirySecs id : Nat} (reach : Reachable contract s)
    (ok : commitEpoch e s admin talosId totalAmount expirySecs = .ok (id, s')) :
    (∀ h t, Steps contract s' h t → OverflowFree t (talosId, id)) ↔
      totalAmount * 100 ≤ i128Max ∧ e.timestamp + expirySecs ≤ u64Max := by
  constructor
  · intro free
    have fits := fits_of_overflowFree reach ok (free [] s' .refl)
    exact ⟨fits.total, fits.deadline⟩
  · rintro ⟨total, deadline⟩ h t steps
    have executed : contract.exec e s (.commitEpoch admin talosId totalAmount expirySecs) =
        .ok (.epochId id, s') := returning_eq_ok.mpr ⟨id, ok, rfl⟩
    have reach' : Reachable contract t := (reach.step executed).steps steps
    obtain ⟨committed, -, -⟩ := committed_record ok
    obtain ⟨record, found, same⟩ := record_of_steps steps committed
    refine overflowFree_of_sound (sound_of_fits reach' found ?_) found
    rw [same.totalAmount, same.createdAt, same.expirySecs]
    exact ⟨total, deadline⟩

/-- Admin 0 may commit. -/
def initialized : Storage :=
  contract.submitAll
    [(⟨0, 0, fun _ => true, ⟨fun _ => none, fun _ => none⟩⟩, .initializeContract ⟨0⟩ ⟨0⟩)]
    contract.init

/-- An epoch of 100 units for an hour never overflows. -/
theorem commit_overflowFree_iff_hundred :
    ∃ s', commitEpoch ⟨0, 0, fun _ => true, ⟨fun _ => none, fun _ => none⟩⟩ initialized ⟨0⟩ 1 100
        3600 = .ok (1, s') ∧
      ∀ h t, Steps contract s' h t → OverflowFree t (1, 1) := by
  have ok : commitEpoch ⟨0, 0, fun _ => true, ⟨fun _ => none, fun _ => none⟩⟩ initialized ⟨0⟩ 1 100
    3600 = .ok (1, _) := rfl
  refine ⟨_, ok, ?_⟩
  exact (commit_overflowFree_iff (Reachable.init.submitAll _) ok).mpr ⟨by decide, by decide⟩

/-- The greatest amount is committed, and the first claim of all of it overflows. -/
theorem commit_overflows :
    ∃ s', commitEpoch ⟨0, 0, fun _ => true, ⟨fun _ => none, fun _ => none⟩⟩ initialized ⟨0⟩ 1 i128Max
        3600 = .ok (1, s') ∧ Reachable contract s' ∧
      claimDividend ⟨0, 0, fun _ => true, ⟨fun _ => none, fun _ => none⟩⟩ s'
        ⟨⟨5⟩, 1, 1, ⟨5⟩, ⟨5⟩, ⟨5⟩, 100, 0, 0⟩ = .error (.error .overflow) := by
  have reach : Reachable contract initialized := Reachable.init.submitAll _
  have ok : contract.exec ⟨0, 0, fun _ => true, ⟨fun _ => none, fun _ => none⟩⟩ initialized
    (.commitEpoch ⟨0⟩ 1 i128Max 3600) = .ok (.epochId 1, _) := rfl
  exact ⟨_, rfl, reach.step ok, rfl⟩

end Talos.Dividends
