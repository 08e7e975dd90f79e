import Talos.Dividends.Model
import Mathlib.Tactic.Ring

/-!
# What the dividend entry points do

One lemma per fund-moving entry point says when it is accepted and what it
writes, and `exec_cases` says that every other call leaves the ledger part of the
storage alone. Everything later is derived from these.
-/

namespace Talos.Dividends

open Talos.Soroban Talos.TtlManager

variable {e : Env Remote} {s s' : Storage} {a : ClaimArgs} {c : Call} {v : Value} {x : Int}

/-- The fields that decide commits, claims and recoveries are the same. -/
structure SameLedger (s s' : Storage) : Prop where
  epoch : s'.epoch = s.epoch
  claimed : s'.claimed = s.claimed
  nextEpochId : s'.nextEpochId = s.nextEpochId
  roundingDust : s'.roundingDust = s.roundingDust

theorem SameLedger.refl (s : Storage) : SameLedger s s := ⟨rfl, rfl, rfl, rfl⟩

theorem SameLedger.trans {s s' s'' : Storage} (first : SameLedger s s')
    (second : SameLedger s' s'') : SameLedger s s'' where
  epoch := second.epoch.trans first.epoch
  claimed := second.claimed.trans first.claimed
  nextEpochId := second.nextEpochId.trans first.nextEpochId
  roundingDust := second.roundingDust.trans first.roundingDust

/-- Renewing an epoch writes back the record it read. -/
theorem renew_sameLedger (talosId currentLedger : Nat) (s : Storage) (id : Nat) :
    SameLedger s ((trackedEpochs talosId).renew currentLedger s id) := by
  simp only [trackedEpochs]
  split
  · next record found =>
    exact ⟨Map.set_eq_self found, rfl, rfl, rfl⟩
  · exact .refl s

theorem touchEpoch_sameLedger {talosId epochId : Nat} {b : Bool}
    (ok : touchEpoch e s talosId epochId = .ok (b, s')) : SameLedger s s' := by
  simp only [touchEpoch, bind_eq_ok, orReject_eq_ok] at ok
  obtain ⟨_, _, ok⟩ := ok
  split at ok
  · obtain ⟨_, rfl⟩ := by simpa using ok
    exact renew_sameLedger ..
  · obtain ⟨_, rfl⟩ := by simpa using ok
    exact .refl s

theorem extendTtlBatch_sameLedger {admin : Address} {talosId start limit minAge maxAge : Nat}
    {n : Nat × Nat}
    (ok : extendTtlBatch e s admin talosId start limit minAge maxAge = .ok (n, s')) :
    SameLedger s s' := by
  simp only [extendTtlBatch, bind_eq_ok, Except.ok.injEq, Prod.mk.injEq] at ok
  obtain ⟨_, _, _, _, _, rfl⟩ := ok
  exact sweep_relates SameLedger.refl SameLedger.trans (fun s id _ => renew_sameLedger _ _ s id) _ s

/-! ### Commits and recoveries -/

/-- A committed epoch is a fresh, active, unclaimed record under the next id of
its Talos. -/
theorem commitEpoch_ok {admin : Address} {talosId : Nat} {totalAmount : Int} {expirySecs id : Nat}
    (ok : commitEpoch e s admin talosId totalAmount expirySecs = .ok (id, s')) :
    id = (s.nextEpochId talosId).getD 1 ∧ id + 1 ≤ u64Max ∧ 1 ≤ totalAmount ∧
      s.epoch (talosId, id) = none ∧
      s' = { s with
        epoch := s.epoch.set (talosId, id)
          ⟨id, talosId, totalAmount, 0, e.timestamp, expirySecs, .active⟩
        nextEpochId := s.nextEpochId.set talosId (id + 1)
        lastTouched := s.lastTouched.set (talosId, id) e.sequence } := by
  simp only [commitEpoch, bind_eq_ok, rejectIf_eq_ok, addU64_eq_ok, Except.ok.injEq,
    Prod.mk.injEq, Bool.not_eq_true, Option.isSome_eq_false_iff, Option.isNone_iff_eq_none] at ok
  obtain ⟨_, _, _, amount, _, _, _, fresh, _, ⟨bound, rfl⟩, rfl, rfl⟩ := ok
  exact ⟨rfl, bound, by simpa [minEpochAmount] using amount, fresh, rfl⟩

/-- Recovery is accepted strictly after the deadline of a record that is not
recovered yet; it returns what is unclaimed and marks the record. -/
theorem recoverExpired_ok {admin : Address} {talosId epochId : Nat}
    (ok : recoverExpired e s admin talosId epochId = .ok (x, s')) :
    ∃ record deadline, s.epoch (talosId, epochId) = some record ∧ record.status ≠ .recovered ∧
      record.deadline = some deadline ∧ deadline < e.timestamp ∧
      x = record.totalAmount - record.claimedAmount ∧
      s' = { s with
        epoch := s.epoch.set (talosId, epochId) { record with status := .recovered } } := by
  simp only [recoverExpired, bind_eq_ok, rejectIf_eq_ok, orReject_eq_ok, checkedI128_eq_some,
    Except.ok.injEq, Prod.mk.injEq] at ok
  obtain ⟨_, _, record, found, _, status, deadline, due, _, late, _, ⟨_, rfl⟩, rfl, rfl⟩ := ok
  exact ⟨record, deadline, found, status, due, by omega, rfl, rfl⟩

/-! ### Claims -/

/-- The record a claim reads, by Talos and epoch. -/
def ClaimArgs.key (a : ClaimArgs) : Nat × Nat := (a.talosId, a.epochId)

/-- The double-claim guard a claim reads: epoch and claimant, without the Talos. -/
def ClaimArgs.guardKey (a : ClaimArgs) : Nat × Address := (a.epochId, a.claimant)

/-- The guards `claim_dividend` passes before it looks at the double-claim
guard: the claimant's signature, an active epoch inside its window, shares that
sum to 100 and a role among the supplied addresses. -/
def ClaimArgs.admissible (a : ClaimArgs) (e : Env Remote) (record? : Option EpochRecord) : Bool :=
  match record? with
  | none => false
  | some record =>
    e.auth a.claimant && record.status == .active &&
      (match record.deadline with
        | none => false
        | some deadline => decide (e.timestamp ≤ deadline)) &&
      a.shareSum == some 100 && a.role.isSome

/-- The part of a claim before the double-claim guard: the record it claims
from and the supplied share of the claimant's role. -/
def claimCheck (e : Env Remote) (record? : Option EpochRecord) (a : ClaimArgs) :
    Result (EpochRecord × Nat) := do
  requireAuth e a.claimant
  let record ← orReject record? (.error .epochNotFound)
  rejectIf (record.status ≠ .active) (.error .epochExpired)
  let deadline ← orReject record.deadline (.error .overflow)
  rejectIf (e.timestamp > deadline) (.error .epochExpired)
  let shareSum ← orReject a.shareSum (.error .overflow)
  rejectIf (shareSum ≠ 100) (.error .invalidPatronShares)
  let (_, sharePct) ← orReject a.role (.error .notAPatron)
  .ok (record, sharePct)

/-- The part of a claim after the double-claim guard: the allocation, the dust
of the epoch and the updated record. -/
def claimAmounts (record : EpochRecord) (sharePct : Nat) (dust? : Option Int) (a : ClaimArgs) :
    Result (Int × Int × EpochRecord) := do
  let allocation ← computeAllocation record.totalAmount sharePct
  let dust ← computeRoundingDust record.totalAmount a.creatorShare a.investorShare a.treasuryShare
  rejectIf (dust?.getD dust ≠ dust) (.error .inconsistentShareData)
  let newClaimed ← orReject (checkedI128 (record.claimedAmount + allocation)) (.error .overflow)
  rejectIf (newClaimed > record.totalAmount) (.error .accountingOverflow)
  .ok (allocation, dust, { record with claimedAmount := newClaimed })

/-- What a claim decides from the three storage entries it reads. -/
def claimTerms (e : Env Remote) (record? : Option EpochRecord) (claimed? : Option Bool)
    (dust? : Option Int) (a : ClaimArgs) : Result (Int × Int × EpochRecord) := do
  let (record, sharePct) ← claimCheck e record? a
  rejectIf (claimed?.isSome = true) (.error .alreadyClaimed)
  claimAmounts record sharePct dust? a

/-- The writes of an accepted claim. -/
def Storage.recordClaim (s : Storage) (e : Env Remote) (a : ClaimArgs) (dust : Int)
    (record : EpochRecord) : Storage :=
  { s with
    roundingDust := s.roundingDust.set a.key dust
    claimed := s.claimed.set a.guardKey true
    epoch := s.epoch.set a.key record
    lastTouched := s.lastTouched.set a.key e.sequence }

/-- A claim reads one record, one guard and one dust entry, and nothing else of
the storage. -/
theorem claimDividend_eq (e : Env Remote) (s : Storage) (a : ClaimArgs) :
    claimDividend e s a =
      (claimTerms e (s.epoch a.key) (s.claimed a.guardKey) (s.roundingDust a.key) a >>=
        fun terms => .ok (terms.1, s.recordClaim e a terms.2.1 terms.2.2)) := by
  simp only [claimDividend, claimTerms, claimCheck, claimAmounts, bind_assoc, bind_ok]
  rfl

/-- The role's share is one of the three supplied shares. -/
theorem role_share_le {role : PatronRole} {pct : Nat} (h : a.role = some (role, pct)) :
    pct ≤ a.creatorShare + a.investorShare + a.treasuryShare := by
  unfold ClaimArgs.role at h
  split_ifs at h
  all_goals
    obtain ⟨_, rfl⟩ := Prod.mk.inj (Option.some.inj h)
    omega

theorem claimCheck_eq_ok {record? : Option EpochRecord} {record : EpochRecord} {pct : Nat} :
    claimCheck e record? a = .ok (record, pct) ↔ e.auth a.claimant = true ∧
      record? = some record ∧ record.status = .active ∧
      (∃ deadline, record.deadline = some deadline ∧ e.timestamp ≤ deadline) ∧
      a.shareSum = some 100 ∧ ∃ role, a.role = some (role, pct) := by
  simp only [claimCheck, bind_eq_ok, requireAuth_eq_ok, rejectIf_eq_ok, orReject_eq_ok,
    Except.ok.injEq, Prod.mk.injEq, Decidable.not_not, not_lt]
  constructor
  · rintro ⟨_, signed, _, found, _, active, deadline, due, _, window, _, shares, _, rfl,
      ⟨role, _⟩, isRole, rfl, rfl⟩
    exact ⟨signed, found, active, ⟨deadline, due, window⟩, shares, role, isRole⟩
  · rintro ⟨signed, found, active, ⟨deadline, due, window⟩, shares, role, isRole⟩
    exact ⟨(), signed, record, found, (), active, deadline, due, (), window, 100, shares, (), rfl,
      (role, pct), isRole, rfl, rfl⟩

theorem admissible_iff {record? : Option EpochRecord} :
    a.admissible e record? = true ↔ ∃ record pct, claimCheck e record? a = .ok (record, pct) := by
  simp only [claimCheck_eq_ok, ClaimArgs.admissible]
  cases record? with
  | none => simp
  | some record =>
    cases due : record.deadline with
    | none => simp [due]
    | some deadline => simp [due, and_assoc, Option.isSome_iff_exists, exists_comm (α := Nat)]

/-- The terms of an accepted claim. -/
theorem claimTerms_ok {record? : Option EpochRecord} {claimed? : Option Bool} {dust? : Option Int}
    {dust : Int} {record' : EpochRecord}
    (ok : claimTerms e record? claimed? dust? a = .ok (x, dust, record')) :
    ∃ record deadline role pct, record? = some record ∧ record.status = .active ∧
      record.deadline = some deadline ∧ e.timestamp ≤ deadline ∧ a.shareSum = some 100 ∧
      a.role = some (role, pct) ∧ claimed? = none ∧
      x = (record.totalAmount * pct).tdiv 100 ∧ 0 < x ∧
      record.claimedAmount + x ≤ record.totalAmount ∧
      record' = { record with claimedAmount := record.claimedAmount + x } := by
  simp only [claimTerms, claimAmounts, computeAllocation, bind_eq_ok, rejectIf_eq_ok,
    orReject_eq_ok, checkedI128_eq_some, Except.ok.injEq, Prod.mk.injEq, Bool.not_eq_true,
    Option.isSome_eq_false_iff, Option.isNone_iff_eq_none] at ok
  obtain ⟨⟨record, pct⟩, check, _, unclaimed, _, ⟨_, ⟨_, rfl⟩, _, positive, rfl⟩, _, _, _, _, _,
    ⟨_, rfl⟩, _, room, rfl, _, rfl⟩ := ok
  obtain ⟨_, found, active, ⟨deadline, due, window⟩, shares, role, isRole⟩ :=
    claimCheck_eq_ok.mp check
  exact ⟨record, deadline, role, pct, found, active, due, window, shares, isRole, unclaimed, rfl,
    not_le.mp positive, not_lt.mp room, rfl⟩

/-- A claim that meets every check is accepted. -/
theorem claimTerms_of {record : EpochRecord} {deadline pct : Nat} {role : PatronRole} {dust : Int}
    (dust? : Option Int) (signed : e.auth a.claimant = true) (active : record.status = .active)
    (due : record.deadline = some deadline) (window : e.timestamp ≤ deadline)
    (shares : a.shareSum = some 100) (isRole : a.role = some (role, pct))
    (allocation : computeAllocation record.totalAmount pct = .ok x)
    (hdust : computeRoundingDust record.totalAmount a.creatorShare a.investorShare
      a.treasuryShare = .ok dust)
    (recorded : dust?.getD dust = dust)
    (range : i128Min ≤ record.claimedAmount + x ∧ record.claimedAmount + x ≤ i128Max)
    (room : record.claimedAmount + x ≤ record.totalAmount) :
    claimTerms e (some record) none dust? a =
      .ok (x, dust, { record with claimedAmount := record.claimedAmount + x }) := by
  have check : claimCheck e (some record) a = .ok (record, pct) :=
    claimCheck_eq_ok.mpr ⟨signed, rfl, active, ⟨deadline, due, window⟩, shares, role, isRole⟩
  have claimed := checkedI128_eq_some.mpr ⟨range, rfl⟩
  simp only [claimTerms, claimAmounts, check, bind_ok, allocation, hdust, claimed, orReject_some,
    rejectIf_neg (not_not_intro recorded), rejectIf_neg (not_lt.mpr room)]
  rfl

/-- The dust of an accepted claim is the one recorded, if any. -/
theorem claimTerms_dust {record : EpochRecord} {claimed? : Option Bool} {dust? : Option Int}
    {dust : Int} {record' : EpochRecord}
    (ok : claimTerms e (some record) claimed? dust? a = .ok (x, dust, record')) :
    computeRoundingDust record.totalAmount a.creatorShare a.investorShare a.treasuryShare =
      .ok dust ∧ dust?.getD dust = dust := by
  simp only [claimTerms, claimAmounts, bind_eq_ok, rejectIf_eq_ok, Decidable.not_not,
    Except.ok.injEq, Prod.mk.injEq] at ok
  obtain ⟨⟨before, pct⟩, check, _, _, _, _, _, computed, _, recorded, _, _, _, _, _, rfl, _⟩ := ok
  obtain ⟨_, found, _⟩ := claimCheck_eq_ok.mp check
  obtain rfl := Option.some.inj found
  exact ⟨computed, recorded⟩

/-- What an accepted claim has checked and written. -/
theorem claimDividend_ok (ok : claimDividend e s a = .ok (x, s')) :
    ∃ record deadline role pct dust, s.epoch a.key = some record ∧ record.status = .active ∧
      record.deadline = some deadline ∧ e.timestamp ≤ deadline ∧ a.shareSum = some 100 ∧
      a.role = some (role, pct) ∧ s.claimed a.guardKey = none ∧
      x = (record.totalAmount * pct).tdiv 100 ∧ 0 < x ∧
      record.claimedAmount + x ≤ record.totalAmount ∧
      s' = s.recordClaim e a dust
        { record with claimedAmount := record.claimedAmount + x } := by
  rw [claimDividend_eq, bind_eq_ok] at ok
  obtain ⟨⟨x', dust, record'⟩, terms, ok⟩ := ok
  obtain ⟨rfl, rfl⟩ := by simpa using ok
  obtain ⟨record, deadline, role, pct, found, active, due, window, shares, isRole, unclaimed, value,
    positive, room, rfl⟩ := claimTerms_ok terms
  exact ⟨record, deadline, role, pct, dust, found, active, due, window, shares, isRole, unclaimed,
    value, positive, room, rfl⟩

/-! ### Every call -/

/-- Commits, claims and recoveries. -/
def Call.movesFunds : Call → Bool
  | .commitEpoch .. | .claimDividend _ | .recoverExpired .. => true
  | _ => false

/-- Every accepted call is a commit, a claim, a recovery, or leaves the ledger
as it was. -/
theorem exec_cases (ok : exec e s c = .ok (v, s')) :
    (∃ admin talosId totalAmount expirySecs id,
      c = .commitEpoch admin talosId totalAmount expirySecs ∧ v = .epochId id ∧
      commitEpoch e s admin talosId totalAmount expirySecs = .ok (id, s')) ∨
    (∃ a x, c = .claimDividend a ∧ v = .amount x ∧ claimDividend e s a = .ok (x, s')) ∨
    (∃ admin talosId epochId x, c = .recoverExpired admin talosId epochId ∧ v = .amount x ∧
      recoverExpired e s admin talosId epochId = .ok (x, s')) ∨
    (c.movesFunds = false ∧ SameLedger s s') := by
  cases c with
  | initializeContract admin registryContract =>
    simp only [exec, silent_eq_ok, initializeContract, bind_eq_ok, Except.ok.injEq] at ok
    obtain ⟨⟨_, _, rfl⟩, rfl⟩ := ok
    exact .inr (.inr (.inr ⟨rfl, rfl, rfl, rfl, rfl⟩))
  | commitEpoch admin talosId totalAmount expirySecs =>
    obtain ⟨id, accepted, rfl⟩ := returning_eq_ok.mp ok
    exact .inl ⟨_, _, _, _, id, rfl, rfl, accepted⟩
  | claimDividend args =>
    obtain ⟨x, accepted, rfl⟩ := returning_eq_ok.mp ok
    exact .inr (.inl ⟨args, x, rfl, rfl, accepted⟩)
  | recoverExpired admin talosId epochId =>
    obtain ⟨x, accepted, rfl⟩ := returning_eq_ok.mp ok
    exact .inr (.inr (.inl ⟨_, _, _, x, rfl, rfl, accepted⟩))
  | setRegistryContract admin newRegistry =>
    simp only [exec, silent_eq_ok, setRegistryContract, bind_eq_ok, Except.ok.injEq] at ok
    obtain ⟨⟨_, _, _, _, _, _, rfl⟩, rfl⟩ := ok
    exact .inr (.inr (.inr ⟨rfl, rfl, rfl, rfl, rfl⟩))
  | proposeAdmin newAdmin =>
    simp only [exec, silent_eq_ok, proposeAdmin, bind_eq_ok, Except.ok.injEq] at ok
    obtain ⟨⟨_, _, _, _, rfl⟩, rfl⟩ := ok
    exact .inr (.inr (.inr ⟨rfl, rfl, rfl, rfl, rfl⟩))
  | acceptAdmin =>
    simp only [exec, silent_eq_ok, acceptAdmin, bind_eq_ok, Except.ok.injEq] at ok
    obtain ⟨⟨_, _, _, _, rfl⟩, rfl⟩ := ok
    exact .inr (.inr (.inr ⟨rfl, rfl, rfl, rfl, rfl⟩))
  | cancelAdminTransfer =>
    simp only [exec, silent_eq_ok, cancelAdminTransfer, bind_eq_ok, Except.ok.injEq] at ok
    obtain ⟨⟨_, _, _, _, _, _, rfl⟩, rfl⟩ := ok
    exact .inr (.inr (.inr ⟨rfl, rfl, rfl, rfl, rfl⟩))
  | touchEpoch talosId epochId =>
    obtain ⟨b, accepted, rfl⟩ := returning_eq_ok.mp ok
    exact .inr (.inr (.inr ⟨rfl, touchEpoch_sameLedger accepted⟩))
  | extendTtlBatch admin talosId start limit minAge maxAge =>
    simp only [exec, returning_eq_ok] at ok
    obtain ⟨n, accepted, rfl⟩ := ok
    exact .inr (.inr (.inr ⟨rfl, extendTtlBatch_sameLedger accepted⟩))

/-! ### The epoch records -/

/-- Epoch ids count from 1 below the next id of their Talos, and a record is
stored under its own Talos and id, with a positive total of which between nothing
and everything is claimed. -/
structure LedgerInv (s : Storage) : Prop where
  nextId : ∀ talosId, 1 ≤ (s.nextEpochId talosId).getD 1 ∧ (s.nextEpochId talosId).getD 1 ≤ u64Max
  ids : ∀ talosId epochId record, s.epoch (talosId, epochId) = some record →
    1 ≤ epochId ∧ epochId < (s.nextEpochId talosId).getD 1 ∧
      record.talosId = talosId ∧ record.epochId = epochId
  amounts : ∀ key record, s.epoch key = some record →
    1 ≤ record.totalAmount ∧ 0 ≤ record.claimedAmount ∧ record.claimedAmount ≤ record.totalAmount

theorem LedgerInv.empty : LedgerInv .empty := by
  constructor
  · intro talosId
    simp [Storage.empty, u64Max]
  · intro talosId epochId record found
    simp [Storage.empty] at found
  · intro key record found
    simp [Storage.empty] at found

/-- Replacing a record by one with the same ids and sound amounts keeps the
invariant. -/
theorem LedgerInv.update (inv : LedgerInv s) {key : Nat × Nat} {record record' : EpochRecord}
    (epoch : s'.epoch = s.epoch.set key record') (nextId : s'.nextEpochId = s.nextEpochId)
    (found : s.epoch key = some record) (sameTalos : record'.talosId = record.talosId)
    (sameId : record'.epochId = record.epochId)
    (amounts : 1 ≤ record'.totalAmount ∧ 0 ≤ record'.claimedAmount ∧
      record'.claimedAmount ≤ record'.totalAmount) : LedgerInv s' := by
  constructor
  · rw [nextId]
    exact inv.nextId
  · intro talosId epochId r hr
    rw [epoch, Map.set_apply] at hr
    rw [nextId]
    split at hr
    · next same =>
      obtain rfl := Option.some.inj hr
      subst same
      obtain ⟨low, high, atTalos, atId⟩ := inv.ids _ _ _ found
      exact ⟨low, high, sameTalos.trans atTalos, sameId.trans atId⟩
    · exact inv.ids _ _ _ hr
  · intro key' r hr
    rw [epoch, Map.set_apply] at hr
    split at hr
    · obtain rfl := Option.some.inj hr
      exact amounts
    · exact inv.amounts _ _ hr

theorem LedgerInv.step (inv : LedgerInv s) (ok : exec e s c = .ok (v, s')) : LedgerInv s' := by
  rcases exec_cases ok with ⟨_, talosId, total, expiry, id, _, _, ok⟩ | ⟨a, x, _, _, ok⟩ |
    ⟨_, talosId, epochId, x, _, _, ok⟩ | ⟨_, same⟩
  · obtain ⟨rfl, bound, amount, _, rfl⟩ := commitEpoch_ok ok
    constructor
    · intro t
      dsimp only
      rw [Map.set_apply]
      split
      · exact ⟨Nat.le_add_left .., bound⟩
      · exact inv.nextId t
    · intro t i r hr
      have next := inv.nextId t
      dsimp only at hr ⊢
      rw [Map.set_apply] at hr ⊢
      split at hr
      · next same =>
        obtain ⟨rfl, rfl⟩ := Prod.mk.inj same
        obtain rfl := Option.some.inj hr
        simp [next.1]
      · obtain ⟨low, high, ids⟩ := inv.ids _ _ _ hr
        refine ⟨low, ?_, ids⟩
        split
        · next same =>
          subst same
          exact Nat.lt_succ_of_lt high
        · exact high
    · intro key r hr
      dsimp only at hr
      rw [Map.set_apply] at hr
      split at hr
      · obtain rfl := Option.some.inj hr
        exact ⟨amount, le_refl _, by dsimp only; omega⟩
      · exact inv.amounts _ _ hr
  · obtain ⟨record, _, _, _, _, found, _, _, _, _, _, _, _, positive, room, rfl⟩ :=
      claimDividend_ok ok
    obtain ⟨total, low, _⟩ := inv.amounts _ _ found
    exact inv.update rfl rfl found rfl rfl ⟨total, by dsimp only; omega, room⟩
  · obtain ⟨record, _, found, _, _, _, _, rfl⟩ := recoverExpired_ok ok
    have amounts := inv.amounts _ _ found
    exact inv.update rfl rfl found rfl rfl amounts
  · constructor
    · rw [same.nextEpochId]
      exact inv.nextId
    · rw [same.nextEpochId, same.epoch]
      exact inv.ids
    · rw [same.epoch]
      exact inv.amounts

/-- What a commit fixes once and for all. -/
structure EpochRecord.SameTerms (record record' : EpochRecord) : Prop where
  totalAmount : record'.totalAmount = record.totalAmount
  createdAt : record'.createdAt = record.createdAt
  expirySecs : record'.expirySecs = record.expirySecs

theorem EpochRecord.SameTerms.refl (record : EpochRecord) : record.SameTerms record :=
  ⟨rfl, rfl, rfl⟩

theorem EpochRecord.SameTerms.trans {r r' r'' : EpochRecord} (first : r.SameTerms r')
    (second : r'.SameTerms r'') : r.SameTerms r'' where
  totalAmount := second.totalAmount.trans first.totalAmount
  createdAt := second.createdAt.trans first.createdAt
  expirySecs := second.expirySecs.trans first.expirySecs

/-- No call drops a record or changes its terms. -/
theorem record_kept (ok : exec e s c = .ok (v, s')) {key : Nat × Nat} {record : EpochRecord}
    (found : s.epoch key = some record) :
    ∃ record', s'.epoch key = some record' ∧ record.SameTerms record' := by
  rcases exec_cases ok with ⟨_, talosId, total, expiry, id, _, _, ok⟩ | ⟨a, x, _, _, ok⟩ |
    ⟨_, talosId, epochId, x, _, _, ok⟩ | ⟨_, same⟩
  · obtain ⟨_, _, _, fresh, rfl⟩ := commitEpoch_ok ok
    have other : key ≠ (talosId, id) := by
      rintro rfl
      rw [fresh] at found
      cases found
    exact ⟨record, (Map.set_of_ne _ _ other).trans found, .refl record⟩
  · obtain ⟨before, _, _, _, _, found', _, _, _, _, _, _, _, _, _, rfl⟩ := claimDividend_ok ok
    by_cases same : key = a.key
    · subst same
      obtain rfl := Option.some.inj (found.symm.trans found')
      exact ⟨_, Map.set_self _ _ _, rfl, rfl, rfl⟩
    · exact ⟨record, (Map.set_of_ne _ _ same).trans found, .refl record⟩
  · obtain ⟨before, _, found', _, _, _, _, rfl⟩ := recoverExpired_ok ok
    by_cases same : key = (talosId, epochId)
    · subst same
      obtain rfl := Option.some.inj (found.symm.trans found')
      exact ⟨_, Map.set_self _ _ _, rfl, rfl, rfl⟩
    · exact ⟨record, (Map.set_of_ne _ _ same).trans found, .refl record⟩
  · rw [same.epoch]
    exact ⟨record, found, .refl record⟩

theorem LedgerInv.of_reachable (reach : Reachable contract s) : LedgerInv s :=
  reach.invariant .empty fun inv ok => inv.step ok

end Talos.Dividends
