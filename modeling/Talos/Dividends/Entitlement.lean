import Talos.Dividends.Effects
import Talos.Registry.Model

/-!
# Entitlement: payouts against the registry

`claim_dividend` is meant to pay a patron the share the registry records for it.
The patron addresses and shares it computes with are arguments of the call, and
no check compares them with the registry. So the bound is exactly as good as the
caller's honesty: it holds in every reachable state if the share the caller
supplies for its own role is at most its registry share (or the arguments are
rejected everywhere), and fails in some reachable state otherwise.
-/

namespace Talos.Dividends

open Talos.Soroban

variable {e : Env Remote} {s s' : Storage} {a : ClaimArgs} {x : Int}

/-- The share a registry patron record gives to an address, over all the roles
it holds there. -/
def registryShare (patron : Registry.Patron) (claimant : Address) : Nat :=
  (if patron.creatorAddr = claimant then patron.creatorShare else 0) +
  (if patron.investorAddr = claimant then patron.investorShare else 0) +
  (if patron.treasuryAddr = claimant then patron.treasuryShare else 0)

/-- Whatever is reachable, a successful claim with these arguments pays at most
the registry share of the epoch, rounded down. -/
def EntitlementBound (patron : Registry.Patron) (a : ClaimArgs) : Prop :=
  ∀ s e x s', Reachable contract s → claimDividend e s a = .ok (x, s') →
    ∃ record, s.epoch a.key = some record ∧
      x ≤ record.totalAmount * registryShare patron a.claimant / 100

/-- Arguments no reachable state accepts: shares that do not sum to 100, a
claimant outside the supplied roles, an epoch id that is never allocated. -/
def ClaimArgs.neverAccepted (a : ClaimArgs) : Prop :=
  a.shareSum ≠ some 100 ∨ a.role = none ∨ a.epochId = 0 ∨ u64Max ≤ a.epochId

/-- The share supplied for the claimant's role does not exceed its registry share. -/
def ClaimArgs.withinRegistry (a : ClaimArgs) (patron : Registry.Patron) : Prop :=
  ∀ role pct, a.role = some (role, pct) → pct ≤ registryShare patron a.claimant

/-! ### Arguments that are never accepted -/

theorem not_neverAccepted_of_ok (reach : Reachable contract s)
    (ok : claimDividend e s a = .ok (x, s')) : ¬ a.neverAccepted := by
  obtain ⟨record, _, role, pct, _, found, _, _, _, shares, isRole, _⟩ := claimDividend_ok ok
  have inv := LedgerInv.of_reachable reach
  obtain ⟨low, high, _⟩ := inv.ids _ _ _ found
  have bound := (inv.nextId a.talosId).2
  rintro (noShares | noRole | zero | top)
  · exact noShares shares
  · simp [isRole] at noRole
  · omega
  · omega

/-! ### Honest arguments are bounded -/

/-- Truncated and floored division by 100 agree on a product of a total and a share. -/
theorem tdiv_hundred_eq {total : Int} (share : Nat) (h : 0 ≤ total) :
    (total * share).tdiv 100 = total * share / 100 :=
  Int.tdiv_eq_ediv_of_nonneg (Int.mul_nonneg h (Int.natCast_nonneg share))

theorem entitlementBound_of_withinRegistry {patron : Registry.Patron}
    (within : a.withinRegistry patron) : EntitlementBound patron a := by
  intro s e x s' reach ok
  obtain ⟨record, _, role, pct, _, found, _, _, _, _, isRole, _, rfl, _⟩ := claimDividend_ok ok
  have total := (LedgerInv.of_reachable reach).amounts _ _ found
  have share : (pct : Int) ≤ registryShare patron a.claimant := by
    exact_mod_cast within role pct isRole
  refine ⟨record, found, ?_⟩
  rw [tdiv_hundred_eq pct (by omega)]
  exact Int.ediv_le_ediv (by decide) (Int.mul_le_mul_of_nonneg_left share (by omega))

/-! ### Dishonest arguments are accepted somewhere -/

/-- The ledger the runs below are submitted in: time 0, every signature present. -/
def openEnv : Env Remote where
  timestamp := 0
  sequence := 0
  auth := fun _ => true
  remote := ⟨fun _ => none, fun _ => none⟩

/-- An active epoch of 100 units committed in `openEnv`. -/
def hundredEpoch (talosId epochId : Nat) : EpochRecord where
  epochId := epochId
  talosId := talosId
  totalAmount := 100
  claimedAmount := 0
  createdAt := 0
  expirySecs := minExpirySecs
  status := .active

/-- Epochs of 100 units, and nothing claimed yet. -/
structure Committed (s : Storage) (admin : Address) (talosId n : Nat) : Prop where
  reachable : Reachable contract s
  admin : s.admin = some admin
  next : (s.nextEpochId talosId).getD 1 = n + 1
  unclaimed : s.claimed = .empty
  noDust : s.roundingDust = .empty
  last : 1 ≤ n → s.epoch (talosId, n) = some (hundredEpoch talosId n)

theorem initialized_committed (admin : Address) (talosId : Nat) :
    ∃ s, Committed s admin talosId 0 := by
  have ok : contract.exec openEnv contract.init (.initializeContract admin admin) =
      .ok (.unit, { Storage.empty with admin := some admin, registryContract := some admin }) := rfl
  refine ⟨_, Reachable.init.step ok, rfl, rfl, rfl, rfl, ?_⟩
  intro none
  omega

theorem Committed.commit {admin : Address} {talosId n : Nat} (h : Committed s admin talosId n)
    (room : n + 2 ≤ u64Max) : ∃ s', Committed s' admin talosId (n + 1) := by
  have fresh : s.epoch (talosId, n + 1) = none := by
    rw [Option.eq_none_iff_forall_not_mem]
    intro record found
    have bound := ((LedgerInv.of_reachable h.reachable).ids _ _ _ found).2.1
    have next := h.next
    omega
  have amount : ¬ (100 : Int) < minEpochAmount := by decide
  have expiry : ¬ (minExpirySecs < minExpirySecs ∨ minExpirySecs > maxExpirySecs) := by decide
  have ok : contract.exec openEnv s (.commitEpoch admin talosId 100 minExpirySecs) =
      .ok (.epochId (n + 1), { s with
        epoch := s.epoch.set (talosId, n + 1) (hundredEpoch talosId (n + 1))
        nextEpochId := s.nextEpochId.set talosId (n + 2)
        lastTouched := s.lastTouched.set (talosId, n + 1) 0 }) := by
    simp only [contract, exec, returning_eq_ok]
    refine ⟨n + 1, ?_, rfl⟩
    have authorised : requireAdmin openEnv s admin = .ok () := by
      simp [requireAdmin, requireAdminAddr, h.admin, requireAuth, openEnv, rejectIf]
    have absent : ¬ (none : Option EpochRecord).isSome = true := by decide
    simp only [commitEpoch, authorised, h.next, fresh, rejectIf_neg amount, rejectIf_neg expiry,
      rejectIf_neg absent, addU64, if_pos room, bind_ok]
    rfl
  refine ⟨_, h.reachable.step ok, h.admin, ?_, h.unclaimed, h.noDust, ?_⟩
  · simp
  · intro _
    simp

theorem exists_committed (admin : Address) (talosId : Nat) {n : Nat} (room : n < u64Max) :
    ∃ s, Committed s admin talosId n := by
  induction n with
  | zero => exact initialized_committed admin talosId
  | succ n ih =>
    obtain ⟨s, h⟩ := ih (by omega)
    exact h.commit (by omega)

theorem shareSum_eq_some {n : Nat} (h : a.shareSum = some n) :
    a.creatorShare + a.investorShare + a.treasuryShare = n := by
  simp only [ClaimArgs.shareSum, Option.bind_eq_some_iff, checkedAddU32_eq_some] at h
  obtain ⟨_, ⟨_, rfl⟩, _, rfl⟩ := h
  rfl

theorem hundred_mul_tdiv (share : Nat) : ((100 : Int) * share).tdiv 100 = share :=
  Int.mul_tdiv_cancel_left _ (by decide)

theorem checkedI128_of_le {y : Int} (low : 0 ≤ y) (high : y ≤ 10000) : checkedI128 y = some y := by
  rw [checkedI128_eq_some]
  refine ⟨⟨?_, ?_⟩, rfl⟩
  · unfold i128Min
    omega
  · unfold i128Max
    omega

/-- Every argument list that is not rejected everywhere is accepted in some
reachable state, by an epoch of 100 units, and is paid the share it supplies. -/
theorem exists_claim_paid {role : PatronRole} {pct : Nat} (accepted : ¬ a.neverAccepted)
    (isRole : a.role = some (role, pct)) (positive : 0 < pct) :
    ∃ s s', Reachable contract s ∧
      s.epoch a.key = some (hundredEpoch a.talosId a.epochId) ∧
      claimDividend openEnv s a = .ok ((pct : Int), s') := by
  simp only [ClaimArgs.neverAccepted, not_or, Decidable.not_not, not_le] at accepted
  obtain ⟨shares, _, nonzero, below⟩ := accepted
  obtain ⟨s, committed⟩ := exists_committed a.claimant a.talosId below
  have found : s.epoch a.key = some (hundredEpoch a.talosId a.epochId) :=
    committed.last (Nat.one_le_iff_ne_zero.mpr nonzero)
  have sum := shareSum_eq_some shares
  have small := role_share_le isRole
  have allocation : computeAllocation 100 pct = .ok (pct : Int) := by
    rw [computeAllocation, checkedI128_of_le (by omega) (by omega), orReject_some, bind_ok]
    dsimp only
    rw [hundred_mul_tdiv, rejectIf_neg (by omega)]
    rfl
  have dust : computeRoundingDust 100 a.creatorShare a.investorShare a.treasuryShare = .ok 0 := by
    rw [computeRoundingDust, checkedI128_of_le (by omega) (by omega),
      checkedI128_of_le (by omega) (by omega), checkedI128_of_le (by omega) (by omega)]
    simp only [orReject_some, bind_ok, hundred_mul_tdiv]
    rw [checkedI128_of_le (by omega) (by omega), orReject_some, bind_ok,
      checkedI128_of_le (by omega) (by omega), orReject_some, bind_ok,
      checkedI128_of_le (by omega) (by omega), orReject_some]
    congr 1
    omega
  have due : (hundredEpoch a.talosId a.epochId).deadline = some minExpirySecs := by
    simp only [EpochRecord.deadline, checkedAddU64_eq_some, hundredEpoch]
    decide
  have range : i128Min ≤ 0 + (pct : Int) ∧ 0 + (pct : Int) ≤ i128Max := by
    unfold i128Min i128Max
    omega
  have room : 0 + (pct : Int) ≤ (hundredEpoch a.talosId a.epochId).totalAmount := by
    change 0 + (pct : Int) ≤ 100
    omega
  have terms := @claimTerms_of openEnv a pct (hundredEpoch a.talosId a.epochId) _ _ _ 0 none rfl
    rfl due (Nat.zero_le _) shares isRole allocation dust rfl range room
  have ok := claimDividend_eq openEnv s a
  rw [found, committed.unclaimed, committed.noDust, Map.empty_apply, Map.empty_apply, terms,
    bind_ok] at ok
  exact ⟨s, _, committed.reachable, found, ok⟩

/-! ### The exact condition -/

theorem withinRegistry_of_entitlementBound {patron : Registry.Patron}
    (bound : EntitlementBound patron a) (accepted : ¬ a.neverAccepted) :
    a.withinRegistry patron := by
  intro role pct isRole
  rcases Nat.eq_zero_or_pos pct with rfl | positive
  · exact Nat.zero_le _
  obtain ⟨s, s', reach, found, ok⟩ := exists_claim_paid accepted isRole positive
  obtain ⟨record, found', le⟩ := bound s openEnv pct s' reach ok
  obtain rfl := Option.some.inj (found.symm.trans found')
  have floor : (100 : Int) * registryShare patron a.claimant / 100 =
      registryShare patron a.claimant := Int.mul_ediv_cancel_left _ (by decide)
  have le' : (pct : Int) ≤ registryShare patron a.claimant := by
    rw [← floor]
    exact le
  exact_mod_cast le'

/-- No supplied address or share can raise a payout above the registry share,
exactly when the claimant supplies no more than that share for itself. -/
theorem entitlement_bound_iff (patron : Registry.Patron) (a : ClaimArgs) :
    EntitlementBound patron a ↔ a.neverAccepted ∨ a.withinRegistry patron := by
  constructor
  · intro bound
    by_cases accepted : a.neverAccepted
    · exact .inl accepted
    · exact .inr (withinRegistry_of_entitlementBound bound accepted)
  · rintro (never | within)
    · intro s e x s' reach ok
      exact absurd never (not_neverAccepted_of_ok reach ok)
    · exact entitlementBound_of_withinRegistry within

/-- A patron record of 60, 30 and 10 percent for addresses 1, 2 and 3. -/
def samplePatron : Registry.Patron := ⟨60, 30, 10, ⟨1⟩, ⟨2⟩, ⟨3⟩⟩

/-- Address 9, unknown to the registry, names itself creator of everything. -/
def outsiderClaim : ClaimArgs := ⟨⟨9⟩, 1, 1, ⟨9⟩, ⟨2⟩, ⟨3⟩, 100, 0, 0⟩

/-- An outsider collects a whole epoch. -/
theorem outsider_collects_epoch :
    samplePatron.shareSum = some 100 ∧ registryShare samplePatron outsiderClaim.claimant = 0 ∧
    ∃ s s', Reachable contract s ∧ claimDividend openEnv s outsiderClaim = .ok (100, s') ∧
      ¬ EntitlementBound samplePatron outsiderClaim := by
  have accepted : ¬ outsiderClaim.neverAccepted := by
    unfold ClaimArgs.neverAccepted
    decide
  have isRole : outsiderClaim.role = some (.creator, 100) := by decide
  obtain ⟨s, s', reach, _, ok⟩ := exists_claim_paid accepted isRole (by decide)
  refine ⟨by decide, by decide, s, s', reach, ok, ?_⟩
  intro bound
  have le := withinRegistry_of_entitlementBound bound accepted _ _ isRole
  exact absurd le (by decide)

end Talos.Dividends
