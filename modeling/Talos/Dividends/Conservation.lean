import Talos.Dividends.Effects
import Mathlib.Algebra.BigOperators.Group.List.Basic

/-!
# Fund conservation over runs

The payouts and recoveries of an epoch are read off the history of a run. The
books of the epoch (`Books`) tie them to its record: the claimed amount is the
sum of the payouts, the double-claim guard covers every paid address, and a
recovered record has exactly one recovery, of what was left. Each accepted call
keeps the books, so they balance in every run.
-/

namespace Talos.Dividends

open Talos.Soroban

abbrev Invocation := Entry Remote Storage Call Value

/-- The payout an accepted invocation made from the epoch, and to whom. -/
def claimOn (key : Nat × Nat) (r : Invocation) : Option (Address × Int) :=
  match r.call, r.result with
  | .claimDividend a, .amount x => if a.key = key then some (a.claimant, x) else none
  | _, _ => none

/-- The amount an accepted invocation recovered from the epoch. -/
def recoveryOn (key : Nat × Nat) (r : Invocation) : Option Int :=
  match r.call, r.result with
  | .recoverExpired _ talosId epochId, .amount x =>
      if (talosId, epochId) = key then some x else none
  | _, _ => none

def claims (h : List Invocation) (key : Nat × Nat) : List (Address × Int) :=
  h.filterMap (claimOn key)

def recoveries (h : List Invocation) (key : Nat × Nat) : List Int := h.filterMap (recoveryOn key)

/-- The sum of all payouts of the epoch. -/
def paidOut (h : List Invocation) (key : Nat × Nat) : Int := ((claims h key).map Prod.snd).sum

/-- The invocation that committed the epoch with this total and window. -/
def CommittedBy (r : Invocation) (key : Nat × Nat) (record : EpochRecord) : Prop :=
  ∃ admin, r.call = .commitEpoch admin key.1 record.totalAmount record.expirySecs ∧
    r.result = .epochId key.2

section Books

variable {h : List Invocation} {s s' : Storage} {key : Nat × Nat} {e : Env Remote} {c : Call}
  {v : Value} {a : ClaimArgs} {x : Int}

/-- The record of an epoch agrees with the history of the run. -/
structure Books (h : List Invocation) (s : Storage) (key : Nat × Nat) : Prop where
  uncommitted : s.epoch key = none → claims h key = [] ∧ recoveries h key = []
  origin : ∀ record, s.epoch key = some record → ∃ r ∈ h, CommittedBy r key record
  paid : ∀ record, s.epoch key = some record → record.claimedAmount = paidOut h key
  returned : ∀ record, s.epoch key = some record → recoveries h key =
    if record.status = .recovered then [record.totalAmount - record.claimedAmount] else []
  guarded : ∀ p ∈ claims h key, s.claimed (key.2, p.1) ≠ none
  once : ((claims h key).map Prod.fst).Nodup

theorem Books.empty (key : Nat × Nat) : Books [] .empty key where
  uncommitted _ := ⟨rfl, rfl⟩
  origin record found := by simp [Storage.empty] at found
  paid record found := by simp [Storage.empty] at found
  returned record found := by simp [Storage.empty] at found
  guarded p mem := by simp [claims] at mem
  once := by simp [claims]

/-! ### One invocation -/

theorem claims_cons_none {r : Invocation} (none : claimOn key r = none) :
    claims (r :: h) key = claims h key := by
  simp [claims, none]

theorem recoveries_cons_none {r : Invocation} (none : recoveryOn key r = none) :
    recoveries (r :: h) key = recoveries h key := by
  simp [recoveries, none]

/-- An invocation that neither pays from the epoch nor changes its record keeps
the books, as long as it unsets no guard. -/
theorem Books.frame (books : Books h s key) {r : Invocation} (noClaim : claimOn key r = none)
    (noRecovery : recoveryOn key r = none) (epoch : s'.epoch key = s.epoch key)
    (guards : ∀ k, s.claimed k ≠ none → s'.claimed k ≠ none) : Books (r :: h) s' key where
  uncommitted absent := by
    rw [claims_cons_none noClaim, recoveries_cons_none noRecovery]
    exact books.uncommitted (epoch ▸ absent)
  origin record found := by
    obtain ⟨r', mem, by'⟩ := books.origin record (epoch ▸ found)
    exact ⟨r', List.mem_cons_of_mem _ mem, by'⟩
  paid record found := by
    rw [paidOut, claims_cons_none noClaim]
    exact books.paid record (epoch ▸ found)
  returned record found := by
    rw [recoveries_cons_none noRecovery]
    exact books.returned record (epoch ▸ found)
  guarded p mem := by
    rw [claims_cons_none noClaim] at mem
    exact guards _ (books.guarded p mem)
  once := by
    rw [claims_cons_none noClaim]
    exact books.once

/-- A commit opens the books of its own epoch and leaves all others. -/
theorem Books.commit (books : Books h s key) {admin : Address} {talosId id expirySecs : Nat}
    {totalAmount : Int} (ok : commitEpoch e s admin talosId totalAmount expirySecs = .ok (id, s')) :
    Books (⟨s, e, .commitEpoch admin talosId totalAmount expirySecs, .epochId id⟩ :: h) s' key := by
  obtain ⟨_, _, _, fresh, rfl⟩ := commitEpoch_ok ok
  by_cases same : key = (talosId, id)
  · subst same
    obtain ⟨noClaims, noRecoveries⟩ := books.uncommitted fresh
    constructor
    · intro absent
      simp at absent
    · intro record found
      obtain rfl := by simpa using found
      exact ⟨_, List.mem_cons_self .., admin, rfl, rfl⟩
    · intro record found
      obtain rfl := by simpa using found
      rw [paidOut, claims_cons_none rfl, noClaims]
      rfl
    · intro record found
      obtain rfl := by simpa using found
      rw [recoveries_cons_none rfl, noRecoveries]
      rfl
    · intro p mem
      rw [claims_cons_none rfl, noClaims] at mem
      simp at mem
    · rw [claims_cons_none rfl, noClaims]
      exact List.nodup_nil
  · exact books.frame rfl rfl (Map.set_of_ne _ _ same) fun _ set => set

/-- A claim pays once from its own epoch and leaves the books of all others. -/
theorem Books.claim (books : Books h s key) (ok : claimDividend e s a = .ok (x, s')) :
    Books (⟨s, e, .claimDividend a, .amount x⟩ :: h) s' key := by
  obtain ⟨record, _, _, _, _, found, active, _, _, _, _, unclaimed, _, _, _, rfl⟩ :=
    claimDividend_ok ok
  have guards : ∀ k, s.claimed k ≠ none → (s.claimed.set a.guardKey true) k ≠ none := by
    intro k set
    rw [Map.set_apply]
    split
    · simp
    · exact set
  by_cases same : a.key = key
  · subst same
    have new : claims (⟨s, e, .claimDividend a, .amount x⟩ :: h) a.key =
        (a.claimant, x) :: claims h a.key := by
      simp [claims, claimOn]
    constructor
    · intro absent
      simp [Storage.recordClaim] at absent
    · intro record' found'
      obtain rfl := by simpa [Storage.recordClaim] using found'
      obtain ⟨r, mem, by'⟩ := books.origin record found
      exact ⟨r, List.mem_cons_of_mem _ mem, by'⟩
    · intro record' found'
      obtain rfl := by simpa [Storage.recordClaim] using found'
      rw [paidOut, new, List.map_cons, List.sum_cons, ← paidOut, ← books.paid record found]
      exact Int.add_comm ..
    · intro record' found'
      obtain rfl := by simpa [Storage.recordClaim] using found'
      have open' : ¬ record.status = .recovered := by
        rw [active]
        decide
      have before := books.returned record found
      rw [if_neg open'] at before
      rw [recoveries_cons_none rfl, before]
      exact (if_neg open').symm
    · intro p mem
      rw [new] at mem
      rcases List.mem_cons.mp mem with rfl | mem
      · simp [Storage.recordClaim, ClaimArgs.guardKey, ClaimArgs.key]
      · exact guards _ (books.guarded p mem)
    · rw [new, List.map_cons, List.nodup_cons]
      refine ⟨?_, books.once⟩
      intro paidBefore
      -- An address paid before is guarded, so the claim would have been rejected.
      obtain ⟨p, mem, claimant⟩ := List.mem_map.mp paidBefore
      have guard := books.guarded p mem
      rw [claimant] at guard
      exact guard unclaimed
  · refine books.frame ?_ rfl (Map.set_of_ne _ _ (Ne.symm same)) guards
    exact if_neg same

/-- A recovery closes its own epoch and leaves the books of all others. -/
theorem Books.recover (books : Books h s key) {admin : Address} {talosId epochId : Nat}
    (ok : recoverExpired e s admin talosId epochId = .ok (x, s')) :
    Books (⟨s, e, .recoverExpired admin talosId epochId, .amount x⟩ :: h) s' key := by
  obtain ⟨record, _, found, notYet, _, _, rfl, rfl⟩ := recoverExpired_ok ok
  by_cases same : (talosId, epochId) = key
  · subst same
    have before := books.returned record found
    rw [if_neg notYet] at before
    constructor
    · intro absent
      simp at absent
    · intro record' found'
      obtain rfl := by simpa using found'
      obtain ⟨r, mem, by'⟩ := books.origin record found
      exact ⟨r, List.mem_cons_of_mem _ mem, by'⟩
    · intro record' found'
      obtain rfl := by simpa using found'
      rw [paidOut, claims_cons_none rfl]
      exact books.paid record found
    · intro record' found'
      obtain rfl := by simpa using found'
      simp [recoveries, recoveryOn] at before ⊢
      exact before
    · intro p mem
      rw [claims_cons_none rfl] at mem
      exact books.guarded p mem
    · rw [claims_cons_none rfl]
      exact books.once
  · refine books.frame rfl ?_ (Map.set_of_ne _ _ (Ne.symm same)) fun _ set => set
    exact if_neg same

theorem Books.step (books : Books h s key) (ok : exec e s c = .ok (v, s')) :
    Books (⟨s, e, c, v⟩ :: h) s' key := by
  rcases exec_cases ok with ⟨_, _, _, _, _, rfl, rfl, accepted⟩ |
    ⟨_, _, rfl, rfl, accepted⟩ | ⟨_, _, _, _, rfl, rfl, accepted⟩ | ⟨quiet, same⟩
  · exact books.commit accepted
  · exact books.claim accepted
  · exact books.recover accepted
  · refine books.frame ?_ ?_ (congrFun same.epoch key) fun k set => same.claimed ▸ set
    · cases c <;> first | rfl | simp [Call.movesFunds] at quiet
    · cases c <;> first | rfl | simp [Call.movesFunds] at quiet

theorem Books.of_run (run : Run contract h s) (key : Nat × Nat) : Books h s key := by
  induction run with
  | refl => exact .empty key
  | step _ ok ih => exact ih.step ok

/-! ### The two windows -/

/-- A recovered epoch pays nobody. -/
theorem claimDividend_ne_ok_of_recovered {record : EpochRecord}
    (found : s.epoch a.key = some record) (recovered : record.status = .recovered) :
    claimDividend e s a ≠ .ok (x, s') := by
  intro ok
  obtain ⟨record', _, _, _, _, found', active, _⟩ := claimDividend_ok ok
  obtain rfl := Option.some.inj (found.symm.trans found')
  rw [recovered] at active
  cases active

/-- Claims are accepted up to the deadline and recoveries strictly after it. -/
theorem claim_recover_exclusive {e' : Env Remote} {admin : Address} {y : Int} {s₁ s₂ : Storage}
    (sameTime : e'.timestamp = e.timestamp) (ok : claimDividend e s a = .ok (x, s₁)) :
    recoverExpired e' s admin a.talosId a.epochId ≠ .ok (y, s₂) := by
  intro recovered
  obtain ⟨record, deadline, _, _, _, found, _, due, window, _⟩ := claimDividend_ok ok
  obtain ⟨record', deadline', found', _, due', late, _⟩ := recoverExpired_ok recovered
  obtain rfl := Option.some.inj (found.symm.trans found')
  obtain rfl := Option.some.inj (due.symm.trans due')
  omega

end Books

/-! ### Conservation -/

/-- Fund conservation for one epoch at the end of a history. -/
structure Conserved (h : List Invocation) (s : Storage) (key : Nat × Nat) : Prop where
  /-- Nothing is paid from or recovered of an epoch that was never committed. -/
  uncommitted : s.epoch key = none → claims h key = [] ∧ recoveries h key = []
  /-- The total is the one the epoch was committed with. -/
  origin : ∀ record, s.epoch key = some record → ∃ r ∈ h, CommittedBy r key record
  /-- The claimed amount is the sum of the payouts, and within the total. -/
  claimed : ∀ record, s.epoch key = some record → record.claimedAmount = paidOut h key ∧
    0 ≤ record.claimedAmount ∧ record.claimedAmount ≤ record.totalAmount
  /-- Each address is paid at most once. -/
  once : ((claims h key).map Prod.fst).Nodup
  /-- At most one recovery, and it returns what was not claimed. -/
  recovered : (recoveries h key).length ≤ 1 ∧ ∀ record, s.epoch key = some record →
    ∀ x ∈ recoveries h key, x = record.totalAmount - record.claimedAmount
  /-- After a recovery no claim succeeds. -/
  closed : recoveries h key ≠ [] → ∀ e a x s', a.key = key → claimDividend e s a ≠ .ok (x, s')
  /-- When a claim succeeds, a recovery at that time would not. -/
  exclusive : ∀ e e' a admin x y s₁ s₂, a.key = key → e'.timestamp = e.timestamp →
    claimDividend e s a = .ok (x, s₁) → recoverExpired e' s admin key.1 key.2 ≠ .ok (y, s₂)
  /-- Payouts and recovery never exceed the total, and make it up once recovered. -/
  total : ∀ record, s.epoch key = some record →
    paidOut h key + (recoveries h key).sum ≤ record.totalAmount ∧
    (recoveries h key ≠ [] → paidOut h key + (recoveries h key).sum = record.totalAmount)

/-- Every run conserves the funds of every epoch. -/
theorem run_conserves {h : List Invocation} {s : Storage} (run : Run contract h s)
    (key : Nat × Nat) : Conserved h s key := by
  have books := Books.of_run run key
  have inv := LedgerInv.of_reachable ⟨h, run⟩
  constructor
  · exact books.uncommitted
  · exact books.origin
  · intro record found
    obtain ⟨_, low, high⟩ := inv.amounts key record found
    exact ⟨books.paid record found, low, high⟩
  · exact books.once
  · cases found : s.epoch key with
    | none =>
      rw [(books.uncommitted found).2]
      exact ⟨Nat.zero_le _, fun _ absent => nomatch absent⟩
    | some record =>
      rw [books.returned record found]
      refine ⟨by split <;> simp, ?_⟩
      intro record' same x mem
      obtain rfl := Option.some.inj same
      split at mem
      · simpa using mem
      · simp at mem
  · intro some' e a x s' at'
    subst at'
    cases found : s.epoch a.key with
    | none => exact absurd (books.uncommitted found).2 some'
    | some record =>
      rw [books.returned record found] at some'
      have recovered : record.status = .recovered := by
        by_contra open'
        exact some' (if_neg open')
      exact claimDividend_ne_ok_of_recovered found recovered
  · intro e e' a admin x y s₁ s₂ at' sameTime ok
    subst at'
    exact claim_recover_exclusive sameTime ok
  · intro record found
    obtain ⟨_, _, high⟩ := inv.amounts key record found
    have paid := books.paid record found
    rw [books.returned record found, ← paid]
    split
    · rw [List.sum_singleton]
      exact ⟨by omega, fun _ => by omega⟩
    · rw [List.sum_nil]
      exact ⟨by omega, fun some' => absurd rfl some'⟩

/-- A creator with 60 percent claims from an epoch of 100 units, the admin
recovers the rest an hour later. -/
def claimThenRecover : List (Env Remote × Call) :=
  let env (now : Nat) : Env Remote := ⟨now, 0, fun _ => true, ⟨fun _ => none, fun _ => none⟩⟩
  [(env 0, .initializeContract ⟨0⟩ ⟨0⟩), (env 0, .commitEpoch ⟨0⟩ 1 100 3600),
    (env 3600, .claimDividend ⟨⟨1⟩, 1, 1, ⟨1⟩, ⟨2⟩, ⟨3⟩, 60, 30, 10⟩),
    (env 3601, .recoverExpired ⟨0⟩ 1 1)]

theorem run_conserves_claimThenRecover :
    let run := contract.play claimThenRecover ([], contract.init)
    claims run.1 (1, 1) = [(⟨1⟩, 60)] ∧ recoveries run.1 (1, 1) = [40] ∧
      Conserved run.1 run.2 (1, 1) :=
  ⟨by decide, by decide, run_conserves (Contract.play_steps .refl claimThenRecover) (1, 1)⟩

end Talos.Dividends
