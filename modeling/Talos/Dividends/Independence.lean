import Talos.Dividends.Effects

/-!
# Independence of the Talos ledgers

Epoch ids are allocated per Talos, but the double-claim guard is keyed by epoch
id and claimant alone, so two Talos share it. A claim from one Talos changes a
claim from another exactly when the two meet on that key and the second would
get as far as the guard. Runs of further calls in between change nothing about
this as long as no claim from another Talos meets the guard keys that claims
from the first epoch may set.
-/

namespace Talos.Dividends

open Talos.Soroban Talos.TtlManager

variable {e : Env Remote} {s s' s₁ s₂ t : Storage} {a first second : ClaimArgs} {c : Call}
  {v : Value} {x : Int} {key : Nat × Nat} {who : Address → Prop}

/-- The claim has the same result in both storages: the same payout, or the
same rejection. -/
def SameResult (e : Env Remote) (s s' : Storage) (a : ClaimArgs) : Prop :=
  (claimDividend e s' a).map Prod.fst = (claimDividend e s a).map Prod.fst

/-- Both claims read and set the same double-claim guard. -/
def ClaimArgs.sharesGuard (first second : ClaimArgs) : Prop :=
  second.epochId = first.epochId ∧ second.claimant = first.claimant

theorem claimDividend_map_fst (e : Env Remote) (s : Storage) (a : ClaimArgs) :
    (claimDividend e s a).map Prod.fst =
      (claimTerms e (s.epoch a.key) (s.claimed a.guardKey) (s.roundingDust a.key) a).map
        Prod.fst := by
  rw [claimDividend_eq]
  cases claimTerms e (s.epoch a.key) (s.claimed a.guardKey) (s.roundingDust a.key) a <;> rfl

theorem sameResult_of_reads (epoch : s'.epoch a.key = s.epoch a.key)
    (claimed : s'.claimed a.guardKey = s.claimed a.guardKey)
    (dust : s'.roundingDust a.key = s.roundingDust a.key) : SameResult e s s' a := by
  rw [SameResult, claimDividend_map_fst, claimDividend_map_fst, epoch, claimed, dust]

/-! ### Two consecutive claims -/

theorem key_ne_of_talosId_ne (ne : second.talosId ≠ first.talosId) : second.key ≠ first.key :=
  fun same => ne (congrArg Prod.fst same)

/-- An inadmissible claim is rejected before the guard is read. -/
theorem claimTerms_of_inadmissible {record? : Option EpochRecord}
    (inadmissible : a.admissible e record? = false) (claimed? claimed?' : Option Bool)
    (dust? : Option Int) :
    claimTerms e record? claimed? dust? a = claimTerms e record? claimed?' dust? a := by
  unfold claimTerms
  cases check : claimCheck e record? a with
  | error t => rfl
  | ok p =>
    have admissible := admissible_iff.mpr ⟨p.1, p.2, check⟩
    rw [inadmissible] at admissible
    cases admissible

theorem claimAmounts_ne_alreadyClaimed (record : EpochRecord) (pct : Nat) (dust? : Option Int)
    (a : ClaimArgs) : claimAmounts record pct dust? a ≠ .error (.error .alreadyClaimed) := by
  simp [claimAmounts, computeAllocation, computeRoundingDust, bind_eq_error, rejectIf_eq_error,
    orReject_eq_error]

/-- An admissible claim is decided by the guard: it is rejected as a double
claim if and only if the guard is set. -/
theorem claimTerms_alreadyClaimed_iff {record? : Option EpochRecord}
    (admissible : a.admissible e record? = true) (claimed? : Option Bool) (dust? : Option Int) :
    claimTerms e record? claimed? dust? a = .error (.error .alreadyClaimed) ↔
      claimed?.isSome = true := by
  obtain ⟨record, pct, check⟩ := admissible_iff.mp admissible
  simp only [claimTerms, check, bind_ok]
  constructor
  · intro rejected
    by_contra unset
    simp only [rejectIf_neg unset, bind_ok] at rejected
    exact claimAmounts_ne_alreadyClaimed _ _ _ _ rejected
  · intro set
    rw [rejectIf_pos set]
    rfl

/-- A claim from one Talos leaves the result of a claim from another as it was,
if and only if they do not share a guard or the second is rejected before the
guard is read. -/
theorem sameResult_iff (ok : claimDividend e s first = .ok (x, s₁))
    (ne : second.talosId ≠ first.talosId) (e' : Env Remote) :
    SameResult e' s s₁ second ↔
      ¬ first.sharesGuard second ∨ second.admissible e' (s.epoch second.key) = false := by
  obtain ⟨record, _, _, _, dust, _, _, _, _, _, _, unclaimed, _, _, _, rfl⟩ := claimDividend_ok ok
  have keys := key_ne_of_talosId_ne ne
  have epoch : (s.epoch.set first.key { record with claimedAmount := record.claimedAmount + x })
      second.key = s.epoch second.key := Map.set_of_ne _ _ keys
  have sameDust : (s.roundingDust.set first.key dust) second.key = s.roundingDust second.key :=
    Map.set_of_ne _ _ keys
  by_cases shared : first.sharesGuard second
  · have guard : second.guardKey = first.guardKey := Prod.ext shared.1 shared.2
    rw [SameResult, claimDividend_map_fst, claimDividend_map_fst, guard]
    simp only [Storage.recordClaim, epoch, sameDust, Map.set_self, unclaimed, shared,
      not_true_eq_false, false_or]
    constructor
    · intro same
      by_contra admissible
      rw [Bool.not_eq_false] at admissible
      have before := claimTerms_alreadyClaimed_iff admissible none (s.roundingDust second.key)
      have after := (claimTerms_alreadyClaimed_iff admissible (some true)
        (s.roundingDust second.key)).mpr rfl
      rw [after] at same
      -- The guard set by the first claim shows in the second claim's rejection.
      cases free : claimTerms e' (s.epoch second.key) none (s.roundingDust second.key) second with
      | ok terms =>
        rw [free] at same
        cases same
      | error trap =>
        rw [free] at same before
        obtain rfl : trap = .error .alreadyClaimed := (Except.error.inj same).symm
        exact absurd (before.mp rfl) (by simp)
    · intro inadmissible
      rw [claimTerms_of_inadmissible inadmissible]
  · have guard : second.guardKey ≠ first.guardKey := by
      intro same
      exact shared ⟨congrArg Prod.fst same, congrArg Prod.snd same⟩
    have same : SameResult e' s (s.recordClaim e first dust
        { record with claimedAmount := record.claimedAmount + x }) second :=
      sameResult_of_reads epoch (Map.set_of_ne _ _ guard) sameDust
    exact ⟨fun _ => .inl shared, fun _ => same⟩

/-! ### Calls in between -/

/-- Two storages that differ at most in the amounts and dust of one epoch and in
the guards of that epoch id for the addresses `who` (and in TTL markers). -/
structure AgreeOutside (key : Nat × Nat) (who : Address → Prop) (s s' : Storage) : Prop where
  admin : s'.admin = s.admin
  registryContract : s'.registryContract = s.registryContract
  pendingAdmin : s'.pendingAdmin = s.pendingAdmin
  nextEpochId : s'.nextEpochId = s.nextEpochId
  epoch : ∀ k, k ≠ key → s'.epoch k = s.epoch k
  committed : (s'.epoch key).isSome = (s.epoch key).isSome
  dust : ∀ k, k ≠ key → s'.roundingDust k = s.roundingDust k
  claimed : ∀ epochId claimant, ¬ (epochId = key.2 ∧ who claimant) →
    s'.claimed (epochId, claimant) = s.claimed (epochId, claimant)

theorem AgreeOutside.refl (s : Storage) : AgreeOutside key who s s :=
  ⟨rfl, rfl, rfl, rfl, fun _ _ => rfl, rfl, fun _ _ => rfl, fun _ _ _ => rfl⟩

theorem AgreeOutside.symm (h : AgreeOutside key who s s') : AgreeOutside key who s' s where
  admin := h.admin.symm
  registryContract := h.registryContract.symm
  pendingAdmin := h.pendingAdmin.symm
  nextEpochId := h.nextEpochId.symm
  epoch k ne := (h.epoch k ne).symm
  committed := h.committed.symm
  dust k ne := (h.dust k ne).symm
  claimed i a free := (h.claimed i a free).symm

theorem AgreeOutside.trans (h : AgreeOutside key who s s') (h' : AgreeOutside key who s' t) :
    AgreeOutside key who s t where
  admin := h'.admin.trans h.admin
  registryContract := h'.registryContract.trans h.registryContract
  pendingAdmin := h'.pendingAdmin.trans h.pendingAdmin
  nextEpochId := h'.nextEpochId.trans h.nextEpochId
  epoch k ne := (h'.epoch k ne).trans (h.epoch k ne)
  committed := h'.committed.trans h.committed
  dust k ne := (h'.dust k ne).trans (h.dust k ne)
  claimed i a free := (h'.claimed i a free).trans (h.claimed i a free)

theorem AgreeOutside.isSome (h : AgreeOutside key who s s') (k : Nat × Nat) :
    (s'.epoch k).isSome = (s.epoch k).isSome := by
  by_cases same : k = key
  · rw [same, h.committed]
  · rw [h.epoch k same]

/-- The call is no claim from another Talos that reads a guard which claims from
the epoch `key` by the addresses `who` may set. -/
def Call.separated (key : Nat × Nat) (who : Address → Prop) : Call → Prop
  | .claimDividend a => if a.key = key then who a.claimant
      else ¬ (a.epochId = key.2 ∧ who a.claimant)
  | _ => True

/-- The call works on the epoch `key` alone, or on TTL markers. -/
def Call.insideOf (key : Nat × Nat) : Call → Prop
  | .claimDividend a => a.key = key
  | .recoverExpired _ talosId epochId => (talosId, epochId) = key
  | .touchEpoch .. | .extendTtlBatch .. => True
  | _ => False

/-- The same record written on both sides, wherever it is. -/
theorem AgreeOutside.setEpoch (h : AgreeOutside key who s s') (k : Nat × Nat)
    (record : EpochRecord) :
    AgreeOutside key who { s with epoch := s.epoch.set k record }
      { s' with epoch := s'.epoch.set k record } := by
  refine { h with epoch := ?_, committed := ?_ }
  · intro k' ne
    simp only [Map.set_apply, h.epoch k' ne]
  · simp only [Map.set_apply]
    split
    · rfl
    · exact h.committed

theorem requireAdmin_congr (admin : s'.admin = s.admin) (caller : Address) :
    requireAdmin e s' caller = requireAdmin e s caller := by
  simp only [requireAdmin, requireAdminAddr, admin]

theorem renew_agree (talosId currentLedger : Nat) (s : Storage) (id : Nat) :
    AgreeOutside key who s ((trackedEpochs talosId).renew currentLedger s id) := by
  have same := renew_sameLedger talosId currentLedger s id
  have rest : ∀ f : Storage → Option Address,
      (f = Storage.admin ∨ f = Storage.registryContract ∨ f = Storage.pendingAdmin) →
      f ((trackedEpochs talosId).renew currentLedger s id) = f s := by
    intro f field
    simp only [trackedEpochs]
    split
    · rcases field with rfl | rfl | rfl
      · rfl
      · rfl
      · rfl
    · rfl
  constructor
  · exact rest _ (.inl rfl)
  · exact rest _ (.inr (.inl rfl))
  · exact rest _ (.inr (.inr rfl))
  · exact same.nextEpochId
  · exact fun k _ => congrFun same.epoch k
  · exact congrArg Option.isSome (congrFun same.epoch key)
  · exact fun k _ => congrFun same.roundingDust k
  · exact fun i a _ => congrFun same.claimed (i, a)

/-- A call that works on the epoch alone is not seen outside it. -/
theorem inside_agree (inside : c.insideOf key) (separated : c.separated key who)
    (ok : exec e s c = .ok (v, t)) : AgreeOutside key who s t := by
  cases c with
  | claimDividend a =>
    obtain ⟨x, accepted, rfl⟩ := returning_eq_ok.mp ok
    obtain ⟨record, _, _, _, _, found, _, _, _, _, _, _, _, _, _, rfl⟩ := claimDividend_ok accepted
    obtain rfl : a.key = key := inside
    have mine : who a.claimant := by simpa [Call.separated] using separated
    refine ⟨rfl, rfl, rfl, rfl, fun k ne => Map.set_of_ne _ _ ne, ?_,
      fun k ne => Map.set_of_ne _ _ ne, ?_⟩
    · simp [Storage.recordClaim, found]
    · intro i b free
      apply Map.set_of_ne
      intro same
      apply free
      obtain ⟨rfl, rfl⟩ := Prod.mk.inj same
      exact ⟨rfl, mine⟩
  | recoverExpired admin talosId epochId =>
    obtain ⟨x, accepted, rfl⟩ := returning_eq_ok.mp ok
    obtain ⟨record, _, found, _, _, _, _, rfl⟩ := recoverExpired_ok accepted
    obtain rfl : (talosId, epochId) = key := inside
    refine ⟨rfl, rfl, rfl, rfl, fun k ne => Map.set_of_ne _ _ ne, ?_, fun _ _ => rfl,
      fun _ _ _ => rfl⟩
    simp [found]
  | touchEpoch talosId epochId =>
    simp only [exec, returning_eq_ok, touchEpoch, bind_eq_ok] at ok
    obtain ⟨b, ⟨_, _, accepted⟩, rfl⟩ := ok
    split at accepted
    · obtain ⟨_, rfl⟩ := by simpa using accepted
      exact renew_agree ..
    · obtain ⟨_, rfl⟩ := by simpa using accepted
      exact .refl s
  | extendTtlBatch admin talosId start limit minAge maxAge =>
    simp only [exec, returning_eq_ok, extendTtlBatch, bind_eq_ok, Except.ok.injEq,
      Prod.mk.injEq] at ok
    obtain ⟨_, ⟨_, _, _, _, _, rfl⟩, _⟩ := ok
    exact sweep_relates AgreeOutside.refl AgreeOutside.trans (fun s id _ => renew_agree ..) _ s
  | _ => exact inside.elim

/-- A call that works elsewhere is accepted in both storages or in neither, and
the storages go on agreeing. -/
theorem outside_step (agree : AgreeOutside key who s s') (outside : ¬ c.insideOf key)
    (separated : c.separated key who) (ok : exec e s c = .ok (v, t)) :
    ∃ v' t', exec e s' c = .ok (v', t') ∧ AgreeOutside key who t t' := by
  cases c with
  | initializeContract admin registryContract =>
    simp only [exec, silent_eq_ok, initializeContract, bind_eq_ok, Except.ok.injEq] at ok
    obtain ⟨⟨u, unset, rfl⟩, rfl⟩ := ok
    refine ⟨.unit, { s' with admin := some admin, registryContract := some registryContract }, ?_,
      { agree with admin := rfl, registryContract := rfl }⟩
    simp only [exec, silent_eq_ok, initializeContract, bind_eq_ok, agree.admin]
    exact ⟨⟨u, unset, trivial⟩, trivial⟩
  | commitEpoch admin talosId totalAmount expirySecs =>
    simp only [exec, returning_eq_ok, commitEpoch, bind_eq_ok, Except.ok.injEq, Prod.mk.injEq] at ok
    obtain ⟨id, ⟨u₁, signed, u₂, amount, u₃, expiry, u₄, fresh, next, bound, rfl, rfl⟩, rfl⟩ := ok
    have same := congrFun agree.nextEpochId talosId
    refine ⟨.epochId ((s.nextEpochId talosId).getD 1), { s' with
        epoch := s'.epoch.set (talosId, (s.nextEpochId talosId).getD 1) _
        nextEpochId := s'.nextEpochId.set talosId next
        lastTouched := s'.lastTouched.set (talosId, (s.nextEpochId talosId).getD 1) e.sequence },
      ?_, { agree.setEpoch (talosId, (s.nextEpochId talosId).getD 1) _ with
        nextEpochId := by rw [agree.nextEpochId] }⟩
    simp only [exec, returning_eq_ok, commitEpoch, bind_eq_ok, Except.ok.injEq, Prod.mk.injEq,
      requireAdmin_congr agree.admin, same, agree.isSome]
    exact ⟨_, ⟨u₁, signed, u₂, amount, u₃, expiry, u₄, fresh, next, bound, rfl, rfl⟩, rfl⟩
  | claimDividend a =>
    obtain ⟨x, accepted, rfl⟩ := returning_eq_ok.mp ok
    have ne : a.key ≠ key := outside
    have free : ¬ (a.epochId = key.2 ∧ who a.claimant) := by
      simpa [Call.separated, ne] using separated
    rw [claimDividend_eq, bind_eq_ok] at accepted
    obtain ⟨⟨x', dust, record⟩, terms, accepted⟩ := accepted
    obtain ⟨rfl, rfl⟩ := by simpa using accepted
    have accepted' := claimDividend_eq e s' a
    have guard : s'.claimed a.guardKey = s.claimed a.guardKey := agree.claimed _ _ free
    rw [agree.epoch _ ne, guard, agree.dust _ ne, terms, bind_ok] at accepted'
    have epochs := agree.setEpoch a.key record
    refine ⟨_, _, returning_eq_ok.mpr ⟨x', accepted', rfl⟩,
      { epochs with dust := ?_, claimed := ?_ }⟩
    · intro k other
      simp only [Storage.recordClaim, Map.set_apply, agree.dust k other]
    · intro i b unseen
      simp only [Storage.recordClaim, Map.set_apply, agree.claimed i b unseen]
  | recoverExpired admin talosId epochId =>
    have ne : (talosId, epochId) ≠ key := outside
    simp only [exec, returning_eq_ok, recoverExpired, bind_eq_ok, Except.ok.injEq,
      Prod.mk.injEq] at ok
    obtain ⟨x, ⟨u₁, signed, record, found, u₂, status, deadline, due, u₃, late, unclaimed, range,
      rfl, rfl⟩, rfl⟩ := ok
    refine ⟨.amount unclaimed, _, ?_,
      agree.setEpoch (talosId, epochId) { record with status := .recovered }⟩
    simp only [exec, returning_eq_ok, recoverExpired, bind_eq_ok, Except.ok.injEq, Prod.mk.injEq,
      requireAdmin_congr agree.admin, agree.epoch _ ne]
    exact ⟨_, ⟨u₁, signed, record, found, u₂, status, deadline, due, u₃, late, unclaimed, range,
      rfl, rfl⟩, rfl⟩
  | setRegistryContract admin newRegistry =>
    simp only [exec, silent_eq_ok, setRegistryContract, bind_eq_ok, Except.ok.injEq] at ok
    obtain ⟨⟨u, signed, u', compatible, old, registered, rfl⟩, rfl⟩ := ok
    refine ⟨.unit, { s' with registryContract := some newRegistry }, ?_,
      { agree with registryContract := rfl }⟩
    simp only [exec, silent_eq_ok, setRegistryContract, bind_eq_ok, requireAdmin_congr agree.admin,
      agree.registryContract]
    exact ⟨⟨u, signed, u', compatible, old, registered, trivial⟩, trivial⟩
  | proposeAdmin newAdmin =>
    simp only [exec, silent_eq_ok, proposeAdmin, requireAdminAddr, bind_eq_ok,
      Except.ok.injEq] at ok
    obtain ⟨⟨current, isAdmin, u, signed, rfl⟩, rfl⟩ := ok
    refine ⟨.unit, { s' with pendingAdmin := some newAdmin }, ?_,
      { agree with pendingAdmin := rfl }⟩
    simp only [exec, silent_eq_ok, proposeAdmin, requireAdminAddr, bind_eq_ok, agree.admin]
    exact ⟨⟨current, isAdmin, u, signed, trivial⟩, trivial⟩
  | acceptAdmin =>
    simp only [exec, silent_eq_ok, acceptAdmin, bind_eq_ok, Except.ok.injEq] at ok
    obtain ⟨⟨pending, isPending, u, signed, rfl⟩, rfl⟩ := ok
    refine ⟨.unit, { s' with admin := some pending, pendingAdmin := none }, ?_,
      { agree with admin := rfl, pendingAdmin := rfl }⟩
    simp only [exec, silent_eq_ok, acceptAdmin, bind_eq_ok, agree.pendingAdmin]
    exact ⟨⟨pending, isPending, u, signed, rfl⟩, trivial⟩
  | cancelAdminTransfer =>
    simp only [exec, silent_eq_ok, cancelAdminTransfer, requireAdminAddr, bind_eq_ok,
      Except.ok.injEq] at ok
    obtain ⟨⟨current, isAdmin, u, signed, pending, isPending, rfl⟩, rfl⟩ := ok
    refine ⟨.unit, { s' with pendingAdmin := none }, ?_, { agree with pendingAdmin := rfl }⟩
    simp only [exec, silent_eq_ok, cancelAdminTransfer, requireAdminAddr, bind_eq_ok, agree.admin,
      agree.pendingAdmin]
    exact ⟨⟨current, isAdmin, u, signed, pending, isPending, trivial⟩, trivial⟩
  | touchEpoch talosId epochId => exact absurd trivial outside
  | extendTtlBatch admin talosId start limit minAge maxAge => exact absurd trivial outside

theorem submit_agree (agree : AgreeOutside key who s s') (separated : c.separated key who) :
    AgreeOutside key who (contract.submit e c s) (contract.submit e c s') := by
  have effect : c.insideOf key → ∀ s, AgreeOutside key who s (contract.submit e c s) := by
    intro inside s
    cases run : contract.exec e s c with
    | error t =>
      rw [Contract.submit_of_error run]
      exact .refl s
    | ok p =>
      rw [Contract.submit_of_ok run]
      exact inside_agree inside separated run
  by_cases inside : c.insideOf key
  · exact (effect inside s).symm.trans (agree.trans (effect inside s'))
  cases run : contract.exec e s c with
  | ok p =>
    obtain ⟨v', t', run', agree'⟩ := outside_step agree inside separated run
    rw [Contract.submit_of_ok run, Contract.submit_of_ok run']
    exact agree'
  | error trap =>
    rw [Contract.submit_of_error run]
    cases run' : contract.exec e s' c with
    | ok p =>
      obtain ⟨v', t', run'', _⟩ := outside_step agree.symm inside separated run'
      have both : contract.exec e s c = .ok (v', t') := run''
      rw [run] at both
      cases both
    | error trap' =>
      rw [Contract.submit_of_error run']
      exact agree

theorem submitAll_agree (txs : List (Env Remote × Call))
    (separated : ∀ tx ∈ txs, tx.2.separated key who) (agree : AgreeOutside key who s s') :
    AgreeOutside key who (contract.submitAll txs s) (contract.submitAll txs s') := by
  induction txs generalizing s s' with
  | nil => exact agree
  | cons tx rest ih =>
    have later := fun tx mem => separated tx (List.mem_cons_of_mem _ mem)
    exact ih later (submit_agree agree (separated tx (List.mem_cons_self ..)))

/-- An address that claims from the epoch of `first`, in that claim or in one of
the calls. -/
def ClaimsFrom (first : ClaimArgs) (calls : List Call) (claimant : Address) : Prop :=
  claimant = first.claimant ∨
    ∃ a : ClaimArgs, .claimDividend a ∈ calls ∧ a.key = first.key ∧ a.claimant = claimant

/-- A claim from another Talos that uses the same epoch id for an address that
also claims from the epoch of `first`. -/
def Clashes (first : ClaimArgs) (calls : List Call) (a : ClaimArgs) : Prop :=
  a.talosId ≠ first.talosId ∧ a.epochId = first.epochId ∧ ClaimsFrom first calls a.claimant

/-- With any calls in between, none of them a clashing claim, a claim that does
not clash either has the result it would have had without the first claim. -/
theorem sameResult_of_not_clashes (ok : claimDividend e s first = .ok (x, s₁))
    (ne : second.talosId ≠ first.talosId) (txs : List (Env Remote × Call))
    (between : ∀ a, .claimDividend a ∈ txs.map Prod.snd → ¬ Clashes first (txs.map Prod.snd) a)
    (last : ¬ Clashes first (txs.map Prod.snd) second) (e' : Env Remote) :
    SameResult e' (contract.submitAll txs s) (contract.submitAll txs s₁) second := by
  have mine : (Call.claimDividend first).separated first.key
      (ClaimsFrom first (txs.map Prod.snd)) := by
    rw [Call.separated, if_pos rfl]
    exact .inl rfl
  have inside : (Call.claimDividend first).insideOf first.key := rfl
  have accepted : exec e s (.claimDividend first) = .ok (.amount x, s₁) :=
    returning_eq_ok.mpr ⟨x, ok, rfl⟩
  have start : AgreeOutside first.key (ClaimsFrom first (txs.map Prod.snd)) s s₁ :=
    inside_agree inside mine accepted
  have separated : ∀ tx ∈ txs, tx.2.separated first.key (ClaimsFrom first (txs.map Prod.snd)) := by
    intro tx mem
    have call := List.mem_map_of_mem (f := Prod.snd) mem
    cases claim : tx.2 with
    | claimDividend a =>
      rw [claim] at call
      by_cases same : a.key = first.key
      · rw [Call.separated, if_pos same]
        exact .inr ⟨a, call, same, rfl⟩
      · rw [Call.separated, if_neg same]
        rintro ⟨sameEpoch, who⟩
        have otherTalos : a.talosId ≠ first.talosId := fun talos => same (Prod.ext talos sameEpoch)
        exact between a call ⟨otherTalos, sameEpoch, who⟩
    | _ => exact trivial
  have agree := submitAll_agree txs separated start
  have keys := key_ne_of_talosId_ne ne
  exact sameResult_of_reads (agree.epoch _ keys)
    (agree.claimed _ _ fun shared => last ⟨ne, shared.1, shared.2⟩) (agree.dust _ keys)

/-! ### Independence -/

/-- Claims from two Talos are independent exactly as far as they do not meet on
the double-claim guard. The first part is exact for the next call; the second
lets any calls come in between. -/
theorem claims_independent_iff (ok : claimDividend e s first = .ok (x, s₁))
    (ne : second.talosId ≠ first.talosId) (e' : Env Remote) :
    (SameResult e' s s₁ second ↔
      ¬ first.sharesGuard second ∨ second.admissible e' (s.epoch second.key) = false) ∧
    ∀ txs : List (Env Remote × Call),
      (∀ a, .claimDividend a ∈ txs.map Prod.snd → ¬ Clashes first (txs.map Prod.snd) a) →
      ¬ Clashes first (txs.map Prod.snd) second →
      SameResult e' (contract.submitAll txs s) (contract.submitAll txs s₁) second :=
  ⟨sameResult_iff ok ne e',
    fun txs between last => sameResult_of_not_clashes ok ne txs between last e'⟩

/-- Two Talos, one epoch of 100 units each: both have id 1. -/
def twoTalos : List (Env Remote × Call) :=
  let env : Env Remote := ⟨0, 0, fun _ => true, ⟨fun _ => none, fun _ => none⟩⟩
  [(env, .initializeContract ⟨0⟩ ⟨0⟩), (env, .commitEpoch ⟨0⟩ 1 100 3600),
    (env, .commitEpoch ⟨0⟩ 2 100 3600)]

/-- Address 1 claims 60 percent as the creator of a Talos. -/
def creatorClaim (talosId : Nat) : ClaimArgs := ⟨⟨1⟩, talosId, 1, ⟨1⟩, ⟨2⟩, ⟨3⟩, 60, 30, 10⟩

/-- Address 2 claims 30 percent as the investor of a Talos. -/
def investorClaim (talosId : Nat) : ClaimArgs := ⟨⟨2⟩, talosId, 1, ⟨1⟩, ⟨2⟩, ⟨3⟩, 60, 30, 10⟩

/-- The creator of both Talos collects from the first and then not from the
second, although the second alone would have paid. -/
theorem creator_of_two_loses_second :
    let env : Env Remote := ⟨0, 0, fun _ => true, ⟨fun _ => none, fun _ => none⟩⟩
    let s := contract.submitAll twoTalos contract.init
    let s₁ := contract.submit env (.claimDividend (creatorClaim 1)) s
    Reachable contract s ∧ (claimDividend env s (creatorClaim 1)).map Prod.fst = .ok 60 ∧
      (claimDividend env s (creatorClaim 2)).map Prod.fst = .ok 60 ∧
      (claimDividend env s₁ (creatorClaim 2)).map Prod.fst = .error (.error .alreadyClaimed) ∧
      ¬ SameResult env s s₁ (creatorClaim 2) := by
  intro env s s₁
  refine ⟨Reachable.init.submitAll twoTalos, by decide, by decide, by decide, ?_⟩
  unfold SameResult
  decide

/-- Claims by different addresses do not interfere. -/
theorem claims_independent_twoTalos :
    let env : Env Remote := ⟨0, 0, fun _ => true, ⟨fun _ => none, fun _ => none⟩⟩
    let s := contract.submitAll twoTalos contract.init
    ∃ s₁, claimDividend env s (creatorClaim 1) = .ok (60, s₁) ∧
      SameResult env s s₁ (investorClaim 2) := by
  intro env s
  have ok : claimDividend env s (creatorClaim 1) = .ok (60, _) := rfl
  refine ⟨_, ok, ?_⟩
  refine (claims_independent_iff ok (by decide) env).1.mpr (.inl ?_)
  unfold ClaimArgs.sharesGuard
  decide

end Talos.Dividends
