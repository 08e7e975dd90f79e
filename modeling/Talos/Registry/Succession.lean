import Talos.Registry.Identity
import Talos.TimelockProposals

/-!
# Admin succession in the registry

Every nomination of an admin goes back to a signature of a protocol wallet: of the
present one for `propose_admin`, and for `execute_action` of the one that
scheduled the proposal. Proposals outlive a handover, and executing one needs no
signature, so the second wallet need not be the present one: a new admin who does
not want a nomination scheduled before has to cancel it.
-/

namespace Talos.Registry

open Talos.Soroban Talos.AdminControls

variable {e : Env Remote} {s s' : Storage} {c : Call} {v : Value} {x wallet : Address} {id : Nat}
  {h later : List Invocation}

/-! ### Nominations -/

theorem proposeAdmin_signed (ok : exec e s (.proposeAdmin x) = .ok (v, s')) :
    ∃ wallet, s.protocolWallet = some wallet ∧ e.auth wallet = true := by
  simp only [exec, silent_eq_ok, proposeAdmin, bind_eq_ok, checkNotPaused_eq_ok,
    requireAdmin_eq_ok] at ok
  obtain ⟨⟨_, ⟨_, rfl⟩, wallet, ⟨isWallet, signed⟩, -⟩, -⟩ := ok
  exact ⟨wallet, isWallet, signed⟩

/-- The call nominates `x`: directly, or by executing a scheduled nomination. -/
def Nominates (s : Storage) (c : Call) (x : Address) : Prop :=
  c = .proposeAdmin x ∨
  ∃ id p, c = .executeAction id ∧ s.timelockProposal id = some p ∧ p.action = .proposeAdmin x

/-- Nobody becomes the pending admin but by a nomination. -/
theorem nominates_of_becomes (ok : exec e s c = .ok (v, s')) (nominated : s'.pendingAdmin = some x)
    (isNew : s.pendingAdmin ≠ some x) : Nominates s c x := by
  cases exec_effect ok with
  | proposeAdmin =>
    obtain rfl := Option.some.inj nominated
    exact .inl rfl
  | @executeNomination id p newAdmin found scheduled due action =>
    obtain rfl := Option.some.inj nominated
    exact .inr ⟨id, p, rfl, found, action⟩
  | acceptAdmin | cancelAdminTransfer => cases nominated
  | _ => exact absurd nominated isNew

/-! ### Where a scheduled nomination comes from -/

/-- The wallet changes only by an accepted handover. -/
theorem wallet_unchanged (ok : exec e s c = .ok (v, s')) (isWallet : s.protocolWallet = some wallet)
    (noHandover : c ≠ .acceptAdmin) : s'.protocolWallet = some wallet := by
  cases exec_effect ok with
  | initializeContract schema unset => cases unset.symm.trans isWallet
  | acceptAdmin => exact absurd rfl noHandover
  | _ => exact isWallet

theorem wallet_of_steps (steps : Steps contract s later s')
    (isWallet : s.protocolWallet = some wallet) (noHandover : ∀ q ∈ later, q.call ≠ .acceptAdmin) :
    s'.protocolWallet = some wallet := by
  induction steps with
  | refl => exact isWallet
  | step _ ok ih =>
    obtain ⟨newest, older⟩ := List.forall_mem_cons.mp noHandover
    exact wallet_unchanged ok (ih older) newest

/-- The proposal `id` was scheduled in the run, by a signature of the wallet then,
and has not been cancelled since; with no handover since, that wallet is still the
present one. -/
structure ScheduledBy (h : List Invocation) (s : Storage) (id : Nat)
    (p : TimelockProposal AdminAction) (later : List Invocation) (r : Invocation) : Prop where
  split : ∃ earlier, h = later ++ r :: earlier
  call : ∃ delay, r.call = .scheduleAction p.action delay
  returned : r.result = .id id
  wallet : r.pre.protocolWallet = some p.scheduledBy
  signed : r.env.auth p.scheduledBy = true
  standing : ∀ q ∈ later, q.call ≠ .cancelAction id
  still : (∀ q ∈ later, q.call ≠ .acceptAdmin) → s.protocolWallet = some p.scheduledBy

theorem issue_eq {r : Invocation} {k : TimelockProposal AdminAction}
    (issued : timelockEvent r = .issue id k) : ∃ delay, r.call = .scheduleAction k.action delay ∧
      r.result = .id id ∧ r.pre.protocolWallet = some k.scheduledBy := by
  unfold timelockEvent at issued
  split at issued
  · next action delay _ admin call result wallet =>
    cases issued
    exact ⟨delay, call, result, wallet⟩
  · cases issued
  · cases issued
  · cases issued

theorem scheduledBy_of_run (run : Run contract h s) {p : TimelockProposal AdminAction}
    (found : s.timelockProposal id = some p) (ok : exec e s (.executeAction id) = .ok (v, s')) :
    ∃ later r, ScheduledBy h s id p later r := by
  have served := served_of_run runsTimelock.keeps runsTimelock.start run
  have ticket : (timelockApi.desk s).tickets id = some p.ticket := congrArg (Option.map _) found
  obtain ⟨r, mem, issued⟩ := served.issued id _ ticket
  obtain ⟨delay, call, result, wallet⟩ := issue_eq issued
  obtain ⟨later, earlier, rfl⟩ := List.append_of_mem mem
  obtain ⟨t, -, accepted, after⟩ := run.split
  have signed : r.env.auth p.scheduledBy = true := by
    obtain ⟨pre, env, c, result⟩ := r
    obtain rfl : c = .scheduleAction p.action delay := call
    obtain ⟨_, scheduled, -⟩ := returning_eq_ok.mp accepted
    obtain ⟨admin, isWallet, signed, -⟩ := scheduleAction_ok scheduled
    obtain rfl : p.scheduledBy = admin := Option.some.inj (wallet.symm.trans isWallet)
    exact signed
  have executed : contract.exec e s (.executeAction id) = .ok (v, s') := ok
  have once := (List.pairwise_cons.mp (runsTimelock.laws (.step run executed)).once).1
  refine ⟨later, r, ⟨earlier, rfl⟩, ⟨delay, call⟩, result, wallet, signed, fun q mem => ?_,
    fun noHandover => ?_⟩
  · exact (once q (List.mem_append_left _ mem) id (.inl rfl)).2
  · have kept : t.protocolWallet = some p.scheduledBy := by
      refine wallet_unchanged accepted wallet ?_
      rw [call]
      exact nofun
    exact wallet_of_steps after kept noHandover

/-- A nomination, whether it makes `x` the pending admin or repeats it, is signed by
the present wallet, or executes a proposal that was signed by the wallet when it
was scheduled, that has not been cancelled, and whose signer is still the present
wallet unless a handover was accepted since. -/
theorem nomination_authorized (run : Run contract h s) (ok : exec e s c = .ok (v, s'))
    (nominated : Nominates s c x ∨ s'.pendingAdmin = some x ∧ s.pendingAdmin ≠ some x) :
    (c = .proposeAdmin x ∧ ∃ wallet, s.protocolWallet = some wallet ∧ e.auth wallet = true) ∨
    ∃ id p, c = .executeAction id ∧ s.timelockProposal id = some p ∧
      p.action = .proposeAdmin x ∧ ∃ later r, ScheduledBy h s id p later r := by
  have nominates : Nominates s c x :=
    nominated.elim id fun ⟨becomes, isNew⟩ => nominates_of_becomes ok becomes isNew
  rcases nominates with rfl | ⟨id, p, rfl, found, action⟩
  · exact .inl ⟨rfl, proposeAdmin_signed ok⟩
  · exact .inr ⟨id, p, rfl, found, action, scheduledBy_of_run run found ok⟩

/-! ### A nomination that outlives a handover -/

/-- Under a delay of 60, wallet 1 schedules the nominations of 2 and of 3. -/
def twoNominations : List (Env Remote × Call) :=
  [.initializeContract ⟨1⟩, .setTimelockConfig 60 1000, .scheduleAction (.proposeAdmin ⟨2⟩) 60,
    .scheduleAction (.proposeAdmin ⟨3⟩) 60].map fun call => (Registry.atTime 0, call)

def nominatedTwice : List Invocation × Storage :=
  contract.play twoNominations ([], contract.init)

/-- The nomination of 2 is executed and accepted. -/
def handedOver : List Invocation × Storage :=
  contract.play (twoNominations ++ [(Registry.atTime 60, .executeAction 1),
    (Registry.atTime 61, .acceptAdmin)]) ([], contract.init)

/-- Anyone, with no signature at all. -/
def unsignedAt (timestamp : Nat) : Env Remote := ⟨timestamp, 1, fun _ => false, ⟨[]⟩⟩

theorem nomination_authorized_scheduled :
    (∃ v s', exec (unsignedAt 60) nominatedTwice.2 (.executeAction 1) = .ok (v, s') ∧
      s'.pendingAdmin = some ⟨2⟩) ∧
    ((Call.executeAction 1 = .proposeAdmin ⟨2⟩ ∧ ∃ wallet,
        nominatedTwice.2.protocolWallet = some wallet ∧ (unsignedAt 60).auth wallet = true) ∨
      ∃ id p, Call.executeAction 1 = .executeAction id ∧
        nominatedTwice.2.timelockProposal id = some p ∧ p.action = .proposeAdmin ⟨2⟩ ∧
        ∃ later r, ScheduledBy nominatedTwice.1 nominatedTwice.2 id p later r) := by
  obtain ⟨v, s', ok, nominated⟩ : ∃ v s',
      exec (unsignedAt 60) nominatedTwice.2 (.executeAction 1) = .ok (v, s') ∧
        s'.pendingAdmin = some ⟨2⟩ := ⟨_, _, rfl, by decide⟩
  exact ⟨⟨v, s', ok, nominated⟩,
    nomination_authorized (Contract.play_steps .refl _) ok (.inr ⟨nominated, by decide⟩)⟩

/-- After the handover to 2, anyone executes the nomination of 3 that wallet 1,
no longer the wallet, had scheduled. -/
theorem nomination_outlives_handover :
    Run contract handedOver.1 handedOver.2 ∧ handedOver.2.protocolWallet = some ⟨2⟩ ∧
    (∃ p, handedOver.2.timelockProposal 2 = some p ∧ p.scheduledBy = ⟨1⟩) ∧
    handedOver.2.pendingAdmin = none ∧
    ∃ v s', exec (unsignedAt 62) handedOver.2 (.executeAction 2) = .ok (v, s') ∧
      s'.pendingAdmin = some ⟨3⟩ ∧ s'.protocolWallet = some ⟨2⟩ :=
  ⟨Contract.play_steps .refl _, by decide, ⟨_, rfl, by decide⟩, by decide,
    _, _, rfl, by decide, by decide⟩

end Talos.Registry
