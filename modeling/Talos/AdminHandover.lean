import Talos.Dividends.Effects
import Talos.Governance.Lifecycle
import Talos.Soroban.Handover

/-!
# The admin handover of dividends and governance

In both contracts the admin is an office that is handed over in two steps:
`propose_admin` nominates, `accept_admin` confirms and `cancel_admin_transfer`
withdraws. Only the first `initialize` sets an admin without a nomination.
-/

namespace Talos.Dividends

open Talos.Soroban Talos.TtlManager

variable {e : Env Remote} {s s' : Storage}

/-- What a call does to the admin. -/
def Call.adminMove : Call → Move Address
  | .initializeContract admin _ => .install admin
  | .proposeAdmin newAdmin => .nominate newAdmin
  | .acceptAdmin => .confirm
  | .cancelAdminTransfer => .withdraw
  | _ => .idle

def adminOffice (s : Storage) : Office Address := ⟨s.admin, s.pendingAdmin⟩

theorem renew_adminOffice (talosId currentLedger : Nat) (s : Storage) (id : Nat) :
    adminOffice ((trackedEpochs talosId).renew currentLedger s id) = adminOffice s := by
  simp only [trackedEpochs]
  split
  · rfl
  · rfl

theorem touchEpoch_adminOffice {talosId epochId : Nat} {b : Bool}
    (ok : touchEpoch e s talosId epochId = .ok (b, s')) : adminOffice s' = adminOffice s := by
  simp only [touchEpoch, bind_eq_ok, orReject_eq_ok] at ok
  obtain ⟨_, _, ok⟩ := ok
  split at ok
  · obtain ⟨_, rfl⟩ := by simpa using ok
    exact renew_adminOffice ..
  · obtain ⟨_, rfl⟩ := by simpa using ok
    rfl

theorem extendTtlBatch_adminOffice {admin : Address} {talosId start limit minAge maxAge : Nat}
    {n : Nat × Nat} (ok : extendTtlBatch e s admin talosId start limit minAge maxAge = .ok (n, s')) :
    adminOffice s' = adminOffice s := by
  simp only [extendTtlBatch, bind_eq_ok, Except.ok.injEq, Prod.mk.injEq] at ok
  obtain ⟨_, _, _, _, _, rfl⟩ := ok
  exact sweep_relates (r := fun s s' => adminOffice s' = adminOffice s) (fun _ => rfl)
    (fun first second => second.trans first) (fun s id _ => renew_adminOffice _ _ s id) _ s

theorem takesTurns : TakesTurns contract adminOffice Call.adminMove := by
  intro e s c v s' ok
  cases c with
  | initializeContract admin registryContract =>
    simp only [contract, exec, silent_eq_ok, initializeContract, bind_eq_ok, rejectIf_eq_ok,
      Option.not_isSome_iff_eq_none, Except.ok.injEq] at ok
    obtain ⟨⟨_, vacant, rfl⟩, -⟩ := ok
    exact .install admin vacant
  | proposeAdmin newAdmin =>
    simp only [contract, exec, silent_eq_ok, proposeAdmin, requireAdminAddr, bind_eq_ok,
      orReject_eq_ok, requireAuth_eq_ok, Except.ok.injEq] at ok
    obtain ⟨⟨current, isAdmin, _, signed, rfl⟩, -⟩ := ok
    exact .nominate current newAdmin isAdmin signed
  | acceptAdmin =>
    simp only [contract, exec, silent_eq_ok, acceptAdmin, bind_eq_ok, orReject_eq_ok,
      requireAuth_eq_ok, Except.ok.injEq] at ok
    obtain ⟨⟨pending, nominated, _, signed, rfl⟩, -⟩ := ok
    exact .confirm pending nominated signed
  | cancelAdminTransfer =>
    simp only [contract, exec, silent_eq_ok, cancelAdminTransfer, requireAdminAddr, bind_eq_ok,
      orReject_eq_ok, requireAuth_eq_ok, Except.ok.injEq] at ok
    obtain ⟨⟨current, isAdmin, _, signed, _, _, rfl⟩, -⟩ := ok
    exact .withdraw current isAdmin signed
  | commitEpoch admin talosId totalAmount expirySecs =>
    obtain ⟨id, accepted, -⟩ := returning_eq_ok.mp ok
    obtain ⟨-, -, -, -, rfl⟩ := commitEpoch_ok accepted
    exact .idle
  | claimDividend args =>
    obtain ⟨x, accepted, -⟩ := returning_eq_ok.mp ok
    obtain ⟨_, _, _, _, _, -, -, -, -, -, -, -, -, -, -, rfl⟩ := claimDividend_ok accepted
    exact .idle
  | recoverExpired admin talosId epochId =>
    obtain ⟨x, accepted, -⟩ := returning_eq_ok.mp ok
    obtain ⟨_, _, -, -, -, -, -, rfl⟩ := recoverExpired_ok accepted
    exact .idle
  | setRegistryContract admin newRegistry =>
    simp only [contract, exec, silent_eq_ok, setRegistryContract, bind_eq_ok, Except.ok.injEq] at ok
    obtain ⟨⟨_, _, _, _, _, _, rfl⟩, -⟩ := ok
    exact .idle
  | touchEpoch talosId epochId =>
    obtain ⟨b, accepted, -⟩ := returning_eq_ok.mp ok
    rw [touchEpoch_adminOffice accepted]
    exact .idle
  | extendTtlBatch admin talosId start limit minAge maxAge =>
    simp only [contract, exec, returning_eq_ok] at ok
    obtain ⟨n, accepted, -⟩ := ok
    rw [extendTtlBatch_adminOffice accepted]
    exact .idle

end Talos.Dividends

namespace Talos.Governance

open Talos.Soroban

/-- What a call does to the admin. -/
def Call.adminMove : Call → Move Address
  | .initializeContract admin _ _ _ _ => .install admin
  | .proposeAdmin newAdmin => .nominate newAdmin
  | .acceptAdmin => .confirm
  | .cancelAdminTransfer => .withdraw
  | _ => .idle

def adminOffice (s : Storage) : Office Address := ⟨s.admin, s.pendingAdmin⟩

theorem takesTurns : TakesTurns contract adminOffice Call.adminMove := by
  intro e s c v s' ok
  cases exec_effect ok with
  | initializeContract config vacant => exact .install _ vacant
  | proposeAdmin current isAdmin signed => exact .nominate current _ isAdmin signed
  | acceptAdmin pending nominated signed => exact .confirm pending nominated signed
  | cancelAdminTransfer current isAdmin signed => exact .withdraw current isAdmin signed
  | @create c proposer call =>
    cases c with
    | createProposal | createProposalWithAction => exact .idle
    | _ => cases call
  | setRegistryContract call =>
    rcases call with rfl | rfl
    · exact .idle
    · exact .idle
  | _ => exact .idle

end Talos.Governance

namespace Talos

open Talos.Soroban

/-- After every run of either contract, the admin changes only when a nominee of
the present admin accepts, a pending nomination was made by the present admin and
nothing has replaced or cancelled it, and no second initialization is accepted. -/
theorem admin_handover :
    (∀ h s, Run Dividends.contract h s →
      TwoStep Dividends.contract Dividends.adminOffice Dividends.Call.adminMove h s) ∧
    (∀ h s, Run Governance.contract h s →
      TwoStep Governance.contract Governance.adminOffice Governance.Call.adminMove h s) :=
  ⟨fun _ _ run => twoStep_of_run Dividends.takesTurns rfl run,
    fun _ _ run => twoStep_of_run Governance.takesTurns rfl run⟩

/-! ### A nomination that replaces another -/

/-- In the dividend contract, admin 1 nominates 2 and then 3. -/
def Dividends.renominated :
    List (Entry Dividends.Remote Dividends.Storage Dividends.Call Dividends.Value) ×
      Dividends.Storage :=
  Dividends.contract.play
    ([.initializeContract ⟨1⟩ ⟨7⟩, .proposeAdmin ⟨2⟩, .proposeAdmin ⟨3⟩].map
      fun call => (⟨0, 0, fun _ => true, ⟨fun _ => none, fun _ => none⟩⟩, call))
    ([], Dividends.contract.init)

/-- In the governance contract, admin 1 nominates 2 and then 3. -/
def Governance.renominated :
    List (Entry Governance.Remote Governance.Storage Governance.Call Governance.Value) ×
      Governance.Storage :=
  Governance.contract.play
    ([.initializeContract ⟨1⟩ ⟨7⟩ 100 5000 20, .proposeAdmin ⟨2⟩, .proposeAdmin ⟨3⟩].map
      fun call => (Governance.signedAt 1, call))
    ([], Governance.contract.init)

theorem admin_handover_renominated :
    (Dividends.renominated.2.pendingAdmin = some ⟨3⟩ ∧
      ∃ a, (Dividends.adminOffice Dividends.renominated.2).holder = some a ∧
        Nominated Dividends.adminOffice Dividends.Call.adminMove Dividends.renominated.1 a ⟨3⟩) ∧
    (Governance.renominated.2.pendingAdmin = some ⟨3⟩ ∧
      ∃ a, (Governance.adminOffice Governance.renominated.2).holder = some a ∧
        Nominated Governance.adminOffice Governance.Call.adminMove Governance.renominated.1 a ⟨3⟩) :=
  ⟨⟨by decide, (admin_handover.1 _ _ (Contract.play_steps .refl _)).nomination ⟨3⟩ (by decide)⟩,
    ⟨by decide, (admin_handover.2 _ _ (Contract.play_steps .refl _)).nomination ⟨3⟩ (by decide)⟩⟩

end Talos
