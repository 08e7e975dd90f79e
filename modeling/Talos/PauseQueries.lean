import Talos.Governance.Effects
import Talos.NameService.Effects

/-!
# Asking whether a domain is paused

`is_domain_paused` of TalosGovernance and of TalosNameService first runs the guard, to let an
elapsed pause expire. The guard traps where the answer would be `true`, so the only answer that is
ever returned is `false`.
-/

namespace Talos

open Soroban PauseControl

/-- The query returns, and says whether the guard would reject. -/
def QueryAgrees {ε σ : Type} (query : Except ε (Bool × σ)) (guard : Except ε σ) : Prop :=
  ∃ answer s', query = .ok (answer, s') ∧ (answer = true ↔ ∃ t, guard = .error t)

/-- A query that runs the guard and reads the flag it leaves. -/
theorem queryAgrees_iff {ε σ : Type} {guard : Except ε σ} {flag : σ → Bool}
    (lifted : ∀ s', guard = .ok s' → flag s' = false) :
    QueryAgrees (do let s' ← guard; .ok (flag s', s')) guard ↔ ∃ s', guard = .ok s' := by
  constructor
  · rintro ⟨answer, s', returned, -⟩
    obtain ⟨s'', passed, -⟩ := bind_eq_ok.mp returned
    exact ⟨s'', passed⟩
  · rintro ⟨s', passed⟩
    refine ⟨flag s', s', bind_eq_ok.mpr ⟨s', passed, rfl⟩, ?_⟩
    rw [lifted s' passed]
    refine iff_of_false Bool.false_ne_true ?_
    rintro ⟨t, rejected⟩
    cases passed.symm.trans rejected

theorem Governance.queryAgrees_iff {e : Env Governance.Remote} {s : Governance.Storage}
    {domainId : Nat} : QueryAgrees (Governance.isDomainPaused e s domainId)
      (Governance.checkNotPaused e s domainId) ↔ Governance.Open e s domainId := by
  refine (Talos.queryAgrees_iff ?_).trans ?_
  · intro s' passed
    obtain ⟨isOpen, rfl⟩ := Governance.checkNotPaused_eq_ok.mp passed
    exact (isPaused_expireIfElapsed e s.pauseControl domainId).trans isOpen
  · constructor
    · rintro ⟨s', passed⟩
      exact (Governance.checkNotPaused_eq_ok.mp passed).1
    · exact fun isOpen => ⟨_, Governance.checkNotPaused_eq_ok.mpr ⟨isOpen, rfl⟩⟩

theorem NameService.queryAgrees_iff {e : Env NameService.Remote} {s : NameService.Storage}
    {domainId : Nat} : QueryAgrees (NameService.isDomainPausedScoped e s domainId)
      (NameService.checkNotPaused e s domainId) ↔ NameService.Open e s domainId := by
  refine (Talos.queryAgrees_iff ?_).trans ?_
  · intro s' passed
    obtain ⟨isOpen, rfl⟩ := NameService.checkNotPaused_eq_ok.mp passed
    exact (isPaused_expireIfElapsed e s.pauseControl domainId).trans isOpen
  · constructor
    · rintro ⟨s', passed⟩
      exact (NameService.checkNotPaused_eq_ok.mp passed).1
    · exact fun isOpen => ⟨_, NameService.checkNotPaused_eq_ok.mpr ⟨isOpen, rfl⟩⟩

/-- In both contracts the query agrees with the guard exactly while no pause of the domain is in
force. -/
theorem is_domain_paused_agrees_iff (g : Governance.Storage) (n : NameService.Storage)
    (domainId : Nat) :
    (∀ e, QueryAgrees (Governance.isDomainPaused e g domainId)
        (Governance.checkNotPaused e g domainId) ↔
      inForce e.timestamp g.pauseControl domainId = false) ∧
    ∀ e, QueryAgrees (NameService.isDomainPausedScoped e n domainId)
        (NameService.checkNotPaused e n domainId) ↔
      inForce e.timestamp n.pauseControl domainId = false :=
  ⟨fun _ => Governance.queryAgrees_iff, fun _ => NameService.queryAgrees_iff⟩

/-- Voting is paused for an hour at time 100. -/
def Governance.pausedVoting : Governance.Storage :=
  Governance.contract.submitAll
    ([.initializeContract ⟨0⟩ ⟨9⟩ 100 5000 20, .pauseDomain Governance.pauseGovernanceVoting 3600].map
      fun call => (⟨100, 10, fun _ => true, ⟨fun _ _ => none, fun _ _ => none, fun _ _ => none⟩⟩,
        call))
    Governance.contract.init

/-- Registrations are paused for good. -/
def NameService.pausedRegistration : NameService.Storage :=
  NameService.contract.submitAll
    ([.initializeContract ⟨7⟩ ⟨0⟩ 0, .pauseDomain NameService.pauseNameRegistration 0].map
      fun call => (⟨100, 10, fun _ => true, ⟨fun _ _ => none, fun _ _ => none,
        fun _ _ _ _ => none⟩⟩, call))
    NameService.contract.init

/-- While the pauses are in force, asking for them traps. -/
theorem paused_query_traps :
    Reachable Governance.contract Governance.pausedVoting ∧
    Reachable NameService.contract NameService.pausedRegistration ∧
    (∀ e, e.timestamp = 200 → ¬ QueryAgrees
      (Governance.isDomainPaused e Governance.pausedVoting Governance.pauseGovernanceVoting)
      (Governance.checkNotPaused e Governance.pausedVoting Governance.pauseGovernanceVoting)) ∧
    ∀ e, e.timestamp = 200 → ¬ QueryAgrees
      (NameService.isDomainPausedScoped e NameService.pausedRegistration
        NameService.pauseNameRegistration)
      (NameService.checkNotPaused e NameService.pausedRegistration
        NameService.pauseNameRegistration) := by
  refine ⟨Reachable.init.submitAll _, Reachable.init.submitAll _, ?_, ?_⟩
  · intro e now agrees
    have lifted := Governance.queryAgrees_iff.mp agrees
    rw [Governance.Open, now] at lifted
    exact absurd lifted (by decide)
  · intro e now agrees
    have lifted := NameService.queryAgrees_iff.mp agrees
    rw [NameService.Open, now] at lifted
    exact absurd lifted (by decide)

end Talos
