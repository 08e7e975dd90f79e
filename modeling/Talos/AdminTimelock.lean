import Talos.Registry.Effects
import Talos.NameService.Effects
import Talos.Soroban.TimelockQueue

/-!
# The admin timelock

The scheduled proposals of the registry and of the name service are a timelock
queue. So while `min_delay` is not lowered below `d`, what `execute_action` can
execute before `T + d` was scheduled by time `T`, and with a positive delay it is
the only way to the guarded values: the protocol fee and the nomination of an
admin in the registry, the registry pointer and the admin in the name service.

Two ways around it remain. `set_timelock_config` is not timelocked itself, and the
name service's `set_admin` does not look at the timelock.
-/

namespace Talos.AdminControls

open Talos.Soroban

variable {A C : Type}

/-! ### Scheduled proposals as a queue -/

/-- The proposals that are still scheduled. -/
def waiting (proposals : Map Nat (TimelockProposal A)) : Map Nat (Pending A Nat) := fun id =>
  (proposals id).bind fun p => if p.status = .scheduled then some ⟨p.action, p.eta⟩ else none

def timelockQueue (proposals : Map Nat (TimelockProposal A)) (config : TimelockConfig) :
    Queue A Nat :=
  ⟨waiting proposals, config.minDelay⟩

variable {proposals start : Map Nat (TimelockProposal A)} {p : TimelockProposal A} {id : Nat}

theorem waiting_eq_some {w : Pending A Nat} : waiting proposals id = some w ↔
    ∃ p, proposals id = some p ∧ p.status = .scheduled ∧ ⟨p.action, p.eta⟩ = w := by
  simp [waiting, Option.bind_eq_some_iff]

theorem waiting_set_scheduled (scheduled : p.status = .scheduled) :
    waiting (proposals.set id p) = (waiting proposals).set id ⟨p.action, p.eta⟩ := by
  funext id'
  by_cases same : id' = id
  · simp [waiting, same, scheduled]
  · simp [waiting, Map.set_of_ne, same]

theorem waiting_set_closed (closed : p.status ≠ .scheduled) :
    waiting (proposals.set id p) = (waiting proposals).remove id := by
  funext id'
  by_cases same : id' = id
  · simp [waiting, same, closed]
  · simp [waiting, Map.set_of_ne, Map.remove_of_ne, same]

theorem saturating_delays : Delays saturatingAddU64 where
  mono later longer := by
    simp only [saturatingAddU64]
    omega

/-- Storing a new scheduled proposal schedules its action. -/
theorem turn_of_scheduled {config : TimelockConfig} {now delay d : Nat}
    (scheduled : p.status = .scheduled) (eta : p.eta = saturatingAddU64 now delay)
    (delayed : config.minDelay ≤ delay) :
    Queue.Turn saturatingAddU64 d now (timelockQueue proposals config)
      (timelockQueue (proposals.set id p) config) := by
  rw [timelockQueue, timelockQueue, waiting_set_scheduled scheduled, eta]
  exact .schedule id p.action delay delayed

/-- Storing an executed or cancelled proposal closes its entry. -/
theorem turn_of_closed {config : TimelockConfig} {now d : Nat} (closed : p.status ≠ .scheduled) :
    Queue.Turn saturatingAddU64 d now (timelockQueue proposals config)
      (timelockQueue (proposals.set id p) config) := by
  rw [timelockQueue, timelockQueue, waiting_set_closed closed]
  exact .close id

/-- The call executes a proposal that is scheduled, with this action. -/
def Executes (execute : Nat → C) (proposals : Map Nat (TimelockProposal A)) (c : C)
    (action : A) : Prop :=
  ∃ id p, c = execute id ∧ proposals id = some p ∧ p.status = .scheduled ∧ p.action = action

/-- As `Executes`, and the proposal is due. -/
def ExecutesDue (execute : Nat → C) (proposals : Map Nat (TimelockProposal A)) (now : Nat) (c : C)
    (action : A) : Prop :=
  ∃ id p, c = execute id ∧ proposals id = some p ∧ p.status = .scheduled ∧ p.action = action ∧
    p.eta ≤ now

/-- What is due before the horizon was scheduled at the start. -/
theorem ExecutesDue.scheduled {execute : Nat → C} {config config' : TimelockConfig}
    {horizon d now : Nat} {c : C} {action : A}
    (isSealed : (timelockQueue start config).Sealed horizon d (timelockQueue proposals config'))
    (early : now < horizon) (executes : ExecutesDue execute proposals now c action) :
    Executes execute start c action := by
  obtain ⟨id, p, rfl, found, scheduled, rfl, due⟩ := executes
  have isWaiting : waiting proposals id = some ⟨p.action, p.eta⟩ :=
    waiting_eq_some.mpr ⟨p, found, scheduled, rfl⟩
  have before : waiting start id = some ⟨p.action, p.eta⟩ :=
    isSealed.due isWaiting due (Nat.not_le.mpr early)
  obtain ⟨p₀, found₀, scheduled₀, same⟩ := waiting_eq_some.mp before
  have sameAction : p₀.action = p.action := congrArg Pending.action same
  exact ⟨id, p₀, rfl, found₀, scheduled₀, sameAction⟩

end Talos.AdminControls

namespace Talos.Registry

open Talos.Soroban Talos.PauseControl Talos.AdminControls

variable {e : Env Remote} {s t t' : Storage} {c : Call} {v : Value} {T d : Nat}

/-! ### The registry -/

/-- The call does not lower `min_delay` below `d`. -/
def KeepsDelay (d : Nat) (c : Call) : Prop :=
  ∀ minDelay gracePeriod, c = .setTimelockConfig minDelay gracePeriod → d ≤ minDelay

def queue (s : Storage) : Queue AdminAction Nat :=
  timelockQueue s.timelockProposal (getTimelockConfig s)

/-- Every accepted call that keeps the delay is a turn of the queue. -/
theorem turn_of_ok (ok : exec e t c = .ok (v, t')) (keeps : KeepsDelay d c) :
    Queue.Turn saturatingAddU64 d e.timestamp (queue t) (queue t') := by
  cases exec_effect ok with
  | setTimelockConfig admin isAdmin => exact .configure _ (keeps _ _ rfl)
  | scheduleAction admin delayed room => exact turn_of_scheduled rfl rfl delayed
  | executeFee | executeNomination | cancelAction => exact turn_of_closed (by simp)
  | migrated version config schema call same =>
    have same' : queue { t with timelockConfig := config, schema } = queue t :=
      congrArg (timelockQueue t.timelockProposal) same
    rw [same']
    exact .idle
  | _ => exact .idle

/-- A timelock can only be enabled in an initialized registry. -/
theorem wallet_of_minDelay (reach : Reachable contract t)
    (enabled : 0 < (getTimelockConfig t).minDelay) : t.protocolWallet ≠ none := by
  revert enabled
  apply Reachable.invariant
    (I := fun t => 0 < (getTimelockConfig t).minDelay → t.protocolWallet ≠ none) reach
  · intro enabled
    cases enabled
  · intro e s c v s' configured ok enabled
    cases exec_effect ok with
    | initializeContract schema unset => exact Option.some_ne_none _
    | acceptAdmin pending nominated signed => exact Option.some_ne_none _
    | setTimelockConfig admin isAdmin =>
      intro unset
      exact Option.some_ne_none admin (isAdmin.symm.trans unset)
    | migrated version config schema call same =>
      apply configured
      rw [← same]
      exact enabled
    | _ => exact configured enabled

/-- With a timelock, the fee changes only by executing a due proposal. -/
theorem fee_change (reach : Reachable contract t) (enabled : 0 < (getTimelockConfig t).minDelay)
    (ok : exec e t c = .ok (v, t')) (changed : t'.protocolFeeBps ≠ t.protocolFeeBps) :
    ∃ feeBps, t'.protocolFeeBps = some feeBps ∧
      ExecutesDue Call.executeAction t.timelockProposal e.timestamp c (.setProtocolFee feeBps) := by
  cases exec_effect ok with
  | initializeContract schema unset => exact absurd unset (wallet_of_minDelay reach enabled)
  | setProtocolFee noTimelock => exact absurd noTimelock (Nat.ne_of_gt enabled)
  | @executeFee proposalId proposal feeBps found scheduled due action =>
    exact ⟨feeBps, rfl, proposalId, proposal, rfl, found, scheduled, action, due⟩
  | _ => exact absurd rfl changed

/-- With a timelock, an admin is nominated only by executing a due proposal. -/
theorem nomination (enabled : 0 < (getTimelockConfig t).minDelay)
    (ok : exec e t c = .ok (v, t')) {newAdmin : Address}
    (nominated : t'.pendingAdmin = some newAdmin) (isNew : t.pendingAdmin ≠ some newAdmin) :
    ExecutesDue Call.executeAction t.timelockProposal e.timestamp c (.proposeAdmin newAdmin) := by
  cases exec_effect ok with
  | proposeAdmin noTimelock => exact absurd noTimelock (Nat.ne_of_gt enabled)
  | @executeNomination proposalId proposal other found scheduled due action =>
    obtain rfl := Option.some.inj nominated
    exact ⟨proposalId, proposal, rfl, found, scheduled, action, due⟩
  | acceptAdmin | cancelAdminTransfer => cases nominated
  | _ => exact absurd nominated isNew

end Talos.Registry

namespace Talos.NameService

open Talos.Soroban Talos.PauseControl Talos.AdminControls

variable {e : Env Remote} {s t t' : Storage} {c : Call} {v : Value} {T d : Nat}

/-! ### The name service -/

/-- The call does not lower `min_delay` below `d`. -/
def KeepsDelay (d : Nat) (c : Call) : Prop :=
  ∀ minDelay gracePeriod, c = .setTimelockConfig minDelay gracePeriod → d ≤ minDelay

def queue (s : Storage) : Queue AdminAction Nat :=
  timelockQueue s.timelockProposal (getTimelockConfig s)

/-- The call sets the registry pointer and the admin for the first time. -/
def Call.initializes (c : Call) : Prop :=
  ∃ registryId admin nameFee, c = .initializeContract registryId admin nameFee

/-- The call is the direct admin handover. -/
def Call.setsAdmin (c : Call) : Prop := ∃ newAdmin, c = .setAdmin newAdmin

/-- Every accepted call that keeps the delay is a turn of the queue. -/
theorem turn_of_ok (ok : exec e t c = .ok (v, t')) (keeps : KeepsDelay d c) :
    Queue.Turn saturatingAddU64 d e.timestamp (queue t) (queue t') := by
  cases exec_effect ok with
  | setTimelockConfig => exact .configure _ (keeps _ _ rfl)
  | scheduleAction admin delayed room => exact turn_of_scheduled rfl rfl delayed
  | executeRegistry | executeAdmin | cancelAction => exact turn_of_closed (by simp)
  | _ => exact .idle

/-- With a timelock, the registry pointer changes only by executing a due proposal. -/
theorem registry_change (enabled : 0 < (getTimelockConfig t).minDelay)
    (ok : exec e t c = .ok (v, t')) (changed : t'.registryContract ≠ t.registryContract)
    (notFirst : ¬ c.initializes) :
    ∃ newRegistryId, t'.registryContract = some newRegistryId ∧
      ExecutesDue Call.executeAction t.timelockProposal e.timestamp c
        (.setRegistryContract newRegistryId) := by
  cases exec_effect ok with
  | initializeContract unset => exact absurd ⟨_, _, _, rfl⟩ notFirst
  | setRegistryContract noTimelock => exact absurd noTimelock (Nat.ne_of_gt enabled)
  | @executeRegistry proposalId proposal newRegistryId found scheduled due action =>
    exact ⟨newRegistryId, rfl, proposalId, proposal, rfl, found, scheduled, action, due⟩
  | _ => exact absurd rfl changed

/-- `set_admin` apart, the admin changes only by executing a due proposal. -/
theorem admin_change (ok : exec e t c = .ok (v, t')) (changed : t'.admin ≠ t.admin)
    (notFirst : ¬ c.initializes) (scheduledOnly : ¬ c.setsAdmin) :
    ∃ newAdmin, t'.admin = some newAdmin ∧
      ExecutesDue Call.executeAction t.timelockProposal e.timestamp c (.setAdmin newAdmin) := by
  cases exec_effect ok with
  | initializeContract unset => exact absurd ⟨_, _, _, rfl⟩ notFirst
  | setAdmin signed => exact absurd ⟨_, rfl⟩ scheduledOnly
  | @executeAdmin proposalId proposal newAdmin found scheduled due action =>
    exact ⟨newAdmin, rfl, proposalId, proposal, rfl, found, scheduled, action, due⟩
  | _ => exact absurd rfl changed

end Talos.NameService

namespace Talos

open Talos.Soroban Talos.AdminControls

/-! ### Before the delay has elapsed -/

/-- While `min_delay` stays at least `d > 0` from time `T` on, a guarded value
changes before `T + d` only by executing a proposal scheduled by time `T`. -/
theorem timelock_not_bypassed {T d : Nat} (enabled : 0 < d) :
    (∀ {s t t' : Registry.Storage} {e : Env Registry.Remote} {c : Registry.Call}
        {v : Registry.Value},
      Reachable Registry.contract s → (Registry.getTimelockConfig s).minDelay = d →
      Since Registry.contract T (Registry.KeepsDelay d) s t →
      e.timestamp < saturatingAddU64 T d → Registry.exec e t c = .ok (v, t') →
      (t'.protocolFeeBps ≠ t.protocolFeeBps → ∃ feeBps, t'.protocolFeeBps = some feeBps ∧
        Executes Registry.Call.executeAction s.timelockProposal c (.setProtocolFee feeBps)) ∧
      (∀ newAdmin, t'.pendingAdmin = some newAdmin → t.pendingAdmin ≠ some newAdmin →
        Executes Registry.Call.executeAction s.timelockProposal c (.proposeAdmin newAdmin))) ∧
    (∀ {s t t' : NameService.Storage} {e : Env NameService.Remote} {c : NameService.Call}
        {v : NameService.Value},
      Reachable NameService.contract s → (NameService.getTimelockConfig s).minDelay = d →
      Since NameService.contract T (NameService.KeepsDelay d) s t →
      e.timestamp < saturatingAddU64 T d → NameService.exec e t c = .ok (v, t') →
      ¬ c.initializes →
      (t'.registryContract ≠ t.registryContract →
        ∃ newRegistryId, t'.registryContract = some newRegistryId ∧
          Executes NameService.Call.executeAction s.timelockProposal c
            (.setRegistryContract newRegistryId)) ∧
      (t'.admin ≠ t.admin → ¬ c.setsAdmin → ∃ newAdmin, t'.admin = some newAdmin ∧
        Executes NameService.Call.executeAction s.timelockProposal c (.setAdmin newAdmin))) := by
  constructor
  · intro s t t' e c v reach delay since early ok
    have isSealed := since.sealed saturating_delays Registry.queue Registry.turn_of_ok
      (Nat.le_of_eq delay.symm)
    have stillEnabled : 0 < (Registry.getTimelockConfig t).minDelay :=
      Nat.lt_of_lt_of_le enabled isSealed.delay
    constructor
    · intro changed
      obtain ⟨feeBps, stored, executes⟩ :=
        Registry.fee_change (since.reachable reach) stillEnabled ok changed
      exact ⟨feeBps, stored, executes.scheduled isSealed early⟩
    · intro newAdmin nominated isNew
      exact (Registry.nomination stillEnabled ok nominated isNew).scheduled isSealed early
  · intro s t t' e c v reach delay since early ok notFirst
    have isSealed := since.sealed saturating_delays NameService.queue NameService.turn_of_ok
      (Nat.le_of_eq delay.symm)
    have stillEnabled : 0 < (NameService.getTimelockConfig t).minDelay :=
      Nat.lt_of_lt_of_le enabled isSealed.delay
    constructor
    · intro changed
      obtain ⟨newRegistryId, stored, executes⟩ :=
        NameService.registry_change stillEnabled ok changed notFirst
      exact ⟨newRegistryId, stored, executes.scheduled isSealed early⟩
    · intro changed scheduledOnly
      obtain ⟨newAdmin, stored, executes⟩ :=
        NameService.admin_change ok changed notFirst scheduledOnly
      exact ⟨newAdmin, stored, executes.scheduled isSealed early⟩

/-! ### Runs around the timelock -/

/-- An invocation of the registry that everyone signs. -/
def Registry.atTime (timestamp : Nat) : Env Registry.Remote := ⟨timestamp, 1, fun _ => true, ⟨[]⟩⟩

/-- An invocation of the name service that everyone signs. -/
def NameService.atTime (timestamp : Nat) : Env NameService.Remote :=
  ⟨timestamp, 1, fun _ => true, ⟨fun _ _ => none, fun _ _ => none, fun _ _ _ _ => none⟩⟩

/-- A registry with a fee change scheduled for time 100, then a delay of 1000. -/
def Registry.scheduledFee : Registry.Storage :=
  Registry.contract.submitAll
    ([.initializeContract ⟨0⟩, .scheduleAction (.setProtocolFee 500) 100,
      .setTimelockConfig 1000 1000].map fun call => (Registry.atTime 0, call))
    Registry.contract.init

/-- A name service with a new registry scheduled for time 100, then a delay of 1000. -/
def NameService.scheduledRegistry : NameService.Storage :=
  NameService.contract.submitAll
    ([.initializeContract ⟨7⟩ ⟨0⟩ 0, .scheduleAction (.setRegistryContract ⟨9⟩) 100,
      .setTimelockConfig 1000 1000].map fun call => (NameService.atTime 0, call))
    NameService.contract.init

theorem timelock_not_bypassed_scheduled :
    (∃ v t', Registry.exec (Registry.atTime 100) Registry.scheduledFee (.executeAction 1) =
        .ok (v, t') ∧
      t'.protocolFeeBps = some 500 ∧ ∃ feeBps, t'.protocolFeeBps = some feeBps ∧
        Executes Registry.Call.executeAction Registry.scheduledFee.timelockProposal
          (.executeAction 1) (.setProtocolFee feeBps)) ∧
    (∃ v t', NameService.exec (NameService.atTime 100) NameService.scheduledRegistry
        (.executeAction 1) = .ok (v, t') ∧
      t'.registryContract = some ⟨9⟩ ∧ ∃ newRegistryId, t'.registryContract = some newRegistryId ∧
        Executes NameService.Call.executeAction NameService.scheduledRegistry.timelockProposal
          (.executeAction 1) (.setRegistryContract newRegistryId)) := by
  constructor
  · obtain ⟨v, t', ok, fee, before⟩ : ∃ v t',
        Registry.exec (Registry.atTime 100) Registry.scheduledFee (.executeAction 1) = .ok (v, t') ∧
        t'.protocolFeeBps = some 500 ∧ Registry.scheduledFee.protocolFeeBps = some 300 :=
      ⟨_, _, rfl, by decide, by decide⟩
    have changed : t'.protocolFeeBps ≠ Registry.scheduledFee.protocolFeeBps := by
      rw [fee, before]
      decide
    exact ⟨v, t', ok, fee, ((timelock_not_bypassed (T := 50) (d := 1000) (by decide)).1
      (Reachable.init.submitAll _) (by decide) .refl (by decide) ok).1 changed⟩
  · obtain ⟨v, t', ok, pointer, before⟩ : ∃ v t',
        NameService.exec (NameService.atTime 100) NameService.scheduledRegistry (.executeAction 1) =
          .ok (v, t') ∧
        t'.registryContract = some ⟨9⟩ ∧
        NameService.scheduledRegistry.registryContract = some ⟨7⟩ :=
      ⟨_, _, rfl, by decide, by decide⟩
    have changed : t'.registryContract ≠ NameService.scheduledRegistry.registryContract := by
      rw [pointer, before]
      decide
    have notFirst : ¬ (NameService.Call.executeAction 1).initializes := by
      rintro ⟨_, _, _, same⟩
      cases same
    exact ⟨v, t', ok, pointer, ((timelock_not_bypassed (T := 50) (d := 1000) (by decide)).2
      (Reachable.init.submitAll _) (by decide) .refl (by decide) ok notFirst).1 changed⟩

/-- A registry with a delay of 1000 and nothing scheduled. -/
def Registry.delayed : Registry.Storage :=
  Registry.contract.submitAll
    ([.initializeContract ⟨0⟩, .setTimelockConfig 1000 1000].map
      fun call => (Registry.atTime 0, call))
    Registry.contract.init

/-- A name service with a delay of 1000 that has an admin but no registry yet. -/
def NameService.delayed : NameService.Storage :=
  NameService.contract.submitAll
    ([.setAdmin ⟨0⟩, .setTimelockConfig 1000 1000].map fun call => (NameService.atTime 0, call))
    NameService.contract.init

/-- Turning the timelock off at time 50 lets the fee change at time 60, and a
first initialization sets the registry pointer and the admin at time 60, both
with nothing scheduled. -/
theorem timelock_bypassed :
    (∃ t t', Reachable Registry.contract Registry.delayed ∧
      (Registry.getTimelockConfig Registry.delayed).minDelay = 1000 ∧
      (∀ id, Registry.delayed.timelockProposal id = none) ∧
      Registry.exec (Registry.atTime 50) Registry.delayed (.setTimelockConfig 0 1000) =
        .ok (.unit, t) ∧
      Registry.exec (Registry.atTime 60) t (.setProtocolFee 500) = .ok (.unit, t') ∧
      t'.protocolFeeBps ≠ t.protocolFeeBps) ∧
    (∃ t', Reachable NameService.contract NameService.delayed ∧
      (NameService.getTimelockConfig NameService.delayed).minDelay = 1000 ∧
      (∀ id, NameService.delayed.timelockProposal id = none) ∧
      NameService.exec (NameService.atTime 60) NameService.delayed (.initializeContract ⟨7⟩ ⟨1⟩ 0) =
        .ok (.unit, t') ∧
      t'.registryContract ≠ NameService.delayed.registryContract ∧
      t'.admin ≠ NameService.delayed.admin) :=
  ⟨⟨_, _, Reachable.init.submitAll _, by decide, fun _ => rfl, rfl, rfl, by decide⟩,
    ⟨_, Reachable.init.submitAll _, by decide, fun _ => rfl, rfl, by decide, by decide⟩⟩

end Talos
