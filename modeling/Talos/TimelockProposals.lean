import Talos.AdminTimelock
import Talos.Soroban.Tickets

/-!
# Timelock proposals

A scheduled proposal is a ticket: `schedule_action` issues it, and
`execute_action` and `cancel_action` close it. With the time bounds that the two
contracts check in code of their own, this gives the life of a proposal in any
run: its id is new and larger than all before, it is closed once, and it is
executed inside its window.
-/

namespace Talos.AdminControls

open Talos.Soroban

variable {R σ C ρ E A : Type}

/-! ### What a contract with a timelock offers -/

/-- The entry points and the storage of a timelock, and what it means for an
action to be in effect. -/
structure TimelockApi (σ C ρ A : Type) where
  schedule : A → Nat → C
  execute : Nat → C
  cancel : Nat → C
  returned : Nat → ρ
  proposals : σ → Map Nat (TimelockProposal A)
  nextId : σ → Option Nat
  config : σ → TimelockConfig
  inEffect : A → σ → Prop

/-- A proposal without its status. -/
def TimelockProposal.terms (p : TimelockProposal A) : TimelockProposal A :=
  { p with status := .scheduled }

def TimelockProposal.ticket (p : TimelockProposal A) : Ticket (TimelockProposal A) :=
  ⟨p.terms, decide (p.status = .scheduled)⟩

def TimelockApi.desk (api : TimelockApi σ C ρ A) (s : σ) : Desk (TimelockProposal A) :=
  ⟨fun id => (api.proposals s id).map (·.ticket), (api.nextId s).getD 1⟩

theorem tickets_set (proposals : Map Nat (TimelockProposal A)) (id : Nat) (p : TimelockProposal A) :
    (fun i => (proposals.set id p i).map (·.ticket)) =
      Map.set (fun i => (proposals i).map (·.ticket)) id p.ticket := by
  funext i
  by_cases same : i = id
  · simp [same]
  · simp [Map.set_of_ne, same]

/-- Storing a new proposal under the next id issues its ticket. -/
theorem TimelockApi.desk_scheduled {api : TimelockApi σ C ρ A} {s s' : σ} {id : Nat}
    {p : TimelockProposal A} (isNext : id = (api.nextId s).getD 1) (scheduled : p.terms = p)
    (written : api.proposals s' = (api.proposals s).set id p)
    (next : api.nextId s' = some (id + 1)) : (api.desk s).Turn (.issue id p) (api.desk s') := by
  have after : api.desk s' = ⟨(api.desk s).tickets.set (api.desk s).next ⟨p, true⟩,
      (api.desk s).next + 1⟩ := by
    have isOpen : p.status = .scheduled := congrArg TimelockProposal.status scheduled.symm
    simp only [TimelockApi.desk, written, next, tickets_set, isNext]
    simp [TimelockProposal.ticket, scheduled, isOpen]
  rw [after, isNext]
  exact .issue p

/-- Closing the proposal stored under an id closes its ticket. -/
theorem TimelockApi.desk_closed {api : TimelockApi σ C ρ A} {s s' : σ} {id : Nat}
    {p p' : TimelockProposal A} (found : api.proposals s id = some p)
    (scheduled : p.status = .scheduled) (written : api.proposals s' = (api.proposals s).set id p')
    (next : api.nextId s' = api.nextId s) (terms : p'.terms = p.terms)
    (closed : p'.status ≠ .scheduled) : (api.desk s).Turn (.close id) (api.desk s') := by
  have isOpen : (api.desk s).tickets id = some ⟨p.terms, true⟩ := by
    simp [TimelockApi.desk, found, TimelockProposal.ticket, scheduled]
  have after : api.desk s' =
      ⟨(api.desk s).tickets.set id ⟨p.terms, false⟩, (api.desk s).next⟩ := by
    simp only [TimelockApi.desk, written, next, tickets_set]
    simp [TimelockProposal.ticket, terms, closed]
  rw [after]
  exact .close id p.terms isOpen

/-- What the life of the proposals looks like after the run `h` to `s`. -/
structure ProposalLaws (m : Contract R σ C ρ E) (api : TimelockApi σ C ρ A)
    (h : List (Entry R σ C ρ)) (s : σ) : Prop where
  /-- A later `schedule_action` returns a larger id. -/
  increasing : h.Pairwise fun newer older => ∀ action delay action' delay' id id',
    newer.call = api.schedule action delay → newer.result = api.returned id →
    older.call = api.schedule action' delay' → older.result = api.returned id' → id' < id
  /-- A proposal is executed at most once, and not after it was cancelled. -/
  once : h.Pairwise fun newer older => ∀ id,
    newer.call = api.execute id ∨ newer.call = api.cancel id →
      older.call ≠ api.execute id ∧ older.call ≠ api.cancel id
  /-- A stored proposal was scheduled in the run, due no earlier than the minimum
  delay of that moment. -/
  scheduled : ∀ id p, api.proposals s id = some p → ∃ r ∈ h, ∃ delay,
    r.call = api.schedule p.action delay ∧ r.result = api.returned id ∧
      p.scheduledAt = r.env.timestamp ∧ p.eta = saturatingAddU64 p.scheduledAt delay ∧
      min (p.scheduledAt + (api.config r.pre).minDelay) u64Max ≤ p.eta
  /-- The next execution puts the action of a stored proposal into effect, between
  its due time and the end of the grace period configured now. -/
  window : ∀ e id v s', m.exec e s (api.execute id) = .ok (v, s') → ∃ p,
    api.proposals s id = some p ∧ api.inEffect p.action s' ∧ p.eta ≤ e.timestamp ∧
      e.timestamp ≤ saturatingAddU64 p.eta (api.config s).gracePeriod
  /-- A rejected execution changes nothing. -/
  failure : ∀ e id t, m.exec e s (api.execute id) = .error t → m.submit e (api.execute id) s = s

/-- What the code of a contract has to show for its timelock: `event` reads off an
accepted call what it did to the proposals. -/
structure RunsTimelock (m : Contract R σ C ρ E) (api : TimelockApi σ C ρ A)
    (event : Entry R σ C ρ → TicketEvent (TimelockProposal A)) : Prop where
  start : (api.desk m.init).tickets = .empty
  keeps : KeepsDesk m api.desk event
  schedules : ∀ {e s action delay v s'}, m.exec e s (api.schedule action delay) = .ok (v, s') →
    (api.config s).minDelay ≤ delay ∧ ∃ id admin, v = api.returned id ∧
      event ⟨s, e, api.schedule action delay, v⟩ = .issue id
        ⟨id, action, saturatingAddU64 e.timestamp delay, .scheduled, e.timestamp, admin⟩
  issues : ∀ {r id k}, event r = .issue id k → ∃ action delay, r.call = api.schedule action delay
  executes : ∀ {r id}, r.call = api.execute id → event r = .close id
  cancels : ∀ {r id}, r.call = api.cancel id → event r = .close id
  returned_injective : ∀ {id id'}, api.returned id = api.returned id' → id = id'
  window : ∀ {e s id v s'}, m.exec e s (api.execute id) = .ok (v, s') → ∃ p,
    api.proposals s id = some p ∧ api.inEffect p.action s' ∧ p.eta ≤ e.timestamp ∧
      e.timestamp ≤ saturatingAddU64 p.eta (api.config s).gracePeriod

variable {m : Contract R σ C ρ E} {api : TimelockApi σ C ρ A}
  {event : Entry R σ C ρ → TicketEvent (TimelockProposal A)} {h : List (Entry R σ C ρ)} {s : σ}

/-- An accepted `schedule_action` issued a proposal with its own terms. -/
theorem RunsTimelock.issue_of_mem (runs : RunsTimelock m api event) (run : Run m h s)
    {r : Entry R σ C ρ} (mem : r ∈ h) {action : A} {delay : Nat}
    (call : r.call = api.schedule action delay) :
    (api.config r.pre).minDelay ≤ delay ∧ ∃ id admin, r.result = api.returned id ∧
      event r = .issue id ⟨id, action, saturatingAddU64 r.env.timestamp delay, .scheduled,
        r.env.timestamp, admin⟩ := by
  obtain ⟨_, _, -, ok⟩ := run.accepted mem
  obtain ⟨pre, env, c, result⟩ := r
  obtain rfl : c = api.schedule action delay := call
  exact runs.schedules ok

theorem RunsTimelock.scheduled_of_run (runs : RunsTimelock m api event) (run : Run m h s)
    {id : Nat} {p : TimelockProposal A} (found : api.proposals s id = some p) :
    ∃ r ∈ h, ∃ delay, r.call = api.schedule p.action delay ∧ r.result = api.returned id ∧
      p.scheduledAt = r.env.timestamp ∧ p.eta = saturatingAddU64 p.scheduledAt delay ∧
      min (p.scheduledAt + (api.config r.pre).minDelay) u64Max ≤ p.eta := by
  have ticket : (api.desk s).tickets id = some p.ticket := congrArg (Option.map _) found
  obtain ⟨r, mem, issued⟩ := (served_of_run runs.keeps runs.start run).issued id _ ticket
  obtain ⟨action, delay, call⟩ := runs.issues issued
  obtain ⟨delayed, id', admin, result, issued'⟩ := runs.issue_of_mem run mem call
  obtain ⟨rfl, terms⟩ := TicketEvent.issue.inj (issued'.symm.trans issued)
  have sameAction : p.action = action := congrArg TimelockProposal.action terms.symm
  have sameTime : p.scheduledAt = r.env.timestamp :=
    congrArg TimelockProposal.scheduledAt terms.symm
  have eta : p.eta = saturatingAddU64 r.env.timestamp delay :=
    congrArg TimelockProposal.eta terms.symm
  refine ⟨r, mem, delay, sameAction ▸ call, result, sameTime, sameTime ▸ eta, ?_⟩
  rw [eta, sameTime, saturatingAddU64]
  omega

theorem RunsTimelock.laws (runs : RunsTimelock m api event) (run : Run m h s) :
    ProposalLaws m api h s where
  increasing := by
    refine (increasing_of_run runs.keeps runs.start run).imp_of_mem ?_
    intro newer older memNewer memOlder larger action delay action' delay' id id' call result call'
      result'
    obtain ⟨-, n, admin, returned, issued⟩ := runs.issue_of_mem run memNewer call
    obtain ⟨-, n', admin', returned', issued'⟩ := runs.issue_of_mem run memOlder call'
    obtain rfl : n = id := runs.returned_injective (returned.symm.trans result)
    obtain rfl : n' = id' := runs.returned_injective (returned'.symm.trans result')
    exact larger n _ n' _ issued issued'
  once := by
    refine (closedOnce_of_run runs.keeps runs.start run).imp ?_
    intro newer older closedOnce id closes
    have closed : event older ≠ .close id := by
      rcases closes with executes | cancels
      · exact closedOnce id (runs.executes executes)
      · exact closedOnce id (runs.cancels cancels)
    exact ⟨fun executed => closed (runs.executes executed),
      fun cancelled => closed (runs.cancels cancelled)⟩
  scheduled _ _ found := runs.scheduled_of_run run found
  window _ _ _ _ ok := runs.window ok
  failure _ _ _ rejected := Contract.submit_of_error rejected

end Talos.AdminControls

namespace Talos.Registry

open Talos.Soroban Talos.AdminControls

variable {e : Env Remote} {s s' : Storage} {c : Call} {v : Value}

/-! ### The registry -/

def timelockApi : TimelockApi Storage Call Value AdminAction where
  schedule := .scheduleAction
  execute := .executeAction
  cancel := .cancelAction
  returned := .id
  proposals := (·.timelockProposal)
  nextId := (·.nextTimelockId)
  config := getTimelockConfig
  inEffect action s :=
    match action with
    | .setProtocolFee feeBps => s.protocolFeeBps = some feeBps
    | .proposeAdmin newAdmin => s.pendingAdmin = some newAdmin

/-- What an accepted call did to the proposals. -/
def timelockEvent (r : Entry Remote Storage Call Value) :
    TicketEvent (TimelockProposal AdminAction) :=
  match r.call, r.result, r.pre.protocolWallet with
  | .scheduleAction action delay, .id id, some admin =>
    .issue id ⟨id, action, saturatingAddU64 r.env.timestamp delay, .scheduled,
      r.env.timestamp, admin⟩
  | .executeAction id, _, _ | .cancelAction id, _, _ => .close id
  | _, _, _ => .idle

/-- A proposal is scheduled by the protocol wallet, which signs. -/
theorem scheduleAction_ok {action : AdminAction} {delay id : Nat}
    (ok : scheduleAction e s action delay = .ok (id, s')) :
    ∃ admin, s.protocolWallet = some admin ∧ e.auth admin = true ∧
      (getTimelockConfig s).minDelay ≤ delay ∧ id = s.nextTimelockId.getD 1 ∧
      s' = { s.guarded e pauseProtocolConfig with
        timelockProposal := s.timelockProposal.set id
          ⟨id, action, saturatingAddU64 e.timestamp delay, .scheduled, e.timestamp, admin⟩
        nextTimelockId := some (id + 1) } := by
  simp only [scheduleAction, scheduleActionInternal, validateDelay, bind_eq_ok,
    checkNotPaused_eq_ok, requireAdmin_eq_ok, rejectIf_eq_ok, addU64_eq_ok, Except.ok.injEq,
    Prod.mk.injEq] at ok
  obtain ⟨_, ⟨_, rfl⟩, admin, ⟨isAdmin, signed⟩, _, delayed, _, ⟨_, rfl⟩, rfl, rfl⟩ := ok
  exact ⟨admin, isAdmin, signed, Nat.le_of_not_lt delayed, rfl, rfl⟩

/-- An execution is due, not expired, and puts the action into effect. -/
theorem executeAction_window {id : Nat} (ok : executeAction e s id = .ok s') :
    ∃ p, s.timelockProposal id = some p ∧ timelockApi.inEffect p.action s' ∧
      p.eta ≤ e.timestamp ∧
      e.timestamp ≤ saturatingAddU64 p.eta (getTimelockConfig s).gracePeriod := by
  simp only [executeAction, validateExecutableProposal, validateExecutable, bind_eq_ok,
    orReject_eq_ok, rejectIf_eq_ok, Except.ok.injEq] at ok
  obtain ⟨_, ⟨p, found, _, _, _, ⟨_, due, fresh⟩, rfl⟩, ok⟩ := ok
  refine ⟨p, found, ?_, Nat.le_of_not_lt due, Nat.le_of_not_lt fresh⟩
  cases action : p.action with
  | setProtocolFee feeBps =>
    simp only [action, setProtocolFeeInternal, bind_eq_ok, Except.ok.injEq] at ok
    obtain ⟨_, ⟨_, _, rfl⟩, rfl⟩ := ok
    rfl
  | proposeAdmin newAdmin =>
    simp only [action, bind_eq_ok, Except.ok.injEq] at ok
    obtain ⟨_, _, _, rfl, rfl⟩ := ok
    rfl

/-- Proposals are stored under their own ids. -/
theorem proposal_id_of_reachable (reach : Reachable contract s) :
    ∀ id p, s.timelockProposal id = some p → p.id = id := by
  apply Reachable.invariant (I := fun s => ∀ id p, s.timelockProposal id = some p → p.id = id) reach
  · exact fun _ _ found => nomatch found
  · intro e s c v s' keyed ok
    have set : ∀ {id p}, p.id = id → ∀ id' p', s.timelockProposal.set id p id' = some p' →
        p'.id = id' := by
      intro id p same id' p' found
      rw [Map.set_apply] at found
      split at found
      · next here =>
        obtain rfl := Option.some.inj found
        exact same.trans here.symm
      · exact keyed id' p' found
    cases exec_effect ok with
    | scheduleAction => exact set rfl
    | executeFee p feeBps found | executeNomination p newAdmin found => exact set rfl
    | cancelAction p found => exact set (keyed _ p found)
    | _ => exact keyed

/-- Every accepted call is a turn at the desk. -/
theorem desk_turn (reach : Reachable contract s) (ok : exec e s c = .ok (v, s')) :
    (timelockApi.desk s).Turn (timelockEvent ⟨s, e, c, v⟩) (timelockApi.desk s') := by
  cases c with
  | scheduleAction action delay =>
    obtain ⟨id, accepted, rfl⟩ := returning_eq_ok.mp ok
    obtain ⟨admin, isAdmin, -, -, rfl, rfl⟩ := scheduleAction_ok accepted
    simp only [timelockEvent, isAdmin]
    exact TimelockApi.desk_scheduled rfl rfl rfl rfl
  | executeAction id =>
    cases exec_effect ok with
    | edit t t' edits => cases edits
    | migrated version config schema call => rcases call with same | ⟨_, same⟩ <;> cases same
    | executeFee p feeBps found scheduled =>
      obtain rfl := proposal_id_of_reachable reach id p found
      exact TimelockApi.desk_closed found scheduled rfl rfl rfl ProposalStatus.noConfusion
    | executeNomination p newAdmin found scheduled =>
      obtain rfl := proposal_id_of_reachable reach id p found
      exact TimelockApi.desk_closed found scheduled rfl rfl rfl ProposalStatus.noConfusion
  | cancelAction id =>
    cases exec_effect ok with
    | edit t t' edits => cases edits
    | migrated version config schema call => rcases call with same | ⟨_, same⟩ <;> cases same
    | cancelAction p found scheduled =>
      exact TimelockApi.desk_closed found scheduled rfl rfl rfl ProposalStatus.noConfusion
  | _ =>
    cases exec_effect ok with
    | edit | migrated => exact .idle
    | _ => exact .idle

theorem runsTimelock : RunsTimelock contract timelockApi timelockEvent where
  start := rfl
  keeps _ _ _ _ _ reach ok := desk_turn reach ok
  schedules ok := by
    obtain ⟨id, accepted, rfl⟩ := returning_eq_ok.mp ok
    obtain ⟨admin, isAdmin, -, delayed, -, -⟩ := scheduleAction_ok accepted
    refine ⟨delayed, id, admin, rfl, ?_⟩
    simp only [timelockEvent, timelockApi, isAdmin]
  issues issued := by
    unfold timelockEvent at issued
    split at issued
    · next action delay _ _ call _ _ => exact ⟨action, delay, call⟩
    · cases issued
    · cases issued
    · cases issued
  executes call := by
    simp only [timelockApi] at call
    simp only [timelockEvent, call]
  cancels call := by
    simp only [timelockApi] at call
    simp only [timelockEvent, call]
  returned_injective same := Value.id.inj same
  window ok := by
    obtain ⟨accepted, -⟩ := silent_eq_ok.mp ok
    exact executeAction_window accepted

end Talos.Registry

namespace Talos.NameService

open Talos.Soroban Talos.AdminControls

variable {e : Env Remote} {s s' : Storage} {c : Call} {v : Value}

/-! ### The name service -/

def timelockApi : TimelockApi Storage Call Value AdminAction where
  schedule := .scheduleAction
  execute := .executeAction
  cancel := .cancelAction
  returned := .id
  proposals := (·.timelockProposal)
  nextId := (·.nextTimelockId)
  config := getTimelockConfig
  inEffect action s :=
    match action with
    | .setRegistryContract newRegistryId => s.registryContract = some newRegistryId
    | .setAdmin newAdmin => s.admin = some newAdmin

/-- What an accepted call did to the proposals. -/
def timelockEvent (r : Entry Remote Storage Call Value) :
    TicketEvent (TimelockProposal AdminAction) :=
  match r.call, r.result, r.pre.admin with
  | .scheduleAction action delay, .id id, some admin =>
    .issue id ⟨id, action, saturatingAddU64 r.env.timestamp delay, .scheduled,
      r.env.timestamp, admin⟩
  | .executeAction id, _, _ | .cancelAction id, _, _ => .close id
  | _, _, _ => .idle

/-- A proposal is scheduled by the admin, who signs. -/
theorem scheduleAction_ok {action : AdminAction} {delay id : Nat}
    (ok : scheduleAction e s action delay = .ok (id, s')) :
    ∃ admin, s.admin = some admin ∧ e.auth admin = true ∧
      (getTimelockConfig s).minDelay ≤ delay ∧ id = s.nextTimelockId.getD 1 ∧
      s' = { s.guarded e pauseNameConfig with
        timelockProposal := s.timelockProposal.set id
          ⟨id, action, saturatingAddU64 e.timestamp delay, .scheduled, e.timestamp, admin⟩
        nextTimelockId := some (id + 1) } := by
  simp only [scheduleAction, bind_eq_ok, checkNotPaused_eq_ok, requireAdmin_eq_ok, rejectIf_eq_ok,
    addU64_eq_ok, Except.ok.injEq, Prod.mk.injEq] at ok
  obtain ⟨_, ⟨_, rfl⟩, admin, ⟨isAdmin, signed⟩, _, delayed, _, ⟨_, rfl⟩, rfl, rfl⟩ := ok
  exact ⟨admin, isAdmin, signed, Nat.le_of_not_lt delayed, rfl, rfl⟩

/-- An execution is due, not expired, and puts the action into effect. -/
theorem executeAction_window {id : Nat} (ok : executeAction e s id = .ok s') :
    ∃ p, s.timelockProposal id = some p ∧ timelockApi.inEffect p.action s' ∧
      p.eta ≤ e.timestamp ∧
      e.timestamp ≤ saturatingAddU64 p.eta (getTimelockConfig s).gracePeriod := by
  simp only [executeAction, bind_eq_ok, orReject_eq_ok, rejectIf_eq_ok] at ok
  obtain ⟨p, found, _, _, _, due, _, fresh, ok⟩ := ok
  refine ⟨p, found, ?_, Nat.le_of_not_lt due, Nat.le_of_not_lt fresh⟩
  cases action : p.action with
  | setRegistryContract newRegistryId =>
    simp only [action, bind_eq_ok, Except.ok.injEq] at ok
    obtain ⟨_, _, _, rfl, rfl⟩ := ok
    rfl
  | setAdmin newAdmin =>
    simp only [action] at ok
    obtain ⟨_, rfl, rfl⟩ := ok
    rfl

/-- Every accepted call is a turn at the desk. -/
theorem desk_turn (ok : exec e s c = .ok (v, s')) :
    (timelockApi.desk s).Turn (timelockEvent ⟨s, e, c, v⟩) (timelockApi.desk s') := by
  cases c with
  | scheduleAction action delay =>
    obtain ⟨id, accepted, rfl⟩ := returning_eq_ok.mp ok
    obtain ⟨admin, isAdmin, -, -, rfl, rfl⟩ := scheduleAction_ok accepted
    simp only [timelockEvent, isAdmin]
    exact TimelockApi.desk_scheduled rfl rfl rfl rfl
  | executeAction id =>
    cases exec_effect ok with
    | register name call => cases call
    | executeRegistry p newRegistryId found scheduled =>
      exact TimelockApi.desk_closed found scheduled rfl rfl rfl ProposalStatus.noConfusion
    | executeAdmin p newAdmin found scheduled =>
      exact TimelockApi.desk_closed found scheduled rfl rfl rfl ProposalStatus.noConfusion
  | cancelAction id =>
    cases exec_effect ok with
    | register name call => cases call
    | cancelAction p found scheduled =>
      exact TimelockApi.desk_closed found scheduled rfl rfl rfl ProposalStatus.noConfusion
  | _ =>
    cases exec_effect ok with
    | register => exact .idle
    | _ => exact .idle

theorem runsTimelock : RunsTimelock contract timelockApi timelockEvent where
  start := rfl
  keeps _ _ _ _ _ _ ok := desk_turn ok
  schedules ok := by
    obtain ⟨id, accepted, rfl⟩ := returning_eq_ok.mp ok
    obtain ⟨admin, isAdmin, -, delayed, -, -⟩ := scheduleAction_ok accepted
    refine ⟨delayed, id, admin, rfl, ?_⟩
    simp only [timelockEvent, timelockApi, isAdmin]
  issues issued := by
    unfold timelockEvent at issued
    split at issued
    · next action delay _ _ call _ _ => exact ⟨action, delay, call⟩
    · cases issued
    · cases issued
    · cases issued
  executes call := by
    simp only [timelockApi] at call
    simp only [timelockEvent, call]
  cancels call := by
    simp only [timelockApi] at call
    simp only [timelockEvent, call]
  returned_injective same := Value.id.inj same
  window ok := by
    obtain ⟨accepted, -⟩ := silent_eq_ok.mp ok
    exact executeAction_window accepted

end Talos.NameService

namespace Talos

open Talos.Soroban Talos.AdminControls

/-- In every run of the registry and of the name service, ids of proposals
increase, a proposal is closed at most once, it was scheduled with at least the
minimum delay of that moment, and it is executed inside its window or nothing
happens. -/
theorem timelock_proposals :
    (∀ h s, Run Registry.contract h s → ProposalLaws Registry.contract Registry.timelockApi h s) ∧
    (∀ h s, Run NameService.contract h s →
      ProposalLaws NameService.contract NameService.timelockApi h s) :=
  ⟨fun _ _ run => Registry.runsTimelock.laws run, fun _ _ run => NameService.runsTimelock.laws run⟩

/-- In the registry, a fee is scheduled at time 0 with a delay of 100. -/
def Registry.scheduledRun :
    List (Entry Registry.Remote Registry.Storage Registry.Call Registry.Value) × Registry.Storage :=
  Registry.contract.play
    ([.initializeContract ⟨0⟩, .setTimelockConfig 60 1000, .scheduleAction (.setProtocolFee 500) 100].map
      fun call => (Registry.atTime 0, call))
    ([], Registry.contract.init)

/-- In the name service, a registry is scheduled at time 0 with a delay of 100. -/
def NameService.scheduledRun :
    List (Entry NameService.Remote NameService.Storage NameService.Call NameService.Value) ×
      NameService.Storage :=
  NameService.contract.play
    ([.initializeContract ⟨7⟩ ⟨0⟩ 0, .setTimelockConfig 60 1000,
      .scheduleAction (.setRegistryContract ⟨9⟩) 100].map
      fun call => (NameService.atTime 0, call))
    ([], NameService.contract.init)

/-- Both proposals are executed at time 100, inside their windows. -/
theorem timelock_proposals_executed :
    (∃ v s', Registry.exec (Registry.atTime 100) Registry.scheduledRun.2 (.executeAction 1) =
        .ok (v, s') ∧
      ∃ p, Registry.timelockApi.proposals Registry.scheduledRun.2 1 = some p ∧
        Registry.timelockApi.inEffect p.action s' ∧ p.eta ≤ 100 ∧
        100 ≤ saturatingAddU64 p.eta (Registry.getTimelockConfig Registry.scheduledRun.2).gracePeriod) ∧
    (∃ v s', NameService.exec (NameService.atTime 100) NameService.scheduledRun.2
        (.executeAction 1) = .ok (v, s') ∧
      ∃ p, NameService.timelockApi.proposals NameService.scheduledRun.2 1 = some p ∧
        NameService.timelockApi.inEffect p.action s' ∧ p.eta ≤ 100 ∧
        100 ≤ saturatingAddU64 p.eta
          (NameService.getTimelockConfig NameService.scheduledRun.2).gracePeriod) := by
  constructor
  · obtain ⟨v, s', ok⟩ : ∃ v s', Registry.exec (Registry.atTime 100) Registry.scheduledRun.2
        (.executeAction 1) = .ok (v, s') := ⟨_, _, rfl⟩
    exact ⟨v, s', ok,
      (timelock_proposals.1 _ _ (Contract.play_steps .refl _)).window _ 1 _ _ ok⟩
  · obtain ⟨v, s', ok⟩ : ∃ v s', NameService.exec (NameService.atTime 100)
        NameService.scheduledRun.2 (.executeAction 1) = .ok (v, s') := ⟨_, _, rfl⟩
    exact ⟨v, s', ok,
      (timelock_proposals.2 _ _ (Contract.play_steps .refl _)).window _ 1 _ _ ok⟩

end Talos
