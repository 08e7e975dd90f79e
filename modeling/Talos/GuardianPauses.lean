import Talos.Registry.Effects
import Talos.NameService.Effects

/-!
# Guardians and the pauses of the admin

The registry and the name service let the admin and the guardians write the same pause record of a
domain. A guardian is turned away if the record names the admin of now, whether or not the pause is
still in force and whoever the admin was when it was set. What has to be told apart is told by the
history: who set the last pause, and whether that was the admin then.
-/

namespace Talos.AdminControls

open Talos.Soroban

/-! ### Contracts with emergency pauses -/

inductive PauseCall (D : Type) where
  | pause (caller : Address) (domain : D) (duration : Nat)
  | unpause (domain : D)

/-- The expiry of a pause set at `now`, `0` for an indefinite one. -/
def pauseExpiry (now duration : Nat) : Nat :=
  if duration = 0 then 0 else saturatingAddU64 now duration

/-- The bound on the pauses of guardians. -/
def Bounded (duration : Nat) : Prop := 0 < duration ∧ duration ≤ maxGuardianPauseSecs

/-- What the caller of `pause` must be, and what the duration. -/
def MayPause (admin caller : Address) (guardians : List Address) (locked : Prop) (duration : Nat) :
    Prop :=
  caller = admin ∧ duration ≤ maxAdminPauseSecs ∨
    caller ≠ admin ∧ caller ∈ guardians ∧ ¬ locked ∧ Bounded duration

/-- The record of a domain after an accepted call. -/
def recordAfter {D : Type} [DecidableEq D] (now : Nat) (domain : D)
    (before : Option (Address × Nat)) : Option (PauseCall D) → Option (Address × Nat)
  | some (.pause caller d duration) =>
      if d = domain then some (caller, pauseExpiry now duration) else before
  | some (.unpause d) => if d = domain then none else before
  | none => before

/-- A contract whose admin and guardians pause domains. A record is the address that set the pause
and its expiry. -/
structure EmergencyPauses {R σ C ρ E : Type} (m : Contract R σ C ρ E) (D : Type)
    [DecidableEq D] where
  admin : σ → Option Address
  guardians : σ → List Address
  record : σ → D → Option (Address × Nat)
  pause : Address → D → Nat → C
  view : C → Option (PauseCall D)
  view_pause : ∀ caller domain duration,
    view (pause caller domain duration) = some (.pause caller domain duration)
  initial : ∀ domain, record m.init domain = none
  accepts : ∀ e s caller domain duration,
    (∃ v s', m.exec e s (pause caller domain duration) = .ok (v, s')) ↔
      e.auth caller = true ∧ ∃ a, admin s = some a ∧
        MayPause a caller (guardians s) (∃ r ∈ record s domain, r.1 = a) duration
  writes : ∀ e s c v s', m.exec e s c = .ok (v, s') → ∀ domain,
    record s' domain = recordAfter e.timestamp domain (record s domain) (view c)

/-! ### What the history says -/

structure Pause where
  caller : Address
  byAdmin : Bool
  expiresAt : Nat
deriving DecidableEq, Repr

def Pause.inForce (now : Nat) (p : Pause) : Bool := p.expiresAt == 0 || decide (now < p.expiresAt)

namespace EmergencyPauses

variable {R σ C ρ E D : Type} [DecidableEq D] {m : Contract R σ C ρ E}
  (pauses : EmergencyPauses m D)

/-- The last accepted pause of a domain, unless it was lifted since. -/
def lastPause : List (Entry R σ C ρ) → D → Option Pause
  | [], _ => none
  | r :: earlier, domain =>
      match pauses.view r.call with
      | some (.pause caller d duration) =>
          if d = domain then
            some ⟨caller, decide (pauses.admin r.pre = some caller),
              pauseExpiry r.env.timestamp duration⟩
          else lastPause earlier domain
      | some (.unpause d) => if d = domain then none else lastPause earlier domain
      | none => lastPause earlier domain

/-- A pause that the admin of its time set is in force. -/
def adminPaused (h : List (Entry R σ C ρ)) (domain : D) (now : Nat) : Bool :=
  (pauses.lastPause h domain).any fun p => p.byAdmin && p.inForce now

/-- A guardian that is not the admin calls. -/
structure GuardianCall (e : Env R) (s : σ) (caller : Address) : Prop where
  signed : e.auth caller = true
  guardian : caller ∈ pauses.guardians s
  notAdmin : ∃ a, pauses.admin s = some a ∧ caller ≠ a

/-- While a pause of the admin is in force its expiry stays, and otherwise a guardian within its
bound is heard. -/
def Respects (h : List (Entry R σ C ρ)) (e : Env R) (s : σ) (caller : Address) (domain : D)
    (duration : Nat) : Prop :=
  (pauses.adminPaused h domain e.timestamp = true →
    (pauses.record (m.submit e (pauses.pause caller domain duration) s) domain).map Prod.snd =
      (pauses.record s domain).map Prod.snd) ∧
  (pauses.adminPaused h domain e.timestamp = false → Bounded duration →
    ∃ v s', m.exec e s (pauses.pause caller domain duration) = .ok (v, s'))

/-- The pauser of the last pause is the admin now. -/
def SetByAdminOfNow (h : List (Entry R σ C ρ)) (s : σ) (domain : D) : Prop :=
  ∃ p ∈ pauses.lastPause h domain, pauses.admin s = some p.caller

/-- The guardian asks for the expiry there is. -/
def SameExpiry (h : List (Entry R σ C ρ)) (e : Env R) (domain : D) (duration : Nat) : Prop :=
  ∃ p ∈ pauses.lastPause h domain, p.expiresAt = pauseExpiry e.timestamp duration

/-- The stored record is the one of the last pause. -/
theorem record_of_run {h : List (Entry R σ C ρ)} {s : σ} (run : Run m h s) (domain : D) :
    pauses.record s domain = (pauses.lastPause h domain).map fun p => (p.caller, p.expiresAt) := by
  induction run with
  | refl => exact pauses.initial domain
  | @step h t t' e c v run ok ih =>
    rw [pauses.writes e t c v t' ok domain, lastPause]
    cases seen : pauses.view c with
    | none => exact ih
    | some call =>
      cases call with
      | pause caller d duration =>
        by_cases same : d = domain
        · simp only [recordAfter, if_pos same, Option.map_some]
        · simp only [recordAfter, if_neg same]
          exact ih
      | unpause d =>
        by_cases same : d = domain
        · simp only [recordAfter, if_pos same, Option.map_none]
        · simp only [recordAfter, if_neg same]
          exact ih

variable {pauses} {h : List (Entry R σ C ρ)} {e : Env R} {s : σ} {caller : Address} {domain : D}
  {duration : Nat}

theorem setByAdminOfNow_iff (run : Run m h s) {a : Address} (isAdmin : pauses.admin s = some a) :
    pauses.SetByAdminOfNow h s domain ↔ ∃ r ∈ pauses.record s domain, r.1 = a := by
  rw [pauses.record_of_run run, SetByAdminOfNow, isAdmin]
  constructor
  · rintro ⟨p, last, same⟩
    exact ⟨_, Option.mem_map_of_mem _ last, (Option.some.inj same).symm⟩
  · rintro ⟨r, mem, rfl⟩
    obtain ⟨p, last, rfl⟩ := Option.map_eq_some_iff.mp mem
    exact ⟨p, last, rfl⟩

/-- A guardian is turned away by the lock and by its bound only. -/
theorem GuardianCall.accepted_iff (call : pauses.GuardianCall e s caller) (run : Run m h s) :
    (∃ v s', m.exec e s (pauses.pause caller domain duration) = .ok (v, s')) ↔
      ¬ pauses.SetByAdminOfNow h s domain ∧ Bounded duration := by
  obtain ⟨a, isAdmin, notAdmin⟩ := call.notAdmin
  rw [pauses.accepts, setByAdminOfNow_iff run isAdmin]
  constructor
  · rintro ⟨-, a', isAdmin', allowed⟩
    obtain rfl := Option.some.inj (isAdmin.symm.trans isAdmin')
    rcases allowed with ⟨same, -⟩ | ⟨-, -, unlocked, bounded⟩
    · exact absurd same notAdmin
    · exact ⟨unlocked, bounded⟩
  · rintro ⟨unlocked, bounded⟩
    exact ⟨call.signed, a, isAdmin, .inr ⟨notAdmin, call.guardian, unlocked, bounded⟩⟩

/-- A rejected pause changes no record. -/
theorem record_of_rejected
    (rejected : ¬ ∃ v s', m.exec e s (pauses.pause caller domain duration) = .ok (v, s')) :
    pauses.record (m.submit e (pauses.pause caller domain duration) s) domain =
      pauses.record s domain := by
  cases executed : m.exec e s (pauses.pause caller domain duration) with
  | error t => rw [Contract.submit_of_error executed]
  | ok result => exact absurd ⟨_, _, executed⟩ rejected

/-- While a pause of the admin is in force, its expiry stays if the lock holds, the guardian is out
of its bound or it asks for the same. -/
theorem GuardianCall.keeps_iff (call : pauses.GuardianCall e s caller) (run : Run m h s)
    (paused : pauses.adminPaused h domain e.timestamp = true) :
    (pauses.record (m.submit e (pauses.pause caller domain duration) s) domain).map Prod.snd =
        (pauses.record s domain).map Prod.snd ↔
      (Bounded duration →
        pauses.SetByAdminOfNow h s domain ∨ pauses.SameExpiry h e domain duration) := by
  by_cases accepted : ¬ pauses.SetByAdminOfNow h s domain ∧ Bounded duration
  · obtain ⟨v, s', ok⟩ := (call.accepted_iff run).mpr accepted
    obtain ⟨p, last, -⟩ := (Option.any_eq_true _ _).mp paused
    have written := pauses.writes e s _ v s' ok domain
    rw [pauses.view_pause] at written
    simp only [recordAfter, if_true] at written
    rw [Contract.submit_of_ok ok, written, pauses.record_of_run run, last]
    simp only [Option.map_some, Option.some.injEq, accepted.1, accepted.2, forall_const, false_or,
      SameExpiry, last, Option.mem_def, exists_eq_left']
    exact eq_comm
  · refine iff_of_true ?_ ?_
    · rw [record_of_rejected (mt (call.accepted_iff run).mp accepted)]
    · intro bounded
      exact .inl (by_contra fun unlocked => accepted ⟨unlocked, bounded⟩)

/-- A guardian's call respects the pauses of the admin, and is heard otherwise, exactly if it is out
of its bound, the last pause was set by the admin of now just when a pause of the admin is in force,
or the guardian asks for the expiry there is. -/
theorem GuardianCall.respects_iff (call : pauses.GuardianCall e s caller) (run : Run m h s) :
    pauses.Respects h e s caller domain duration ↔
      (Bounded duration →
        (pauses.adminPaused h domain e.timestamp = true ↔ pauses.SetByAdminOfNow h s domain) ∨
        pauses.adminPaused h domain e.timestamp = true ∧
          pauses.SameExpiry h e domain duration) := by
  rw [Respects, call.accepted_iff run]
  cases paused : pauses.adminPaused h domain e.timestamp with
  | true =>
    rw [call.keeps_iff run paused]
    simp only [true_iff, forall_const, reduceCtorEq, false_imp_iff, and_true, true_and]
  | false =>
    simp only [reduceCtorEq, false_imp_iff, forall_const, true_and, false_iff, false_and, or_false]
    constructor
    · intro heard bounded
      exact (heard bounded).1
    · intro unlocked bounded
      exact ⟨unlocked bounded, bounded⟩

end EmergencyPauses

end Talos.AdminControls

/-! ### The duration rules -/

namespace Talos.AdminControls

open Talos.Soroban

variable {R E : Type} {e : Env R} {duration expiresAt : Nat}

/-- The duration an admin or a guardian may ask for. -/
def DurationAllowed (isAdmin : Bool) (duration : Nat) : Prop :=
  isAdmin = true ∧ duration ≤ maxAdminPauseSecs ∨ isAdmin = false ∧ Bounded duration

/-- The two contracts reject other durations with their own errors. -/
theorem durationRule_eq_ok {isAdmin : Bool} {tooLong outOfBounds : Trap E} :
    ((if isAdmin then
        if duration = 0 then .ok 0
        else do
          rejectIf (duration > maxAdminPauseSecs) tooLong
          .ok (saturatingAddU64 e.timestamp duration)
      else do
        rejectIf (duration = 0 ∨ duration > maxGuardianPauseSecs) outOfBounds
        .ok (saturatingAddU64 e.timestamp duration) : Outcome E Nat)) = .ok expiresAt ↔
      DurationAllowed isAdmin duration ∧ expiresAt = pauseExpiry e.timestamp duration := by
  cases isAdmin with
  | true =>
    by_cases indefinite : duration = 0
    · simp [DurationAllowed, pauseExpiry, indefinite, eq_comm (b := expiresAt)]
    · simp [DurationAllowed, pauseExpiry, indefinite, bind_eq_ok, eq_comm (b := expiresAt)]
  | false =>
    by_cases indefinite : duration = 0
    · simp [DurationAllowed, Bounded, indefinite]
    · simp [DurationAllowed, Bounded, pauseExpiry, indefinite, bind_eq_ok,
        eq_comm (b := expiresAt), Nat.pos_iff_ne_zero]

theorem computeExpiresAt_eq_ok {isAdmin : Bool} :
    (computeExpiresAt e isAdmin duration : Outcome E Nat) = .ok expiresAt ↔
      DurationAllowed isAdmin duration ∧ expiresAt = pauseExpiry e.timestamp duration :=
  durationRule_eq_ok

theorem mayPause_iff {admin caller : Address} {guardians : List Address} {locked : Prop} :
    MayPause admin caller guardians locked duration ↔
      ¬ (decide (caller = admin) = false ∧ isGuardian guardians caller = false) ∧
      ¬ (decide (caller = admin) = false ∧ locked) ∧
        DurationAllowed (decide (caller = admin)) duration := by
  by_cases same : caller = admin
  · simp [MayPause, DurationAllowed, same]
  · simp [MayPause, DurationAllowed, isGuardian, same]

end Talos.AdminControls

/-! ### The registry -/

namespace Talos.Registry

open Talos.Soroban Talos.AdminControls

variable {e : Env Remote} {s s' : Storage} {c : Call} {v : Value}

theorem pause_eq_ok {caller : Address} {domain : PauseDomain} {duration : Nat} :
    pause e s caller domain duration = .ok s' ↔
      e.auth caller = true ∧ ∃ admin, s.protocolWallet = some admin ∧
        MayPause admin caller (getGuardians s)
          (∃ existing ∈ s.pauseState domain, existing.pausedBy = admin) duration ∧
        s' = { s with
          pauseState := s.pauseState.set domain
            ⟨caller, e.timestamp, pauseExpiry e.timestamp duration⟩ } := by
  simp only [pause, applyPause, bind_eq_ok, requireAuth_eq_ok, orReject_eq_ok, rejectIf_eq_ok,
    computeExpiresAt_eq_ok, Except.ok.injEq, mayPause_iff]
  constructor
  · rintro ⟨_, signed, admin, isAdmin, _, known, _, unlocked, _, ⟨allowed, rfl⟩, rfl⟩
    exact ⟨signed, admin, isAdmin, ⟨known, unlocked, allowed⟩, rfl⟩
  · rintro ⟨signed, admin, isAdmin, ⟨known, unlocked, allowed⟩, rfl⟩
    exact ⟨(), signed, admin, isAdmin, (), known, (), unlocked, _, ⟨allowed, rfl⟩, rfl⟩

/-- The address and the expiry of the pause record of a domain. -/
def pauseRecord (s : Storage) (domain : PauseDomain) : Option (Address × Nat) :=
  (s.pauseState domain).map fun state => (state.pausedBy, state.expiresAt)

def Call.pauseCall : Call → Option (PauseCall PauseDomain)
  | .pause caller domain duration => some (.pause caller domain duration)
  | .unpause domain => some (.unpause domain)
  | _ => none

theorem pauseState_of_other (ok : exec e s c = .ok (v, s')) (other : c.pauseCall = none) :
    s'.pauseState = s.pauseState := by
  cases exec_effect ok with
  | pause => cases other
  | unpause => cases other
  | _ => rfl

theorem lockedBy_iff {domain : PauseDomain} {admin : Address} :
    (∃ r ∈ pauseRecord s domain, r.1 = admin) ↔
      ∃ existing ∈ s.pauseState domain, existing.pausedBy = admin := by
  simp [pauseRecord, Option.mem_def]

theorem pauseState_of_unpause {domain : PauseDomain}
    (ok : exec e s (.unpause domain) = .ok (v, s')) :
    s'.pauseState = s.pauseState.remove domain := by
  cases exec_effect ok with
  | unpause => rfl
  | edit t t' edits => cases edits
  | migrated version config schema call =>
    rcases call with call | ⟨_, call⟩
    · cases call
    · cases call

theorem pauseRecord_of_ok (ok : exec e s c = .ok (v, s')) (domain : PauseDomain) :
    pauseRecord s' domain =
      recordAfter e.timestamp domain (pauseRecord s domain) c.pauseCall := by
  cases c with
  | pause caller d duration =>
    obtain ⟨accepted, -⟩ := silent_eq_ok.mp ok
    obtain ⟨-, admin, -, -, rfl⟩ := pause_eq_ok.mp accepted
    by_cases same : d = domain
    · simp [pauseRecord, Call.pauseCall, recordAfter, same]
    · simp [pauseRecord, Call.pauseCall, recordAfter, same, Map.set_of_ne _ _ (Ne.symm same)]
  | unpause d =>
    rw [pauseRecord, pauseState_of_unpause ok]
    by_cases same : d = domain
    · simp [Call.pauseCall, recordAfter, same]
    · simp [pauseRecord, Call.pauseCall, recordAfter, same, Map.remove_of_ne _ (Ne.symm same)]
  | _ => exact congrArg _ (congrFun (pauseState_of_other ok rfl) domain)

def pauses : EmergencyPauses contract PauseDomain where
  admin s := s.protocolWallet
  guardians := getGuardians
  record := pauseRecord
  pause := .pause
  view := Call.pauseCall
  view_pause _ _ _ := rfl
  initial _ := rfl
  accepts e s caller domain duration := by
    have dispatched : contract.exec e s (.pause caller domain duration) =
      silent .unit (pause e s caller domain duration) := rfl
    simp only [dispatched, silent_eq_ok, pause_eq_ok, lockedBy_iff]
    constructor
    · rintro ⟨_, _, ⟨signed, admin, isAdmin, allowed, -⟩, -⟩
      exact ⟨signed, admin, isAdmin, allowed⟩
    · rintro ⟨signed, admin, isAdmin, allowed⟩
      exact ⟨_, _, ⟨signed, admin, isAdmin, allowed, rfl⟩, rfl⟩
  writes e s c v s' ok domain := pauseRecord_of_ok ok domain

end Talos.Registry

/-! ### The name service -/

namespace Talos.NameService

open Talos.Soroban Talos.AdminControls

variable {e : Env Remote} {s s' : Storage} {c : Call} {v : Value}

theorem pauseExpiresAt_eq_ok {isAdminCaller : Bool} {duration expiresAt : Nat} :
    pauseExpiresAt e isAdminCaller duration = .ok expiresAt ↔
      DurationAllowed isAdminCaller duration ∧ expiresAt = pauseExpiry e.timestamp duration :=
  durationRule_eq_ok

theorem pause_eq_ok {caller : Address} {domain : PauseDomain} {duration : Nat} :
    pause e s caller domain duration = .ok s' ↔
      e.auth caller = true ∧ ∃ admin, s.admin = some admin ∧
        MayPause admin caller (getGuardians s)
          (∃ existing ∈ s.pauseState domain, existing.pausedBy = admin) duration ∧
        s' = { s with
          pauseState := s.pauseState.set domain
            ⟨caller, e.timestamp, pauseExpiry e.timestamp duration⟩ } := by
  simp only [pause, bind_eq_ok, requireAuth_eq_ok, orReject_eq_ok, rejectIf_eq_ok,
    pauseExpiresAt_eq_ok, Except.ok.injEq, mayPause_iff]
  constructor
  · rintro ⟨_, signed, admin, isAdmin, _, known, _, unlocked, _, ⟨allowed, rfl⟩, rfl⟩
    exact ⟨signed, admin, isAdmin, ⟨known, unlocked, allowed⟩, rfl⟩
  · rintro ⟨signed, admin, isAdmin, ⟨known, unlocked, allowed⟩, rfl⟩
    exact ⟨(), signed, admin, isAdmin, (), known, (), unlocked, _, ⟨allowed, rfl⟩, rfl⟩

/-- The address and the expiry of the pause record of a domain. -/
def pauseRecord (s : Storage) (domain : PauseDomain) : Option (Address × Nat) :=
  (s.pauseState domain).map fun state => (state.pausedBy, state.expiresAt)

def Call.pauseCall : Call → Option (PauseCall PauseDomain)
  | .pause caller domain duration => some (.pause caller domain duration)
  | .unpause domain => some (.unpause domain)
  | _ => none

theorem pauseState_of_other (ok : exec e s c = .ok (v, s')) (other : c.pauseCall = none) :
    s'.pauseState = s.pauseState := by
  cases exec_effect ok with
  | pause => cases other
  | unpause => cases other
  | _ => rfl

theorem lockedBy_iff {domain : PauseDomain} {admin : Address} :
    (∃ r ∈ pauseRecord s domain, r.1 = admin) ↔
      ∃ existing ∈ s.pauseState domain, existing.pausedBy = admin := by
  simp [pauseRecord, Option.mem_def]

theorem pauseState_of_unpause {domain : PauseDomain}
    (ok : exec e s (.unpause domain) = .ok (v, s')) :
    s'.pauseState = s.pauseState.remove domain := by
  cases exec_effect ok with
  | unpause => rfl
  | register name call => cases call

theorem pauseRecord_of_ok (ok : exec e s c = .ok (v, s')) (domain : PauseDomain) :
    pauseRecord s' domain =
      recordAfter e.timestamp domain (pauseRecord s domain) c.pauseCall := by
  cases c with
  | pause caller d duration =>
    obtain ⟨accepted, -⟩ := silent_eq_ok.mp ok
    obtain ⟨-, admin, -, -, rfl⟩ := pause_eq_ok.mp accepted
    -- There is one domain.
    cases d
    cases domain
    simp [pauseRecord, Call.pauseCall, recordAfter]
  | unpause d =>
    rw [pauseRecord, pauseState_of_unpause ok]
    cases d
    cases domain
    simp [Call.pauseCall, recordAfter]
  | _ => exact congrArg _ (congrFun (pauseState_of_other ok rfl) domain)

def pauses : EmergencyPauses contract PauseDomain where
  admin s := s.admin
  guardians := getGuardians
  record := pauseRecord
  pause := .pause
  view := Call.pauseCall
  view_pause _ _ _ := rfl
  initial _ := rfl
  accepts e s caller domain duration := by
    have dispatched : contract.exec e s (.pause caller domain duration) =
      silent .unit (pause e s caller domain duration) := rfl
    simp only [dispatched, silent_eq_ok, pause_eq_ok, lockedBy_iff]
    constructor
    · rintro ⟨_, _, ⟨signed, admin, isAdmin, allowed, -⟩, -⟩
      exact ⟨signed, admin, isAdmin, allowed⟩
    · rintro ⟨signed, admin, isAdmin, allowed⟩
      exact ⟨_, _, ⟨signed, admin, isAdmin, allowed, rfl⟩, rfl⟩
  writes e s c v s' ok domain := pauseRecord_of_ok ok domain

end Talos.NameService

/-! ### Both contracts -/

namespace Talos

open Talos.Soroban Talos.AdminControls

/-- After every run of either contract, a guardian's call respects the pauses of the admin, and is
heard otherwise, exactly if it is out of its bound, the last pause was set by the admin of now just
when a pause of the admin is in force, or the guardian asks for the expiry there is. -/
theorem guardian_respects_iff
    {h : List (Entry Registry.Remote Registry.Storage Registry.Call Registry.Value)}
    {s : Registry.Storage} (run : Run Registry.contract h s)
    {h' : List (Entry NameService.Remote NameService.Storage NameService.Call NameService.Value)}
    {s' : NameService.Storage} (run' : Run NameService.contract h' s') :
    (∀ e caller domain duration, Registry.pauses.GuardianCall e s caller →
      (Registry.pauses.Respects h e s caller domain duration ↔ (Bounded duration →
        (Registry.pauses.adminPaused h domain e.timestamp = true ↔
          Registry.pauses.SetByAdminOfNow h s domain) ∨
        Registry.pauses.adminPaused h domain e.timestamp = true ∧
          Registry.pauses.SameExpiry h e domain duration))) ∧
    ∀ e caller domain duration, NameService.pauses.GuardianCall e s' caller →
      (NameService.pauses.Respects h' e s' caller domain duration ↔ (Bounded duration →
        (NameService.pauses.adminPaused h' domain e.timestamp = true ↔
          NameService.pauses.SetByAdminOfNow h' s' domain) ∨
        NameService.pauses.adminPaused h' domain e.timestamp = true ∧
          NameService.pauses.SameExpiry h' e domain duration)) :=
  ⟨fun _ _ _ _ call => call.respects_iff run, fun _ _ _ _ call => call.respects_iff run'⟩

/-! ### A lock that passes with the admin, and one that outlasts the pause -/

def Registry.closingAt (time : Nat) : Env Registry.Remote := ⟨time, 0, fun _ => true, ⟨[]⟩⟩

def NameService.closingAt (time : Nat) : Env NameService.Remote :=
  ⟨time, 0, fun _ => true, ⟨fun _ _ => none, fun _ _ => none, fun _ _ _ _ => none⟩⟩

/-- Admin 0 makes 5 a guardian and pauses creations for the duration. -/
def Registry.paused (duration : Nat) :
    List (Entry Registry.Remote Registry.Storage Registry.Call Registry.Value) × Registry.Storage :=
  Registry.contract.play
    ([.initializeContract ⟨0⟩, .addGuardian ⟨5⟩, .pause ⟨0⟩ .talosCreation duration].map
      fun call => (Registry.closingAt 100, call))
    ([], Registry.contract.init)

/-- The office passes to 1. -/
def Registry.pausedAndHandedOver :
    List (Entry Registry.Remote Registry.Storage Registry.Call Registry.Value) × Registry.Storage :=
  Registry.contract.play
    ([.proposeAdmin ⟨1⟩, .acceptAdmin].map fun call => (Registry.closingAt 100, call))
    (Registry.paused 0)

/-- Admin 0 makes 5 a guardian and pauses registrations for the duration. -/
def NameService.paused (duration : Nat) :
    List (Entry NameService.Remote NameService.Storage NameService.Call NameService.Value) ×
      NameService.Storage :=
  NameService.contract.play
    ([.initializeContract ⟨7⟩ ⟨0⟩ 0, .addGuardian ⟨5⟩,
      .pause ⟨0⟩ .nameRegistration duration].map fun call => (NameService.closingAt 100, call))
    ([], NameService.contract.init)

/-- The office passes to 1. -/
def NameService.pausedAndHandedOver :
    List (Entry NameService.Remote NameService.Storage NameService.Call NameService.Value) ×
      NameService.Storage :=
  NameService.contract.play [(NameService.closingAt 100, .setAdmin ⟨1⟩)] (NameService.paused 0)

/-- The pause of an admin that is still in office is respected. -/
theorem guardian_respects_iff_inOffice :
    Registry.pauses.Respects (Registry.paused 0).1 (Registry.closingAt 200)
        (Registry.paused 0).2 ⟨5⟩ .talosCreation 60 ∧
      NameService.pauses.Respects (NameService.paused 0).1 (NameService.closingAt 200)
        (NameService.paused 0).2 ⟨5⟩ .nameRegistration 60 := by
  have both := guardian_respects_iff (Contract.play_steps .refl _ : Run _ (Registry.paused 0).1 _)
    (Contract.play_steps .refl _ : Run _ (NameService.paused 0).1 _)
  constructor
  · refine (both.1 (Registry.closingAt 200) ⟨5⟩ .talosCreation 60
      ⟨rfl, by decide, ⟨0⟩, by decide, by decide⟩).mpr fun _ => .inl ?_
    exact iff_of_true (by decide) ⟨⟨⟨0⟩, true, 0⟩, rfl, rfl⟩
  · refine (both.2 (NameService.closingAt 200) ⟨5⟩ .nameRegistration 60
      ⟨rfl, by decide, ⟨0⟩, by decide, by decide⟩).mpr fun _ => .inl ?_
    exact iff_of_true (by decide) ⟨⟨⟨0⟩, true, 0⟩, rfl, rfl⟩

/-- After a handover, guardian 5 cuts the indefinite pause of admin 0 down to a second; and an hour
after a pause of admin 0 ran out, guardian 5 is still turned away. -/
theorem guardian_weakens_and_is_locked_out :
    Run Registry.contract Registry.pausedAndHandedOver.1 Registry.pausedAndHandedOver.2 ∧
    Run NameService.contract NameService.pausedAndHandedOver.1
      NameService.pausedAndHandedOver.2 ∧
    Run Registry.contract (Registry.paused 3600).1 (Registry.paused 3600).2 ∧
    Run NameService.contract (NameService.paused 3600).1 (NameService.paused 3600).2 ∧
    (Registry.pauses.GuardianCall (Registry.closingAt 200) Registry.pausedAndHandedOver.2 ⟨5⟩ ∧
      ¬ Registry.pauses.Respects Registry.pausedAndHandedOver.1 (Registry.closingAt 200)
        Registry.pausedAndHandedOver.2 ⟨5⟩ .talosCreation 1) ∧
    (NameService.pauses.GuardianCall (NameService.closingAt 200) NameService.pausedAndHandedOver.2
        ⟨5⟩ ∧
      ¬ NameService.pauses.Respects NameService.pausedAndHandedOver.1 (NameService.closingAt 200)
        NameService.pausedAndHandedOver.2 ⟨5⟩ .nameRegistration 1) ∧
    (Registry.pauses.GuardianCall (Registry.closingAt 7300) (Registry.paused 3600).2 ⟨5⟩ ∧
      ¬ Registry.pauses.Respects (Registry.paused 3600).1 (Registry.closingAt 7300)
        (Registry.paused 3600).2 ⟨5⟩ .talosCreation 60) ∧
    (NameService.pauses.GuardianCall (NameService.closingAt 7300) (NameService.paused 3600).2 ⟨5⟩ ∧
      ¬ NameService.pauses.Respects (NameService.paused 3600).1 (NameService.closingAt 7300)
        (NameService.paused 3600).2 ⟨5⟩ .nameRegistration 60) := by
  have registry (duration : Nat) : Run Registry.contract (Registry.paused duration).1
      (Registry.paused duration).2 := Contract.play_steps .refl _
  have names (duration : Nat) : Run NameService.contract (NameService.paused duration).1
      (NameService.paused duration).2 := Contract.play_steps .refl _
  refine ⟨Contract.play_steps (registry 0) _, Contract.play_steps (names 0) _, registry 3600,
    names 3600, ⟨⟨rfl, by decide, ⟨1⟩, by decide, by decide⟩, ?_⟩,
    ⟨⟨rfl, by decide, ⟨1⟩, by decide, by decide⟩, ?_⟩,
    ⟨⟨rfl, by decide, ⟨0⟩, by decide, by decide⟩, ?_⟩,
    ⟨⟨rfl, by decide, ⟨0⟩, by decide, by decide⟩, ?_⟩⟩
  · rintro ⟨keeps, -⟩
    exact absurd (keeps (by decide)) (by decide)
  · rintro ⟨keeps, -⟩
    exact absurd (keeps (by decide)) (by decide)
  · rintro ⟨-, heard⟩
    obtain ⟨v, s', ok⟩ := heard (by decide) ⟨by decide, by decide⟩
    cases ok
  · rintro ⟨-, heard⟩
    obtain ⟨v, s', ok⟩ := heard (by decide) ⟨by decide, by decide⟩
    cases ok

end Talos
