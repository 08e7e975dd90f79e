import Talos.Soroban.Contract

/-!
# pause_control

Domain-scoped pausing by numeric domain id (`contracts/pause_control`). The
guard `checkNotPaused` first writes an elapsed pause back as lifted, so a
guarded call that is accepted may change the pause record it was checked
against; `inForce` is what it decides.
-/

namespace Talos.PauseControl

open Talos.Soroban

variable {R E : Type}

structure PauseStatus where
  paused : Bool
  pausedBy : Address
  pausedAt : Nat
  /-- `0` means the pause does not expire. -/
  expiresAt : Nat
deriving DecidableEq, Repr

/-- The keys `PauseDataKey::PauseStatus(DomainId)`. -/
abbrev Store := Map Nat PauseStatus

def isPaused (s : Store) (domainId : Nat) : Bool := ((s domainId).map (·.paused)).getD false

def getPauseStatus (s : Store) (domainId : Nat) : Option PauseStatus := s domainId

def requireNotPaused (s : Store) (domainId : Nat) : Outcome E Unit :=
  rejectIf (isPaused s domainId = true) (.panic "Domain is paused")

def pauseDomain (e : Env R) (s : Store) (domainId : Nat) (authAddr : Address) (duration : Nat) :
    Outcome E Store := do
  requireAuth e authAddr
  let expiresAt ← if duration = 0 then .ok 0 else addU64 e.timestamp duration
  .ok (s.set domainId ⟨true, authAddr, e.timestamp, expiresAt⟩)

def unpauseDomain (e : Env R) (s : Store) (domainId : Nat) (authAddr : Address) :
    Outcome E Store := do
  requireAuth e authAddr
  let old ← orReject (s domainId) (.panic "Domain is not paused")
  rejectIf (old.paused = false) (.panic "Domain is not paused")
  .ok (s.set domainId ⟨false, authAddr, old.pausedAt, 0⟩)

/-- Write an elapsed pause back as lifted; the flag says whether it did. -/
def expireIfElapsed (e : Env R) (s : Store) (domainId : Nat) : Bool × Store :=
  match s domainId with
  | none => (false, s)
  | some status =>
    if status.paused = false then (false, s)
    else if status.expiresAt = 0 then (false, s)
    else if status.expiresAt ≤ e.timestamp then
      (true, s.set domainId ⟨false, status.pausedBy, status.pausedAt, 0⟩)
    else (false, s)

def checkNotPaused (e : Env R) (s : Store) (domainId : Nat) : Outcome E Store := do
  let s := (expireIfElapsed e s domainId).2
  requireNotPaused s domainId
  .ok s

/-! ### What the guard decides -/

/-- The pause record of the domain is still in force at time `now`. -/
def inForce (now : Nat) (s : Store) (domainId : Nat) : Bool :=
  match s domainId with
  | none => false
  | some status => status.paused && (status.expiresAt == 0 || decide (now < status.expiresAt))

theorem isPaused_expireIfElapsed (e : Env R) (s : Store) (domainId : Nat) :
    isPaused (expireIfElapsed e s domainId).2 domainId = inForce e.timestamp s domainId := by
  cases h : s domainId with
  | none => simp [expireIfElapsed, isPaused, inForce, h]
  | some status =>
    by_cases paused : status.paused = false
    · simp [expireIfElapsed, isPaused, inForce, h, paused]
    by_cases forever : status.expiresAt = 0
    · simp [expireIfElapsed, isPaused, inForce, h, paused, forever]
    by_cases elapsed : status.expiresAt ≤ e.timestamp
    · simp [expireIfElapsed, isPaused, inForce, h, paused, forever, elapsed]
    · simp [expireIfElapsed, isPaused, inForce, h, paused, forever, elapsed,
        Nat.lt_of_not_le elapsed]

theorem checkNotPaused_eq_ok {e : Env R} {s s' : Store} {domainId : Nat} :
    (checkNotPaused e s domainId : Outcome E Store) = .ok s' ↔
      inForce e.timestamp s domainId = false ∧ s' = (expireIfElapsed e s domainId).2 := by
  simp only [checkNotPaused, requireNotPaused, bind_eq_ok, rejectIf_eq_ok,
    isPaused_expireIfElapsed, Except.ok.injEq, Bool.not_eq_true]
  simp [eq_comm (a := s')]

/-- A domain that was never paused is never in force, and the guard leaves it so. -/
theorem expireIfElapsed_of_none (e : Env R) {s : Store} {domainId : Nat}
    (h : s domainId = none) : (expireIfElapsed e s domainId).2 = s := by
  simp [expireIfElapsed, h]

end Talos.PauseControl
