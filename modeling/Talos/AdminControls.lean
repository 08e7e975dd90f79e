import Talos.Soroban.Contract

/-!
# admin_controls

Timelock and guardian helpers shared by the registry and the name service
(`contracts/admin_controls`). The helpers are stateless; each contract keeps its
own keys and calls them (the name service repeats some of them inline).
-/

namespace Talos.AdminControls

open Talos.Soroban

variable {R E : Type}

def defaultGracePeriod : Nat := 604800

/-- 30 days. -/
def maxMinDelay : Nat := 2592000

/-- 7 days. -/
def maxGuardianPauseSecs : Nat := 604800

/-- 30 days. -/
def maxAdminPauseSecs : Nat := 2592000

def maxGuardians : Nat := 10

structure TimelockConfig where
  minDelay : Nat
  gracePeriod : Nat
deriving DecidableEq, Repr

inductive ProposalStatus where
  | scheduled
  | executed
  | cancelled
deriving DecidableEq, Repr

/-- A scheduled administrative action. Each contract has its own `AdminAction`
enumeration `A` and otherwise the same record. -/
structure TimelockProposal (A : Type) where
  id : Nat
  action : A
  eta : Nat
  status : ProposalStatus
  scheduledAt : Nat
  scheduledBy : Address
deriving DecidableEq, Repr

def validateTimelockConfig (minDelay gracePeriod : Nat) : Outcome E Unit := do
  rejectIf (gracePeriod = 0) (.panic "Grace period must be positive")
  rejectIf (minDelay > maxMinDelay) (.panic "Min delay exceeds maximum limit")

def validateDelay (delay : Nat) (config : TimelockConfig) : Outcome E Unit :=
  rejectIf (delay < config.minDelay) (.panic "Delay less than minimum required delay")

/-- `now` is inside `[eta, eta + grace_period]`, the upper end saturating. -/
def validateExecutable (e : Env R) (eta gracePeriod : Nat) : Outcome E Unit := do
  rejectIf (e.timestamp < eta) (.panic "Timelock delay not met")
  rejectIf (e.timestamp > saturatingAddU64 eta gracePeriod) (.panic "Proposal expired")

def isGuardian (list : List Address) (addr : Address) : Bool := list.any (· == addr)

/-- Expiry of a pause set now: `0` for an indefinite (admin only) pause. -/
def computeExpiresAt (e : Env R) (isAdmin : Bool) (duration : Nat) : Outcome E Nat :=
  if isAdmin then
    if duration = 0 then .ok 0
    else do
      rejectIf (duration > maxAdminPauseSecs) (.panic "Duration exceeds admin maximum")
      .ok (saturatingAddU64 e.timestamp duration)
  else do
    rejectIf (duration = 0 ∨ duration > maxGuardianPauseSecs)
      (.panic "Guardian pause duration out of bounds")
    .ok (saturatingAddU64 e.timestamp duration)

end Talos.AdminControls
