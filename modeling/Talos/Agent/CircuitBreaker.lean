import Talos.Database.Machine
import Mathlib.Algebra.Order.Ring.Rat
import Mathlib.Algebra.Order.Monoid.Unbundled.WithTop

/-!
# The circuit breaker of a provider

`ProviderCircuitBreaker` (`packages/prime-agent/src/talos_agent/circuit_breaker.py`). The
breaker opens after enough failures in a window, lets a few probes through once the
recovery timeout has passed, and closes again after enough successes. The machine runs any
sequence of its calls, by requests that were admitted and by others.

Times are in seconds on a clock that does not go back; a call that reads the clock twice
gets two times. Timeouts may be infinite. Telemetry is left out, and settings that are NaN.
-/

namespace Talos.Agent

open Database

abbrev Seconds := WithTop ℚ

inductive CircuitState where
  | closed
  | opened
  | halfOpen
  deriving DecidableEq

/-! ### Configuration -/

structure Settings where
  failureThreshold : Int
  recoveryTimeout : Seconds
  halfOpenMaxProbes : Int
  successThreshold : Int
  windowSize : Seconds
  retryBudget : Int
  backoffInitial : Seconds
  backoffMax : Seconds
  deriving DecidableEq

/-- The settings that `__post_init__` lets through. -/
structure CircuitBreakerConfig extends Settings where
  thresholds : ¬ (failureThreshold < 1 ∨ halfOpenMaxProbes < 1 ∨ successThreshold < 1)
  timeouts : ¬ (recoveryTimeout ≤ 0 ∨ windowSize ≤ 0)
  budget : ¬ retryBudget < 0
  backoff : ¬ (backoffInitial ≤ 0 ∨ backoffMax ≤ 0 ∨ backoffMax < backoffInitial)

/-- `__post_init__`. -/
def CircuitBreakerConfig.new (settings : Settings) : Except String CircuitBreakerConfig :=
  if thresholds : settings.failureThreshold < 1 ∨ settings.halfOpenMaxProbes < 1 ∨
      settings.successThreshold < 1 then
    .error "circuit thresholds and probe limits must be at least 1"
  else if timeouts : settings.recoveryTimeout ≤ 0 ∨ settings.windowSize ≤ 0 then
    .error "circuit timeouts must be greater than zero"
  else if budget : settings.retryBudget < 0 then .error "retry_budget must not be negative"
  else if backoff : settings.backoffInitial ≤ 0 ∨ settings.backoffMax ≤ 0 ∨
      settings.backoffMax < settings.backoffInitial then
    .error "backoff_initial must be positive and no greater than backoff_max"
  else .ok ⟨settings, thresholds, timeouts, budget, backoff⟩

theorem new_toSettings (config : CircuitBreakerConfig) :
    CircuitBreakerConfig.new config.toSettings = .ok config := by
  unfold CircuitBreakerConfig.new
  rw [dif_neg config.thresholds, dif_neg config.timeouts, dif_neg config.budget,
    dif_neg config.backoff]

def defaultSettings : Settings where
  failureThreshold := 5
  recoveryTimeout := ((30 : ℚ) : Seconds)
  halfOpenMaxProbes := 3
  successThreshold := 2
  windowSize := ((60 : ℚ) : Seconds)
  retryBudget := 0
  backoffInitial := ((1 / 2 : ℚ) : Seconds)
  backoffMax := ((30 : ℚ) : Seconds)

/-- `PROVIDER_DEFAULTS`, where the provider has settings of its own. -/
def providerSettings : String → Settings
  | "talos_web_api" =>
      { defaultSettings with failureThreshold := 8, recoveryTimeout := ((15 : ℚ) : Seconds) }
  | "discord" =>
      { defaultSettings with
        failureThreshold := 3
        recoveryTimeout := ((60 : ℚ) : Seconds)
        halfOpenMaxProbes := 2
        windowSize := ((120 : ℚ) : Seconds) }
  | "telegram" =>
      { defaultSettings with
        failureThreshold := 3
        recoveryTimeout := ((60 : ℚ) : Seconds)
        halfOpenMaxProbes := 2
        windowSize := ((120 : ℚ) : Seconds) }
  | "x" =>
      { defaultSettings with
        failureThreshold := 4
        recoveryTimeout := ((45 : ℚ) : Seconds)
        halfOpenMaxProbes := 2
        successThreshold := 3
        windowSize := ((90 : ℚ) : Seconds) }
  | _ => defaultSettings

/-! ### The breaker -/

structure Breaker where
  state : CircuitState
  failures : List ℚ
  halfOpenProbesUsed : Nat
  consecutiveSuccesses : Nat
  lastStateChange : ℚ
  deriving DecidableEq

def Breaker.new (now : ℚ) : Breaker := ⟨.closed, [], 0, 0, now⟩

variable (config : CircuitBreakerConfig) (b : Breaker)

/-- `now or time.monotonic()`. -/
def orMonotonic (now later : ℚ) : ℚ := if now = 0 then later else now

/-- `_transition_to`, at a time that is settled. -/
def Breaker.transitionTo (newState : CircuitState) (now : ℚ) : Breaker :=
  if b.state = newState then b
  else match newState with
    | .opened =>
        { b with state := newState, lastStateChange := now, consecutiveSuccesses := 0 }
    | .halfOpen | .closed =>
        { b with
          state := newState
          lastStateChange := now
          halfOpenProbesUsed := 0
          consecutiveSuccesses := 0 }

/-- `_prune_window`. -/
def Breaker.pruneWindow (now : ℚ) : Breaker :=
  { b with failures := b.failures.dropWhile fun time => config.windowSize < ((now - time : ℚ) : Seconds) }

def Breaker.allowRequest (now later : ℚ) : Bool × Breaker :=
  match b.state with
  | .closed => (true, b)
  | .opened =>
      if config.recoveryTimeout ≤ ((now - b.lastStateChange : ℚ) : Seconds) then
        (true, { b.transitionTo .halfOpen (orMonotonic now later) with halfOpenProbesUsed := 1 })
      else (false, b)
  | .halfOpen =>
      if (b.halfOpenProbesUsed : Int) < config.halfOpenMaxProbes then
        (true, { b with halfOpenProbesUsed := b.halfOpenProbesUsed + 1 })
      else (false, b)

def Breaker.recordSuccess (now : ℚ) : Breaker :=
  match b.state with
  | .halfOpen =>
      let b := { b with consecutiveSuccesses := b.consecutiveSuccesses + 1 }
      if config.successThreshold ≤ (b.consecutiveSuccesses : Int) then
        { b.transitionTo .closed now with failures := [] }
      else b
  | .closed => b.pruneWindow config now
  | .opened => b

def Breaker.recordFailure (now later : ℚ) : Breaker :=
  let b := { b with failures := b.failures ++ [now] }
  match b.state with
  | .halfOpen => b.transitionTo .opened (orMonotonic now later)
  | .closed =>
      let b := b.pruneWindow config later
      if config.failureThreshold ≤ (b.failures.length : Int) then
        b.transitionTo .opened (orMonotonic now later)
      else b
  | .opened => b

/-! ### Runs -/

structure State where
  breaker : Breaker
  clock : ℚ
  /-- How many requests were admitted and have not recorded their outcome. -/
  outstanding : Nat
  deriving DecidableEq

/-- An outcome is that of a request that was admitted, or is recorded by someone else. -/
inductive Event where
  | allowRequest (now later : ℚ)
  | recordSuccess (admitted : Bool) (now : ℚ)
  | recordFailure (admitted : Bool) (now later : ℚ)

/-- The requests that are left after an outcome. -/
def State.recorded (s : State) (admitted : Bool) : Option Nat :=
  if !admitted then some s.outstanding
  else if s.outstanding = 0 then none
  else some (s.outstanding - 1)

def step (s : State) : Event → Option State
  | .allowRequest now later =>
      if s.clock ≤ now ∧ now ≤ later then
        let (admitted, breaker) := s.breaker.allowRequest config now later
        some ⟨breaker, later, if admitted then s.outstanding + 1 else s.outstanding⟩
      else none
  | .recordSuccess admitted now =>
      if s.clock ≤ now then
        (s.recorded admitted).map fun outstanding =>
          ⟨s.breaker.recordSuccess config now, now, outstanding⟩
      else none
  | .recordFailure admitted now later =>
      if s.clock ≤ now ∧ now ≤ later then
        (s.recorded admitted).map fun outstanding =>
          ⟨s.breaker.recordFailure config now later, later, outstanding⟩
      else none

def machine (start : ℚ) : Machine State Event where
  init := ⟨.new start, start, 0⟩
  step := step config

end Talos.Agent
