import Talos.Agent.CircuitBreaker

/-!
# Recovery of a circuit breaker

In the half-open state a probe that has recorded its outcome counts as a success. So if no
outcome is missing and the probes are used up, as many successes are counted as there may be
probes, and the breaker has closed unless it asks for more successes than that. With fewer
probes than successes it stays half-open for good (`recovers_iff`).
-/

namespace Talos.Agent

open Database

variable {config : CircuitBreakerConfig} {b : Breaker} {s s' : State} {event : Event}
  {now later start : ℚ}

/-- With no outcome missing, a request is admitted once the recovery timeout has passed since
the last change of state, and in any case at some time. -/
structure Recovers (config : CircuitBreakerConfig) : Prop where
  admits : ∀ start s, Reachable (machine config start) s → s.outstanding = 0 →
    ∀ now later, s.clock ≤ now → now ≤ later →
      config.recoveryTimeout ≤ ((now - s.breaker.lastStateChange : ℚ) : Seconds) →
      (s.breaker.allowRequest config now later).1 = true
  sometime : ∀ start s, Reachable (machine config start) s → s.outstanding = 0 →
    ∃ time, ∀ now later, time ≤ now → now ≤ later →
      (s.breaker.allowRequest config now later).1 = true

/-! ### The probes of the half-open state -/

/-- Every probe has its outcome outstanding or was a success, of which there are too few. -/
structure Probing (config : CircuitBreakerConfig) (b : Breaker) (outstanding : Nat) : Prop where
  probes : b.halfOpenProbesUsed ≤ b.consecutiveSuccesses + outstanding
  few : (b.consecutiveSuccesses : Int) < config.successThreshold

def Counted (config : CircuitBreakerConfig) (s : State) : Prop :=
  s.breaker.state = .halfOpen → Probing config s.breaker s.outstanding

theorem one_le_successThreshold (config : CircuitBreakerConfig) : 1 ≤ config.successThreshold := by
  have valid := config.thresholds
  omega

theorem one_le_halfOpenMaxProbes (config : CircuitBreakerConfig) :
    1 ≤ config.halfOpenMaxProbes := by
  have valid := config.thresholds
  omega

theorem one_le_failureThreshold (config : CircuitBreakerConfig) : 1 ≤ config.failureThreshold := by
  have valid := config.thresholds
  omega

@[simp] theorem transitionTo_state (b : Breaker) (newState : CircuitState) (now : ℚ) :
    (b.transitionTo newState now).state = newState := by
  unfold Breaker.transitionTo
  split
  · next same => exact same
  · cases newState with
    | closed => rfl
    | opened => rfl
    | halfOpen => rfl

theorem recordFailure_state (b : Breaker) (now later : ℚ) :
    (b.recordFailure config now later).state ≠ .halfOpen := by
  unfold Breaker.recordFailure
  dsimp only
  split
  · simp
  · next closed =>
      split
      · simp
      · change b.state ≠ .halfOpen
        rw [closed]
        decide
  · next opened =>
      rw [opened]
      decide

/-- A probe is outstanding from when it is admitted. -/
theorem Counted.allowRequest (counted : Counted config s) (now later : ℚ) :
    Counted config ⟨(s.breaker.allowRequest config now later).2, later,
      if (s.breaker.allowRequest config now later).1 then s.outstanding + 1
      else s.outstanding⟩ := by
  unfold Breaker.allowRequest
  split
  · next closed =>
      intro halfOpen
      cases closed.symm.trans halfOpen
  · next opened =>
      split
      · intro halfOpen
        have fresh : (s.breaker.transitionTo .halfOpen (orMonotonic now later)).consecutiveSuccesses
            = 0 := by
          unfold Breaker.transitionTo
          rw [opened, if_neg (by decide)]
        have enough := one_le_successThreshold config
        refine ⟨?_, ?_⟩
        · change 1 ≤ _ + (s.outstanding + 1)
          omega
        · change ((s.breaker.transitionTo .halfOpen (orMonotonic now later)).consecutiveSuccesses :
            Int) < _
          rw [fresh]
          omega
      · intro halfOpen
        cases opened.symm.trans halfOpen
  · next halfOpen =>
      have probing := counted halfOpen
      split
      · intro _
        refine ⟨?_, probing.few⟩
        have probes := probing.probes
        change s.breaker.halfOpenProbesUsed + 1 ≤
          s.breaker.consecutiveSuccesses + (s.outstanding + 1)
        omega
      · intro _
        exact probing

/-- An outcome is one that was outstanding, or one more. -/
theorem recorded_le {admitted : Bool} {left : Nat} (ok : s.recorded admitted = some left) :
    s.outstanding ≤ left + 1 := by
  unfold State.recorded at ok
  split at ok
  · cases ok
    exact Nat.le_succ _
  · split at ok
    · cases ok
    · cases ok
      omega

theorem Counted.recordSuccess (counted : Counted config s) {left : Nat}
    (le : s.outstanding ≤ left + 1) (now : ℚ) :
    Counted config ⟨s.breaker.recordSuccess config now, now, left⟩ := by
  unfold Breaker.recordSuccess
  split
  · next halfOpen =>
      have probing := counted halfOpen
      dsimp only
      split
      · intro closed
        cases (transitionTo_state _ _ _).symm.trans closed
      · next few =>
          intro _
          have probes := probing.probes
          refine ⟨?_, not_le.mp few⟩
          change s.breaker.halfOpenProbesUsed ≤ s.breaker.consecutiveSuccesses + 1 + left
          omega
  · next closed =>
      intro halfOpen
      cases closed.symm.trans halfOpen
  · next opened =>
      intro halfOpen
      cases opened.symm.trans halfOpen

theorem Counted.step (counted : Counted config s) (ok : Agent.step config s event = some s') :
    Counted config s' := by
  cases event with
  | allowRequest now later =>
      simp only [Agent.step] at ok
      split at ok
      · cases ok
        exact counted.allowRequest now later
      · cases ok
  | recordSuccess admitted now =>
      simp only [Agent.step] at ok
      split at ok
      · obtain ⟨left, recorded, rfl⟩ := Option.map_eq_some_iff.mp ok
        exact counted.recordSuccess (recorded_le recorded) now
      · cases ok
  | recordFailure admitted now later =>
      simp only [Agent.step] at ok
      split at ok
      · obtain ⟨left, recorded, rfl⟩ := Option.map_eq_some_iff.mp ok
        intro halfOpen
        exact absurd halfOpen (recordFailure_state _ now later)
      · cases ok

theorem counted_of_reachable (reach : Reachable (machine config start) s) : Counted config s :=
  reach.invariant (fun halfOpen => nomatch halfOpen) fun counted ok => counted.step ok

/-- A breaker that may see enough successes admits requests after the timeout. -/
theorem allowRequest_of_reachable (enough : config.successThreshold ≤ config.halfOpenMaxProbes)
    (reach : Reachable (machine config start) s) (settled : s.outstanding = 0)
    (passed : config.recoveryTimeout ≤ ((now - s.breaker.lastStateChange : ℚ) : Seconds) ∨
      s.breaker.state ≠ .opened) :
    (s.breaker.allowRequest config now later).1 = true := by
  unfold Breaker.allowRequest
  split
  · rfl
  · next opened =>
      rcases passed with passed | other
      · rw [if_pos passed]
      · exact absurd opened other
  · next halfOpen =>
      have probing := counted_of_reachable reach halfOpen
      have probes := probing.probes
      have few := probing.few
      rw [if_pos (by omega)]

/-! ### Configurations that do not recover -/

/-- After failures that all happened when the breaker was made. -/
def failed (state : CircuitState) (n : Nat) (start : ℚ) : Breaker :=
  ⟨state, List.replicate n start, 0, 0, start⟩

theorem orMonotonic_self (now : ℚ) : orMonotonic now now = now := by
  unfold orMonotonic
  exact ite_self now

/-- None of them is outside the window. -/
theorem pruneWindow_failed (n : Nat) :
    (failed .closed (n + 1) start).pruneWindow config start = failed .closed (n + 1) start := by
  have positive : ¬ config.windowSize < ((start - start : ℚ) : Seconds) := by
    intro low
    rw [sub_self] at low
    exact config.timeouts (.inr (le_of_lt low))
  have kept : (List.replicate (n + 1) start).dropWhile
      (fun time => config.windowSize < ((start - time : ℚ) : Seconds)) =
      List.replicate (n + 1) start := by
    rw [List.replicate_succ, List.dropWhile_cons_of_neg (by simpa using positive)]
  unfold Breaker.pruneWindow failed
  rw [kept]

theorem recordFailure_failed (n : Nat) :
    (failed .closed n start).recordFailure config start start =
      if config.failureThreshold ≤ ((n + 1 : Nat) : Int) then failed .opened (n + 1) start
      else failed .closed (n + 1) start := by
  have appended : { failed .closed n start with
      failures := (failed .closed n start).failures ++ [start] } =
      failed .closed (n + 1) start := by
    change (⟨_, List.replicate n start ++ [start], _, _, _⟩ : Breaker) = _
    rw [← List.replicate_succ']
    rfl
  have length : (failed .closed (n + 1) start).failures.length = n + 1 := List.length_replicate
  unfold Breaker.recordFailure
  rw [appended]
  change (if config.failureThreshold ≤
      ((Breaker.pruneWindow config (failed .closed (n + 1) start) start).failures.length : Int) then
    (Breaker.pruneWindow config (failed .closed (n + 1) start) start).transitionTo .opened
      (orMonotonic start start)
    else Breaker.pruneWindow config (failed .closed (n + 1) start) start) = _
  rw [pruneWindow_failed, orMonotonic_self, length]
  rfl

/-- A request that is admitted and fails. -/
theorem reachable_failed {n : Nat}
    (reach : Reachable (machine config start) ⟨failed .closed n start, start, 0⟩) :
    Reachable (machine config start)
      ⟨(failed .closed n start).recordFailure config start start, start, 0⟩ := by
  have now : start ≤ start ∧ start ≤ start := ⟨le_refl start, le_refl start⟩
  have admitted : Reachable (machine config start) ⟨failed .closed n start, start, 1⟩ :=
    reach.step (e := .allowRequest start start) (if_pos now)
  exact admitted.step (e := .recordFailure true start start) (if_pos now)

theorem reachable_closed (n : Nat) (few : (n : Int) < config.failureThreshold) :
    Reachable (machine config start) ⟨failed .closed n start, start, 0⟩ := by
  induction n with
  | zero => exact .init
  | succ n ih =>
      have failing := reachable_failed (ih (by omega))
      rw [recordFailure_failed, if_neg (not_le.mpr few)] at failing
      exact failing

/-- Enough failures open the breaker. -/
theorem reachable_opened (config : CircuitBreakerConfig) (start : ℚ) :
    ∃ n, Reachable (machine config start) ⟨failed .opened n start, start, 0⟩ := by
  have positive := one_le_failureThreshold config
  have before : Reachable (machine config start)
      ⟨failed .closed (config.failureThreshold.toNat - 1) start, start, 0⟩ :=
    reachable_closed _ (by omega)
  have failing := reachable_failed before
  rw [recordFailure_failed, if_pos (by omega)] at failing
  exact ⟨_, failing⟩

/-- The half-open state after probes that were all successes. -/
def probed (failures probes : Nat) (start now : ℚ) : Breaker :=
  ⟨.halfOpen, List.replicate failures start, probes, probes, now⟩

/-- A probe that is a success, with more successes to come. -/
theorem recordSuccess_probe {failures probes : Nat}
    (more : ((probes + 1 : Nat) : Int) < config.successThreshold) :
    Breaker.recordSuccess config
      { probed failures probes start now with halfOpenProbesUsed := probes + 1 } now =
      probed failures (probes + 1) start now := by
  change (if config.successThreshold ≤ ((probes + 1 : Nat) : Int) then _ else _) = _
  rw [if_neg (not_le.mpr more)]
  rfl

theorem reachable_admitted {b b' : Breaker} {clock : ℚ}
    (reach : Reachable (machine config start) ⟨b, clock, 0⟩) (le : clock ≤ now)
    (admitted : b.allowRequest config now now = (true, b')) :
    Reachable (machine config start) ⟨b', now, 1⟩ := by
  refine reach.step (e := .allowRequest now now) ?_
  simp only [machine, step]
  rw [if_pos ⟨le, le_refl now⟩, admitted]
  rfl

theorem reachable_success {b : Breaker} (reach : Reachable (machine config start) ⟨b, now, 1⟩) :
    Reachable (machine config start) ⟨b.recordSuccess config now, now, 0⟩ :=
  reach.step (e := .recordSuccess true now) (if_pos (le_refl now))

/-- The first probe, once the timeout has passed. -/
theorem reachable_first_probe {failures : Nat} (long : 1 < config.successThreshold)
    (reach : Reachable (machine config start) ⟨failed .opened failures start, start, 0⟩)
    (le : start ≤ now) (passed : config.recoveryTimeout ≤ ((now - start : ℚ) : Seconds)) :
    Reachable (machine config start) ⟨probed failures 1 start now, now, 0⟩ := by
  have admitted : (failed .opened failures start).allowRequest config now now =
      (true, { probed failures 0 start now with halfOpenProbesUsed := 1 }) := by
    change (if config.recoveryTimeout ≤ ((now - start : ℚ) : Seconds) then _ else _) = _
    rw [if_pos passed, orMonotonic_self]
    rfl
  have success := reachable_success (reachable_admitted reach le admitted)
  rw [recordSuccess_probe long] at success
  exact success

/-- Probe after probe is a success, as many as there may be. -/
theorem reachable_probed {failures : Nat}
    (few : config.halfOpenMaxProbes < config.successThreshold)
    (first : Reachable (machine config start) ⟨probed failures 1 start now, now, 0⟩)
    (probes : Nat) (within : ((probes + 1 : Nat) : Int) ≤ config.halfOpenMaxProbes) :
    Reachable (machine config start) ⟨probed failures (probes + 1) start now, now, 0⟩ := by
  induction probes with
  | zero => exact first
  | succ probes ih =>
      have room : ((probes + 1 : Nat) : Int) < config.halfOpenMaxProbes := by omega
      have admitted : (probed failures (probes + 1) start now).allowRequest config now now =
          (true, { probed failures (probes + 1) start now with
            halfOpenProbesUsed := probes + 1 + 1 }) := by
        change (if ((probes + 1 : Nat) : Int) < config.halfOpenMaxProbes then _ else _) = _
        rw [if_pos room]
        rfl
      have success := reachable_success (reachable_admitted (ih (by omega)) (le_refl now) admitted)
      rw [recordSuccess_probe (by omega)] at success
      exact success

/-- With the probes used up and successes missing, no request is admitted. -/
theorem allowRequest_probed {failures probes : Nat}
    (full : config.halfOpenMaxProbes ≤ (probes : Int)) (time later : ℚ) :
    ((probed failures probes start now).allowRequest config time later).1 = false := by
  change Prod.fst (if (probes : Int) < config.halfOpenMaxProbes then _ else _) = _
  rw [if_neg (not_lt.mpr full)]

theorem not_recovers_of_few (few : config.halfOpenMaxProbes < config.successThreshold)
    (finite : config.recoveryTimeout ≠ ⊤) : ¬ Recovers config := by
  intro recovers
  have positive := one_le_halfOpenMaxProbes config
  obtain ⟨timeout, eq⟩ := WithTop.ne_top_iff_exists.mp finite
  have nonneg : 0 ≤ timeout := by
    have valid : 0 < config.recoveryTimeout := by
      have timeouts := config.timeouts
      exact not_le.mp fun low => timeouts (.inl low)
    rw [← eq] at valid
    exact le_of_lt (WithTop.coe_lt_coe.mp valid)
  obtain ⟨failures, opened⟩ := reachable_opened config 0
  have passed : config.recoveryTimeout ≤ ((timeout - 0 : ℚ) : Seconds) := by
    rw [← eq, sub_zero]
  have first := reachable_first_probe (by omega) opened nonneg passed
  obtain ⟨probes, used⟩ : ∃ probes : Nat, ((probes + 1 : Nat) : Int) = config.halfOpenMaxProbes :=
    ⟨config.halfOpenMaxProbes.toNat - 1, by omega⟩
  have stuck := reachable_probed few first probes (le_of_eq used)
  obtain ⟨time, admits⟩ := recovers.sometime _ _ stuck rfl
  have admitted := admits time time (le_refl time) (le_refl time)
  rw [allowRequest_probed (le_of_eq used.symm)] at admitted
  cases admitted

/-- An open breaker waits for a timeout that never passes. -/
theorem not_recovers_of_infinite (infinite : config.recoveryTimeout = ⊤) : ¬ Recovers config := by
  intro recovers
  obtain ⟨failures, opened⟩ := reachable_opened config 0
  obtain ⟨time, admits⟩ := recovers.sometime _ _ opened rfl
  have admitted := admits time time (le_refl time) (le_refl time)
  have rejected : ((failed .opened failures 0).allowRequest config time time).1 = false := by
    change Prod.fst (if config.recoveryTimeout ≤ ((time - 0 : ℚ) : Seconds) then _ else _) = _
    rw [infinite, if_neg (by simp)]
  rw [rejected] at admitted
  cases admitted

theorem recovers_of_enough (enough : config.successThreshold ≤ config.halfOpenMaxProbes)
    (finite : config.recoveryTimeout ≠ ⊤) : Recovers config where
  admits := by
    intro start s reach settled now later _ _ passed
    exact allowRequest_of_reachable enough reach settled (.inl passed)
  sometime := by
    intro start s reach settled
    obtain ⟨timeout, eq⟩ := WithTop.ne_top_iff_exists.mp finite
    refine ⟨s.breaker.lastStateChange + timeout, ?_⟩
    intro now later le _
    refine allowRequest_of_reachable enough reach settled (.inl ?_)
    rw [← eq, WithTop.coe_le_coe]
    exact le_sub_iff_add_le'.mpr le

/-- A breaker recovers exactly if the probes it may make are as many as the successes it asks
for, and its timeout is finite. -/
theorem recovers_iff (config : CircuitBreakerConfig) :
    Recovers config ↔
      config.successThreshold ≤ config.halfOpenMaxProbes ∧ config.recoveryTimeout ≠ ⊤ := by
  constructor
  · intro recovers
    have finite : config.recoveryTimeout ≠ ⊤ := fun infinite =>
      not_recovers_of_infinite infinite recovers
    refine ⟨?_, finite⟩
    by_contra few
    exact not_recovers_of_few (not_le.mp few) finite recovers
  · intro ⟨enough, finite⟩
    exact recovers_of_enough enough finite

/-- The settings of provider `x`, which asks for three successes of two probes. -/
def xConfig : CircuitBreakerConfig where
  toSettings := providerSettings "x"
  thresholds := by decide
  timeouts := by decide +kernel
  budget := by decide
  backoff := by decide +kernel

/-- It is accepted, and the breaker does not recover. -/
theorem not_recovers_x :
    CircuitBreakerConfig.new (providerSettings "x") = .ok xConfig ∧ ¬ Recovers xConfig :=
  ⟨new_toSettings xConfig, not_recovers_of_few (by decide) (by decide)⟩

end Talos.Agent
