import Talos.Agent.Recovery
import Mathlib.Data.List.Count

/-!
# Calls to a provider

`request_with_retry` and `call_with_retry` (`packages/prime-agent/src/talos_agent/http.py`),
`execute_with_retry` (`circuit_breaker.py`) and one provider's turn in `FallbackChain.execute`
(`routing/fallback.py`), over the breaker of one provider. Any number of calls are in progress, and
their attempts end at any time and in any order. A helper asks the breaker once to admit a call; it
may record several failures for it, one, or no success at all. Which helpers leave the breaker able
to recover is `recovering_iff`.

Waits between attempts take any time. Whether an exception is retryable is given by the event, and
so is the cancellation of a call, which is no `Exception` and records nothing. Calls without a
provider have no breaker.
-/

namespace Talos.Agent.Calls

open Database

inductive Helper where
  | requestWithRetry
  | callWithRetry
  | executeWithRetry
  | fallbackChain
  deriving DecidableEq

/-- `MAX_ATTEMPTS` -/
def maxAttempts : Nat := 3

/-- A call that was admitted, and how many of its attempts have failed. -/
structure Call where
  helper : Helper
  attempts : Nat
  deriving DecidableEq

variable (config : CircuitBreakerConfig)

/-- The call after one more attempt has failed, if there is another attempt. -/
def Call.again (call : Call) (retryable : Bool) : Option Call :=
  let next := { call with attempts := call.attempts + 1 }
  match call.helper with
  | .requestWithRetry | .callWithRetry =>
      if retryable && decide (call.attempts + 1 < maxAttempts) then some next else none
  | .executeWithRetry =>
      if (call.attempts : Int) < config.retryBudget then some next else none
  | .fallbackChain => none

/-- Whether a failed attempt is recorded. -/
def Call.recordsFailure (call : Call) : Bool :=
  match call.helper with
  | .requestWithRetry | .callWithRetry | .fallbackChain => true
  | .executeWithRetry => config.retryBudget ≤ (call.attempts : Int)

/-- Whether an attempt that answers is recorded. -/
def Call.recordsSuccess (call : Call) : Bool := call.helper ≠ .callWithRetry

structure State where
  breaker : Breaker
  clock : ℚ
  calls : List Call
  deriving DecidableEq

inductive Event where
  | call (helper : Helper) (now later : ℚ)
  | answer (index : Nat) (now : ℚ)
  | fail (index : Nat) (retryable : Bool) (now later : ℚ)
  | cancel (index : Nat)
  deriving DecidableEq

/-- The calls in progress after one of them goes on or ends. -/
def replace (calls : List Call) (index : Nat) : Option Call → List Call
  | some call => calls.set index call
  | none => calls.eraseIdx index

def step (s : State) : Event → Option State
  | .call helper now later =>
      if s.clock ≤ now ∧ now ≤ later then
        let (admitted, breaker) := s.breaker.allowRequest config now later
        some ⟨breaker, later, if admitted then s.calls ++ [⟨helper, 0⟩] else s.calls⟩
      else none
  | .answer index now =>
      s.calls[index]?.bind fun call =>
        if s.clock ≤ now then
          some (if call.recordsSuccess then
            ⟨s.breaker.recordSuccess config now, now, s.calls.eraseIdx index⟩
          else { s with calls := s.calls.eraseIdx index })
        else none
  | .fail index retryable now later =>
      s.calls[index]?.bind fun call =>
        if s.clock ≤ now ∧ now ≤ later then
          let calls := replace s.calls index (call.again config retryable)
          some (if call.recordsFailure config then
            ⟨s.breaker.recordFailure config now later, later, calls⟩
          else { s with calls := calls })
        else none
  | .cancel index =>
      if index < s.calls.length then some { s with calls := s.calls.eraseIdx index } else none

def machine (start : ℚ) : Machine State Event where
  init := ⟨.new start, start, []⟩
  step := step config

/-- A call goes through one of the helpers and is not cancelled. -/
def Settles (helpers : Set Helper) : Event → Prop
  | .call helper _ _ => helper ∈ helpers
  | .cancel _ => False
  | _ => True

theorem Settles.mono {helpers helpers' : Set Helper} {e : Event} (settles : Settles helpers e)
    (sub : helpers ⊆ helpers') : Settles helpers' e := by
  cases e with
  | call helper now later => exact sub settles
  | answer index now => trivial
  | fail index retryable now later => trivial
  | cancel index => exact settles

/-- Whatever calls were made, once none is in progress the breaker admits a call from some time
on. -/
def Recovering (helpers : Set Helper) : Prop :=
  ∀ start h s, Run (machine config start) h s → (∀ r ∈ h, Settles helpers r.event) →
    s.calls = [] → ∃ time, ∀ now later, time ≤ now → now ≤ later →
      (s.breaker.allowRequest config now later).1 = true

variable {config} {helpers : Set Helper} {helper : Helper} {start now later : ℚ} {b b' : Breaker}
  {s s' : State} {call : Call} {calls : List Call} {index : Nat}

/-! ### Calls that record an outcome -/

/-- A call has recorded nothing yet. -/
def Call.owing (call : Call) : Bool := call.helper = .executeWithRetry || call.attempts = 0

/-- What the breaker sees of the calls in progress. -/
def State.seen (s : State) : Agent.State := ⟨s.breaker, s.clock, s.calls.countP Call.owing⟩

theorem countP_eraseIdx (found : calls[index]? = some call) :
    calls.countP Call.owing =
      (calls.eraseIdx index).countP Call.owing + if call.owing then 1 else 0 := by
  induction calls generalizing index with
  | nil => cases found
  | cons first rest ih =>
      cases index with
      | zero =>
          cases found
          exact List.countP_cons
      | succ index =>
          rw [List.eraseIdx_cons_succ, List.countP_cons, List.countP_cons, ih found]
          omega

theorem countP_set (found : calls[index]? = some call) (next : Call) :
    (calls.set index next).countP Call.owing + (if call.owing then 1 else 0) =
      calls.countP Call.owing + if next.owing then 1 else 0 := by
  induction calls generalizing index with
  | nil => cases found
  | cons first rest ih =>
      cases index with
      | zero =>
          cases found
          rw [List.set_cons_zero, List.countP_cons, List.countP_cons]
          omega
      | succ index =>
          have rest := ih found
          rw [List.set_cons_succ, List.countP_cons, List.countP_cons]
          omega

/-- An outcome takes a call off those that owe one, if it does. -/
theorem recorded_seen {left : List Call}
    (less : s.calls.countP Call.owing =
      left.countP Call.owing + if call.owing then 1 else 0) :
    s.seen.recorded call.owing = some (left.countP Call.owing) := by
  unfold Agent.State.recorded State.seen
  cases owing : call.owing with
  | false =>
      rw [owing] at less
      simpa using less
  | true =>
      rw [owing] at less
      simp [less]

/-- All calls go through helpers of a kind. -/
def Each (P : Helper → Prop) (calls : List Call) : Prop := ∀ call ∈ calls, P call.helper

variable {P : Helper → Prop}

theorem Each.found (each : Each P calls) (found : calls[index]? = some call) : P call.helper :=
  each call (List.mem_of_getElem? found)

theorem Each.append (each : Each P calls) (next : P call.helper) : Each P (calls ++ [call]) := by
  intro other mem
  rcases List.mem_append.mp mem with mem | mem
  · exact each other mem
  · exact List.mem_singleton.mp mem ▸ next

theorem Each.eraseIdx (each : Each P calls) (index : Nat) : Each P (calls.eraseIdx index) :=
  fun call mem => each call (List.mem_of_mem_eraseIdx mem)

/-- Another attempt goes through the same helper. -/
theorem again_helper {retryable : Bool} {next : Call}
    (again : call.again config retryable = some next) :
    next = { call with attempts := call.attempts + 1 } := by
  unfold Call.again at again
  dsimp only at again
  split at again
  · split at again <;> cases again
    rfl
  · split at again <;> cases again
    rfl
  · split at again <;> cases again
    rfl
  · cases again

theorem Each.replace {retryable : Bool} (each : Each P calls)
    (found : calls[index]? = some call) :
    Each P (replace calls index (call.again config retryable)) := by
  cases again : call.again config retryable with
  | none => exact each.eraseIdx index
  | some next =>
      intro other mem
      rcases List.mem_or_eq_of_mem_set mem with mem | rfl
      · exact each other mem
      · rw [again_helper again]
        exact each call (List.mem_of_getElem? found)

/-- Nothing goes through `call_with_retry`. -/
def Recording : List Call → Prop := Each (· ≠ .callWithRetry)

/-- What a failed attempt leaves of the calls that owe an outcome. -/
theorem countP_replace {retryable : Bool} (found : calls[index]? = some call)
    (records : call.recordsFailure config = true) :
    calls.countP Call.owing =
      (Calls.replace calls index (call.again config retryable)).countP Call.owing +
        if call.owing then 1 else 0 := by
  cases again : call.again config retryable with
  | none => exact countP_eraseIdx found
  | some next =>
      have settled : next.owing = false := by
        rw [again_helper again]
        cases helper : call.helper with
        | requestWithRetry => simp [Call.owing]
        | callWithRetry => simp [Call.owing]
        | executeWithRetry =>
            simp only [Call.recordsFailure, helper, decide_eq_true_eq] at records
            simp only [Call.again, helper, if_neg (not_lt.mpr records)] at again
            cases again
        | fallbackChain => simp [Call.owing]
      have counted := countP_set found next
      rw [settled] at counted
      simpa [Calls.replace] using counted.symm

/-- An attempt of `execute_with_retry` before the last leaves all as it is. -/
theorem countP_replace_silent {retryable : Bool} (found : calls[index]? = some call)
    (silent : call.recordsFailure config = false) :
    (Calls.replace calls index (call.again config retryable)).countP Call.owing =
      calls.countP Call.owing := by
  cases helper : call.helper with
  | requestWithRetry => simp [Call.recordsFailure, helper] at silent
  | callWithRetry => simp [Call.recordsFailure, helper] at silent
  | fallbackChain => simp [Call.recordsFailure, helper] at silent
  | executeWithRetry =>
      simp only [Call.recordsFailure, helper, decide_eq_false_iff_not, not_le] at silent
      have counted := countP_set found { call with attempts := call.attempts + 1 }
      simp only [Call.again, helper, if_pos silent, Calls.replace]
      simpa [Call.owing, helper] using counted

/-- The machine of the breaker takes the same steps, or none. -/
theorem seen_step {event : Event} (recording : Recording s.calls)
    (settles : Settles {.callWithRetry}ᶜ event) (ok : step config s event = some s') :
    Recording s'.calls ∧
      (s'.seen = s.seen ∨ ∃ e, Agent.step config s.seen e = some s'.seen) := by
  cases event with
  | call helper now later =>
      simp only [step] at ok
      split at ok
      · next clock =>
          cases ok
          constructor
          · dsimp only
            split
            · exact Each.append recording settles
            · exact recording
          · refine .inr ⟨.allowRequest now later, ?_⟩
            have owing : Call.owing ⟨helper, 0⟩ = true := by simp [Call.owing]
            simp only [Agent.step]
            rw [if_pos (show s.seen.clock ≤ now ∧ now ≤ later from clock)]
            simp only [State.seen]
            by_cases admitted : (s.breaker.allowRequest config now later).1 = true
            · simp [admitted, List.countP_append, owing]
            · simp [admitted]
      · cases ok
  | answer index now =>
      simp only [step] at ok
      obtain ⟨call, found, ok⟩ := Option.bind_eq_some_iff.mp ok
      split at ok
      · next clock =>
          have records : call.recordsSuccess = true := by
            simpa [Call.recordsSuccess] using Each.found recording found
          rw [records] at ok
          cases ok
          refine ⟨Each.eraseIdx recording index, .inr ⟨.recordSuccess call.owing now, ?_⟩⟩
          simp only [Agent.step]
          rw [if_pos (show s.seen.clock ≤ now from clock),
            recorded_seen (countP_eraseIdx found)]
          rfl
      · cases ok
  | fail index retryable now later =>
      simp only [step] at ok
      obtain ⟨call, found, ok⟩ := Option.bind_eq_some_iff.mp ok
      split at ok
      · next clock =>
          cases records : call.recordsFailure config with
          | false =>
              rw [records] at ok
              cases ok
              refine ⟨Each.replace recording found, .inl ?_⟩
              simp only [State.seen, Bool.false_eq_true, if_false,
                countP_replace_silent found records]
          | true =>
              rw [records] at ok
              cases ok
              refine ⟨Each.replace recording found,
                .inr ⟨.recordFailure call.owing now later, ?_⟩⟩
              simp only [Agent.step]
              rw [if_pos (show s.seen.clock ≤ now ∧ now ≤ later from clock),
                recorded_seen (countP_replace found records)]
              rfl
      · cases ok
  | cancel index => exact settles.elim

theorem reachable_seen {h : List (Transition State Event)} (run : Run (machine config start) h s)
    (each : ∀ r ∈ h, Settles {.callWithRetry}ᶜ r.event) :
    Reachable (Agent.machine config start) s.seen := by
  have both : Recording s.calls ∧ Reachable (Agent.machine config start) s.seen := by
    refine run.invariant_along
      (I := fun s => Recording s.calls ∧ Reachable (Agent.machine config start) s.seen)
      each ⟨nofun, .init⟩ ?_
    rintro t e t' ⟨recording, reach⟩ ok settles
    obtain ⟨recording', same | ⟨event, taken⟩⟩ := seen_step recording settles ok
    · exact ⟨recording', same ▸ reach⟩
    · exact ⟨recording', reach.step taken⟩
  exact both.2

/-! ### Calls one after the other -/

/-- Calls of one helper, none of which was cancelled, lead to the state. -/
def Through (config : CircuitBreakerConfig) (helper : Helper) (start : ℚ) (s : State) : Prop :=
  ∃ h, Run (machine config start) h s ∧ ∀ r ∈ h, Settles {helper} r.event

theorem Through.step {e : Event} (through : Through config helper start s)
    (settles : Settles {helper} e) (ok : Calls.step config s e = some s') :
    Through config helper start s' := by
  obtain ⟨h, run, each⟩ := through
  exact ⟨_, run.step ok, List.forall_mem_cons.mpr ⟨settles, each⟩⟩

theorem through_admitted {clock : ℚ} (through : Through config helper start ⟨b, clock, []⟩)
    (le : clock ≤ now) (admitted : b.allowRequest config now now = (true, b')) :
    Through config helper start ⟨b', now, [⟨helper, 0⟩]⟩ := by
  refine through.step (e := .call helper now now) rfl ?_
  simp only [Calls.step]
  rw [if_pos ⟨le, le_refl now⟩, admitted]
  rfl

/-- The attempts before the last. -/
theorem through_retried (through : Through config helper start ⟨b, now, [⟨.executeWithRetry, 0⟩]⟩)
    (attempts : Nat) (within : (attempts : Int) ≤ config.retryBudget) :
    Through config helper start ⟨b, now, [⟨.executeWithRetry, attempts⟩]⟩ := by
  induction attempts with
  | zero => exact through
  | succ attempts ih =>
      have another : (attempts : Int) < config.retryBudget := by omega
      refine (ih (by omega)).step (e := .fail 0 false now now) trivial ?_
      simp [Calls.step, Call.again, Call.recordsFailure, Calls.replace, another]

/-- A call that fails for good records it as its last act. -/
theorem through_failed (through : Through config helper start ⟨b, now, [⟨helper, 0⟩]⟩) :
    Through config helper start ⟨b.recordFailure config now now, now, []⟩ := by
  cases helper with
  | requestWithRetry =>
      refine through.step (e := .fail 0 false now now) trivial ?_
      simp [Calls.step, Call.again, Call.recordsFailure, Calls.replace]
  | callWithRetry =>
      refine through.step (e := .fail 0 false now now) trivial ?_
      simp [Calls.step, Call.again, Call.recordsFailure, Calls.replace]
  | fallbackChain =>
      refine through.step (e := .fail 0 false now now) trivial ?_
      simp [Calls.step, Call.again, Call.recordsFailure, Calls.replace]
  | executeWithRetry =>
      have budget : ((config.retryBudget.toNat : Nat) : Int) = config.retryBudget :=
        Int.toNat_of_nonneg (not_lt.mp config.budget)
      have last := through_retried through config.retryBudget.toNat budget.le
      refine last.step (e := .fail 0 false now now) trivial ?_
      simp [Calls.step, Call.again, Call.recordsFailure, Calls.replace, budget]

theorem through_answered (through : Through config helper start ⟨b, now, [⟨helper, 0⟩]⟩) :
    Through config helper start
      ⟨if helper = .callWithRetry then b else b.recordSuccess config now, now, []⟩ := by
  refine through.step (e := .answer 0 now) trivial ?_
  by_cases silent : helper = .callWithRetry
  · simp [Calls.step, Call.recordsSuccess, silent]
  · simp [Calls.step, Call.recordsSuccess, silent]

theorem through_closed (n : Nat) (few : (n : Int) < config.failureThreshold) :
    Through config helper start ⟨failed .closed n start, start, []⟩ := by
  induction n with
  | zero => exact ⟨[], .refl, List.forall_mem_nil _⟩
  | succ n ih =>
      have failing := through_failed (through_admitted (ih (by omega)) (le_refl start) rfl)
      rw [recordFailure_failed, if_neg (not_le.mpr few)] at failing
      exact failing

theorem through_opened (config : CircuitBreakerConfig) (helper : Helper) (start : ℚ) :
    ∃ n, Through config helper start ⟨failed .opened n start, start, []⟩ := by
  have positive := one_le_failureThreshold config
  have before : Through config helper start
      ⟨failed .closed (config.failureThreshold.toNat - 1) start, start, []⟩ :=
    through_closed _ (by omega)
  have failing := through_failed (through_admitted before (le_refl start) rfl)
  rw [recordFailure_failed, if_pos (by omega)] at failing
  exact ⟨_, failing⟩

/-- The half-open state after probes that all answered. -/
def tried (helper : Helper) (failures probes : Nat) (start now : ℚ) : Breaker :=
  { probed failures probes start now with
    consecutiveSuccesses := if helper = .callWithRetry then 0 else probes }

/-- Its answer does not close the breaker. -/
theorem answered_tried {failures probes : Nat}
    (stays : helper = .callWithRetry ∨ config.halfOpenMaxProbes < config.successThreshold)
    (within : ((probes + 1 : Nat) : Int) ≤ config.halfOpenMaxProbes) :
    (if helper = .callWithRetry then
        { tried helper failures probes start now with halfOpenProbesUsed := probes + 1 }
      else Breaker.recordSuccess config
        { tried helper failures probes start now with halfOpenProbesUsed := probes + 1 } now) =
      tried helper failures (probes + 1) start now := by
  by_cases silent : helper = .callWithRetry
  · simp [tried, probed, silent]
  · have few := stays.resolve_left silent
    have same (n : Nat) : tried helper failures n start now = probed failures n start now := by
      simp [tried, probed, silent]
    rw [if_neg silent, same, same, recordSuccess_probe (by omega)]

theorem through_tried {failures : Nat}
    (stays : helper = .callWithRetry ∨ config.halfOpenMaxProbes < config.successThreshold)
    (opened : Through config helper start ⟨failed .opened failures start, start, []⟩)
    (le : start ≤ now) (passed : config.recoveryTimeout ≤ ((now - start : ℚ) : Seconds))
    (probes : Nat) (within : ((probes + 1 : Nat) : Int) ≤ config.halfOpenMaxProbes) :
    Through config helper start ⟨tried helper failures (probes + 1) start now, now, []⟩ := by
  induction probes with
  | zero =>
      have admitted : (failed .opened failures start).allowRequest config now now =
          (true, { tried helper failures 0 start now with halfOpenProbesUsed := 0 + 1 }) := by
        change (if config.recoveryTimeout ≤ ((now - start : ℚ) : Seconds) then _ else _) = _
        rw [if_pos passed, orMonotonic_self]
        simp [tried, probed, failed, Breaker.transitionTo]
      have answered := through_answered (through_admitted opened le admitted)
      rwa [answered_tried stays within] at answered
  | succ probes ih =>
      have room : ((probes + 1 : Nat) : Int) < config.halfOpenMaxProbes := by omega
      have admitted : (tried helper failures (probes + 1) start now).allowRequest config now now =
          (true, { tried helper failures (probes + 1) start now with
            halfOpenProbesUsed := probes + 1 + 1 }) := by
        change (if ((probes + 1 : Nat) : Int) < config.halfOpenMaxProbes then _ else _) = _
        rw [if_pos room]
        rfl
      have answered := through_answered (through_admitted (ih (by omega)) (le_refl now) admitted)
      rwa [answered_tried stays within] at answered

theorem Recovering.admits (recovering : Recovering config helpers) (mem : helper ∈ helpers)
    {clock : ℚ} (through : Through config helper start ⟨b, clock, []⟩) :
    ∃ time, (b.allowRequest config time time).1 = true := by
  obtain ⟨h, run, each⟩ := through
  have settles : ∀ r ∈ h, Settles helpers r.event := fun r taken =>
    (each r taken).mono (Set.singleton_subset_iff.mpr mem)
  obtain ⟨time, admits⟩ := recovering start h _ run settles rfl
  exact ⟨time, admits time time (le_refl time) (le_refl time)⟩

theorem finite_of_recovering (recovering : Recovering config helpers) (mem : helper ∈ helpers) :
    config.recoveryTimeout ≠ ⊤ := by
  intro infinite
  obtain ⟨failures, opened⟩ := through_opened config helper 0
  obtain ⟨time, admitted⟩ := recovering.admits mem opened
  have rejected : ((failed .opened failures 0).allowRequest config time time).1 = false := by
    change Prod.fst (if config.recoveryTimeout ≤ ((time - 0 : ℚ) : Seconds) then _ else _) = _
    rw [infinite, if_neg (by simp)]
  rw [rejected] at admitted
  cases admitted

/-- A breaker whose probes are used up rejects every call. -/
theorem not_recovering (finite : config.recoveryTimeout ≠ ⊤)
    (stays : helper = .callWithRetry ∨ config.halfOpenMaxProbes < config.successThreshold)
    (mem : helper ∈ helpers) : ¬ Recovering config helpers := by
  intro recovering
  have positive := one_le_halfOpenMaxProbes config
  obtain ⟨timeout, eq⟩ := WithTop.ne_top_iff_exists.mp finite
  have nonneg : 0 ≤ timeout := by
    have valid : 0 < config.recoveryTimeout :=
      not_le.mp fun low => config.timeouts (.inl low)
    rw [← eq] at valid
    exact le_of_lt (WithTop.coe_lt_coe.mp valid)
  obtain ⟨failures, opened⟩ := through_opened config helper 0
  have passed : config.recoveryTimeout ≤ ((timeout - 0 : ℚ) : Seconds) := by
    rw [← eq, sub_zero]
  obtain ⟨probes, used⟩ : ∃ probes : Nat, ((probes + 1 : Nat) : Int) = config.halfOpenMaxProbes :=
    ⟨config.halfOpenMaxProbes.toNat - 1, by omega⟩
  obtain ⟨time, admitted⟩ := recovering.admits mem
    (through_tried stays opened nonneg passed probes used.le)
  have rejected : ((tried helper failures (probes + 1) 0 timeout).allowRequest config time time).1 =
      false := by
    change Prod.fst (if ((probes + 1 : Nat) : Int) < config.halfOpenMaxProbes then _ else _) = _
    rw [if_neg (not_lt.mpr used.ge)]
  rw [rejected] at admitted
  cases admitted

/-! ### Which helpers let the breaker recover -/

theorem recovering_of_recording (silent : .callWithRetry ∉ helpers)
    (enough : config.successThreshold ≤ config.halfOpenMaxProbes)
    (finite : config.recoveryTimeout ≠ ⊤) : Recovering config helpers := by
  intro start h s run each idle
  have recording : ∀ r ∈ h, Settles {.callWithRetry}ᶜ r.event := fun r taken =>
    (each r taken).mono (Set.subset_compl_singleton_iff.mpr silent)
  refine (recovers_of_enough enough finite).sometime start s.seen (reachable_seen run recording) ?_
  simp [State.seen, idle]

def defaultConfig : CircuitBreakerConfig where
  toSettings := defaultSettings
  thresholds := by decide
  timeouts := by decide +kernel
  budget := by decide
  backoff := by decide +kernel

theorem allowRequest_state (out : b.state ≠ .closed) :
    (b.allowRequest config now later).2.state ≠ .closed := by
  unfold Breaker.allowRequest
  split
  · next closed => exact absurd closed out
  · split
    · simp
    · exact out
  · split
    · exact out
    · exact out

theorem recordFailure_out (out : b.state ≠ .closed) :
    (b.recordFailure config now later).state ≠ .closed := by
  unfold Breaker.recordFailure
  dsimp only
  split
  · simp
  · next closed => exact absurd closed out
  · exact out

/-- Not closed, and no call in progress records a success. -/
structure Out (s : State) : Prop where
  state : s.breaker.state ≠ .closed
  silent : Each (· = .callWithRetry) s.calls

theorem Out.step {e : Event} (out : Out s)
    (silent : ∀ helper now later, e = .call helper now later → helper = .callWithRetry)
    (ok : Calls.step config s e = some s') : Out s' := by
  cases e with
  | call helper now later =>
      simp only [Calls.step] at ok
      split at ok
      · cases ok
        refine ⟨allowRequest_state out.state, ?_⟩
        dsimp only
        split
        · exact out.silent.append (silent helper now later rfl)
        · exact out.silent
      · cases ok
  | answer index now =>
      simp only [Calls.step] at ok
      obtain ⟨call, found, ok⟩ := Option.bind_eq_some_iff.mp ok
      split at ok
      · have records : call.recordsSuccess = false := by
          simp [Call.recordsSuccess, out.silent.found found]
        rw [records] at ok
        cases ok
        exact ⟨out.state, out.silent.eraseIdx index⟩
      · cases ok
  | fail index retryable now later =>
      simp only [Calls.step] at ok
      obtain ⟨call, found, ok⟩ := Option.bind_eq_some_iff.mp ok
      split at ok
      · have left : Each (· = .callWithRetry)
            (Calls.replace s.calls index (call.again config retryable)) := out.silent.replace found
        cases records : call.recordsFailure config with
        | false =>
            rw [records] at ok
            cases ok
            exact ⟨out.state, left⟩
        | true =>
            rw [records] at ok
            cases ok
            exact ⟨recordFailure_out out.state, left⟩
      · cases ok
  | cancel index =>
      simp only [Calls.step] at ok
      split at ok
      · cases ok
        exact ⟨out.state, out.silent.eraseIdx index⟩
      · cases ok

/-- Once it is not closed, it never closes again, whatever its calls come to. -/
theorem never_closed_again {h : List (Transition State Event)}
    (steps : Steps (machine config start) s h s')
    (out : s.breaker.state ≠ .closed) (silent : ∀ call ∈ s.calls, call.helper = .callWithRetry)
    (each : ∀ r ∈ h, ∀ helper now later, r.event = .call helper now later →
      helper = .callWithRetry) :
    s'.breaker.state ≠ .closed :=
  have last : Out s' :=
    steps.invariant_along each ⟨out, silent⟩ fun out ok silent => out.step silent ok
  last.state

/-- A probe that answers leaves the breaker half-open. -/
theorem never_closed_again_probe :
    ∃ h s', Steps (machine defaultConfig 0) ⟨failed .opened 5 0, 0, []⟩ h s' ∧ s'.calls = [] ∧
      s'.breaker.state ≠ .closed := by
  have admitted : (machine defaultConfig 0).step ⟨failed .opened 5 0, 0, []⟩
      (.call .callWithRetry 30 30) =
      some ⟨{ failed .halfOpen 5 0 with halfOpenProbesUsed := 1, lastStateChange := 30 }, 30,
        [⟨.callWithRetry, 0⟩]⟩ := by decide +kernel
  have answered : (machine defaultConfig 0).step ⟨{ failed .halfOpen 5 0 with
        halfOpenProbesUsed := 1, lastStateChange := 30 }, 30, [⟨.callWithRetry, 0⟩]⟩
      (.answer 0 31) = some ⟨{ failed .halfOpen 5 0 with
        halfOpenProbesUsed := 1, lastStateChange := 30 }, 30, []⟩ := by decide +kernel
  have steps := (Steps.refl.step admitted).step answered
  refine ⟨_, _, steps, rfl, never_closed_again steps (by decide) nofun ?_⟩
  simp

end Talos.Agent.Calls
