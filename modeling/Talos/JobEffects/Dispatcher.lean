import Talos.JobEffects.Leases
import Talos.Soroban.Contract

/-!
# The dispatcher

`JobEffectDispatcher`. A run of `dispatch_once` claims the effects that are due and takes them
one after the other: it asks the Web API whether the job is completed, submits the result,
asks again if it was not taken and records the outcome. What the Web API answers is part of
the event, a run may stop between any two calls, and any number of runs go on at once, under
any worker ids.
-/

namespace Talos.JobEffects

open Database Soroban

/-- What `get_job_result` finds; `completed` carries the result if it is an object whose
encoding is within the limits. -/
inductive Remote where
  | unavailable
  | unfinished
  | completed (result : Option String)
  deriving DecidableEq

/-- What becomes of `submit_job_result`. -/
inductive Submission where
  | timeout
  | transportError
  | accepted
  | rejected
  deriving DecidableEq

/-- Why the result is looked up once more. -/
inductive Unsubmitted where
  | timeout
  | transportError
  | rejected
  deriving DecidableEq

inductive Phase where
  | reconcile
  | submit
  | reconcileAfter (why : Unsubmitted)
  | refreshRemoteClaim
  | prepareAgain
  | fail (errorCode : String) (indeterminate : Bool)
  deriving DecidableEq

/-- A run of `dispatch_once`; the first of the effects is being dispatched. -/
structure Dispatcher where
  workerId : String
  effects : List EffectRecord
  phase : Phase
  deriving DecidableEq

/-- What a dispatcher waits for: answers of the Web API, or its turn at the database. -/
inductive Answer where
  | remote (found : Remote)
  | submission (outcome : Submission)
  | claim (granted : Option (Int × Option String))
  | turn (now : Nat)
  deriving DecidableEq

variable (store : JobEffectStore)

/-- The outcome that `_reconcile` records. -/
def reconciliation (effect : EffectRecord) : Remote → Option Event
  | .unavailable | .unfinished => none
  | .completed result =>
      if result.map store.sha256 = some effect.resultDigest then some (.markSucceeded effect true)
      else some (.markConflict effect)

/-- The failure if the lookup is of no help. -/
def Unsubmitted.failure : Unsubmitted → Phase
  | .timeout => .fail "dispatch_timeout" true
  | .transportError => .fail "transport_error" true
  | .rejected => .fail "reconciliation_unavailable" true

/-- A rejected result of a job that is not completed: the remote claim may be outdated. -/
def Unsubmitted.unresolved : Unsubmitted → Remote → Phase
  | .rejected, .unfinished => .refreshRemoteClaim
  | why, _ => why.failure

def Dispatcher.next (d : Dispatcher) : Dispatcher :=
  { d with effects := d.effects.tail, phase := .reconcile }

/-- What a dispatcher does with an answer: a call of the store, if any, and how it goes on
if that returns or raises. A dispatcher that does not go on leaves its other effects. -/
structure Action where
  call : Option Event
  returned : Dispatcher
  raised : Option Dispatcher

/-- A call that ends the dispatch of the effect. -/
def Dispatcher.settle (d : Dispatcher) (call : Event) (raised : Option Dispatcher) : Action :=
  ⟨some call, d.next, raised⟩

def Dispatcher.goto (d : Dispatcher) (phase : Phase) : Action :=
  ⟨none, { d with phase := phase }, none⟩

/-- `_dispatch`. -/
def Dispatcher.act (d : Dispatcher) (effect : EffectRecord) : Phase → Answer → Option Action
  | .reconcile, .remote found =>
      match reconciliation store effect found with
      | some call => some (d.settle call none)
      | none => some (d.goto .submit)
  | .submit, .submission .accepted => some (d.settle (.markSucceeded effect false) none)
  | .submit, .submission .timeout => some (d.goto (.reconcileAfter .timeout))
  | .submit, .submission .transportError => some (d.goto (.reconcileAfter .transportError))
  | .submit, .submission .rejected => some (d.goto (.reconcileAfter .rejected))
  | .reconcileAfter why, .remote found =>
      match reconciliation store effect found with
      | some call => some (d.settle call (some { d with phase := why.failure }))
      | none => some (d.goto (why.unresolved found))
  | .refreshRemoteClaim, .claim none => some (d.goto (.fail "remote_rejected_or_pending" false))
  | .refreshRemoteClaim, .claim (some (fencingToken, leaseExpiresAt)) =>
      some ⟨some (.markClaimed effect.jobId fencingToken leaseExpiresAt),
        { d with phase := .prepareAgain },
        some { d with phase := .fail "remote_rejected_or_pending" false }⟩
  | .prepareAgain, .turn now =>
      some ⟨some (.prepareEffect effect.jobId effect.result now),
        { d with phase := .fail "remote_claim_refreshed" false },
        some { d with phase := .fail "remote_rejected_or_pending" false }⟩
  | .fail errorCode indeterminate, .turn now =>
      some (d.settle (.markFailure effect errorCode indeterminate now) none)
  | _, _ => none

/-! ### Runs -/

abbrev DispatcherId := Nat

structure System where
  state : State
  dispatchers : Map DispatcherId Dispatcher

/-- Calls of the agent or an operator, and the runs of `dispatch_once`. -/
inductive SystemEvent where
  | call (event : Event)
  | dispatchOnce (id : DispatcherId) (workerId : String) (now : Nat)
  | answer (id : DispatcherId) (answer : Answer)
  | crash (id : DispatcherId)

def raised : Except JobEffectError LocalDB → Bool
  | .ok _ => false
  | .error _ => true

/-- Whether a call of a dispatcher raises. -/
def JobEffectStore.raises (s : State) : Event → Bool
  | .markClaimed jobId fencingToken leaseExpiresAt =>
      raised (store.markClaimed s.db jobId fencingToken leaseExpiresAt)
  | .prepareEffect jobId result now => raised (store.prepareEffect s.db jobId result now)
  | .markSucceeded effect reconciled => raised (s.db.markSucceeded effect reconciled)
  | .markFailure effect errorCode indeterminate now =>
      raised (store.markFailure s.db effect errorCode indeterminate now)
  | .markConflict effect => raised (s.db.markConflict effect)
  | _ => false

/-- The calls that are not left to the dispatchers. -/
def Event.direct : Event → Bool
  | .ingest .. | .markClaimed .. | .prepareEffect .. | .requeue .. => true
  | _ => false

/-- The action of a dispatcher that is at work on an effect. -/
def System.action (sys : System) (id : DispatcherId) (answer : Answer) : Option Action :=
  match sys.dispatchers id with
  | some d => d.effects.head?.bind fun effect => d.act store effect d.phase answer
  | none => none

/-- The call of the store that an event makes. -/
def System.call (sys : System) : SystemEvent → Option Event
  | .call event => if event.direct then some event else none
  | .dispatchOnce _ workerId now => some (.claimDue workerId none now)
  | .answer id answer => (sys.action store id answer).bind Action.call
  | .crash _ => none

/-- The dispatchers after an event that led to a state of the store. -/
def System.dispatchersAfter (sys : System) (after : State) :
    SystemEvent → Option (Map DispatcherId Dispatcher)
  | .call event => if event.direct then some sys.dispatchers else none
  | .dispatchOnce id workerId _ =>
      if (sys.dispatchers id).isSome then none
      else
        let claimed := after.records.take (after.records.length - sys.state.records.length)
        some (sys.dispatchers.set id ⟨workerId, claimed.reverse, .reconcile⟩)
  | .answer id answer =>
      (sys.action store id answer).map fun action =>
        if action.call.any (store.raises sys.state) then
          match action.raised with
          | some d => sys.dispatchers.set id d
          | none => sys.dispatchers.remove id
        else sys.dispatchers.set id action.returned
  | .crash id => some (sys.dispatchers.remove id)

def systemStep (sys : System) (event : SystemEvent) : Option System :=
  let after := match sys.call store event with
    | some call => step store sys.state call
    | none => some sys.state
  after.bind fun s => (sys.dispatchersAfter store s event).map fun dispatchers => ⟨s, dispatchers⟩

def system : Machine System SystemEvent where
  init := ⟨(machine store).init, fun _ => none⟩
  step := systemStep store

variable {store} {sys sys' : System} {event : SystemEvent}

/-- A step of the system is a step of the store, or leaves the store as it is. -/
theorem systemStep_cases (ok : systemStep store sys event = some sys') :
    (∃ call, sys.call store event = some call ∧
      step store sys.state call = some sys'.state) ∨
    (sys.call store event = none ∧ sys'.state = sys.state) := by
  unfold systemStep at ok
  obtain ⟨s, after, rest⟩ := Option.bind_eq_some_iff.mp ok
  obtain ⟨dispatchers, _, rfl⟩ := Option.map_eq_some_iff.mp rest
  cases made : sys.call store event with
  | some call =>
      rw [made] at after
      exact .inl ⟨call, rfl, after⟩
  | none =>
      rw [made] at after
      exact .inr ⟨rfl, (Option.some.inj after).symm⟩

/-- Outcomes that change a row are those of the latest claim and no effect is claimed too
often, in a run in which no worker reports an outcome of an effect that it has claimed again,
and none claims an effect, dispatched and claimed as often as it may be, again. -/
theorem fenced_and_capped {h : List (Transition System SystemEvent)}
    (run : Run (system store) h sys)
    (each : ∀ r ∈ h, ∀ call ∈ r.pre.call store r.event,
      ¬ Stale r.pre.state call ∧ ¬ Overspends store r.pre.state call) :
    ∀ r ∈ h, (∀ call ∈ r.pre.call store r.event, Fenced r.pre.state call r.post.state) ∧
      Capped store r.post.state := by
  intro r mem
  obtain ⟨later, earlier, rfl⟩ := List.append_of_mem mem
  obtain ⟨before, ok, _⟩ := run.split
  have bounded : Bounded store r.pre.state := by
    refine before.invariant_along
      (C := fun r => ∀ call ∈ r.pre.call store r.event,
        ¬ Stale r.pre.state call ∧ ¬ Overspends store r.pre.state call)
      (I := fun sys => Bounded store sys.state)
      (fun r mem => each r (List.mem_append_right _ (List.mem_cons_of_mem _ mem)))
      (bounded_init store) ?_
    intro sys event sys' bounded ok each
    rcases systemStep_cases ok with ⟨call, made, taken⟩ | ⟨_, same⟩
    · exact bounded.step taken (each call made).1 (each call made).2
    · rw [same]
      exact bounded
  have here := each r mem
  rcases systemStep_cases ok with ⟨call, made, taken⟩ | ⟨none, same⟩
  · obtain ⟨current, within⟩ := here call made
    refine ⟨?_, (bounded.step taken current within).capped⟩
    intro call' made'
    cases made.symm.trans made'
    exact bounded.record_holds taken current
  · refine ⟨?_, ?_⟩
    · intro call made
      cases none.symm.trans made
    · rw [same]
      exact bounded.capped

/-- A job whose result is prepared. -/
def prepared : List SystemEvent :=
  [.call (.ingest ⟨"job-1", "talos", "copy", "{}", none⟩ 0), .call (.markClaimed "job-1" 7 none),
    .call (.prepareEffect "job-1" "{}" 1)]

def delivered : List SystemEvent :=
  prepared ++ [.dispatchOnce 0 "worker" 2, .answer 0 (.remote .unfinished),
    .answer 0 (.submission .accepted)]

/-- A second run under the same worker id claims the effect when the lease has expired, and
then the first run reports that it has failed. -/
def overlapped : List SystemEvent :=
  prepared ++ [.dispatchOnce 0 "worker" 2, .dispatchOnce 1 "worker" 40000000,
    .answer 0 (.remote .unfinished), .answer 0 (.submission .timeout),
    .answer 0 (.remote .unavailable), .answer 0 (.turn 40000001)]

/-- The agent stops after each of three claims, of which there may be two. -/
def crashed : List SystemEvent :=
  prepared ++ [.dispatchOnce 0 "worker" 2, .crash 0, .dispatchOnce 0 "worker" 40000000, .crash 0,
    .dispatchOnce 0 "worker" 80000000, .crash 0]

def systemRun (events : List SystemEvent) : List (Transition System SystemEvent) × System :=
  (system exampleStore).play events ([], (system exampleStore).init)

theorem fenced_and_capped_delivered :
    (systemRun delivered).1.length ≠ 0 ∧
      ∀ r ∈ (systemRun delivered).1,
        (∀ call ∈ r.pre.call exampleStore r.event, Fenced r.pre.state call r.post.state) ∧
        Capped exampleStore r.post.state :=
  ⟨by decide,
    fenced_and_capped ((system exampleStore).play_run delivered) (by decide)⟩

theorem not_fenced_nor_capped :
    (Run (system exampleStore) (systemRun overlapped).1 (systemRun overlapped).2 ∧
      ¬ ∀ r ∈ (systemRun overlapped).1,
        ∀ call ∈ r.pre.call exampleStore r.event, Fenced r.pre.state call r.post.state) ∧
    Run (system exampleStore) (systemRun crashed).1 (systemRun crashed).2 ∧
      ¬ Capped exampleStore (systemRun crashed).2.state := by
  refine ⟨⟨(system exampleStore).play_run overlapped, by decide⟩,
    (system exampleStore).play_run crashed, ?_⟩
  intro capped
  have stored : ((systemRun crashed).2.state.db.outbox.find
      (exampleStore.effectId "job-1")).isSome = true := by decide
  obtain ⟨row, found⟩ := Option.isSome_iff_exists.mp stored
  have spent : ¬ claimsSince (exampleStore.effectId "job-1") (systemRun crashed).2.state.db.audit ≤
      exampleStore.limits.maxAttempts := by decide
  exact spent (capped _ row found).1

end Talos.JobEffects
