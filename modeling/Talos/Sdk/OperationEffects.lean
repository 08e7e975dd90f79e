import Talos.Sdk.Operations

/-!
# What a step does to operations

The slots and the cancellations decide which operations run; what is stored and what runs
is in the rest of the state, its `Core`. `Effect` lists what a step can do there, for steps
that are `Guarded`: a submission finds no other one open for its key, a call that has lost
its race to the timeout or to a cancellation fails before the key's next call, nothing that
is stored is `undefined` or of the other kind of operation, and the manager is not set up
anew.
-/

namespace Talos.Sdk.Operations

open Database
open Soroban (Map)

variable {V : Type} {s s' : State V} {event : Event V} {x : SubmissionId} {key : String}

abbrev Step (V : Type) := Transition (State V) (Event V)

/-- The submission that an event makes, with its kind, its operation and its key. -/
def submitting : Event V → Option (SubmissionId × OperationType × OperationId × String)
  | .submitIntent x intentId idempotencyKey =>
      some (x, .intentSubmission, intentId, intentKey intentId idempotencyKey)
  | .evaluateDecision x decisionId => some (x, .decisionEvaluation, decisionId, decisionId)
  | _ => none

/-! ### Phases -/

/-- No call has won a race: one is in it, has failed or is to come. -/
def Phase.isTrying : Phase V → Bool
  | .running _ _ => true
  | .raced (.error _) => true
  | .retrying => true
  | _ => false

/-- It has a slot. -/
def Phase.isOpen : Phase V → Bool
  | .running _ _ => true
  | .raced _ => true
  | .retrying => true
  | _ => false

/-- It has settled without a call that won. -/
def Phase.isOver : Phase V → Bool
  | .repeated _ => true
  | .rejected _ => true
  | _ => false

theorem Phase.isOpen_of_isTrying {phase : Phase V} (trying : phase.isTrying = true) :
    phase.isOpen = true := by
  cases phase with
  | running a listening => rfl
  | raced outcome => rfl
  | retrying => rfl
  | _ => cases trying

def Submission.kind (submission : Submission V) : OperationType := submission.context.operationType

/-- The submission is the same but for its phase and its context's progress. -/
structure Continues (before after : Submission V) : Prop where
  key : after.idempotencyKey = before.idempotencyKey
  kind : after.kind = before.kind

theorem Continues.refl (submission : Submission V) : Continues submission submission := ⟨rfl, rfl⟩

/-- It goes on without a result, settles without one or is answered at once. -/
inductive Turn : Option (Submission V) → Option (Submission V) → Prop where
  | same (submission : Option (Submission V)) : Turn submission submission
  | goesOn (before after : Submission V) (continues : Continues before after)
      (trying : before.phase.isTrying = true) (trying' : after.phase.isTrying = true) :
      Turn (some before) (some after)
  | ends (before after : Submission V) (continues : Continues before after)
      (trying : before.phase.isTrying = true) (closed : after.phase.isOver = true) :
      Turn (some before) (some after)
  | answered (after : Submission V) (closed : after.phase.isOver = true) : Turn none (some after)

def Turned (before after : Map SubmissionId (Submission V)) : Prop := ∀ y, Turn (before y) (after y)

theorem Turned.set {submissions : Map SubmissionId (Submission V)} {after : Submission V}
    (turn : Turn (submissions x) (some after)) : Turned submissions (submissions.set x after) := by
  intro y
  by_cases same : y = x
  · subst same
    rw [Map.set_self]
    exact turn
  · rw [Map.set_of_ne _ _ same]
    exact .same _

/-! ### Guarded steps -/

/-- A state without its slots and cancellations. -/
structure Core (V : Type) where
  clock : Int
  config : OperationConfig
  store : Map String (Entry V)
  submissions : Map SubmissionId (Submission V)
  attempts : List (Attempt V)

def State.core (s : State V) : Core V := ⟨s.clock, s.config, s.store, s.submissions, s.attempts⟩

def Core.isExpired (c : Core V) (timestamp : Int) : Bool :=
  Operations.isExpired c.config.idempotencyWindow c.clock timestamp

def Core.put (c : Core V) (x : SubmissionId) (submission : Submission V) : Core V :=
  { c with submissions := c.submissions.set x submission }

/-- The operation is called. -/
def Core.start (c : Core V) (x : SubmissionId) (submission : Submission V) : Core V :=
  { c.put x { submission with phase := .running c.attempts.length true } with
    attempts := c.attempts ++ [⟨x, submission.idempotencyKey, submission.kind, .running⟩] }

/-- The call is in the race of its submission. -/
def Core.Races (c : Core V) (a : AttemptId) (attempt : Attempt V) : Prop :=
  ∃ owner listening, c.submissions attempt.submission = some owner ∧
    owner.phase = .running a listening

/-- The calls for the key that have lost their race are over. -/
def Core.Quiet (c : Core V) (key : String) : Prop :=
  ∀ a attempt, c.attempts[a]? = some attempt → attempt.idempotencyKey = key →
    attempt.outcome = .running → c.Races a attempt

/-- The submission has returned a result, which was stored at the time. -/
structure Returned (submission : Submission V) (result : Option V) (time : Int) : Prop where
  phase : submission.phase = .returned result
  completed : submission.context.completedAt = some time

/-- A submission that would run its operation is the only one that is open for its key, and
what is stored under the key and has not expired is not `undefined` and was returned by an
operation of the same kind. -/
structure Unrivalled (s : State V) (kind : OperationType) (operationId : OperationId)
    (key : String) : Prop where
  alone : s.canStart = true → operationId ∉ s.cancelled →
    ∀ y other, s.submissions y = some other → other.idempotencyKey = key →
      other.phase.isOpen = false
  quiet : s.canStart = true → operationId ∉ s.cancelled → s.core.Quiet key
  defined : ∀ entry, s.store key = some entry → s.isExpired entry.timestamp = false →
    entry.result ≠ none
  kind : ∀ y other result time, s.submissions y = some other → other.idempotencyKey = key →
    Returned other result time → s.isExpired time = false → other.kind = kind

def Guarded (r : Step V) : Prop :=
  match r.event with
  | .submitIntent _ intentId idempotencyKey =>
      Unrivalled r.pre .intentSubmission intentId (intentKey intentId idempotencyKey)
  | .evaluateDecision _ decisionId => Unrivalled r.pre .decisionEvaluation decisionId decisionId
  | .resolved a _ => ∀ attempt, r.pre.attempts[a]? = some attempt → r.pre.core.Races a attempt
  | .resumed x => ∀ submission, r.pre.submissions x = some submission →
      r.pre.core.Quiet submission.idempotencyKey
  | .reset => False
  | .updateConfig _ => False
  | _ => True

theorem Guarded.unrivalled {r : Step V} {kind : OperationType} {operationId : OperationId}
    (guarded : Guarded r) (submits : submitting r.event = some (x, kind, operationId, key)) :
    Unrivalled r.pre kind operationId key := by
  obtain ⟨pre, event, post⟩ := r
  cases event with
  | submitIntent x intentId idempotencyKey =>
      cases submits
      exact guarded
  | evaluateDecision x decisionId =>
      cases submits
      exact guarded
  | _ => cases submits

/-! ### Effects -/

/-- Some entries that have expired are dropped. -/
def Pruned (c : Core V) (store : Map String (Entry V)) : Prop :=
  ∀ key, store key = c.store key ∨
    store key = none ∧ ∃ entry, c.store key = some entry ∧ c.isExpired entry.timestamp = true

/-- All that is stored under the key has expired. -/
def Core.Forgotten (c : Core V) (key : String) : Prop :=
  ∀ entry, c.store key = some entry → c.isExpired entry.timestamp = true

inductive Effect (c : Core V) (event : Event V) : Core V → Prop where
  | clock (now : Int) (silent : submitting event = none) (later : c.clock ≤ now) :
      Effect c event { c with clock := now }
  | pruned (store : Map String (Entry V)) (silent : submitting event = none)
      (pruned : Pruned c store) : Effect c event { c with store := store }
  | turned (submissions : Map SubmissionId (Submission V)) (silent : submitting event = none)
      (turned : Turned c.submissions submissions) :
      Effect c event { c with submissions := submissions }
  | repeated (x : SubmissionId) (kind : OperationType) (operationId : OperationId) (key : String)
      (submission : Submission V) (result : V) (entry : Entry V)
      (submits : submitting event = some (x, kind, operationId, key))
      (new : c.submissions x = none) (found : c.store key = some entry)
      (valid : c.isExpired entry.timestamp = false) (stored : entry.result = some result)
      (phase : submission.phase = .repeated result) : Effect c event (c.put x submission)
  | refused (x : SubmissionId) (kind : OperationType) (operationId : OperationId) (key : String)
      (submission : Submission V) (message : Option String) (store : Map String (Entry V))
      (submits : submitting event = some (x, kind, operationId, key))
      (new : c.submissions x = none) (pruned : Pruned c store) (forgotten : c.Forgotten key)
      (phase : submission.phase = .rejected message) :
      Effect c event ({ c with store := store }.put x submission)
  | admitted (x : SubmissionId) (kind : OperationType) (operationId : OperationId) (key : String)
      (submission : Submission V) (store : Map String (Entry V))
      (submits : submitting event = some (x, kind, operationId, key))
      (new : c.submissions x = none) (pruned : Pruned c store) (forgotten : c.Forgotten key)
      (sameKey : submission.idempotencyKey = key) (sameKind : submission.kind = kind)
      (alone : ∀ y other, c.submissions y = some other → other.idempotencyKey = key →
        other.phase.isOpen = false)
      (quiet : c.Quiet key) : Effect c event ({ c with store := store }.start x submission)
  | resumed (x : SubmissionId) (before after : Submission V)
      (silent : submitting event = none) (found : c.submissions x = some before)
      (phase : before.phase = .retrying) (continues : Continues before after)
      (quiet : c.Quiet before.idempotencyKey) : Effect c event (c.start x after)
  | failed (a : AttemptId) (attempt : Attempt V) (message : String)
      (submissions : Map SubmissionId (Submission V)) (silent : submitting event = none)
      (found : c.attempts[a]? = some attempt) (running : attempt.outcome = .running)
      (turned : Turned c.submissions submissions) :
      Effect c event { c with
        submissions := submissions
        attempts := c.attempts.set a { attempt with outcome := .rejected message } }
  | won (a : AttemptId) (attempt : Attempt V) (before after : Submission V) (listening : Bool)
      (result : Option V) (silent : submitting event = none)
      (found : c.attempts[a]? = some attempt) (running : attempt.outcome = .running)
      (owner : c.submissions attempt.submission = some before)
      (racing : before.phase = .running a listening) (continues : Continues before after)
      (phase : after.phase = .raced (.ok result)) :
      Effect c event { c.put attempt.submission after with
        attempts := c.attempts.set a { attempt with outcome := .resolved c.clock result } }
  | completed (x : SubmissionId) (before after : Submission V) (result : Option V)
      (silent : submitting event = none) (found : c.submissions x = some before)
      (phase : before.phase = .raced (.ok result)) (continues : Continues before after)
      (returned : Returned after result c.clock) :
      Effect c event
        { c.put x after with store := c.store.set before.idempotencyKey ⟨c.clock, result⟩ }

theorem previous_cases (defined : ∀ entry, s.store key = some entry →
      s.isExpired entry.timestamp = false → entry.result ≠ none) :
    (∃ entry result, s.store key = some entry ∧ s.isExpired entry.timestamp = false ∧
        entry.result = some result ∧ s.previous key = (some result, s)) ∨
      ∃ store, Pruned s.core store ∧ s.core.Forgotten key ∧
        s.previous key = (none, { s with store := store }) := by
  unfold State.previous State.has
  cases found : s.store key with
  | none =>
      refine .inr ⟨s.store, fun _ => .inl rfl, fun entry here => ?_, rfl⟩
      cases found.symm.trans here
  | some entry =>
      dsimp only
      by_cases expired : s.isExpired entry.timestamp = true
      · rw [if_pos expired]
        refine .inr ⟨s.store.remove key, fun other => ?_, fun other here => ?_, rfl⟩
        · by_cases same : other = key
          · subst same
            exact .inr ⟨Map.remove_self .., entry, found, expired⟩
          · exact .inl (Map.remove_of_ne _ same)
        · cases found.symm.trans here
          exact expired
      · rw [if_neg expired]
        dsimp only
        have valid := eq_false_of_ne_true expired
        have got : s.get key = (entry.result, s) := by
          unfold State.get
          rw [found]
          exact if_neg expired
        rw [got]
        cases stored : entry.result with
        | none => exact absurd stored (defined entry found valid)
        | some result => exact .inl ⟨entry, result, rfl, valid, stored, rfl⟩

theorem reject_core (s : State V) (x : SubmissionId) (submission : Submission V)
    (message : Option String) :
    ∃ after, Continues submission after ∧ after.phase = .rejected message ∧
      (s.reject x submission message).core = s.core.put x after := by
  refine ⟨{ submission with
    context := submission.context.failed s.clock message
    phase := .rejected message }, ⟨rfl, ?_⟩, rfl, rfl⟩
  cases message with
  | none => rfl
  | some message => rfl

theorem tryAttempt_core (s : State V) (x : SubmissionId) (submission : Submission V)
    (number : Nat) :
    (∃ after message, Continues submission after ∧ after.phase = .rejected message ∧
        (s.tryAttempt x submission number).core = s.core.put x after) ∨
      ∃ after, Continues submission after ∧
        (s.tryAttempt x submission number).core = s.core.start x after := by
  unfold State.tryAttempt
  split
  · obtain ⟨after, continues, phase, core⟩ := reject_core s x submission none
    exact .inl ⟨after, none, continues, phase, core⟩
  · split
    · obtain ⟨after, continues, phase, core⟩ :=
        reject_core s x submission (some "OPERATION_CANCELLED")
      exact .inl ⟨after, _, continues, phase, core⟩
    · let started : Submission V := { submission with
        context := { submission.context with attempt := number, lastAttemptAt := s.clock } }
      exact .inr ⟨started, ⟨rfl, rfl⟩, rfl⟩

theorem enter_core (s : State V) (x : SubmissionId) (submission : Submission V) :
    (∃ after message, after.phase = .rejected message ∧
        (s.enter x submission).core = s.core.put x after) ∨
      s.canStart = true ∧ submission.context.operationId ∉ s.cancelled ∧
        ∃ after, Continues submission after ∧
          (s.enter x submission).core = s.core.start x after := by
  unfold State.enter
  dsimp only
  by_cases free : s.canStart = true
  · let registered : State V :=
      { s with active := setActive s.active submission.context.operationId x }
    have taken : s.register submission.context.operationId x = some registered := if_pos free
    rw [free, taken]
    rw [if_neg (by decide)]
    dsimp only
    by_cases cancelled : submission.context.operationId ∈ registered.cancelled
    · rw [if_pos cancelled]
      obtain ⟨after, -, phase, core⟩ :=
        reject_core registered x submission (some "OPERATION_CANCELLED")
      exact .inl ⟨after, _, phase, core⟩
    · rw [if_neg cancelled]
      let processing : Submission V :=
        { submission with context := { submission.context with state := .processing } }
      rcases tryAttempt_core registered x processing 1 with
        ⟨after, message, -, phase, core⟩ | ⟨after, continues, core⟩
      · exact .inl ⟨after, message, phase, core⟩
      · exact .inr ⟨rfl, cancelled, after, ⟨continues.key, continues.kind⟩, core⟩
  · rw [eq_false_of_ne_true free]
    exact .inl ⟨_, _, rfl, rfl⟩

theorem submit_effect {kind : OperationType} {operationId : OperationId}
    (submits : submitting event = some (x, kind, operationId, key))
    (unrivalled : Unrivalled s kind operationId key) (new : s.submissions x = none) :
    Effect s.core event (s.submit x kind operationId key).core := by
  unfold State.submit
  dsimp only
  rcases previous_cases unrivalled.defined with
    ⟨entry, result, found, valid, stored, answered⟩ | ⟨store, pruned, forgotten, answered⟩
  · rw [answered]
    exact .repeated x kind operationId key _ result entry submits new found valid stored rfl
  · rw [answered]
    dsimp only
    rcases enter_core { s with store := store } x
      ⟨key, newContext s operationId kind, .retrying⟩ with
      ⟨after, message, phase, core⟩ | ⟨free, live, after, ⟨sameKey, sameKind⟩, core⟩
    · rw [core]
      exact .refused x kind operationId key after message store submits new pruned forgotten phase
    · rw [core]
      exact .admitted x kind operationId key after store submits new pruned forgotten sameKey
        sameKind (unrivalled.alone free live) (unrivalled.quiet free live)

theorem pruned_cleanup (s : State V) : Pruned s.core s.cleanup.store := by
  intro key
  unfold State.cleanup
  dsimp only
  cases found : s.store key with
  | none => exact .inl found.symm
  | some entry =>
      cases expired : s.isExpired entry.timestamp with
      | true => exact .inr ⟨by simp [expired], entry, found, expired⟩
      | false => exact .inl (by simp [expired, State.core, found])

theorem cancel_turn (operationId : OperationId) (submission : Submission V) :
    Turn (some submission) (some (submission.cancel operationId)) := by
  unfold Submission.cancel
  split
  · next phase =>
      split
      · exact .goesOn _ _ ⟨rfl, rfl⟩ (by rw [phase]; rfl) rfl
      · exact .same _
  · exact .same _

theorem cancelOperation_effect (s : State V) (operationId : OperationId)
    (silent : submitting event = none) :
    Effect s.core event (s.cancelOperation operationId).core := by
  unfold State.cancelOperation
  split
  · exact .turned s.submissions silent fun y => .same _
  · refine .turned (fun x => (s.submissions x).map (·.cancel operationId)) silent fun y => ?_
    change Turn (s.submissions y) ((s.submissions y).map (·.cancel operationId))
    cases s.submissions y with
    | none => exact .same none
    | some submission => exact cancel_turn operationId submission

/-- A call resolves in its race. -/
theorem resolved_effect {a : AttemptId} {attempt : Attempt V} {result : Option V}
    (silent : submitting event = none) (found : s.attempts[a]? = some attempt)
    (running : attempt.outcome = .running) (races : s.core.Races a attempt) :
    Effect s.core event
      (s.settle a attempt (.resolved s.clock result) (.ok result)).core := by
  obtain ⟨⟨key, context, phase⟩, listening, owner, rfl⟩ := races
  have settled : (s.settle a attempt (.resolved s.clock result) (.ok result)).core =
      { s.core.put attempt.submission ⟨key, context, .raced (.ok result)⟩ with
        attempts := s.attempts.set a { attempt with outcome := .resolved s.clock result } } := by
    have here : s.submissions attempt.submission = some ⟨key, context, .running a listening⟩ := owner
    unfold State.settle
    dsimp only
    rw [here]
    dsimp only
    rw [if_pos rfl]
    rfl
  rw [settled]
  exact .won a attempt _ ⟨key, context, .raced (.ok result)⟩ listening result silent found running
    owner rfl ⟨rfl, rfl⟩ rfl

/-- A call fails, in its race or after it. -/
theorem rejected_effect {a : AttemptId} {attempt : Attempt V} {message : String}
    (silent : submitting event = none) (found : s.attempts[a]? = some attempt)
    (running : attempt.outcome = .running) :
    Effect s.core event (s.settle a attempt (.rejected message) (.error message)).core := by
  have still : Turned s.core.submissions s.submissions := fun y => .same _
  unfold State.settle
  dsimp only
  split
  · next submission owner =>
      split
      · next a' listening racing =>
          split
          · refine .failed a attempt message _ silent found running (Turned.set ?_)
            change Turn (s.submissions attempt.submission) _
            rw [owner]
            exact .goesOn _ _ ⟨rfl, rfl⟩ (by rw [racing]; rfl) rfl
          · exact .failed a attempt message s.submissions silent found running still
      · exact .failed a attempt message s.submissions silent found running still
  · exact .failed a attempt message s.submissions silent found running still

/-- A submission goes on after a race that it has lost, or settles. -/
theorem put_effect {before after : Submission V} (silent : submitting event = none)
    (found : s.submissions x = some before) (turn : Turn (some before) (some after)) :
    Effect s.core event (s.core.put x after) := by
  refine .turned _ silent (Turned.set ?_)
  change Turn (s.submissions x) (some after)
  rw [found]
  exact turn

theorem step_effect (guarded : Guarded ⟨s, event, s'⟩) (ok : step s event = some s') :
    Effect s.core event s'.core := by
  cases event with
  | advance now =>
      simp only [step, Option.ite_none_right_eq_some, Option.some.injEq] at ok
      obtain ⟨later, rfl⟩ := ok
      exact .clock now rfl later
  | submitIntent x intentId idempotencyKey =>
      simp only [step] at ok
      split at ok
      · next new =>
          cases ok
          exact submit_effect rfl guarded new
      · cases ok
  | evaluateDecision x decisionId =>
      simp only [step] at ok
      split at ok
      · next new =>
          cases ok
          exact submit_effect rfl guarded new
      · cases ok
  | resolved a result =>
      simp only [step] at ok
      split at ok
      · next x key kind found =>
          cases ok
          exact resolved_effect rfl found rfl (guarded _ found)
      · cases ok
  | rejected a message =>
      simp only [step] at ok
      split at ok
      · next x key kind found =>
          cases ok
          exact rejected_effect rfl found rfl
      · cases ok
  | timedOut x =>
      simp only [step] at ok
      split at ok
      · next key context a listening found =>
          cases ok
          exact put_effect rfl found (.goesOn _ _ ⟨rfl, rfl⟩ rfl rfl)
      · cases ok
  | finished x =>
      simp only [step] at ok
      split at ok
      · next key context outcome found =>
          cases ok
          cases outcome with
          | ok result =>
              exact .completed x _ ⟨key,
                { context with state := .completed, completedAt := some s.clock },
                .returned result⟩ result rfl found rfl ⟨rfl, rfl⟩ ⟨rfl, rfl⟩
          | error message =>
              unfold State.finish
              dsimp only
              split
              · let after : Submission V := ⟨key, { context with state := .retrying }, .retrying⟩
                exact put_effect rfl found (.goesOn _ after ⟨rfl, rfl⟩ rfl rfl)
              · obtain ⟨after, continues, phase, core⟩ :=
                  reject_core s x ⟨key, context, .raced (.error message)⟩ (some message)
                rw [core]
                exact put_effect rfl found (.ends _ _ continues rfl (by rw [phase]; rfl))
      · cases ok
  | resumed x =>
      simp only [step] at ok
      split at ok
      · next key context found =>
          cases ok
          rcases tryAttempt_core s x ⟨key, context, .retrying⟩ (context.attempt + 1) with
            ⟨after, message, continues, phase, core⟩ | ⟨after, continues, core⟩
          · rw [core]
            exact put_effect rfl found (.ends _ _ continues rfl (by rw [phase]; rfl))
          · rw [core]
            exact .resumed x _ after rfl found rfl continues (guarded _ found)
      · cases ok
  | cancelOperation operationId =>
      cases ok
      exact cancelOperation_effect s operationId rfl
  | cleanup =>
      cases ok
      exact .pruned s.cleanup.store rfl (pruned_cleanup s)
  | reset => exact guarded.elim
  | updateConfig update => exact guarded.elim

end Talos.Sdk.Operations
