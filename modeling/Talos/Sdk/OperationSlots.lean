import Talos.Sdk.OperationsOnce
import Mathlib.Data.Finset.Card
import Mathlib.Data.List.Nodup

/-!
# Slots and cancellations of operations

`Act` lists what a step does to the slots, the cancellations and the calls of operations. The slots
are those of the submissions in progress as long as the steps are `Orderly`: no two submissions for
one operation are in progress, the settings do not change while one is, and the limit leaves room
for a whole submission (`orderly_lawful`). A submission that is cancelled always ends as failed
(`cancelled_submission_fails`).
-/

namespace Talos.Sdk.Operations

open Database
open Soroban (Map)

variable {V : Type} {s s' : State V} {event : Event V} {x y : SubmissionId} {key : String}

/-- What decides on slots and calls: `calls` are the submissions whose operations were called. -/
structure Desk (V : Type) where
  config : OperationConfig
  active : List (OperationId × SubmissionId)
  cancelled : List OperationId
  submissions : Map SubmissionId (Submission V)
  calls : List SubmissionId

def State.desk (s : State V) : Desk V :=
  ⟨s.config, s.active, s.cancelled, s.submissions, s.attempts.map (·.submission)⟩

def Submission.operationId (submission : Submission V) : OperationId :=
  submission.context.operationId

/-- The submission gets a slot, if only to be rejected at once. -/
def State.admits (s : State V) (key : String) : Prop :=
  (s.previous key).1 = none ∧ s.canStart = true

/-- The event settles a submission without a result, or starts its next attempt. -/
def Ends (event : Event V) (x : SubmissionId) (submission : Submission V) : Prop :=
  (event = .finished x ∧ ∃ message, submission.phase = .raced (.error message) ∧
    shouldRetry submission.context.config submission.context.attempt message = false) ∨
  event = .resumed x ∧ submission.phase = .retrying

inductive Act (s : State V) (event : Event V) : Desk V → Prop where
  | pass : Act s event s.desk
  | answered {x submission} (new : s.desk.submissions x = none)
      (closed : submission.phase.isOpen = false) :
      Act s event { s.desk with submissions := s.desk.submissions.set x submission }
  | bounced {x kind id key submission} (submits : submitting event = some (x, kind, id, key))
      (admitted : s.admits key) (new : s.desk.submissions x = none)
      (closed : submission.phase.isOpen = false) :
      Act s event { s.desk with
        submissions := s.desk.submissions.set x submission
        active := (setActive s.desk.active id x).filter (·.1 ≠ id) }
  | entered {x a kind id key submission} (submits : submitting event = some (x, kind, id, key))
      (admitted : s.admits key) (new : s.desk.submissions x = none) (free : id ∉ s.desk.cancelled)
      (own : submission.operationId = id) (phase : submission.phase = .running a true) :
      Act s event { s.desk with
        submissions := s.desk.submissions.set x submission
        active := setActive s.desk.active id x
        calls := s.desk.calls ++ [x] }
  | raced {x a listening outcome before after} (found : s.desk.submissions x = some before)
      (phase : before.phase = .running a listening) (own : after.operationId = before.operationId)
      (phase' : after.phase = .raced outcome) :
      Act s event { s.desk with submissions := s.desk.submissions.set x after }
  | retried {x message before after} (found : s.desk.submissions x = some before)
      (phase : before.phase = .raced (.error message))
      (own : after.operationId = before.operationId) (phase' : after.phase = .retrying) :
      Act s event { s.desk with submissions := s.desk.submissions.set x after }
  | restarted {x a before after} (found : s.desk.submissions x = some before)
      (phase : before.phase = .retrying) (free : before.operationId ∉ s.desk.cancelled)
      (own : after.operationId = before.operationId)
      (phase' : after.phase = .running a true) :
      Act s event { s.desk with
        submissions := s.desk.submissions.set x after
        calls := s.desk.calls ++ [x] }
  | returned {x result before after} (found : s.desk.submissions x = some before)
      (phase : before.phase = .raced (.ok result)) (own : after.operationId = before.operationId)
      (phase' : after.phase = .returned result) :
      Act s event { s.desk with
        submissions := s.desk.submissions.set x after
        active := s.desk.active.filter (·.1 ≠ before.operationId) }
  | rejected {x message before after} (found : s.desk.submissions x = some before)
      (ends : Ends event x before) (own : after.operationId = before.operationId)
      (phase' : after.phase = .rejected message) (state : after.context.state = .failed) :
      Act s event { s.desk with
        submissions := s.desk.submissions.set x after
        active := s.desk.active.filter (·.1 ≠ before.operationId) }
  | cancelled {id} (cancels : event = .cancelOperation id) :
      Act s event { s.desk with
        cancelled := id :: s.desk.cancelled
        submissions := fun y => (s.desk.submissions y).map (·.cancel id) }
  | updated {update} (updates : event = .updateConfig update) :
      Act s event { s.desk with config := s.config.with update, active := [] }

/-! ### What a step does -/

theorem has_desk (s : State V) (key : String) : (s.has key).2.desk = s.desk := by
  unfold State.has
  split
  · rfl
  · split <;> rfl

theorem get_desk (s : State V) (key : String) : (s.get key).2.desk = s.desk := by
  unfold State.get
  split
  · rfl
  · split <;> rfl

theorem previous_desk (s : State V) (key : String) : (s.previous key).2.desk = s.desk := by
  have known := has_desk s key
  unfold State.previous
  split
  · next found =>
    rw [found] at known
    rw [get_desk, known]
  · next found =>
    rw [found] at known
    exact known

theorem reject_desk (s : State V) (x : SubmissionId) (submission : Submission V)
    (message : Option String) :
    ∃ after : Submission V, after.operationId = submission.operationId ∧
      after.phase = .rejected message ∧ after.context.state = .failed ∧
      (s.reject x submission message).desk = { s.desk with
        submissions := s.submissions.set x after
        active := s.active.filter (·.1 ≠ submission.operationId) } :=
  ⟨{ submission with
    context := submission.context.failed s.clock message
    phase := .rejected message }, by cases message <;> rfl, rfl, by cases message <;> rfl, rfl⟩

theorem tryAttempt_desk (s : State V) (x : SubmissionId) (submission : Submission V)
    (number : ℕ) :
    (∃ message, s.tryAttempt x submission number = s.reject x submission message) ∨
      submission.operationId ∉ s.cancelled ∧
        ∃ (after : Submission V) (a : AttemptId),
          after.operationId = submission.operationId ∧ after.phase = .running a true ∧
          (s.tryAttempt x submission number).desk = { s.desk with
            submissions := s.submissions.set x after
            calls := s.desk.calls ++ [x] } := by
  unfold State.tryAttempt
  split
  · exact .inl ⟨_, rfl⟩
  · split
    · exact .inl ⟨_, rfl⟩
    · next free =>
      refine .inr ⟨free, { submission with
        context := { submission.context with attempt := number, lastAttemptAt := s.clock }
        phase := .running s.attempts.length true }, _, rfl, rfl, ?_⟩
      simp only [State.start, State.put, State.desk, List.map_append, List.map_cons, List.map_nil]

theorem enter_desk (s : State V) (x : SubmissionId) (submission : Submission V) :
    (∃ after : Submission V, after.phase.isOpen = false ∧
        (s.enter x submission).desk =
          { s.desk with submissions := s.desk.submissions.set x after }) ∨
      s.canStart = true ∧
        ((∃ after : Submission V, after.phase.isOpen = false ∧
          (s.enter x submission).desk = { s.desk with
            submissions := s.desk.submissions.set x after
            active := (setActive s.desk.active submission.operationId x).filter
              (·.1 ≠ submission.operationId) }) ∨
          submission.operationId ∉ s.desk.cancelled ∧
            ∃ (after : Submission V) (a : AttemptId),
              after.operationId = submission.operationId ∧ after.phase = .running a true ∧
              (s.enter x submission).desk = { s.desk with
                submissions := s.desk.submissions.set x after
                active := setActive s.desk.active submission.operationId x
                calls := s.desk.calls ++ [x] }) := by
  unfold State.enter
  dsimp only
  by_cases room : s.canStart = true
  · let registered : State V :=
      { s with active := setActive s.active submission.context.operationId x }
    have taken : s.register submission.context.operationId x = some registered := if_pos room
    rw [room, taken, if_neg (by decide)]
    dsimp only
    have bounces (submission' : Submission V) (message : Option String)
        (own : submission'.operationId = submission.operationId) :
        ∃ after : Submission V, after.phase.isOpen = false ∧
          (registered.reject x submission' message).desk = { s.desk with
            submissions := s.desk.submissions.set x after
            active := (setActive s.desk.active submission.operationId x).filter
              (·.1 ≠ submission.operationId) } := by
      obtain ⟨after, _, phase, _, desk⟩ := reject_desk registered x submission' message
      refine ⟨after, by rw [phase]; rfl, ?_⟩
      rw [desk, own]
      rfl
    refine .inr ⟨rfl, ?_⟩
    split
    · exact .inl (bounces submission _ rfl)
    · let processing : Submission V :=
        { submission with context := { submission.context with state := .processing } }
      rcases tryAttempt_desk registered x processing 1 with
        ⟨message, rejected⟩ | ⟨free, after, a, own, phase, desk⟩
      · rw [rejected]
        exact .inl (bounces processing message rfl)
      · exact .inr ⟨free, after, a, own, phase, desk⟩
  · rw [eq_false_of_ne_true room]
    exact .inl ⟨_, rfl, rfl⟩

theorem submit_act {kind : OperationType} {id : OperationId}
    (submits : submitting event = some (x, kind, id, key)) (new : s.submissions x = none) :
    Act s event (s.submit x kind id key).desk := by
  have known := previous_desk s key
  unfold State.submit
  dsimp only
  split
  · next result t found =>
    rw [found] at known
    let repeated : Submission V := ⟨key, newContext s id kind, .repeated result⟩
    have answered : (t.put x repeated).desk =
        { s.desk with submissions := s.desk.submissions.set x repeated } := by
      rw [← known]
      rfl
    exact answered ▸ .answered new rfl
  · next t found =>
    rw [found] at known
    have admits (room : t.canStart = true) : s.admits key := by
      refine ⟨by rw [found], ?_⟩
      have active : t.active = s.active := congrArg Desk.active known
      have config : t.config = s.config := congrArg Desk.config known
      rwa [State.canStart, active, config] at room
    have entering := enter_desk t x ⟨key, newContext s id kind, .retrying⟩
    rw [known] at entering
    rcases entering with
      ⟨after, closed, desk⟩ | ⟨room, ⟨after, closed, desk⟩ | ⟨free, after, a, own, phase, desk⟩⟩
    · rw [desk]
      exact .answered new closed
    · rw [desk]
      exact .bounced submits (admits room) new closed
    · rw [desk]
      exact .entered submits (admits room) new free own phase

theorem settle_act {a : AttemptId} {attempt : Attempt V} {outcome : Outcome V}
    {result : Except String (Option V)} (found : s.attempts[a]? = some attempt) :
    Act s event (s.settle a attempt outcome result).desk := by
  have calls : (s.attempts.set a { attempt with outcome := outcome }).map (·.submission) =
      s.attempts.map (·.submission) := by
    obtain ⟨lt, rfl⟩ := List.getElem?_eq_some_iff.mp found
    have lt' : a < (s.attempts.map (·.submission)).length := by simpa using lt
    have self := List.set_getElem_self lt'
    rw [List.getElem_map] at self
    rw [List.map_set]
    exact self
  let attempts := s.attempts.set a { attempt with outcome := outcome }
  have still : Act s event ({ s with attempts := attempts } : State V).desk := by
    rw [State.desk, calls]
    exact .pass
  unfold State.settle
  dsimp only
  split
  · next submission owner =>
    split
    · next a' listening racing =>
      split
      · rw [State.put, State.desk, calls]
        exact .raced owner racing rfl rfl
      · exact still
    · exact still
  · exact still

theorem finish_act {before : Submission V} {outcome : Except String (Option V)}
    (found : s.submissions x = some before) (phase : before.phase = .raced outcome) :
    Act s (.finished x) (s.finish x before outcome).desk := by
  unfold State.finish
  split
  · exact .returned found phase rfl rfl
  · next message =>
    split
    · exact .retried found phase rfl rfl
    · next stops =>
      obtain ⟨after, own, phase', state, desk⟩ := reject_desk s x before (some message)
      rw [desk]
      exact .rejected found (.inl ⟨rfl, message, phase, eq_false_of_ne_true stops⟩) own phase' state

theorem cancelOperation_act (id : OperationId) :
    Act s (.cancelOperation id) (s.cancelOperation id).desk := by
  unfold State.cancelOperation
  split
  · exact .pass
  · exact .cancelled rfl

theorem step_act (ok : step s event = some s') (kept : event ≠ .reset) : Act s event s'.desk := by
  cases event with
  | advance now =>
    simp only [step, Option.ite_none_right_eq_some, Option.some.injEq] at ok
    obtain ⟨-, rfl⟩ := ok
    exact .pass
  | submitIntent x intentId idempotencyKey =>
    simp only [step] at ok
    split at ok
    · next new =>
      cases ok
      exact submit_act rfl new
    · cases ok
  | evaluateDecision x decisionId =>
    simp only [step] at ok
    split at ok
    · next new =>
      cases ok
      exact submit_act rfl new
    · cases ok
  | resolved a result =>
    simp only [step] at ok
    split at ok
    · next found =>
      cases ok
      exact settle_act found
    · cases ok
  | rejected a message =>
    simp only [step] at ok
    split at ok
    · next found =>
      cases ok
      exact settle_act found
    · cases ok
  | timedOut x =>
    simp only [step] at ok
    split at ok
    · next found =>
      cases ok
      exact .raced found rfl rfl rfl
    · cases ok
  | finished x =>
    simp only [step] at ok
    split at ok
    · next found =>
      cases ok
      exact finish_act found rfl
    · cases ok
  | resumed x =>
    simp only [step] at ok
    split at ok
    · next key context found =>
      cases ok
      rcases tryAttempt_desk s x ⟨key, context, .retrying⟩ (context.attempt + 1) with
        ⟨message, rejected⟩ | ⟨free, after, a, own, phase, desk⟩
      · obtain ⟨after, own, phase', state, desk⟩ :=
          reject_desk s x ⟨key, context, .retrying⟩ message
        rw [rejected, desk]
        exact .rejected found (.inr ⟨rfl, rfl⟩) own phase' state
      · rw [desk]
        exact .restarted found rfl free own phase
    · cases ok
  | cancelOperation id =>
    cases ok
    exact cancelOperation_act id
  | cleanup =>
    cases ok
    exact .pass
  | reset => exact absurd rfl kept
  | updateConfig update =>
    cases ok
    exact .updated rfl

/-! ### The submissions in progress have the slots -/

/-- A submission for the operation is in progress. -/
def InProgress (submissions : Map SubmissionId (Submission V)) (id : OperationId)
    (y : SubmissionId) : Prop :=
  ∃ submission, submissions y = some submission ∧ submission.phase.isOpen = true ∧
    submission.operationId = id

structure Slotted (d : Desk V) : Prop where
  slots : ∀ id y, (id, y) ∈ d.active ↔ InProgress d.submissions id y
  apart : (d.active.map Prod.fst).Nodup

/-- A submission that settles frees its own slot and no other one. -/
def Frees (d d' : Desk V) : Prop :=
  ∀ y, (∃ id, InProgress d.submissions id y) → (¬ ∃ id, InProgress d'.submissions id y) →
    ∃ id, (id, y) ∈ d.active ∧ d'.active = d.active.filter (· ≠ (id, y))

/-- What a step has to meet. -/
structure Orderly (r : Step V) : Prop where
  kept : r.event ≠ .reset
  idle : ∀ update, r.event = .updateConfig update → ∀ id y, ¬ InProgress r.pre.submissions id y
  alone : ∀ x kind id key, submitting r.event = some (x, kind, id, key) → r.pre.admits key →
    ∀ y, ¬ InProgress r.pre.submissions id y
  room : ∀ x kind id key, submitting r.event = some (x, kind, id, key) → r.pre.admits key →
    (((r.pre.active.length + 1 : ℕ) : ℚ) : Number) ≤ r.pre.config.concurrencyLimit
  unsettled : ∀ y submission, r.pre.submissions y = some submission →
    submission.phase.isTrying = true → submission.operationId ∈ r.pre.cancelled →
    ¬ Ends r.event y submission

variable {submissions : Map SubmissionId (Submission V)} {before after : Submission V}
  {id id' : OperationId} {d d' : Desk V}

theorem inProgress_set : InProgress (submissions.set x after) id y ↔
    y = x ∧ after.phase.isOpen = true ∧ after.operationId = id ∨
      y ≠ x ∧ InProgress submissions id y := by
  unfold InProgress
  by_cases same : y = x
  · subst same
    simp only [Map.set_self, Option.some.injEq, exists_eq_left', true_and, ne_eq, not_true,
      false_and, or_false]
  · simp only [Map.set_of_ne _ _ same, same, false_and, false_or, ne_eq, not_false_eq_true,
      true_and]

theorem inProgress_iff (found : submissions x = some before) :
    InProgress submissions id x ↔ before.phase.isOpen = true ∧ before.operationId = id := by
  unfold InProgress
  simp only [found, Option.some.injEq, exists_eq_left']

/-- A submission that stays open. -/
theorem inProgress_set_of_open (found : submissions x = some before)
    (isOpen : before.phase.isOpen = true) (isOpen' : after.phase.isOpen = true)
    (own : after.operationId = before.operationId) :
    InProgress (submissions.set x after) id y ↔ InProgress submissions id y := by
  rw [inProgress_set]
  by_cases same : y = x
  · subst same
    rw [inProgress_iff found, own]
    simp only [isOpen, isOpen', true_and, ne_eq, not_true, false_and, or_false]
  · simp only [same, false_and, false_or, ne_eq, not_false_eq_true, true_and]

theorem not_inProgress (new : submissions x = none) : ¬ InProgress submissions id x := by
  rintro ⟨_, found, _⟩
  cases new.symm.trans found

/-- A new submission that is not open. -/
theorem inProgress_set_of_closed (new : submissions x = none)
    (closed : after.phase.isOpen = false) :
    InProgress (submissions.set x after) id y ↔ InProgress submissions id y := by
  rw [inProgress_set, closed]
  by_cases same : y = x
  · subst same
    exact iff_of_false (by simp) (not_inProgress new)
  · simp [same]

theorem cancel_phase (id : OperationId) (submission : Submission V) :
    (submission.cancel id).operationId = submission.operationId ∧
      (submission.cancel id).phase.isOpen = submission.phase.isOpen ∧
      (submission.phase.isTrying = true → (submission.cancel id).phase.isTrying = true) := by
  unfold Submission.cancel
  split
  · next phase =>
    split
    · exact ⟨rfl, by rw [phase]; rfl, fun _ => rfl⟩
    · exact ⟨rfl, rfl, fun trying => trying⟩
  · exact ⟨rfl, rfl, fun trying => trying⟩

theorem inProgress_cancel : InProgress (fun y => (submissions y).map (·.cancel id')) id y ↔
    InProgress submissions id y := by
  unfold InProgress
  simp only [Option.map_eq_some_iff]
  constructor
  · rintro ⟨_, ⟨submission, found, rfl⟩, isOpen, own⟩
    obtain ⟨same, phase, _⟩ := cancel_phase id' submission
    exact ⟨submission, found, phase ▸ isOpen, same ▸ own⟩
  · rintro ⟨submission, found, isOpen, own⟩
    obtain ⟨same, phase, _⟩ := cancel_phase id' submission
    exact ⟨_, ⟨submission, found, rfl⟩, phase.symm ▸ isOpen, same.symm ▸ own⟩

/-- The slots and the submissions in progress stay the same. -/
theorem Slotted.same (slotted : Slotted d) (active : d'.active = d.active)
    (same : ∀ id y, InProgress d'.submissions id y ↔ InProgress d.submissions id y) :
    Slotted d' ∧ Frees d d' := by
  refine ⟨⟨fun id y => ?_, active ▸ slotted.apart⟩, fun y ⟨id, open_⟩ closed => ?_⟩
  · rw [active, slotted.slots, same]
  · exact absurd ⟨id, (same id y).mpr open_⟩ closed

theorem setActive_of_free (free : id ∉ d.active.map Prod.fst) :
    setActive d.active id x = d.active ++ [(id, x)] := by
  refine if_neg fun taken => free ?_
  obtain ⟨slot, mem, same⟩ := List.any_eq_true.mp taken
  exact List.mem_map.mpr ⟨slot, mem, of_decide_eq_true same⟩

theorem Slotted.free (slotted : Slotted d) (alone : ∀ y, ¬ InProgress d.submissions id y) :
    id ∉ d.active.map Prod.fst := by
  intro mem
  obtain ⟨⟨_, y⟩, slot, rfl⟩ := List.mem_map.mp mem
  exact alone y ((slotted.slots _ y).mp slot)

theorem filter_of_free (free : id ∉ d.active.map Prod.fst) :
    d.active.filter (·.1 ≠ id) = d.active :=
  List.filter_eq_self.mpr fun slot mem => decide_eq_true fun same =>
    free (List.mem_map.mpr ⟨slot, mem, same⟩)

theorem isOpen_of_running {a : AttemptId} {listening : Bool} {phase : Phase V}
    (running : phase = .running a listening) : phase.isOpen = true := by
  rw [running]
  rfl

/-- A submission gets a slot. -/
theorem Slotted.enter (slotted : Slotted d) (free : id ∉ d.active.map Prod.fst)
    (new : d.submissions x = none) (own : after.operationId = id)
    (isOpen : after.phase.isOpen = true)
    (active : d'.active = d.active ++ [(id, x)])
    (submissions : d'.submissions = d.submissions.set x after) : Slotted d' ∧ Frees d d' := by
  have inProgress (id' : OperationId) (y : SubmissionId) :
      InProgress d'.submissions id' y ↔ y = x ∧ id = id' ∨ InProgress d.submissions id' y := by
    rw [submissions, inProgress_set, isOpen, own]
    by_cases same : y = x
    · subst same
      simp [not_inProgress new]
    · simp [same]
  refine ⟨⟨fun id' y => ?_, ?_⟩, fun y ⟨id', open_⟩ closed => ?_⟩
  · rw [active, List.mem_append, slotted.slots, inProgress, List.mem_singleton, Prod.mk.injEq,
      or_comm, and_comm, eq_comm (a := id')]
  · rw [active, List.map_append, List.nodup_append']
    exact ⟨slotted.apart, List.nodup_singleton _, List.disjoint_singleton.mpr free⟩
  · exact absurd ⟨id', (inProgress id' y).mpr (.inr open_)⟩ closed

/-- The slots of one operation. -/
theorem Slotted.only (slotted : Slotted d) (slot : (id, x) ∈ d.active) :
    (id, y) ∈ d.active ↔ y = x := by
  constructor
  · intro other
    exact congrArg Prod.snd (List.inj_on_of_nodup_map slotted.apart other slot rfl)
  · rintro rfl
    exact slot

/-- A submission frees its slot. -/
theorem Slotted.leave (slotted : Slotted d) (found : d.submissions x = some before)
    (isOpen : before.phase.isOpen = true) (closed : after.phase.isOpen = false)
    (active : d'.active = d.active.filter (·.1 ≠ before.operationId))
    (submissions : d'.submissions = d.submissions.set x after) : Slotted d' ∧ Frees d d' := by
  have slot : (before.operationId, x) ∈ d.active :=
    (slotted.slots _ _).mpr ((inProgress_iff found).mpr ⟨isOpen, rfl⟩)
  have inProgress (id : OperationId) (y : SubmissionId) :
      InProgress d'.submissions id y ↔ y ≠ x ∧ InProgress d.submissions id y := by
    rw [submissions, inProgress_set, closed]
    simp
  -- the slots of the operation are the one of the submission
  have own (id : OperationId) (y : SubmissionId) (mem : (id, y) ∈ d.active) :
      id ≠ before.operationId ↔ y ≠ x := by
    refine not_congr ⟨?_, ?_⟩
    · rintro rfl
      exact (slotted.only slot).mp mem
    · rintro rfl
      exact ((inProgress_iff found).mp ((slotted.slots _ _).mp mem)).2.symm
  refine ⟨⟨fun id y => ?_, ?_⟩, fun y ⟨id, open_⟩ closed => ?_⟩
  · rw [active, List.mem_filter, decide_eq_true_iff, inProgress, ← slotted.slots]
    constructor
    · rintro ⟨mem, other⟩
      exact ⟨(own id y mem).mp other, mem⟩
    · rintro ⟨other, mem⟩
      exact ⟨mem, (own id y mem).mpr other⟩
  · rw [active]
    exact slotted.apart.sublist (List.filter_sublist.map _)
  · obtain rfl : y = x := by
      by_contra other
      exact closed ⟨id, (inProgress id y).mpr ⟨other, open_⟩⟩
    refine ⟨before.operationId, slot, active.trans (List.filter_congr fun other mem => ?_)⟩
    have same := own other.1 other.2 mem
    refine decide_eq_decide.mpr ⟨fun differs equal => differs (congrArg Prod.fst equal), ?_⟩
    exact fun differs => same.mpr fun here =>
      differs (Prod.ext (not_not.mp (mt same.mp (not_not.mpr here))) here)

theorem Slotted.act (slotted : Slotted s.desk) (orderly : Orderly ⟨s, event, s'⟩)
    (act : Act s event d) : Slotted d ∧ Frees s.desk d := by
  cases act with
  | pass => exact slotted.same rfl fun _ _ => Iff.rfl
  | answered new closed => exact slotted.same rfl fun _ _ => inProgress_set_of_closed new closed
  | bounced submits admitted new closed =>
    have free := slotted.free (orderly.alone _ _ _ _ submits admitted)
    refine slotted.same ?_ fun _ _ => inProgress_set_of_closed new closed
    dsimp only
    rw [setActive_of_free free, List.filter_append, filter_of_free free]
    simp
  | entered submits admitted new free own phase =>
    have unslotted := slotted.free (orderly.alone _ _ _ _ submits admitted)
    exact slotted.enter unslotted new own (isOpen_of_running phase)
      (setActive_of_free unslotted) rfl
  | raced found phase own phase' =>
    exact slotted.same rfl fun _ _ =>
      inProgress_set_of_open found (isOpen_of_running phase) (by rw [phase']; rfl) own
  | retried found phase own phase' =>
    exact slotted.same rfl fun _ _ =>
      inProgress_set_of_open found (by rw [phase]; rfl) (by rw [phase']; rfl) own
  | restarted found phase free own phase' =>
    exact slotted.same rfl fun _ _ =>
      inProgress_set_of_open found (by rw [phase]; rfl) (isOpen_of_running phase') own
  | returned found phase own phase' =>
    exact slotted.leave found (by rw [phase]; rfl) (by rw [phase']; rfl) rfl rfl
  | rejected found ends own phase' state =>
    refine slotted.leave found ?_ (by rw [phase']; rfl) rfl rfl
    rcases ends with ⟨_, _, phase, _⟩ | ⟨_, phase⟩ <;> rw [phase] <;> rfl
  | cancelled cancels => exact slotted.same rfl fun _ _ => inProgress_cancel
  | updated updates =>
    have none := orderly.idle _ updates
    refine slotted.same (List.eq_nil_iff_forall_not_mem.mpr fun slot mem => ?_).symm
      fun _ _ => Iff.rfl
    exact none slot.1 slot.2 ((slotted.slots _ _).mp mem)

/-! ### Cancelled operations -/

/-- The races listen to cancellations, and none is for an operation that is cancelled. -/
def Live (d : Desk V) : Prop :=
  ∀ y submission a listening, d.submissions y = some submission →
    submission.phase = .running a listening →
      listening = true ∧ submission.operationId ∉ d.cancelled

theorem Live.set (live : Live d) (submissions : d'.submissions = d.submissions.set x after)
    (cancelled : d'.cancelled = d.cancelled)
    (here : ∀ a listening, after.phase = .running a listening →
      listening = true ∧ after.operationId ∉ d.cancelled) : Live d' := by
  intro y submission a listening found running
  rw [submissions] at found
  rw [cancelled]
  rcases Map.set_eq_some.mp found with ⟨-, rfl⟩ | ⟨-, found⟩
  · exact here a listening running
  · exact live y submission a listening found running

theorem Live.act (live : Live s.desk) (act : Act s event d) : Live d := by
  have still {phase : Phase V} (closed : phase.isOpen = false) (a : AttemptId) (listening : Bool)
      (running : phase = .running a listening) : False := by
    rw [running] at closed
    cases closed
  cases act with
  | pass => exact live
  | answered new closed =>
    exact live.set rfl rfl fun a listening running => (still closed a listening running).elim
  | bounced submits admitted new closed =>
    exact live.set rfl rfl fun a listening running => (still closed a listening running).elim
  | entered submits admitted new free own phase =>
    refine live.set rfl rfl fun a listening running => ?_
    cases phase.symm.trans running
    exact ⟨rfl, own ▸ free⟩
  | raced found phase own phase' =>
    exact live.set rfl rfl fun a listening running => nomatch phase'.symm.trans running
  | retried found phase own phase' =>
    exact live.set rfl rfl fun a listening running => nomatch phase'.symm.trans running
  | restarted found phase free own phase' =>
    refine live.set rfl rfl fun a listening running => ?_
    cases phase'.symm.trans running
    exact ⟨rfl, own ▸ free⟩
  | returned found phase own phase' =>
    exact live.set rfl rfl fun a listening running => nomatch phase'.symm.trans running
  | rejected found ends own phase' state =>
    exact live.set rfl rfl fun a listening running => nomatch phase'.symm.trans running
  | @cancelled id cancels =>
    intro y submission a listening mapped running
    obtain ⟨before, found, rfl⟩ := Option.map_eq_some_iff.mp mapped
    -- a race that goes on was not cancelled
    unfold Submission.cancel at running ⊢
    split at running
    · next phase =>
      split at running
      · cases running
      · next other =>
        obtain ⟨_, free⟩ := live y before _ _ found phase
        rw [if_neg other]
        exact ⟨(live y before a listening found running).1,
          List.not_mem_cons_of_ne_of_not_mem other free⟩
    · next silent =>
      obtain ⟨listens, _⟩ := live y before a listening found running
      exact (silent a (listens ▸ running)).elim
  | updated updates => exact live

theorem Act.cancelled_mono (act : Act s event d) (mem : id ∈ s.cancelled) : id ∈ d.cancelled := by
  cases act with
  | cancelled cancels => exact List.mem_cons_of_mem _ mem
  | _ => exact mem

/-- A call starts for an operation that is not cancelled. -/
theorem Act.starts (act : Act s event d) (starts : d.calls = s.desk.calls ++ [x])
    (found : d.submissions x = some after) : after.operationId ∉ s.cancelled := by
  have unchanged {β : Type} {l : List β} {b : β} (same : l = l ++ [b]) : False := by
    simpa using congrArg List.length same
  cases act with
  | entered submits admitted new free own phase =>
    obtain rfl := List.singleton_inj.mp (List.append_cancel_left starts)
    obtain rfl := Option.some.inj ((Map.set_self ..).symm.trans found)
    exact own ▸ free
  | restarted before phase free own phase' =>
    obtain rfl := List.singleton_inj.mp (List.append_cancel_left starts)
    obtain rfl := Option.some.inj ((Map.set_self ..).symm.trans found)
    exact own ▸ free
  | _ => exact (unchanged starts).elim

/-- A submission of a cancelled operation gets no result: it is settled as failed, or goes on. -/
theorem Act.cancelled_cases (live : Live s.desk) (act : Act s event d)
    (found : s.submissions y = some before) (trying : before.phase.isTrying = true)
    (cancelled : before.operationId ∈ s.cancelled) :
    ∃ after, d.submissions y = some after ∧ after.operationId = before.operationId ∧
      (after.phase.isTrying = true ∨ Ends event y before ∧ ∃ message,
        after.phase = .rejected message ∧ after.context.state = .failed) := by
  have same {x : SubmissionId} {after : Submission V} (other : y ≠ x) :
      s.desk.submissions.set x after y = some before := by
    rw [Map.set_of_ne _ _ other]
    exact found
  have new {x : SubmissionId} (none : s.desk.submissions x = none) : y ≠ x := by
    rintro rfl
    cases found.symm.trans none
  cases act with
  | pass => exact ⟨before, found, rfl, .inl trying⟩
  | answered none closed => exact ⟨before, same (new none), rfl, .inl trying⟩
  | bounced submits admitted none closed => exact ⟨before, same (new none), rfl, .inl trying⟩
  | entered submits admitted none free own phase =>
    exact ⟨before, same (new none), rfl, .inl trying⟩
  | @raced x _ _ _ found' _ here phase own phase' =>
    by_cases own : y = x
    · subst own
      obtain rfl := Option.some.inj (here.symm.trans found)
      exact absurd cancelled (live y _ _ _ found phase).2
    · exact ⟨before, same own, rfl, .inl trying⟩
  | @retried x _ _ after here phase own phase' =>
    by_cases other : y = x
    · subst other
      obtain rfl := Option.some.inj (here.symm.trans found)
      exact ⟨after, Map.set_self .., own, .inl (by rw [phase']; rfl)⟩
    · exact ⟨before, same other, rfl, .inl trying⟩
  | @restarted x _ _ _ here phase free own phase' =>
    by_cases other : y = x
    · subst other
      obtain rfl := Option.some.inj (here.symm.trans found)
      exact absurd cancelled free
    · exact ⟨before, same other, rfl, .inl trying⟩
  | @returned x _ _ _ here phase own phase' =>
    by_cases other : y = x
    · subst other
      obtain rfl := Option.some.inj (here.symm.trans found)
      rw [phase] at trying
      cases trying
    · exact ⟨before, same other, rfl, .inl trying⟩
  | @rejected x message _ after here ends own phase' state =>
    by_cases other : y = x
    · subst other
      obtain rfl := Option.some.inj (here.symm.trans found)
      exact ⟨after, Map.set_self .., own, .inr ⟨ends, message, phase', state⟩⟩
    · exact ⟨before, same other, rfl, .inl trying⟩
  | @cancelled id cancels =>
    obtain ⟨own, _, stays⟩ := cancel_phase id before
    refine ⟨before.cancel id, ?_, own, .inl (stays trying)⟩
    exact congrArg (Option.map (·.cancel id)) found
  | updated updates => exact ⟨before, found, rfl, .inl trying⟩

/-! ### Runs -/

/-- The step gives the submission a slot. -/
def Admits (r : Step V) (y : SubmissionId) : Prop :=
  (¬ ∃ id, InProgress r.pre.submissions id y) ∧ ∃ id, InProgress r.post.submissions id y

/-- The step calls the operation of the submission. -/
def Starts (r : Step V) (x : SubmissionId) : Prop :=
  r.post.desk.calls = r.pre.desk.calls ++ [x]

/-- No operation is called that was cancelled before. -/
def Stops (earlier : List (Step V)) (r : Step V) : Prop :=
  ∀ c ∈ earlier, ∀ id, c.event = .cancelOperation id → ∀ x submission, Starts r x →
    r.post.submissions x = some submission → submission.operationId ≠ id

/-- Submissions in progress are no more than the limit was when the latest of them got its slot. -/
def Bounded (h : List (Step V)) (s : State V) : Prop :=
  ∀ F : Finset SubmissionId, F.Nonempty → (∀ y ∈ F, ∃ id, InProgress s.submissions id y) →
    ∃ later r earlier, h = later ++ r :: earlier ∧ (∃ y ∈ F, Admits r y) ∧
      (∀ q ∈ later, ∀ y ∈ F, ¬ Admits q y) ∧
      ((F.card : ℚ) : Number) ≤ r.pre.config.concurrencyLimit

structure Lawful (h : List (Step V)) (s : State V) : Prop where
  bounded : Bounded h s
  steps : Throughout (fun earlier r => Frees r.pre.desk r.post.desk ∧ Stops earlier r) h
  /-- A submission that was cancelled before it succeeded is still tried, or has ended so. -/
  cancels : ∀ c ∈ h, ∀ id y before, c.event = .cancelOperation id →
    c.pre.submissions y = some before → before.operationId = id → before.phase.isTrying = true →
    ∃ after, s.submissions y = some after ∧ (after.phase.isTrying = true ∨
      after.phase = .rejected (some "OPERATION_CANCELLED") ∧ after.context.state = .cancelled)

/-- What the steps so far have cancelled. -/
structure Recorded (settled : Submission V → Prop) (h : List (Step V)) (s : State V) : Prop where
  cancelled : ∀ c ∈ h, ∀ id, c.event = .cancelOperation id → id ∈ s.cancelled
  trying : ∀ c ∈ h, ∀ id y before, c.event = .cancelOperation id →
    c.pre.submissions y = some before → before.operationId = id → before.phase.isTrying = true →
    ∃ after, s.submissions y = some after ∧
      (after.operationId = id ∧ after.phase.isTrying = true ∨ settled after)

theorem cancelOperation_desk (ok : step s (.cancelOperation id) = some s') :
    id ∈ s'.cancelled ∧ ∀ y before, s.submissions y = some before →
      before.phase.isTrying = true → ∃ after, s'.submissions y = some after ∧
        after.operationId = before.operationId ∧ after.phase.isTrying = true := by
  cases ok
  unfold State.cancelOperation
  split
  · next known => exact ⟨known, fun y before found trying => ⟨before, found, rfl, trying⟩⟩
  · refine ⟨List.mem_cons_self, fun y before found trying => ?_⟩
    obtain ⟨own, _, stays⟩ := cancel_phase id before
    exact ⟨before.cancel id, congrArg (Option.map (·.cancel id)) found, own, stays trying⟩

theorem Recorded.step {settled : Submission V → Prop} {h : List (Step V)}
    (recorded : Recorded settled h s) (live : Live s.desk) (ok : step s event = some s')
    (act : Act s event s'.desk)
    (keep : ∀ y before, s.submissions y = some before → settled before →
      ∃ after, s'.submissions y = some after ∧ settled after)
    (ends : ∀ y before after message, s.submissions y = some before →
      before.phase.isTrying = true → before.operationId ∈ s.cancelled → Ends event y before →
      after.phase = .rejected message → after.context.state = .failed → settled after) :
    Recorded settled (⟨s, event, s'⟩ :: h) s' := by
  constructor
  · intro c mem id cancels
    rcases List.mem_cons.mp mem with rfl | earlier
    · subst cancels
      exact (cancelOperation_desk ok).1
    · exact act.cancelled_mono (recorded.cancelled c earlier id cancels)
  · intro c mem id y before cancels found own trying
    rcases List.mem_cons.mp mem with rfl | earlier
    · subst cancels
      obtain ⟨after, found', own', trying'⟩ := (cancelOperation_desk ok).2 y before found trying
      exact ⟨after, found', .inl ⟨own'.trans own, trying'⟩⟩
    · obtain ⟨now, here, ⟨own', trying'⟩ | past⟩ :=
        recorded.trying c earlier id y before cancels found own trying
      · have cancelled : now.operationId ∈ s.cancelled :=
          own' ▸ recorded.cancelled c earlier id cancels
        obtain ⟨after, found', own'', stays | ⟨ending, message, phase, state⟩⟩ :=
          act.cancelled_cases live here trying' cancelled
        · exact ⟨after, found', .inl ⟨own''.trans own', stays⟩⟩
        · exact ⟨after, found', .inr (ends y now after message here trying' cancelled ending phase
            state)⟩
      · obtain ⟨after, found', past'⟩ := keep y now here past
        exact ⟨after, found', .inr past'⟩

theorem Act.admits (act : Act s event d) (closed : ¬ ∃ id, InProgress s.submissions id y)
    (opened : InProgress d.submissions id y) :
    ∃ x kind id key, submitting event = some (x, kind, id, key) ∧ s.admits key ∧
      d.active = setActive s.active id x := by
  cases act with
  | pass => exact absurd ⟨id, opened⟩ closed
  | answered new shut =>
    exact absurd ⟨id, (inProgress_set_of_closed new shut).mp opened⟩ closed
  | bounced submits admitted new shut =>
    exact absurd ⟨id, (inProgress_set_of_closed new shut).mp opened⟩ closed
  | entered submits admitted new free own phase => exact ⟨_, _, _, _, submits, admitted, rfl⟩
  | raced found phase own phase' =>
    have before := (inProgress_set_of_open found (isOpen_of_running phase)
      (by rw [phase']; rfl) own).mp opened
    exact absurd ⟨id, before⟩ closed
  | retried found phase own phase' =>
    have before := (inProgress_set_of_open found (by rw [phase]; rfl)
      (by rw [phase']; rfl) own).mp opened
    exact absurd ⟨id, before⟩ closed
  | restarted found phase free own phase' =>
    have before := (inProgress_set_of_open found (by rw [phase]; rfl)
      (isOpen_of_running phase') own).mp opened
    exact absurd ⟨id, before⟩ closed
  | returned found phase own phase' =>
    rcases inProgress_set.mp opened with ⟨_, isOpen, _⟩ | ⟨_, before⟩
    · rw [phase'] at isOpen
      cases isOpen
    · exact absurd ⟨id, before⟩ closed
  | rejected found ends own phase' state =>
    rcases inProgress_set.mp opened with ⟨_, isOpen, _⟩ | ⟨_, before⟩
    · rw [phase'] at isOpen
      cases isOpen
    · exact absurd ⟨id, before⟩ closed
  | cancelled cancels => exact absurd ⟨id, inProgress_cancel.mp opened⟩ closed
  | updated updates => exact absurd ⟨id, opened⟩ closed

theorem Slotted.card_le (slotted : Slotted d) {F : Finset SubmissionId}
    (all : ∀ y ∈ F, ∃ id, InProgress d.submissions id y) : F.card ≤ d.active.length := by
  have subset : F ⊆ (d.active.map Prod.snd).toFinset := by
    intro y mem
    obtain ⟨id, open_⟩ := all y mem
    exact List.mem_toFinset.mpr (List.mem_map.mpr ⟨_, (slotted.slots id y).mpr open_, rfl⟩)
  calc F.card ≤ (d.active.map Prod.snd).toFinset.card := Finset.card_le_card subset
    _ ≤ (d.active.map Prod.snd).length := List.toFinset_card_le _
    _ = d.active.length := List.length_map ..

theorem Bounded.step {h : List (Step V)} (bounded : Bounded h s) (slotted : Slotted s.desk)
    (slotted' : Slotted s'.desk) (orderly : Orderly ⟨s, event, s'⟩) (act : Act s event s'.desk) :
    Bounded (⟨s, event, s'⟩ :: h) s' := by
  intro F nonempty all
  by_cases latest : ∃ y ∈ F, Admits ⟨s, event, s'⟩ y
  · have first : ∀ q ∈ ([] : List (Step V)), ∀ y ∈ F, ¬ Admits q y := fun _ mem => nomatch mem
    refine ⟨[], _, h, rfl, latest, first, ?_⟩
    obtain ⟨y, _, closed, id, opened⟩ := latest
    obtain ⟨x, kind, id, key, submits, admitted, active⟩ := act.admits closed opened
    have free := slotted.free (orderly.alone x kind id key submits admitted)
    have card : F.card ≤ s.active.length + 1 := by
      have slots : F.card ≤ s'.active.length := slotted'.card_le all
      have appended : s'.active = s.active ++ [(id, x)] :=
        active.trans (setActive_of_free (d := s.desk) free)
      rwa [appended, List.length_append] at slots
    have cast : (F.card : ℚ) ≤ ((s.active.length + 1 : ℕ) : ℚ) := Nat.cast_le.mpr card
    exact (WithTop.coe_le_coe.mpr cast).trans (orderly.room x kind id key submits admitted)
  · have before : ∀ y ∈ F, ∃ id, InProgress s.submissions id y := by
      intro y mem
      by_contra closed
      exact latest ⟨y, mem, closed, all y mem⟩
    obtain ⟨later, r, earlier, rfl, admits, others, card⟩ := bounded F nonempty before
    refine ⟨⟨s, event, s'⟩ :: later, r, earlier, rfl, admits, ?_, card⟩
    exact List.forall_mem_cons.mpr ⟨fun y mem admitted => latest ⟨y, mem, admitted⟩, others⟩

/-- What holds along a run whose steps are orderly. -/
structure Along (h : List (Step V)) (s : State V) : Prop where
  slotted : Slotted s.desk
  live : Live s.desk
  bounded : Bounded h s
  recorded : Recorded (fun _ => False) h s
  steps : Throughout (fun earlier r => Frees r.pre.desk r.post.desk ∧ Stops earlier r) h

theorem Along.init (config : OperationConfig) (start : Int) :
    Along [] (machine V config start).init where
  slotted := ⟨fun _ _ => iff_of_false List.not_mem_nil (not_inProgress rfl), List.nodup_nil⟩
  live _ _ _ _ found := nomatch found
  bounded F nonempty all := by
    obtain ⟨y, mem⟩ := nonempty
    obtain ⟨id, opened⟩ := all y mem
    exact absurd opened (not_inProgress rfl)
  recorded := {
    cancelled := fun _ mem => nomatch mem
    trying := fun _ mem => nomatch mem }
  steps := trivial

theorem Along.step {h : List (Step V)} (along : Along h s) (ok : step s event = some s')
    (orderly : Orderly ⟨s, event, s'⟩) : Along (⟨s, event, s'⟩ :: h) s' := by
  have act := step_act ok orderly.kept
  obtain ⟨slotted, frees⟩ := along.slotted.act orderly act
  refine ⟨slotted, along.live.act act, along.bounded.step along.slotted slotted orderly act,
    along.recorded.step along.live ok act (fun _ _ _ past => past.elim) ?_, ⟨frees, ?_⟩,
    along.steps⟩
  · intro y before _ _ found trying cancelled ends _ _
    exact orderly.unsettled y before found trying cancelled ends
  · intro c mem id cancels x submission starts found same
    exact act.starts starts found (same ▸ along.recorded.cancelled c mem id cancels)

/-- In a run whose steps are orderly, the submissions in progress keep within the limit, each frees
its own slot, and an operation that is cancelled is not called again. -/
theorem orderly_lawful {config : OperationConfig} {start : Int} {h : List (Step V)} {s : State V}
    (run : Run (machine V config start) h s) (orderly : ∀ r ∈ h, Orderly r) : Lawful h s := by
  have along : Along h s := run.history orderly (Along.init config start) Along.step
  refine ⟨along.bounded, along.steps, fun c mem id y before cancels found own trying => ?_⟩
  obtain ⟨after, here, ⟨_, stays⟩ | past⟩ :=
    along.recorded.trying c mem id y before cancels found own trying
  · exact ⟨after, here, .inl stays⟩
  · exact past.elim

/-! ### How a cancelled submission ends -/

/-- A submission that has settled stays as it is. -/
theorem Act.fixed (act : Act s event d) (found : s.submissions y = some before)
    (closed : before.phase.isOpen = false) : d.submissions y = some before := by
  have same {x : SubmissionId} {after : Submission V} (other : y ≠ x) :
      s.desk.submissions.set x after y = some before := by
    rw [Map.set_of_ne _ _ other]
    exact found
  have new {x : SubmissionId} (none : s.desk.submissions x = none) : y ≠ x := by
    rintro rfl
    cases found.symm.trans none
  have open_ {x : SubmissionId} {here : Submission V} (known : s.desk.submissions x = some here)
      (isOpen : here.phase.isOpen = true) : y ≠ x := by
    rintro rfl
    cases known.symm.trans found
    cases closed.symm.trans isOpen
  cases act with
  | pass => exact found
  | answered none _ => exact same (new none)
  | bounced _ _ none _ => exact same (new none)
  | entered _ _ none _ _ _ => exact same (new none)
  | raced known phase _ _ => exact same (open_ known (isOpen_of_running phase))
  | retried known phase _ _ => exact same (open_ known (by rw [phase]; rfl))
  | restarted known phase _ _ _ => exact same (open_ known (by rw [phase]; rfl))
  | returned known phase _ _ => exact same (open_ known (by rw [phase]; rfl))
  | rejected known ends _ _ _ =>
    refine same (open_ known ?_)
    rcases ends with ⟨_, _, phase, _⟩ | ⟨_, phase⟩ <;> rw [phase] <;> rfl
  | @cancelled id _ =>
    have kept : before.cancel id = before := by
      unfold Submission.cancel
      split
      · next running =>
        rw [running] at closed
        cases closed
      · rfl
    exact (congrArg (Option.map (·.cancel id)) found).trans (congrArg some kept)
  | updated _ => exact found

/-- In every run without `reset`, a submission that is cancelled before it succeeds is still tried,
or has been rejected and is `failed`, never `cancelled`. -/
theorem cancelled_submission_fails {config : OperationConfig} {start : Int} {h : List (Step V)}
    {s : State V} (run : Run (machine V config start) h s) (kept : ∀ r ∈ h, r.event ≠ .reset) :
    ∀ c ∈ h, ∀ id y before, c.event = .cancelOperation id → c.pre.submissions y = some before →
      before.operationId = id → before.phase.isTrying = true →
      ∃ after, s.submissions y = some after ∧ (after.phase.isTrying = true ∨
        (∃ message, after.phase = .rejected message) ∧ after.context.state = .failed) := by
  let settled (after : Submission V) : Prop :=
    (∃ message, after.phase = .rejected message) ∧ after.context.state = .failed
  have keeps : Live s.desk ∧ Recorded settled h s := by
    refine run.history (C := fun r => r.event ≠ .reset)
      (I := fun h s => Live s.desk ∧ Recorded settled h s) kept ?_ ?_
    · refine ⟨(Along.init config start).live, ?_⟩
      exact {
        cancelled := fun _ mem => nomatch mem
        trying := fun _ mem => nomatch mem }
    · rintro h t e t' ⟨live, recorded⟩ ok notReset
      have act := step_act ok notReset
      refine ⟨live.act act, recorded.step live ok act ?_ ?_⟩
      · intro y before found past
        obtain ⟨⟨message, phase⟩, state⟩ := past
        exact ⟨before, act.fixed found (by rw [phase]; rfl), ⟨message, phase⟩, state⟩
      · intro _ _ _ message _ _ _ _ phase state
        exact ⟨⟨message, phase⟩, state⟩
  intro c mem id y before cancels found own trying
  obtain ⟨after, here, ⟨_, stays⟩ | past⟩ :=
    keeps.2.trying c mem id y before cancels found own trying
  · exact ⟨after, here, .inl stays⟩
  · exact ⟨after, here, .inr past⟩

/-! ### A purchase that is cancelled -/

def withdrawn : State String := asked.cancelOperation "intent"

def refused : State String :=
  withdrawn.reject 0 (paying (.raced (.error "OPERATION_CANCELLED"))) (some "OPERATION_CANCELLED")

theorem withdrawn_run : Run manager
    [⟨asked, .cancelOperation "intent", withdrawn⟩,
      ⟨manager.init, .submitIntent 0 "intent" "key", asked⟩] withdrawn :=
  .step (.step .refl asked_step) rfl

theorem refused_step : step withdrawn (.finished 0) = some refused := by
  have stops : ¬ shouldRetry defaultOperationConfig 1 "OPERATION_CANCELLED" = true := by
    decide
  change some (withdrawn.finish 0 (paying (.raced (.error "OPERATION_CANCELLED")))
    (.error "OPERATION_CANCELLED")) = _
  unfold State.finish
  exact congrArg some (if_neg stops)

theorem withdrawn_lawful : Lawful
    [⟨asked, .cancelOperation "intent", withdrawn⟩,
      ⟨manager.init, .submitIntent 0 "intent" "key", asked⟩] withdrawn := by
  apply orderly_lawful withdrawn_run
  intro r mem
  simp only [List.mem_cons, List.not_mem_nil, or_false] at mem
  rcases mem with rfl | rfl
  · exact {
      kept := fun resets => by cases resets
      idle := fun _ updates => by cases updates
      alone := fun _ _ _ _ submits => by cases submits
      room := fun _ _ _ _ submits => by cases submits
      unsettled := fun _ _ _ _ cancelled => absurd cancelled List.not_mem_nil }
  · exact {
      kept := fun resets => by cases resets
      idle := fun _ updates => by cases updates
      alone := fun _ _ _ _ _ _ _ => not_inProgress rfl
      room := fun _ _ _ _ _ _ => by decide
      unsettled := fun _ _ _ _ cancelled => absurd cancelled List.not_mem_nil }

/-- The submission rejects with the right error and ends as failed. -/
theorem withdrawn_submission_failed : ¬ Lawful
    [⟨withdrawn, .finished 0, refused⟩, ⟨asked, .cancelOperation "intent", withdrawn⟩,
      ⟨manager.init, .submitIntent 0 "intent" "key", asked⟩] refused ∧
    Run manager [⟨withdrawn, .finished 0, refused⟩, ⟨asked, .cancelOperation "intent", withdrawn⟩,
      ⟨manager.init, .submitIntent 0 "intent" "key", asked⟩] refused := by
  refine ⟨fun lawful => ?_, withdrawn_run.step refused_step⟩
  obtain ⟨after, here, ended⟩ := lawful.cancels ⟨asked, .cancelOperation "intent", withdrawn⟩
    (by simp) "intent" 0 (paying (.running 0 true)) rfl rfl rfl rfl
  have known : (refused.submissions 0).map
      (fun other => (other.phase.isTrying, other.context.state)) = some (false, .failed) := rfl
  rw [here, Option.map_some, Option.some.injEq, Prod.mk.injEq] at known
  rcases ended with trying | ⟨_, state⟩
  · cases trying.symm.trans known.1
  · cases state.symm.trans known.2

end Talos.Sdk.Operations
