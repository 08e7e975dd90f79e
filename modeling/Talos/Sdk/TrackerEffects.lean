import Talos.Sdk.JobTracker

/-!
# What a step of the tracker does

The flags, the entries and the promise change together when a terminal status, the job that was
fetched or an abort arrives. `Effect` lists what a step does to them and to the handlers of updates.
-/

namespace Talos.Sdk.JobTracker

open Database

variable (options : Options)

/-! ### Terminal statuses -/

def Update.terminalStatus (u : Update) : Option String :=
  u.status.filter fun status => status ∈ ["completed", "failed", "cancelled"]

def TalosStreamEvent.terminalStatus (event : TalosStreamEvent) : Option String :=
  if event.type ∈ ["ping", "heartbeat"] then none
  else if event.type = "done" then some (event.payload.status.getD "completed")
  else event.payload.terminalStatus

def Event.terminalStatus : Event → Option String
  | .dispatch _ event => event.terminalStatus
  | .pollAnswer job => job.terminalStatus
  | .look _ | .add _ | .finish _ | .lose _ | .streamLost | .pollError | .wake | .fetched _
  | .abort _ | .return | .next | .remember _ => none

/-! ### Effects -/

/-- `produce` while the tracker is open, or for an abort. -/
def Ending.produce (s : Ending) (outcome : Outcome) : Ending :=
  { s with
    buffer := (outcome.entries options).foldl AsyncQueue.enqueue s.buffer
    settled := s.settled.or (some (outcome.settlement options)) }

/-- The outcome is produced at once. -/
def Verdict.isReady : Verdict → Bool
  | .complete details => details.isReady
  | .fail _ => true

def Verdict.outcome : Verdict → Outcome
  | .complete details => .completed details.finalJob
  | .fail job => .failed job

def Verdict.status : Verdict → String
  | .complete _ => "completed"
  | .fail job => job.status

def Verdict.details : Verdict → Option Details
  | .complete details => some details
  | .fail _ => none

def Ending.conclude (s : Ending) (verdict : Verdict) : Ending :=
  if s.isTerminal then s
  else if verdict.isReady then { s with isTerminal := true }.produce options verdict.outcome
  else { s with isTerminal := true, completing := verdict.details }

/-- What a step does to the flags, to what the consumer is given and to the handlers. -/
inductive Effect (s : State) : Event → Ending → (Source → Option Task) → Prop where
  | rest {event} (ignored : event.terminalStatus.isSome = true → s.isTerminal = true) :
      Effect s event s.toEnding s.tasks
  | next : Effect s .next { s.toEnding with buffer := s.buffer.dequeue } s.tasks
  | heard {n event} (idle : s.tasks (.stream n) = none)
      (status : event.terminalStatus = event.payload.terminalStatus) :
      Effect s (.dispatch n event) s.toEnding
        (Function.update s.tasks (.stream n) (some ⟨event.id, event.payload, .looking⟩))
  | asked {job} (pending : job.terminalStatus = none) :
      Effect s (.pollAnswer job) s.toEnding
        (Function.update s.tasks .poll (some ⟨none, job, .looking⟩))
  | advanced {event source id update stage stage'} (silent : event.terminalStatus = none)
      (found : s.tasks source = some ⟨id, update, stage⟩) :
      Effect s event s.toEnding (Function.update s.tasks source (some ⟨id, update, stage'⟩))
  | swallowed {source task} (found : s.tasks source = some task) (looking : task.stage = .looking)
      (seen : s.seen (task.key options) = true) :
      Effect s (.look source) s.toEnding (Function.update s.tasks source none)
  | lost {source task} (found : s.tasks source = some task) :
      Effect s (.lose source) s.toEnding (Function.update s.tasks source none)
  | progress {source task} (found : s.tasks source = some task)
      (pending : task.update.verdict = none) (isOpen : s.isClosed = false) :
      Effect s (.finish source)
        { s.toEnding with buffer := s.buffer.enqueue (.progress task.update) }
        (Function.update s.tasks source none)
  | muted {source task} (found : s.tasks source = some task)
      (pending : task.update.verdict = none) :
      Effect s (.finish source) s.toEnding (Function.update s.tasks source none)
  | finished {source task verdict} (found : s.tasks source = some task)
      (brought : task.update.verdict = some verdict) :
      Effect s (.finish source) (s.toEnding.conclude options verdict)
        (Function.update s.tasks source none)
  | done {n event} (type : event.type = "done") :
      Effect s (.dispatch n event) (s.toEnding.conclude options (s.doneVerdict event.payload))
        s.tasks
  | polled {job verdict} (brought : job.verdict = some verdict) :
      Effect s (.pollAnswer job) (s.toEnding.conclude options verdict) s.tasks
  | fetched {job details} (waiting : s.completing = some details) :
      Effect s (.fetched job) ({ s.toEnding with completing := none }.produce options
        (.completed (job.getD ⟨"completed", details.result⟩))) s.tasks
  | aborted {message} (live : s.isOver = false) :
      Effect s (.abort message) ({ s.toEnding with isClosed := true, isTerminal := true }.produce
        options (.aborted message)) s.tasks

section

variable {options}
variable {s s' : State} {event : Event} {h : List (Transition State Event)} {verdict : Verdict}
  {outcome : Outcome} {source : Source}

theorem verdict_status (u : Update) : u.verdict.map Verdict.status = u.terminalStatus := by
  unfold Update.verdict Update.terminalStatus
  cases u.status with
  | none => rfl
  | some status =>
    by_cases completed : status = "completed"
    · simp [completed, Verdict.status, Option.filter_some]
    · by_cases failed : status = "failed"
      · simp [failed, Verdict.status, Option.filter_some]
      · by_cases cancelled : status = "cancelled"
        · simp [cancelled, Verdict.status, Option.filter_some]
        · simp [completed, failed, cancelled, Option.filter_some]

theorem terminalStatus_of_verdict {u : Update} (brought : u.verdict = some verdict) :
    u.terminalStatus = some verdict.status := by
  rw [← verdict_status, brought]
  rfl

theorem terminalStatus_eq_none {u : Update} : u.terminalStatus = none ↔ u.verdict = none := by
  rw [← verdict_status, Option.map_eq_none_iff]

theorem doneVerdict_status (s : State) (u : Update) :
    (s.doneVerdict u).status = u.status.getD "completed" := by
  unfold State.doneVerdict
  by_cases completed : u.status.getD "completed" = "completed"
  · rw [if_pos completed, completed]
    rfl
  · rw [if_neg completed]
    rfl

/-! The flags are not the polling's business. -/

@[simp] theorem toEnding_startFallbackPolling : s.startFallbackPolling.toEnding = s.toEnding := by
  unfold State.startFallbackPolling
  split <;> rfl

@[simp] theorem tasks_startFallbackPolling : s.startFallbackPolling.tasks = s.tasks := by
  unfold State.startFallbackPolling
  split <;> rfl

@[simp] theorem toEnding_cleanup : s.cleanup.toEnding = s.toEnding := toEnding_startFallbackPolling

@[simp] theorem tasks_cleanup : s.cleanup.tasks = s.tasks := tasks_startFallbackPolling

@[simp] theorem toEnding_endTask : (s.endTask source).toEnding = s.toEnding := by
  cases source <;> rfl

@[simp] theorem tasks_endTask : (s.endTask source).tasks = Function.update s.tasks source none := by
  cases source <;> rfl

theorem foldl_enqueue {entries : List Entry}
    (heard : s.isClosed = true → ∀ entry ∈ entries, entry.isError = true) :
    entries.foldl State.enqueue s =
      { s with buffer := entries.foldl AsyncQueue.enqueue s.buffer } := by
  induction entries generalizing s with
  | nil => rfl
  | cons entry rest ih =>
    have first : s.enqueue entry = { s with buffer := s.buffer.enqueue entry } := by
      refine if_neg ?_
      rw [Bool.and_eq_true, Bool.not_eq_true', not_and]
      intro closed
      rw [heard closed entry List.mem_cons_self]
      exact Bool.noConfusion
    rw [List.foldl_cons, first]
    exact ih fun closed entry mem => heard closed entry (List.mem_cons_of_mem _ mem)

/-- Nothing is withheld while the tracker is open, nor is the error of an abort. -/
theorem produce_eq (options : Options) (s : State) (outcome : Outcome)
    (heard : s.isClosed = true → ∃ message, outcome = .aborted message) :
    (s.produce options outcome).toEnding = s.toEnding.produce options outcome ∧
      (s.produce options outcome).tasks = s.tasks := by
  have errors : s.isClosed = true → ∀ entry ∈ outcome.entries options, entry.isError = true := by
    intro closed entry mem
    obtain ⟨message, rfl⟩ := heard closed
    obtain rfl := List.mem_singleton.mp mem
    rfl
  unfold State.produce
  rw [foldl_enqueue errors]
  exact ⟨rfl, rfl⟩

theorem conclude_eq (options : Options) (verdict : Verdict)
    (closed : s.isClosed = true → s.isTerminal = true) :
    (s.conclude options verdict).toEnding = s.toEnding.conclude options verdict ∧
      (s.conclude options verdict).tasks = s.tasks := by
  cases terminal : s.isTerminal with
  | true =>
    cases verdict <;>
      simp only [State.conclude, State.completeJob, State.failJob, Ending.conclude, terminal,
        if_true, and_self]
  | false =>
    have isOpen : s.isClosed = true → ∃ message, verdict.outcome = .aborted message := by
      intro shut
      cases terminal.symm.trans (closed shut)
    cases verdict with
    | complete details =>
      cases ready : details.isReady with
      | true =>
        have produced := produce_eq options { s with isTerminal := true }
          (.completed details.finalJob) isOpen
        simp only [State.conclude, State.completeJob, Ending.conclude, Verdict.isReady, terminal,
          ready, Bool.false_eq_true, if_false, if_true, toEnding_cleanup, tasks_cleanup]
        exact produced
      | false =>
        simp only [State.conclude, State.completeJob, Ending.conclude, Verdict.isReady, terminal,
          ready, Bool.false_eq_true, if_false, Verdict.details, and_self]
    | fail job =>
      have produced := produce_eq options { s with isTerminal := true }.cleanup (.failed job)
        (by rw [toEnding_cleanup]; exact isOpen)
      rw [toEnding_cleanup, tasks_cleanup] at produced
      simp only [State.conclude, State.failJob, Ending.conclude, Verdict.isReady, terminal,
        Bool.false_eq_true, if_false, if_true]
      exact produced

theorem isTerminal_of_isOver (closed : s.isClosed = true → s.isTerminal = true)
    (isOver : s.isOver = true) : s.isTerminal = true :=
  ((Bool.or_eq_true _ _).mp isOver).elim id closed

theorem step_effect (closed : s.isClosed = true → s.isTerminal = true)
    (waiting : s.completing.isSome = true → s.isClosed = false)
    (ok : step options s event = some s') : Effect options s event s'.toEnding s'.tasks := by
  cases event with
  | dispatch n event =>
    cases idle : s.tasks (.stream n) with
    | some task =>
      simp only [step, idle, Option.isSome_some, if_true, reduceCtorEq] at ok
    | none =>
      simp only [step, idle, Option.isSome_none, Bool.false_eq_true, if_false] at ok
      cases ok
      unfold State.handleStreamEvent
      split
      · next quiet =>
        refine .rest fun received => ?_
        rcases quiet with isOver | ping
        · exact isTerminal_of_isOver closed isOver
        · simp only [Event.terminalStatus, TalosStreamEvent.terminalStatus, ping, if_true,
            Option.isSome_none, Bool.false_eq_true] at received
      · next live =>
        split
        · next type =>
          obtain ⟨ending, tasks⟩ := conclude_eq options (s.doneVerdict event.payload) closed
          rw [ending, tasks]
          exact .done type
        · next other =>
          refine .heard idle ?_
          rw [TalosStreamEvent.terminalStatus, if_neg fun ping => live (.inr ping), if_neg other]
  | look source =>
    simp only [step] at ok
    split at ok
    · next id update found =>
      split at ok
      · next seen =>
        cases ok
        rw [toEnding_endTask, tasks_endTask]
        exact .swallowed found rfl seen
      · cases ok
        exact .advanced rfl found
    · cases ok
  | add source =>
    simp only [step] at ok
    split at ok
    · next id update found =>
      cases ok
      exact .advanced rfl found
    · cases ok
  | finish source =>
    simp only [step] at ok
    split at ok
    · next id update found =>
      split at ok
      · next verdict brought =>
        cases ok
        obtain ⟨ending, tasks⟩ := conclude_eq options verdict closed
        rw [toEnding_endTask, tasks_endTask, ending, tasks]
        exact .finished found brought
      · next pending =>
        cases ok
        rw [toEnding_endTask, tasks_endTask]
        cases shut : s.isClosed with
        | true =>
          have same : s.enqueue (.progress update) = s := if_pos (by rw [shut]; rfl)
          rw [same]
          exact .muted found pending
        | false =>
          have put : s.enqueue (.progress update) =
              { s with buffer := s.buffer.enqueue (.progress update) } :=
            if_neg (by rw [shut]; exact Bool.false_ne_true)
          rw [put]
          exact .progress found pending shut
    · cases ok
  | lose source =>
    simp only [step] at ok
    split at ok
    · next found =>
      cases ok
      rw [toEnding_endTask, tasks_endTask]
      exact .lost found
    · next found =>
      cases ok
      rw [toEnding_endTask, tasks_endTask]
      exact .lost found
    · cases ok
  | streamLost =>
    cases ok
    rw [toEnding_startFallbackPolling, tasks_startFallbackPolling]
    exact .rest nofun
  | pollAnswer job =>
    simp only [step] at ok
    split at ok
    · cases ok
    · split at ok
      · next isOver =>
        cases ok
        exact .rest fun _ => isTerminal_of_isOver closed isOver
      · split at ok
        · next verdict brought =>
          cases ok
          obtain ⟨ending, tasks⟩ := conclude_eq options (s := s.remember job) verdict closed
          exact ending ▸ tasks ▸ .polled brought
        · next pending =>
          cases ok
          exact .asked (terminalStatus_eq_none.mpr pending)
  | pollError =>
    simp only [step] at ok
    split at ok
    · cases ok
    · cases ok
      exact .rest nofun
  | wake =>
    simp only [step] at ok
    split at ok
    · cases ok
    · cases ok
      exact .rest nofun
  | fetched job =>
    simp only [step] at ok
    split at ok
    · next details found =>
      cases ok
      have isOpen : s.isClosed = false := waiting (by rw [found]; rfl)
      obtain ⟨ending, tasks⟩ := produce_eq options { s with completing := none }
        (.completed (job.getD ⟨"completed", details.result⟩))
        fun shut => Bool.noConfusion (isOpen.symm.trans shut)
      rw [toEnding_cleanup, tasks_cleanup, ending, tasks]
      exact .fetched found
    · cases ok
  | abort message =>
    cases ok
    cases isOver : s.isOver with
    | true =>
      rw [State.handleAbort, if_pos isOver]
      exact .rest nofun
    | false =>
      obtain ⟨ending, tasks⟩ := produce_eq options
        { s with isClosed := true, isTerminal := true }.cleanup (.aborted message)
        fun _ => ⟨message, rfl⟩
      rw [State.handleAbort, if_neg (by rw [isOver]; exact Bool.false_ne_true), ending, tasks,
        toEnding_cleanup, tasks_cleanup]
      exact .aborted isOver
  | «return» =>
    cases ok
    rw [toEnding_cleanup, tasks_cleanup]
    exact .rest nofun
  | next =>
    cases ok
    exact .next
  | remember key =>
    cases ok
    exact .rest nofun

end

end Talos.Sdk.JobTracker
