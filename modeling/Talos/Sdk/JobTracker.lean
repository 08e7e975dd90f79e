import Talos.Database.Machine
import Mathlib.Logic.Function.Basic
import Mathlib.Data.Nat.Notation

/-!
# A queue that is read asynchronously

What is put into the queue goes to the reader that waits longest, or is kept until somebody reads.
Nothing is kept while a reader waits, so everything is read in the order in which it was put in.
-/

namespace Talos.Sdk

structure AsyncQueue (α : Type) where
  queue : List α
  /-- How many readers wait. -/
  waitingResolvers : ℕ
  /-- What readers were given, oldest first. -/
  yielded : List α
  waits : 0 < waitingResolvers → queue = []

namespace AsyncQueue

variable {α : Type} (q : AsyncQueue α)

def empty : AsyncQueue α := ⟨[], 0, [], nofun⟩

def enqueue (entry : α) : AsyncQueue α :=
  if waiting : 0 < q.waitingResolvers then
    ⟨q.queue, q.waitingResolvers - 1, q.yielded ++ [entry], fun _ => q.waits waiting⟩
  else ⟨q.queue ++ [entry], q.waitingResolvers, q.yielded, fun more => absurd more waiting⟩

def dequeue : AsyncQueue α :=
  match kept : q.queue with
  | entry :: rest => ⟨rest, q.waitingResolvers, q.yielded ++ [entry], fun waiting => by
      rw [q.waits waiting] at kept
      cases kept⟩
  | [] => ⟨[], q.waitingResolvers + 1, q.yielded, fun _ => rfl⟩

/-- Everything put in so far. -/
def entries : List α := q.yielded ++ q.queue

variable {q}

@[simp] theorem entries_enqueue (entry : α) : (q.enqueue entry).entries = q.entries ++ [entry] := by
  unfold enqueue entries
  split
  · next waiting => simp only [q.waits waiting, List.append_nil]
  · rw [List.append_assoc]

@[simp] theorem waitingResolvers_enqueue (entry : α) :
    (q.enqueue entry).waitingResolvers = q.waitingResolvers - 1 := by
  unfold enqueue
  split
  · rfl
  · next idle => exact (Nat.sub_eq_zero_of_le (Nat.le_succ_of_le (Nat.le_of_not_lt idle))).symm ▸
      Nat.eq_zero_of_not_pos idle

@[simp] theorem entries_dequeue : q.dequeue.entries = q.entries := by
  unfold dequeue
  split
  · next kept => exact (List.append_assoc ..).trans (congrArg (q.yielded ++ ·) kept.symm)
  · next kept => exact congrArg (q.yielded ++ ·) kept.symm

/-- Nobody has to wait for an entry that is there. -/
theorem waitingResolvers_dequeue (kept : q.queue ≠ []) :
    q.dequeue.waitingResolvers = q.waitingResolvers := by
  unfold dequeue
  split
  · rfl
  · next none_ => exact absurd none_ kept

@[simp] theorem entries_foldl (entries : List α) :
    (entries.foldl enqueue q).entries = q.entries ++ entries := by
  induction entries generalizing q with
  | nil => exact (List.append_nil _).symm
  | cons entry rest ih => rw [List.foldl_cons, ih, entries_enqueue, List.append_assoc,
      List.singleton_append]

/-- Each entry serves a reader. -/
@[simp] theorem waitingResolvers_foldl (entries : List α) :
    (entries.foldl enqueue q).waitingResolvers = q.waitingResolvers - entries.length := by
  induction entries generalizing q with
  | nil => rfl
  | cons entry rest ih =>
    rw [List.foldl_cons, ih, waitingResolvers_enqueue, List.length_cons, Nat.sub_sub,
      Nat.add_comm 1]

end AsyncQueue

end Talos.Sdk

/-!
## Following a job

`JobTracker` of `packages/sdk/src/job-tracker.ts`, with what runs concurrently between its awaits:
the handlers of stream events, the polling loop, the request for the final job, aborts, and the
consumer's calls of `next` and `return`. The stream is another user of the seen store. Times between
polls are left open, and of a job and its events only what decides an outcome is kept.
-/

namespace Talos.Sdk.JobTracker

open Database

/-! ### Updates -/

/-- A field that may be undefined, null or a value. -/
abbrev Field := Option (Option String)

/-- `a ?? b` -/
def Field.orElse : Field → Field → Field
  | some (some a), _ => some (some a)
  | none, b | some none, b => b

/-- What is read of a payload of the stream or a polled job; `hasId` if its id is not empty. -/
structure Update where
  status : Option String
  percent : Option String
  stage : Option String
  message : Option String
  updatedAt : Option String
  result : Field
  hasId : Bool
  deriving DecidableEq, Repr

structure TalosStreamEvent where
  id : Option String
  type : String
  payload : Update
  deriving DecidableEq, Repr

def Update.hasResult (u : Update) : Bool := u.result.join.isSome

/-- `computeEventFingerprint` -/
def fingerprint (jobId : String) (id : Option String) (u : Update) : String :=
  match id.filter (· ≠ "") with
  | some id => jobId ++ ":id:" ++ id
  | none =>
      jobId ++ ":fp:" ++ u.status.getD "pending" ++ "|" ++ u.percent.getD "" ++ "|" ++
        u.stage.getD "" ++ "|" ++ u.message.getD "" ++ "|" ++ u.updatedAt.getD "" ++ "|" ++
        if u.hasResult then "1" else "0"

/-! ### Outcomes -/

structure CommerceJob where
  status : String
  result : Field
  deriving DecidableEq, Repr

inductive TrackError where
  | failed (job : CommerceJob)
  | cancelled (job : CommerceJob)
  | aborted (message : String)
  deriving DecidableEq, Repr

inductive Entry where
  | progress (update : Update)
  | result (job : CommerceJob)
  | «return» (job : CommerceJob)
  | error (error : TrackError)
  deriving DecidableEq, Repr

def Entry.isProgress : Entry → Bool
  | .progress _ => true
  | .result _ | .return _ | .error _ => false

def Entry.isError : Entry → Bool
  | .error _ => true
  | .progress _ | .result _ | .return _ => false

inductive Outcome where
  | completed (job : CommerceJob)
  | failed (job : CommerceJob)
  | aborted (message : String)
  deriving DecidableEq, Repr

structure Options where
  jobId : String
  throwOnTerminalError : Bool
  preferSse : Bool

variable (options : Options)

def terminalError (job : CommerceJob) : TrackError :=
  if job.status = "cancelled" then .cancelled job else .failed job

/-- What the iterator gives at the end. -/
def Outcome.entries : Outcome → List Entry
  | .completed job => [.result job, .return job]
  | .failed job =>
      if options.throwOnTerminalError then [.error (terminalError job)]
      else [.result job, .return job]
  | .aborted message => [.error (.aborted message)]

/-- What the promise `result` settles with. -/
def Outcome.settlement : Outcome → Except TrackError CommerceJob
  | .completed job => .ok job
  | .failed job => if options.throwOnTerminalError then .error (terminalError job) else .ok job
  | .aborted message => .error (.aborted message)

/-- The arguments of `completeJob`. -/
structure Details where
  result : Field
  job : Option Update
  deriving DecidableEq, Repr

/-- The job need not be fetched. -/
def Details.isReady (d : Details) : Bool := d.job.any (·.hasId) && d.result.isSome

def Details.finalJob (d : Details) : CommerceJob :=
  ⟨"completed", d.result.orElse (d.job.bind (·.result))⟩

/-- A terminal status, and what is called for it. -/
inductive Verdict where
  | complete (details : Details)
  | fail (job : CommerceJob)
  deriving DecidableEq, Repr

def Update.verdict (u : Update) : Option Verdict :=
  if u.status = some "completed" then some (.complete ⟨u.result, some u⟩)
  else if u.status = some "failed" then some (.fail ⟨"failed", u.result⟩)
  else if u.status = some "cancelled" then some (.fail ⟨"cancelled", u.result⟩)
  else none

/-! ### The tracker -/

inductive Source where
  | stream (n : ℕ)
  | poll
  deriving DecidableEq, Repr

/-- How far the check of the seen store is. -/
inductive Stage where
  | looking
  | adding
  | checked
  deriving DecidableEq, Repr

structure Task where
  id : Option String
  update : Update
  stage : Stage
  deriving DecidableEq, Repr

inductive Polling where
  | off
  | asking
  | handling
  | sleeping
  | ended
  deriving DecidableEq, Repr

/-- The flags and what the consumer is given. -/
structure Ending where
  isTerminal : Bool
  isClosed : Bool
  /-- `completeJob` waits for the job. -/
  completing : Option Details
  buffer : AsyncQueue Entry
  /-- The promise `result`. -/
  settled : Option (Except TrackError CommerceJob)

structure State extends Ending where
  /-- The signal of the tracker's `AbortController`. -/
  aborted : Bool
  polling : Polling
  tasks : Source → Option Task
  seen : String → Bool
  lastSeenResult : Field
  lastSeenJob : Option Update

inductive Event where
  /-- The stream hands an event over. -/
  | dispatch (n : ℕ) (event : TalosStreamEvent)
  | look (source : Source)
  | add (source : Source)
  | finish (source : Source)
  /-- The seen store fails. -/
  | lose (source : Source)
  /-- An error or the end of the stream. -/
  | streamLost
  | pollAnswer (job : Update)
  | pollError
  | wake
  | fetched (job : Option CommerceJob)
  /-- The external signal, the deadline or `abort`. -/
  | abort (message : String)
  | «return»
  | next
  /-- Someone else adds to the seen store. -/
  | remember (key : String)
  deriving DecidableEq, Repr

namespace State

variable (s : State)

def isOver : Bool := s.isTerminal || s.isClosed

def enqueue (entry : Entry) : State :=
  if s.isClosed && !entry.isError then s else { s with buffer := s.buffer.enqueue entry }

def startFallbackPolling : State :=
  if s.polling ≠ .off ∨ s.isOver = true then s
  else { s with polling := if s.aborted then .ended else .asking }

/-- Closing the stream tells the tracker, which may start to poll. -/
def cleanup : State := { s.startFallbackPolling with aborted := true }

/-- The entries and the promise, which settles once. -/
def produce (outcome : Outcome) : State :=
  { (outcome.entries options).foldl enqueue s with
    settled := s.settled.or (some (outcome.settlement options)) }

def completeJob (d : Details) : State :=
  if s.isTerminal then s
  else if d.isReady then
    ({ s with isTerminal := true }.produce options (.completed d.finalJob)).cleanup
  else { s with isTerminal := true, completing := some d }

def failJob (job : CommerceJob) : State :=
  if s.isTerminal then s
  else { s with isTerminal := true }.cleanup.produce options (.failed job)

def conclude : Verdict → State
  | .complete details => s.completeJob options details
  | .fail job => s.failJob options job

def handleAbort (message : String) : State :=
  if s.isOver then s
  else { s with isClosed := true, isTerminal := true }.cleanup.produce options (.aborted message)

def remember (u : Update) : State :=
  { s with
    lastSeenResult := if u.hasResult then u.result else s.lastSeenResult
    lastSeenJob := some u }

def setTask (source : Source) (task : Option Task) : State :=
  { s with tasks := Function.update s.tasks source task }

/-- The handler of an update is done; the polling loop goes on. -/
def endTask (source : Source) : State :=
  match source with
  | .stream n => s.setTask (.stream n) none
  | .poll => { s.setTask .poll none with polling := if s.isOver then .ended else .sleeping }

/-- `done` takes what is missing from what was seen before. -/
def doneVerdict (u : Update) : Verdict :=
  let status := u.status.getD "completed"
  if status = "completed" then .complete ⟨u.result.orElse s.lastSeenResult, s.lastSeenJob⟩
  else .fail ⟨status, u.result⟩

/-- `handleStreamEvent`, up to its first await. -/
def handleStreamEvent (n : ℕ) (event : TalosStreamEvent) : State :=
  if s.isOver = true ∨ event.type ∈ ["ping", "heartbeat"] then s
  else if event.type = "done" then s.conclude options (s.doneVerdict event.payload)
  else (s.remember event.payload).setTask (.stream n) (some ⟨event.id, event.payload, .looking⟩)

end State

def Task.key (task : Task) : String := fingerprint options.jobId task.id task.update

/-- The keys that a handler adds. -/
def Task.keys (task : Task) : List String :=
  task.key options :: ((task.id.filter (· ≠ "")).map (options.jobId ++ ":id:" ++ ·)).toList

def step (s : State) : Event → Option State
  | .dispatch n event =>
      if (s.tasks (.stream n)).isSome then none else some (s.handleStreamEvent options n event)
  | .look source =>
      match s.tasks source with
      | some ⟨id, update, .looking⟩ =>
          if s.seen (Task.key options ⟨id, update, .looking⟩) then some (s.endTask source)
          else some (s.setTask source (some ⟨id, update, .adding⟩))
      | _ => none
  | .add source =>
      match s.tasks source with
      | some ⟨id, update, .adding⟩ => some
          ({ s with
            seen := fun k => s.seen k || k ∈ Task.keys options ⟨id, update, .adding⟩ }.setTask
              source (some ⟨id, update, .checked⟩))
      | _ => none
  | .finish source =>
      match s.tasks source with
      | some ⟨_, update, .checked⟩ =>
          match update.verdict with
          | some verdict => some ((s.conclude options verdict).endTask source)
          | none => some ((s.enqueue (.progress update)).endTask source)
      | _ => none
  | .lose source =>
      match s.tasks source with
      | some ⟨_, _, .looking⟩ | some ⟨_, _, .adding⟩ => some (s.endTask source)
      | _ => none
  | .streamLost => some s.startFallbackPolling
  | .pollAnswer job =>
      if s.polling ≠ .asking then none
      else if s.isOver then some { s with polling := .ended }
      else match job.verdict with
        | some verdict => some { (s.remember job).conclude options verdict with polling := .ended }
        | none => some
            { (s.remember job).setTask .poll (some ⟨none, job, .looking⟩) with
              polling := .handling }
  | .pollError =>
      if s.polling ≠ .asking then none
      else some { s with polling := if s.isOver || s.aborted then .ended else .sleeping }
  | .wake =>
      if s.polling ≠ .sleeping then none
      else some { s with polling := if s.isOver || s.aborted then .ended else .asking }
  | .fetched job =>
      match s.completing with
      | some d => some
          (({ s with completing := none }.produce options
            (.completed (job.getD ⟨"completed", d.result⟩))).cleanup)
      | none => none
  | .abort message => some (s.handleAbort options message)
  | .return => some s.cleanup
  | .next => some { s with buffer := s.buffer.dequeue }
  | .remember key => some { s with seen := fun k => s.seen k || k = key }

def machine (seen : String → Bool) : Machine State Event where
  init :=
    { isTerminal := false
      isClosed := false
      completing := none
      buffer := .empty
      settled := none
      aborted := false
      polling := if options.preferSse then .off else .asking
      tasks := fun _ => none
      seen := seen
      lastSeenResult := none
      lastSeenJob := none }
  step := step options

end Talos.Sdk.JobTracker
