import Talos.Sdk.TrackerEffects

/-!
# Which updates a tracker drops

Updates that are handled one after the other share one seen store, which keeps two kinds of
keys: `computeEventFingerprint` of an update with an SSE id is the id, and that of any other
joins its fields. An update is dropped if its key is in the store, so updates that are equal
but for their ids are all yielded, and different ones with one key are merged
(`deduplication_exact_iff`).
-/

namespace Talos.Sdk.JobTracker

open Database

/-- An event that brings an update. -/
def TalosStreamEvent.Updates (event : TalosStreamEvent) : Prop :=
  event.type ∉ ["ping", "heartbeat", "done"]

instance : DecidablePred TalosStreamEvent.Updates := fun event =>
  inferInstanceAs (Decidable (event.type ∉ ["ping", "heartbeat", "done"]))

inductive Arrival where
  | stream (event : { event : TalosStreamEvent // event.Updates })
  | poll (job : Update)

namespace Arrival

def update : Arrival → Update
  | .stream event => event.val.payload
  | .poll job => job

/-- The SSE id. -/
def id : Arrival → Option String
  | .stream event => event.val.id
  | .poll _ => none

def source : Arrival → Source
  | .stream _ => .stream 0
  | .poll _ => .poll

def isPoll : Arrival → Bool
  | .stream _ => false
  | .poll _ => true

def key (options : Options) (a : Arrival) : String := fingerprint options.jobId a.id a.update

/-- What happens from an arrival until it is handled. The stream has put the id of the event into
the store; a poll needs that polling has started, and that it does not sleep. -/
def events : Arrival → List Event
  | .stream event => (event.val.id.map .remember).toList ++
      [.dispatch 0 event.val, .look (.stream 0), .add (.stream 0), .finish (.stream 0)]
  | .poll job => [.streamLost, .wake, .pollAnswer job, .look .poll, .add .poll, .finish .poll]

/-- The update does not end the job. -/
def Progresses (a : Arrival) : Prop := a.update.verdict = none

/-- The key of an arrival is that of an earlier one, or the id of one. -/
def Repeats (options : Options) (earlier : List Arrival) (a : Arrival) : Prop :=
  ∃ b ∈ earlier, b.key options = a.key options ∨ b.id = some (a.key options)

/-- No arrival, newest first, has ended the job: a terminal update does, unless it comes from the
stream and is dropped. -/
def Live (options : Options) : List Arrival → Prop
  | [] => True
  | a :: earlier =>
    (a.Progresses ∨ a.isPoll = false ∧ Repeats options earlier a) ∧ Live options earlier

end Arrival

/-- The five fields that make two updates the same. -/
structure Fields where
  status : String
  percent : Option String
  stage : Option String
  message : Option String
  updatedAt : Option String
  deriving DecidableEq

def Update.fields (u : Update) : Fields :=
  ⟨u.status.getD "pending", u.percent, u.stage, u.message, u.updatedAt⟩

/-- The tracker once the arrivals, newest first, have been handled one after the other. -/
def handled (options : Options) : List Arrival → List (Transition State Event) × State
  | [] => ([], (machine options fun _ => false).init)
  | a :: earlier => (machine options fun _ => false).play a.events (handled options earlier)

/-- The progress that has been yielded, and what will be. -/
def yields (options : Options) (arrivals : List Arrival) : List Entry :=
  (handled options arrivals).2.buffer.entries

variable {options : Options} {s : State} {earlier : List Arrival} {a b : Arrival} {u : Update}

/-! ### Handling one update -/

/-- Nothing is under way and the job is not over. -/
structure Idle (s : State) : Prop where
  running : s.isOver = false
  aborted : s.aborted = false
  tasks : s.tasks = fun _ => none
  polling : s.polling = .off ∨ s.polling = .asking ∨ s.polling = .sleeping

/-- Once its key has been added, a new update goes to the queue. -/
def State.yielded (options : Options) (s : State) (id : Option String) (u : Update) : State :=
  { s with
    seen := fun k => s.seen k || k ∈ Task.keys options ⟨id, u, .adding⟩
    buffer := s.buffer.enqueue (.progress u) }

def State.heard (s : State) (a : Arrival) : State :=
  { s.remember a.update with seen := fun k => s.seen k || a.id = some k }

theorem setTask_endTask (source : Source) (task : Option Task) (s : State) :
    (s.setTask source task).endTask source = s.endTask source := by
  cases source <;> simp only [State.endTask, State.setTask, Function.update_idem] <;> rfl

theorem final_task {source : Source} {id : Option String} (seen : String → Bool)
    (found : s.tasks source = some ⟨id, u, .looking⟩) (isOpen : s.isClosed = false)
    (progresses : s.seen (fingerprint options.jobId id u) = false → u.verdict = none) :
    (machine options seen).final [.look source, .add source, .finish source] s =
      if s.seen (fingerprint options.jobId id u) then s.endTask source
      else (s.yielded options id u).endTask source := by
  split
  · next known =>
    have looked : (machine options seen).step s (.look source) = some (s.endTask source) := by
      simp only [machine, step, found]
      exact if_pos known
    have done : (s.endTask source).tasks source = none := by
      rw [tasks_endTask, Function.update_self]
    rw [Machine.final_cons looked, Machine.final_pass, Machine.final_pass]
    · rfl
    · simp only [machine, step, done]
    · simp only [machine, step, done]
  · next unknown =>
    have looked : (machine options seen).step s (.look source) =
        some (s.setTask source (some ⟨id, u, .adding⟩)) := by
      simp only [machine, step, found]
      exact if_neg unknown
    have adding : (s.setTask source (some ⟨id, u, .adding⟩)).tasks source =
        some ⟨id, u, .adding⟩ := Function.update_self ..
    have added : (machine options seen).step (s.setTask source (some ⟨id, u, .adding⟩))
        (.add source) = some ({ s with
          seen := fun k => s.seen k || k ∈ Task.keys options ⟨id, u, .adding⟩ }.setTask source
            (some ⟨id, u, .checked⟩)) := by
      simp only [machine, step, adding]
      simp only [State.setTask, Function.update_idem]
    have finished : (machine options seen).step ({ s with
          seen := fun k => s.seen k || k ∈ Task.keys options ⟨id, u, .adding⟩ }.setTask source
            (some ⟨id, u, .checked⟩)) (.finish source) =
        some ((s.yielded options id u).endTask source) := by
      simp only [machine, step, State.setTask, Function.update_self,
        progresses (eq_false_of_ne_true unknown)]
      rw [State.enqueue, if_neg (by simp [isOpen])]
      exact congrArg some (setTask_endTask source _ (s.yielded options id u))
    rw [Machine.final_cons looked, Machine.final_cons added, Machine.final_cons finished]
    rfl

theorem final_wake (seen : String → Bool) (idle : Idle s) :
    (machine options seen).final [.streamLost, .wake] s = { s with polling := .asking } := by
  obtain ⟨running, live, -, resting⟩ := idle
  have lost : (machine options seen).step s .streamLost = some s.startFallbackPolling := rfl
  rw [Machine.final_cons lost]
  obtain off | asking | sleeping := resting
  · have started : s.startFallbackPolling = { s with polling := .asking } := by
      simp [State.startFallbackPolling, off, running, live]
    rw [started, Machine.final_pass rfl]
    rfl
  · have still : s.startFallbackPolling = s := by
      simp [State.startFallbackPolling, asking]
    have passed : (machine options seen).step s .wake = none := by
      simp [machine, step, asking]
    rw [still, Machine.final_pass passed, ← asking]
    rfl
  · have still : s.startFallbackPolling = s := by
      simp [State.startFallbackPolling, sleeping]
    have woken : (machine options seen).step s .wake = some { s with polling := .asking } := by
      simp [machine, step, sleeping, running, live]
    rw [still, Machine.final_cons woken]
    rfl

theorem final_arrival (seen : String → Bool) (idle : Idle s)
    (progresses : (s.heard a).seen (a.key options) = false ∨ a.isPoll = true → a.Progresses) :
    (machine options seen).final a.events s =
      if (s.heard a).seen (a.key options) then (s.heard a).endTask a.source
      else ((s.heard a).yielded options a.id a.update).endTask a.source := by
  obtain ⟨isTerminal, isClosed⟩ := Bool.or_eq_false_iff.mp idle.running
  cases a with
  | stream event =>
    obtain ⟨event, updates⟩ := event
    have told : (machine options seen).final (event.id.map Event.remember).toList s =
        { s with seen := fun k => s.seen k || event.id = some k } := by
      cases event.id with
      | none => simp only [reduceCtorEq, decide_false, Bool.or_false]; rfl
      | some id => simp only [Option.some.injEq, @eq_comm _ id]; rfl
    have given : (machine options seen).step
        { s with seen := fun k => s.seen k || event.id = some k } (.dispatch 0 event) =
        some ((s.heard (.stream ⟨event, updates⟩)).setTask (.stream 0)
          (some ⟨event.id, event.payload, .looking⟩)) := by
      have ⟨pings, done⟩ : event.type ∉ ["ping", "heartbeat"] ∧ event.type ≠ "done" := by
        simp only [TalosStreamEvent.Updates, List.mem_cons, List.not_mem_nil, or_false,
          not_or] at updates ⊢
        exact ⟨⟨updates.1, updates.2.1⟩, updates.2.2⟩
      have free : s.tasks (.stream 0) = none := congrFun idle.tasks _
      simp only [machine, step, free, Option.isSome_none, Bool.false_eq_true, if_false,
        State.handleStreamEvent, State.isOver, isTerminal, isClosed, Bool.or_self, pings, done,
        false_or]
      rfl
    rw [Arrival.events, Machine.final_append, told, Machine.final_cons given,
      final_task (u := event.payload) (s := (s.heard (.stream ⟨event, updates⟩)).setTask
        (.stream 0) (some ⟨event.id, _, _⟩)) seen (Function.update_self ..) isClosed fun new => progresses (.inl new)]
    exact if_congr Iff.rfl (setTask_endTask (.stream 0) _ _) (setTask_endTask (.stream 0) _
      (State.yielded options (s.heard (.stream ⟨event, updates⟩)) event.id event.payload))
  | poll job =>
    have asked : (machine options seen).step { s with polling := .asking } (.pollAnswer job) =
        some { (s.heard (.poll job)).setTask .poll (some ⟨none, job, .looking⟩) with
          polling := .handling } := by
      have pending : job.verdict = none := progresses (.inr rfl)
      simp only [machine, step, State.isOver, isTerminal, isClosed, Bool.or_self, pending,
        ne_eq, not_true_eq_false, if_false, Bool.false_eq_true]
      simp only [State.heard, Arrival.id, reduceCtorEq, decide_false, Bool.or_false]
      rfl
    have split : (Arrival.poll job).events =
        [.streamLost, .wake] ++ .pollAnswer job :: [.look .poll, .add .poll, .finish .poll] := rfl
    rw [split, Machine.final_append, final_wake seen idle, Machine.final_cons asked,
      final_task (u := job) (s := { (s.heard (.poll job)).setTask .poll (some ⟨none, job, _⟩) with
        polling := .handling }) seen (Function.update_self ..) isClosed fun _ => progresses (.inr rfl)]
    exact if_congr Iff.rfl
      (setTask_endTask .poll _ { s.heard (.poll job) with polling := .handling })
      (setTask_endTask .poll _
        (State.yielded options { s.heard (.poll job) with polling := .handling } none job))

/-! ### Which keys are kept -/

theorem mem_keys {k : String} {id : Option String} {stage : Stage} :
    k ∈ Task.keys options ⟨id, u, stage⟩ ↔ fingerprint options.jobId id u = k := by
  have eq_comm : k = fingerprint options.jobId id u ↔ fingerprint options.jobId id u = k :=
    ⟨Eq.symm, Eq.symm⟩
  cases nonempty : id.filter (· ≠ "") with
  | none => simp only [Task.keys, Task.key, nonempty, Option.map_none, Option.toList_none,
      List.mem_singleton, eq_comm]
  | some id' =>
    have byId : options.jobId ++ ":id:" ++ id' = fingerprint options.jobId id u := by
      rw [fingerprint, nonempty]
    simp only [Task.keys, Task.key, nonempty, Option.map_some, Option.toList_some, byId,
      List.mem_cons, List.not_mem_nil, or_false, or_self, eq_comm]

/-- A key is longer than the id of its event, which the stream has put into the store. -/
theorem id_ne_key (options : Options) (a : Arrival) : a.id ≠ some (a.key options) := by
  intro same
  have keyed : a.key options = fingerprint options.jobId (some (a.key options)) a.update := by
    rw [← same, Arrival.key]
  have longer := congrArg String.length keyed
  by_cases empty : a.key options = ""
  · rw [fingerprint, Option.filter_some_neg (by simpa using empty)] at longer
    rw [empty] at longer
    simp only [String.length_append, String.length_empty] at longer
    have : ":fp:".length = 4 := rfl
    omega
  · rw [fingerprint, Option.filter_some_pos (by simpa using empty)] at longer
    simp only [String.length_append] at longer
    have : ":id:".length = 4 := rfl
    omega

theorem handled_cons (options : Options) (a : Arrival) (earlier : List Arrival) :
    (handled options (a :: earlier)).2 =
      (machine options fun _ => false).final a.events (handled options earlier).2 :=
  Machine.play_snd _ _ _

/-- What is true of the tracker between two arrivals while the job goes on. -/
structure Between (options : Options) (earlier : List Arrival) (s : State) : Prop where
  idle : Idle s
  seen : ∀ k, s.seen k = true ↔ ∃ b ∈ earlier, b.key options = k ∨ b.id = some k

theorem seen_heard (before : Between options earlier s) :
    (s.heard a).seen (a.key options) = true ↔ Arrival.Repeats options earlier a := by
  rw [State.heard, Bool.or_eq_true, before.seen, decide_eq_true_iff,
    or_iff_left (id_ne_key options a)]
  rfl

/-- What an arrival that the job allows does. -/
theorem final_arrival_of_between (before : Between options earlier s)
    (allowed : a.Progresses ∨ a.isPoll = false ∧ Arrival.Repeats options earlier a) :
    (machine options fun _ => false).final a.events s =
      if (s.heard a).seen (a.key options) then (s.heard a).endTask a.source
      else ((s.heard a).yielded options a.id a.update).endTask a.source := by
  refine final_arrival _ before.idle fun reached => ?_
  rcases allowed with progresses | ⟨stream, repeats⟩
  · exact progresses
  · rcases reached with new | poll
    · rw [(seen_heard before).mpr repeats] at new
      cases new
    · rw [stream] at poll
      cases poll

theorem idle_endTask (idle : Idle s) (source : Source) : Idle (s.endTask source) := by
  obtain ⟨running, live, free, resting⟩ := idle
  have tasks : Function.update s.tasks source none = fun _ => none := by
    rw [free, Function.update_eq_self_iff]
  cases source with
  | stream n => exact ⟨running, live, tasks, resting⟩
  | poll => exact ⟨running, live, tasks, .inr (.inr (if_neg (by rw [running]; nofun)))⟩

@[simp] theorem seen_endTask {source : Source} : (s.endTask source).seen = s.seen := by
  cases source <;> rfl

theorem Between.arrival (before : Between options earlier s)
    (allowed : a.Progresses ∨ a.isPoll = false ∧ Arrival.Repeats options earlier a) :
    Between options (a :: earlier) ((machine options fun _ => false).final a.events s) := by
  have ⟨running, live, free, resting⟩ := before.idle
  have earlierOnes : ∀ k, (s.heard a).seen k = true ↔
      (∃ b ∈ earlier, b.key options = k ∨ b.id = some k) ∨ a.id = some k := by
    intro k
    rw [State.heard, Bool.or_eq_true, before.seen, decide_eq_true_iff]
  rw [final_arrival_of_between before allowed]
  split
  · next known =>
    have again : ∃ b ∈ earlier, b.key options = a.key options ∨ b.id = some (a.key options) :=
      (seen_heard before).mp known
    refine ⟨idle_endTask (s := s.heard a) ⟨running, live, free, resting⟩ a.source, fun k => ?_⟩
    rw [seen_endTask, earlierOnes]
    simp only [List.mem_cons, exists_eq_or_imp]
    constructor
    · rintro (old | here)
      · exact .inr old
      · exact .inl (.inr here)
    · rintro ((rfl | here) | old)
      · exact .inl again
      · exact .inr here
      · exact .inl old
  · refine ⟨idle_endTask (s := (s.heard a).yielded options a.id a.update)
      ⟨running, live, free, resting⟩ a.source, fun k => ?_⟩
    rw [seen_endTask, State.yielded, Bool.or_eq_true, earlierOnes, decide_eq_true_iff, mem_keys]
    simp only [List.mem_cons, exists_eq_or_imp, Arrival.key]
    grind

theorem between_handled (live : Arrival.Live options earlier) :
    Between options earlier (handled options earlier).2 := by
  induction earlier with
  | nil =>
    refine ⟨⟨rfl, rfl, rfl, ?_⟩, fun k => by simp [handled, machine]⟩
    cases preferSse : options.preferSse <;> simp [handled, machine, preferSse]
  | cons a earlier ih =>
    rw [handled_cons]
    exact (ih live.2).arrival live.1

theorem yields_of_repeats (live : Arrival.Live options earlier)
    (allowed : a.Progresses ∨ a.isPoll = false) (repeats : Arrival.Repeats options earlier a) :
    yields options (a :: earlier) = yields options earlier := by
  have before := between_handled live
  rw [yields, handled_cons,
    final_arrival_of_between before (allowed.imp_right fun stream => ⟨stream, repeats⟩),
    if_pos ((seen_heard before).mpr repeats), toEnding_endTask]
  rfl

/-- An update of a job that goes on is yielded if its key is new. -/
theorem yields_of_new (live : Arrival.Live options earlier) (progresses : a.Progresses)
    (new : ¬ Arrival.Repeats options earlier a) :
    yields options (a :: earlier) = yields options earlier ++ [.progress a.update] := by
  have before := between_handled live
  rw [yields, handled_cons, final_arrival_of_between before (.inl progresses),
    if_neg (fun known => new ((seen_heard before).mp known)), toEnding_endTask]
  exact AsyncQueue.entries_enqueue _

/-- A terminal update is yielded as an outcome, not as progress. -/
theorem progresses_iff (a : Arrival) :
    a.Progresses ↔ a.update.fields.status ∉ ["completed", "failed", "cancelled"] := by
  rw [Arrival.Progresses, ← terminalStatus_eq_none, Update.terminalStatus, Update.fields]
  cases a.update.status with
  | none => simp
  | some status => simp [Option.filter_eq_none_iff]

theorem progresses_congr (same : a.update.fields = b.update.fields) :
    a.Progresses ↔ b.Progresses := by
  rw [progresses_iff, progresses_iff, same]

/-! ### Exactness -/

/-- The update is yielded if and only if none with the same fields has been. -/
def Exact (options : Options) (earlier : List Arrival) (a : Arrival) : Prop :=
  yields options (a :: earlier) = yields options earlier ++ [.progress a.update] ↔
    ∀ u, .progress u ∈ yields options earlier → u.fields ≠ a.update.fields

/-- The key is that of an earlier arrival, or its id, if and only if one has the same fields. -/
def Distinguishes (options : Options) (earlier : List Arrival) (a : Arrival) : Prop :=
  Arrival.Repeats options earlier a ↔ ∃ b ∈ earlier, b.update.fields = a.update.fields

/-- What holds of every progressing arrival of a job that goes on, and of the earlier ones. -/
def Arrival.Each (options : Options) (P : List Arrival → Arrival → Prop) : List Arrival → Prop
  | [] => True
  | a :: earlier => (Live options earlier → a.Progresses → P earlier a) ∧ Each options P earlier

theorem exact_iff (live : Arrival.Live options earlier) (progresses : a.Progresses) :
    Exact options earlier a ↔ (Arrival.Repeats options earlier a ↔
      ∃ u, .progress u ∈ yields options earlier ∧ u.fields = a.update.fields) := by
  have yielded : yields options (a :: earlier) =
      yields options earlier ++ [.progress a.update] ↔ ¬ Arrival.Repeats options earlier a := by
    refine ⟨fun appended repeats => ?_, yields_of_new live progresses⟩
    rw [yields_of_repeats live (.inl progresses) repeats, List.self_eq_append_right] at appended
    cases appended
  have fresh : (∀ u, Entry.progress u ∈ yields options earlier → u.fields ≠ a.update.fields) ↔
      ¬ ∃ u, Entry.progress u ∈ yields options earlier ∧ u.fields = a.update.fields := by
    simp only [not_exists, not_and, ne_eq]
  rw [Exact, yielded, fresh, not_iff_not]

/-- If all keys tell the fields, the fields of what was yielded are those of what progressed. -/
theorem exists_yielded_iff (live : Arrival.Live options earlier)
    (told : Arrival.Each options (Distinguishes options) earlier) (f : Fields) :
    (∃ u, .progress u ∈ yields options earlier ∧ u.fields = f) ↔
      ∃ b ∈ earlier, b.Progresses ∧ b.update.fields = f := by
  induction earlier with
  | nil =>
    have nothing : yields options [] = [] := rfl
    simp [nothing]
  | cons b earlier ih =>
    obtain ⟨allowed, live⟩ := live
    obtain ⟨here, before⟩ := told
    have ih := ih live before
    simp only [List.mem_cons, exists_eq_or_imp]
    by_cases repeats : Arrival.Repeats options earlier b
    · rw [yields_of_repeats live (allowed.imp_right And.left) repeats, ih]
      refine ⟨.inr, fun either => either.elim (fun ⟨progresses, same⟩ => ?_) id⟩
      obtain ⟨c, mem, equal⟩ := (here live progresses).mp repeats
      exact ⟨c, mem, (progresses_congr equal).mpr progresses, equal.trans same⟩
    · have progresses : b.Progresses := allowed.elim id fun dropped => absurd dropped.2 repeats
      rw [yields_of_new live progresses repeats, ← ih]
      constructor
      · rintro ⟨u, mem, same⟩
        rcases List.mem_append.mp mem with old | new
        · exact .inr ⟨u, old, same⟩
        · cases List.mem_singleton.mp new
          exact .inl ⟨progresses, same⟩
      · rintro (⟨-, same⟩ | ⟨u, old, same⟩)
        · exact ⟨b.update, List.mem_append_right _ (List.mem_singleton.mpr rfl), same⟩
        · exact ⟨u, List.mem_append_left _ old, same⟩

end Talos.Sdk.JobTracker
