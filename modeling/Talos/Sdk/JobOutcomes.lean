import Talos.Sdk.TrackerEffects

/-!
# The outcome of a tracked job

A tracked job should end with one outcome, which the promise settles with and after which nothing
is yielded; every terminal status should lead to it, and no call of `next` should wait once it is
there. The seen store may swallow a terminal status of the stream, a handler that was waiting for
the store may yield progress after the outcome, and a call of `next` too many waits for ever. In the
runs in which none of this happens, tracking ends cleanly.
-/

namespace Talos.Sdk.JobTracker

open Database

variable (options : Options)

/-! ### What should hold -/

def Received (h : List (Transition State Event)) (status : String) : Prop :=
  ∃ r ∈ h, r.event.terminalStatus = some status

/-- What an outcome comes from. -/
def Caused (h : List (Transition State Event)) : Outcome → Prop
  | .completed _ => Received h "completed"
  | .failed job => Received h job.status
  | .aborted message => ∃ r ∈ h, r.event = .abort message

/-- A terminal status is still being handled. -/
def State.IsFinishing (s : State) : Prop :=
  s.completing.isSome = true ∨
    ∃ source, ∃ task ∈ s.tasks source, task.update.terminalStatus.isSome = true

/-- An answer of the seen store or to the request for the job. -/
def Event.isAnswer : Event → Bool
  | .look _ | .add _ | .finish _ | .fetched _ => true
  | .dispatch _ _ | .lose _ | .streamLost | .pollAnswer _ | .pollError | .wake | .abort _ | .return
  | .next | .remember _ => false

/-- Answers alone are missing from the outcome. -/
def State.Settles (s : State) : Prop :=
  ∃ answers : List Event, (∀ event ∈ answers, event.isAnswer = true) ∧
    ∃ s' ∈ answers.foldlM (step options) s, s'.settled.isSome = true

/-- There is one outcome at most, with nothing after it, and the promise settles with it. It leaves
no call of `next` waiting. Every terminal status leads to it: the outcome is there, or it is on its
way, and then only answers are missing unless the seen store holds the update. -/
structure EndsCleanly (h : List (Transition State Event)) (s : State) : Prop where
  undecided : s.settled = none → ∀ entry ∈ s.buffer.entries, entry.isProgress = true
  decided : ∀ settlement, s.settled = some settlement → ∃ outcome progress,
    Caused h outcome ∧ settlement = Outcome.settlement options outcome ∧
      (∀ entry ∈ progress, Entry.isProgress entry = true) ∧
      s.buffer.entries = progress ++ Outcome.entries options outcome
  answered : s.settled.isSome = true → s.buffer.waitingResolvers = 0
  heeded : (∃ status, Received h status) → s.settled.isSome = true ∨ s.IsFinishing
  fetches : s.completing.isSome = true → s.Settles options
  finishes : ∀ source, ∀ task ∈ s.tasks source, task.update.terminalStatus.isSome = true →
    (task.stage = .looking → s.seen (task.key options) = false) → s.Settles options

/-! ### When it holds -/

/-- How many entries a terminal status brings. -/
def Verdict.room : Verdict → ℕ
  | .complete _ => 2
  | .fail _ => if options.throwOnTerminalError then 1 else 2

/-- Every call of `next` that waits gets an entry. -/
def Ending.HasRoom (s : Ending) (verdict : Verdict) : Prop :=
  s.isTerminal = false → verdict.isReady = true →
    s.buffer.waitingResolvers ≤ verdict.room options

/-- There is an outcome, or another handler has a terminal status. -/
def State.Backed (s : State) (source : Source) : Prop :=
  s.isTerminal = true ∨ ∃ other, other ≠ source ∧
    ∃ task ∈ s.tasks other, task.update.terminalStatus.isSome = true

/-- The seen store neither holds nor loses the only terminal status. -/
def Kept (s : State) : Event → Prop
  | .look source => ∀ task ∈ s.tasks source, task.stage = .looking →
      task.update.terminalStatus.isSome = true → s.seen (task.key options) = true →
      s.Backed source
  | .lose source => ∀ task ∈ s.tasks source, task.update.terminalStatus.isSome = true →
      s.Backed source
  | .dispatch _ _ | .add _ | .finish _ | .streamLost | .pollAnswer _ | .pollError | .wake
  | .fetched _ | .abort _ | .return | .next | .remember _ => True

/-- No progress is left to be yielded after the outcome, and no more calls of `next` are made than
there are entries. -/
def Orderly (s : State) : Event → Prop
  | .finish source => ∀ task ∈ s.tasks source,
      (task.update.verdict = none → s.settled = none ∨ s.isClosed = true) ∧
        ∀ verdict ∈ task.update.verdict, s.HasRoom options verdict
  | .dispatch _ event => event.type = "done" → s.HasRoom options (s.doneVerdict event.payload)
  | .pollAnswer job => ∀ verdict ∈ job.verdict, s.HasRoom options verdict
  | .fetched _ => s.completing.isSome = true → s.buffer.waitingResolvers ≤ 2
  | .abort _ => s.isOver = false → s.buffer.waitingResolvers ≤ 1
  | .next => s.settled.isSome = true → s.buffer.queue ≠ []
  | .look _ | .add _ | .lose _ | .streamLost | .pollError | .wake | .return | .remember _ => True

def Careful (s : State) (event : Event) : Prop := Kept options s event ∧ Orderly options s event

instance (s : Ending) (verdict : Verdict) : Decidable (s.HasRoom options verdict) :=
  inferInstanceAs (Decidable (_ → _ → _ ≤ _))

instance (s : State) : DecidablePred (Orderly options s)
  | .finish source => inferInstanceAs (Decidable (∀ task ∈ s.tasks source,
      (_ → _ = _ ∨ _ = _) ∧ ∀ verdict ∈ _, s.HasRoom options verdict))
  | .dispatch _ _ => inferInstanceAs (Decidable (_ = _ → s.HasRoom options _))
  | .pollAnswer job =>
      inferInstanceAs (Decidable (∀ verdict ∈ job.verdict, s.HasRoom options verdict))
  | .fetched _ => inferInstanceAs (Decidable (_ = _ → _ ≤ _))
  | .abort _ => inferInstanceAs (Decidable (_ = _ → _ ≤ _))
  | .next => inferInstanceAs (Decidable (_ = _ → _ ≠ _))
  | .look _ | .add _ | .lose _ | .streamLost | .pollError | .wake | .return | .remember _ =>
      .isTrue trivial

/-- The handler that asks the store. -/
def Event.asks : Event → Option Source
  | .look source | .lose source => some source
  | .dispatch _ _ | .add _ | .finish _ | .streamLost | .pollAnswer _ | .pollError | .wake
  | .fetched _ | .abort _ | .return | .next | .remember _ => none

theorem kept_of_pending {s : State} {event : Event}
    (pending : ∀ task ∈ event.asks.bind s.tasks, task.update.terminalStatus = none) :
    Kept options s event := by
  cases event with
  | look source =>
    intro task mem _ terminal
    rw [pending task mem] at terminal
    cases terminal
  | lose source =>
    intro task mem terminal
    rw [pending task mem] at terminal
    cases terminal
  | _ => trivial

/-! ### What careful runs keep -/

section

variable {options}
variable {s s' : State} {event : Event} {h : List (Transition State Event)} {verdict : Verdict}
  {outcome : Outcome} {source : Source}

/-- What holds of the flags, the promise and the entries. -/
structure Sound (options : Options) (h : List (Transition State Event)) (s : Ending) : Prop where
  terminal : s.isTerminal = true ↔ s.completing.isSome = true ∨ s.settled.isSome = true
  single : s.completing.isSome = true → s.settled = none
  closed : s.isClosed = true → s.settled.isSome = true
  awaited : s.completing.isSome = true → Received h "completed"
  undecided : s.settled = none → ∀ entry ∈ s.buffer.entries, entry.isProgress = true
  decided : ∀ settlement, s.settled = some settlement → ∃ outcome progress,
    Caused h outcome ∧ settlement = Outcome.settlement options outcome ∧
      (∀ entry ∈ progress, Entry.isProgress entry = true) ∧
      s.buffer.entries = progress ++ Outcome.entries options outcome
  answered : s.settled.isSome = true → s.buffer.waitingResolvers = 0

/-- What holds of the handlers: a terminal status that was received is handled until the tracker is
terminal. -/
structure Heeded (h : List (Transition State Event)) (s : Ending) (tasks : Source → Option Task) :
    Prop where
  received : ∀ source, ∀ task ∈ tasks source, ∀ status ∈ task.update.terminalStatus,
    Received h status
  polled : ∀ task ∈ tasks .poll, task.update.terminalStatus = none
  heeded : (∃ status, Received h status) → s.isTerminal = true ∨
    ∃ source, ∃ task ∈ tasks source, task.update.terminalStatus.isSome = true

variable {e : Ending} {r : Transition State Event} {tasks : Source → Option Task}

theorem Received.cons {status : String} (received : Received h status) : Received (r :: h) status :=
  received.imp fun _ ⟨mem, brought⟩ => ⟨List.mem_cons_of_mem _ mem, brought⟩

theorem Caused.cons (caused : Caused h outcome) : Caused (r :: h) outcome := by
  cases outcome with
  | completed => exact Received.cons caused
  | failed => exact Received.cons caused
  | aborted => exact caused.imp fun _ ⟨mem, brought⟩ => ⟨List.mem_cons_of_mem _ mem, brought⟩

theorem Sound.cons (sound : Sound options h e) : Sound options (r :: h) e where
  terminal := sound.terminal
  single := sound.single
  closed := sound.closed
  awaited waiting := (sound.awaited waiting).cons
  undecided := sound.undecided
  decided settlement settled := by
    obtain ⟨outcome, progress, caused, rest⟩ := sound.decided settlement settled
    exact ⟨outcome, progress, caused.cons, rest⟩
  answered := sound.answered

/-- Before it is terminal, the tracker has produced nothing and waits for no job. -/
theorem Sound.live (sound : Sound options h e) (live : e.isTerminal = false) :
    e.completing = none ∧ e.settled = none := by
  have neither := mt sound.terminal.mpr (Bool.eq_false_iff.mp live)
  rw [not_or, Option.not_isSome_iff_eq_none, Option.not_isSome_iff_eq_none] at neither
  exact neither

theorem sound_produce (terminal : e.isTerminal = true) (completing : e.completing = none)
    (settled : e.settled = none) (progress : ∀ entry ∈ e.buffer.entries, entry.isProgress = true)
    (room : e.buffer.waitingResolvers ≤ (outcome.entries options).length)
    (caused : Caused h outcome) : Sound options h (e.produce options outcome) := by
  have now : (e.produce options outcome).settled = some (outcome.settlement options) := by
    rw [Ending.produce, settled]
    rfl
  have none_ : (e.produce options outcome).completing.isSome ≠ true := by
    rw [Ending.produce, completing]
    exact Bool.false_ne_true
  refine ⟨iff_of_true terminal (.inr (by rw [now]; rfl)), fun some_ => absurd some_ none_,
    fun _ => by rw [now]; rfl, fun some_ => absurd some_ none_, ?_, ?_, ?_⟩
  · intro undecided
    cases now.symm.trans undecided
  · intro settlement is
    exact ⟨outcome, e.buffer.entries, caused, (Option.some.inj (now.symm.trans is)).symm, progress,
      AsyncQueue.entries_foldl _⟩
  · intro _
    rw [Ending.produce, AsyncQueue.waitingResolvers_foldl]
    exact Nat.sub_eq_zero_of_le room

theorem entries_length : (verdict.outcome.entries options).length = verdict.room options := by
  cases verdict with
  | complete => rfl
  | fail =>
    simp only [Verdict.outcome, Outcome.entries, Verdict.room]
    split <;> rfl

theorem caused_of_status (received : Received h verdict.status) : Caused h verdict.outcome := by
  cases verdict <;> exact received

theorem Sound.conclude (sound : Sound options h e) (room : e.HasRoom options verdict)
    (received : Received h verdict.status) : Sound options h (e.conclude options verdict) := by
  unfold Ending.conclude
  cases terminal : e.isTerminal with
  | true => exact sound
  | false =>
    obtain ⟨completing, settled⟩ := sound.live terminal
    cases ready : verdict.isReady with
    | true =>
      refine sound_produce rfl completing settled (sound.undecided settled) ?_
        (caused_of_status received)
      rw [entries_length]
      exact room terminal ready
    | false =>
      cases verdict with
      | fail => cases ready
      | complete details =>
        refine ⟨iff_of_true rfl (.inl rfl), fun _ => settled, fun shut => ?_, fun _ => received,
          sound.undecided, sound.decided, sound.answered⟩
        exact sound.closed shut

theorem Sound.next (sound : Sound options h e)
    (kept : e.settled.isSome = true → e.buffer.queue ≠ []) :
    Sound options h { e with buffer := e.buffer.dequeue } where
  terminal := sound.terminal
  single := sound.single
  closed := sound.closed
  awaited := sound.awaited
  undecided settled := by
    rw [AsyncQueue.entries_dequeue]
    exact sound.undecided settled
  decided settlement settled := by
    rw [AsyncQueue.entries_dequeue]
    exact sound.decided settlement settled
  answered settled := by
    rw [AsyncQueue.waitingResolvers_dequeue (kept settled)]
    exact sound.answered settled

theorem Sound.progress (sound : Sound options h e) (settled : e.settled = none) (u : Update) :
    Sound options h { e with buffer := e.buffer.enqueue (.progress u) } where
  terminal := sound.terminal
  single := sound.single
  closed := sound.closed
  awaited := sound.awaited
  undecided _ := by
    intro entry mem
    rw [AsyncQueue.entries_enqueue] at mem
    rcases List.mem_append.mp mem with earlier | new
    · exact sound.undecided settled entry earlier
    · rw [List.mem_singleton.mp new]
      rfl
  decided settlement is := by cases settled.symm.trans is
  answered some_ := by
    rw [settled] at some_
    cases some_

theorem Sound.step (sound : Sound options h s.toEnding) (heeded : Heeded h s.toEnding s.tasks)
    (careful : Careful options s event) (effect : Effect options s event e tasks) :
    Sound options (⟨s, event, s'⟩ :: h) e := by
  have here {status : String} (brought : event.terminalStatus = some status) :
      Received (⟨s, event, s'⟩ :: h) status := ⟨_, List.mem_cons_self, brought⟩
  cases effect with
  | rest => exact sound.cons
  | next => exact (sound.next careful.2).cons
  | heard => exact sound.cons
  | asked => exact sound.cons
  | advanced => exact sound.cons
  | swallowed => exact sound.cons
  | lost => exact sound.cons
  | muted => exact sound.cons
  | progress found pending isOpen =>
    refine (sound.progress ?_ _).cons
    rcases (careful.2 _ found).1 pending with settled | shut
    · exact settled
    · cases isOpen.symm.trans shut
  | finished found brought =>
    refine sound.cons.conclude ((careful.2 _ found).2 _ brought) (Received.cons ?_)
    exact heeded.received _ _ found _ (terminalStatus_of_verdict brought)
  | done type =>
    refine sound.cons.conclude (careful.2 type) (here ?_)
    rw [doneVerdict_status, Event.terminalStatus, TalosStreamEvent.terminalStatus, if_pos type,
      if_neg (by rw [type]; decide)]
  | polled brought =>
    exact sound.cons.conclude (careful.2 _ brought) (here (terminalStatus_of_verdict brought))
  | fetched waiting =>
    have some_ : s.completing.isSome = true := by rw [waiting]; rfl
    have settled := sound.single some_
    exact sound_produce (sound.terminal.mpr (.inl some_)) rfl settled (sound.undecided settled)
      (careful.2 some_) (sound.awaited some_).cons
  | aborted live =>
    obtain ⟨completing, settled⟩ := sound.live (Bool.or_eq_false_iff.mp live).1
    exact sound_produce rfl completing settled (sound.undecided settled) (careful.2 live)
      ⟨_, List.mem_cons_self, rfl⟩

theorem received_cons {status : String} :
    Received (r :: h) status ↔ r.event.terminalStatus = some status ∨ Received h status := by
  simp only [Received, List.mem_cons, or_and_right, exists_or, exists_eq_left]

theorem mem_update {value : Option Task} {other : Source} {task : Task} :
    task ∈ Function.update tasks source value other ↔
      other = source ∧ task ∈ value ∨ other ≠ source ∧ task ∈ tasks other := by
  by_cases same : other = source
  · subst same
    simp
  · simp [same]

/-- The handlers are left alone. -/
theorem Heeded.same (heeded : Heeded h s.toEnding s.tasks)
    (mono : s.isTerminal = true → e.isTerminal = true)
    (seen : r.event.terminalStatus.isSome = true → e.isTerminal = true) :
    Heeded (r :: h) e s.tasks where
  received source task mem status is := (heeded.received source task mem status is).cons
  polled := heeded.polled
  heeded := by
    rintro ⟨status, received⟩
    rcases received_cons.mp received with new | earlier
    · exact .inl (seen (by rw [new]; rfl))
    · exact (heeded.heeded ⟨status, earlier⟩).imp_left mono

/-- One handler goes on or ends. -/
theorem Heeded.put (heeded : Heeded h s.toEnding s.tasks) {value : Option Task}
    (mono : s.isTerminal = true → e.isTerminal = true)
    (traced : ∀ task ∈ value, ∀ status ∈ task.update.terminalStatus, Received (r :: h) status)
    (polled : source = .poll → ∀ task ∈ value, task.update.terminalStatus = none)
    (kept : ∀ before ∈ s.tasks source, before.update.terminalStatus.isSome = true →
      e.isTerminal = true ∨ ∃ task ∈ value, task.update.terminalStatus.isSome = true)
    (seen : r.event.terminalStatus.isSome = true →
      e.isTerminal = true ∨ ∃ task ∈ value, task.update.terminalStatus.isSome = true) :
    Heeded (r :: h) e (Function.update s.tasks source value) where
  received other task mem status is := by
    rcases mem_update.mp mem with ⟨-, here⟩ | ⟨-, there⟩
    · exact traced task here status is
    · exact (heeded.received other task there status is).cons
  polled task mem := by
    rcases mem_update.mp mem with ⟨same, here⟩ | ⟨-, there⟩
    · exact polled same.symm task here
    · exact heeded.polled task there
  heeded := by
    have put : (∃ task ∈ value, task.update.terminalStatus.isSome = true) → ∃ other,
        ∃ task ∈ Function.update s.tasks source value other,
          task.update.terminalStatus.isSome = true := by
      rintro ⟨task, mem, terminal⟩
      exact ⟨source, task, mem_update.mpr (.inl ⟨rfl, mem⟩), terminal⟩
    rintro ⟨status, received⟩
    rcases received_cons.mp received with new | earlier
    · exact (seen (by rw [new]; rfl)).imp_right put
    · rcases heeded.heeded ⟨status, earlier⟩ with terminal | ⟨other, task, mem, terminal⟩
      · exact .inl (mono terminal)
      · by_cases same : other = source
        · subst same
          exact (kept task mem terminal).imp_right put
        · exact .inr ⟨other, task, mem_update.mpr (.inr ⟨same, mem⟩), terminal⟩

/-- A handler ends whose terminal status, if it has one, is not needed. -/
theorem Heeded.drop (heeded : Heeded h s.toEnding s.tasks) {task : Task}
    (mono : s.isTerminal = true → e.isTerminal = true) (found : s.tasks source = some task)
    (backed : task.update.terminalStatus.isSome = true → s.Backed source)
    (silent : r.event.terminalStatus = none) :
    Heeded (r :: h) e (Function.update s.tasks source none) where
  received other task mem status is := by
    rcases mem_update.mp mem with ⟨-, here⟩ | ⟨-, there⟩
    · cases here
    · exact (heeded.received other task there status is).cons
  polled task mem := by
    rcases mem_update.mp mem with ⟨-, here⟩ | ⟨-, there⟩
    · cases here
    · exact heeded.polled task there
  heeded := by
    rintro ⟨status, received⟩
    rcases received_cons.mp received with new | earlier
    · cases silent.symm.trans new
    rcases heeded.heeded ⟨status, earlier⟩ with terminal | ⟨other, before, mem, terminal⟩
    · exact .inl (mono terminal)
    by_cases same : other = source
    · subst same
      obtain rfl := Option.some.inj (found.symm.trans mem)
      rcases backed terminal with ended | ⟨another, ne, task, mem, terminal⟩
      · exact .inl (mono ended)
      · exact .inr ⟨another, task, mem_update.mpr (.inr ⟨ne, mem⟩), terminal⟩
    · exact .inr ⟨other, before, mem_update.mpr (.inr ⟨same, mem⟩), terminal⟩

theorem isTerminal_conclude : (e.conclude options verdict).isTerminal = true := by
  unfold Ending.conclude
  split
  · assumption
  · split <;> rfl

theorem Heeded.step (heeded : Heeded h s.toEnding s.tasks) (careful : Careful options s event)
    (effect : Effect options s event e tasks) : Heeded (⟨s, event, s'⟩ :: h) e tasks := by
  cases effect with
  | rest ignored => exact heeded.same id ignored
  | next => exact heeded.same id fun terminal => absurd terminal Bool.false_ne_true
  | heard idle status =>
    refine heeded.put id ?_ ?_ ?_ ?_
    · rintro _ ⟨rfl⟩ found is
      exact ⟨_, List.mem_cons_self, status.trans is⟩
    · intro poll
      cases poll
    · intro before mem
      cases idle.symm.trans mem
    · intro terminal
      exact .inr ⟨_, rfl, status ▸ terminal⟩
  | asked pending =>
    refine heeded.put id ?_ ?_ ?_ ?_
    · rintro _ ⟨rfl⟩ status is
      cases pending.symm.trans is
    · rintro - _ ⟨rfl⟩
      exact pending
    · intro before mem terminal
      rw [heeded.polled before mem] at terminal
      cases terminal
    · intro terminal
      rw [Event.terminalStatus, pending] at terminal
      cases terminal
  | @advanced event source key update stage stage' silent found =>
    refine heeded.put id ?_ ?_ ?_ ?_
    · rintro _ ⟨rfl⟩ status is
      exact (heeded.received source _ found status is).cons
    · rintro rfl _ ⟨rfl⟩
      exact heeded.polled ⟨key, update, stage⟩ found
    · intro before mem terminal
      obtain rfl := Option.some.inj (found.symm.trans mem)
      exact .inr ⟨_, rfl, terminal⟩
    · intro terminal
      rw [silent] at terminal
      cases terminal
  | swallowed found looking seen =>
    exact heeded.drop id found (fun terminal => careful.1 _ found looking terminal seen) rfl
  | lost found => exact heeded.drop id found (careful.1 _ found) rfl
  | progress found pending =>
    refine heeded.drop id found (fun terminal => ?_) rfl
    rw [terminalStatus_eq_none.mpr pending] at terminal
    cases terminal
  | muted found pending =>
    refine heeded.drop id found (fun terminal => ?_) rfl
    rw [terminalStatus_eq_none.mpr pending] at terminal
    cases terminal
  | finished found brought =>
    refine heeded.put (fun _ => isTerminal_conclude) ?_ ?_ (fun _ _ _ => .inl isTerminal_conclude)
      fun _ => .inl isTerminal_conclude
    · intro task mem
      cases mem
    · intro _ task mem
      cases mem
  | done => exact heeded.same (fun _ => isTerminal_conclude) fun _ => isTerminal_conclude
  | polled => exact heeded.same (fun _ => isTerminal_conclude) fun _ => isTerminal_conclude
  | fetched => exact heeded.same id fun terminal => absurd terminal Bool.false_ne_true
  | aborted => exact heeded.same (fun _ => rfl) fun _ => rfl

theorem Sound.open_of_completing (sound : Sound options h e)
    (waiting : e.completing.isSome = true) : e.isClosed = false := by
  refine Bool.eq_false_iff.mpr fun closed => ?_
  have settled := sound.closed closed
  rw [sound.single waiting] at settled
  cases settled

theorem sound_init (options : Options) (seen : String → Bool) :
    Sound options [] (machine options seen).init.toEnding where
  terminal := by
    refine iff_of_false Bool.false_ne_true ?_
    rintro (completing | settled)
    · cases completing
    · cases settled
  single completing := absurd completing Bool.false_ne_true
  closed shut := absurd shut Bool.false_ne_true
  awaited completing := absurd completing Bool.false_ne_true
  undecided _ entry mem := absurd mem List.not_mem_nil
  decided settlement settled := by cases settled
  answered settled := absurd settled Bool.false_ne_true

theorem heeded_init (options : Options) (seen : String → Bool) :
    Heeded [] (machine options seen).init.toEnding (machine options seen).init.tasks where
  received source task mem := by cases mem
  polled task mem := by cases mem
  heeded := by
    rintro ⟨status, r, mem, -⟩
    cases mem

theorem sound_of_careful {seen : String → Bool} (run : Run (machine options seen) h s)
    (careful : ∀ r ∈ h, Careful options r.pre r.event) :
    Sound options h s.toEnding ∧ Heeded h s.toEnding s.tasks := by
  refine run.history (C := fun r => Careful options r.pre r.event)
    (I := fun h s => Sound options h s.toEnding ∧ Heeded h s.toEnding s.tasks) careful ?_ ?_
  · exact ⟨sound_init options seen, heeded_init options seen⟩
  · rintro h s event s' ⟨sound, heeded⟩ ok careful
    have closed : s.isClosed = true → s.isTerminal = true :=
      fun shut => sound.terminal.mpr (.inr (sound.closed shut))
    have effect := step_effect closed sound.open_of_completing ok
    exact ⟨sound.step heeded careful effect, heeded.step careful effect⟩

/-! ### What is being handled can be finished -/

theorem settles_head (ok : step options s event = some s') (answer : event.isAnswer = true)
    (rest : s'.Settles options) : s.Settles options := by
  obtain ⟨answers, only, t, reached, settled⟩ := rest
  refine ⟨event :: answers, List.forall_mem_cons.mpr ⟨answer, only⟩, t, ?_, settled⟩
  rw [List.foldlM_cons, ok]
  exact reached

theorem settles_of_settled (settled : s.settled.isSome = true) : s.Settles options :=
  ⟨[], fun _ mem => absurd mem List.not_mem_nil, s, rfl, settled⟩

theorem settles_of_completing (waiting : s.completing.isSome = true) : s.Settles options := by
  obtain ⟨details, found⟩ := Option.isSome_iff_exists.mp waiting
  have ok : step options s (.fetched none) = some (({ s with completing := none }.produce options
      (.completed ⟨"completed", details.result⟩)).cleanup) := by
    simp only [step, found, Option.getD_none]
  refine settles_head ok rfl (settles_of_settled ?_)
  rw [toEnding_cleanup]
  cases s.settled <;> simp [State.produce]

theorem conclude_ends (options : Options) (verdict : Verdict)
    (kept : e.isTerminal = true → e.completing.isSome = true ∨ e.settled.isSome = true) :
    (e.conclude options verdict).completing.isSome = true ∨
      (e.conclude options verdict).settled.isSome = true := by
  unfold Ending.conclude
  cases terminal : e.isTerminal with
  | true => exact kept terminal
  | false =>
    cases ready : verdict.isReady with
    | true =>
      refine .inr ?_
      cases e.settled <;> simp [Ending.produce]
    | false =>
      cases verdict with
      | complete => exact .inl rfl
      | fail => cases ready

theorem settles_of_task (sound : Sound options h s.toEnding) {task : Task}
    (found : s.tasks source = some task) (brought : task.update.verdict = some verdict)
    (unseen : task.stage = .looking → s.seen (task.key options) = false) : s.Settles options := by
  have closed : s.isClosed = true → s.isTerminal = true :=
    fun shut => sound.terminal.mpr (.inr (sound.closed shut))
  have checked {t : State} (same : t.toEnding = s.toEnding)
      (found : t.tasks source = some { task with stage := .checked }) : t.Settles options := by
    have ok : step options t (.finish source) =
        some ((t.conclude options verdict).endTask source) := by
      simp only [step, found, brought]
    refine settles_head ok rfl ?_
    have ending := (conclude_eq options verdict (by rw [same]; exact closed)).1
    rcases conclude_ends options verdict sound.terminal.mp with completing | settled
    · exact settles_of_completing (by rw [toEnding_endTask, ending, same]; exact completing)
    · exact settles_of_settled (by rw [toEnding_endTask, ending, same]; exact settled)
  have adding {t : State} (same : t.toEnding = s.toEnding)
      (found : t.tasks source = some { task with stage := .adding }) : t.Settles options := by
    have ok : step options t (.add source) = some
        ({ t with seen := fun k => t.seen k || k ∈ Task.keys options ⟨task.id, task.update, .adding⟩
          }.setTask source (some ⟨task.id, task.update, .checked⟩)) := by
      simp only [step, found]
    exact settles_head ok rfl (checked same (Function.update_self ..))
  obtain ⟨id, update, stage⟩ := task
  cases stage with
  | checked => exact checked rfl found
  | adding => exact adding rfl found
  | looking =>
    have ok : step options s (.look source) =
        some (s.setTask source (some ⟨id, update, .adding⟩)) := by
      simp only [step, found, unseen rfl, Bool.false_eq_true, if_false]
    exact settles_head ok rfl (adding (t := s.setTask source _) rfl (Function.update_self ..))

end

/-- In every run of careful steps, tracking ends cleanly. -/
theorem ends_cleanly {seen : String → Bool} {h : List (Transition State Event)} {s : State}
    (run : Run (machine options seen) h s) (careful : ∀ r ∈ h, Careful options r.pre r.event) :
    EndsCleanly options h s := by
  obtain ⟨sound, heeded⟩ := sound_of_careful run careful
  refine ⟨sound.undecided, sound.decided, sound.answered, fun received => ?_,
    settles_of_completing, ?_⟩
  · rcases heeded.heeded received with terminal | pending
    · exact (sound.terminal.mp terminal).symm.imp_right .inl
    · exact .inr (.inr pending)
  · intro source task found terminal unseen
    have brought := mt terminalStatus_eq_none.mpr (Option.ne_none_iff_isSome.mpr terminal)
    obtain ⟨verdict, brought⟩ := Option.ne_none_iff_exists'.mp brought
    exact settles_of_task sound found brought unseen

/-! ### Three ways to end badly -/

def exampleOptions : Options := ⟨"job", true, true⟩

def halfway : Update := ⟨some "pending", some "50", none, none, none, none, true⟩

def delivered : Update := ⟨some "completed", none, none, none, none, some (some "report"), true⟩

def tracked (seen : String → Bool) (events : List Event) :
    List (Transition State Event) × State :=
  (machine exampleOptions seen).play events ([], (machine exampleOptions seen).init)

/-- The job is halfway when the stream ends, and a poll finds it completed. -/
def followed : List Event :=
  [.next, .dispatch 0 ⟨some "1", "snapshot", halfway⟩, .look (.stream 0), .add (.stream 0),
    .finish (.stream 0), .next, .streamLost, .pollAnswer delivered, .next]

theorem ends_cleanly_followed :
    (tracked (fun _ => false) followed).2.settled = some (.ok ⟨"completed", some (some "report")⟩) ∧
      EndsCleanly exampleOptions (tracked (fun _ => false) followed).1
        (tracked (fun _ => false) followed).2 := by
  have pending : ∀ r ∈ (tracked (fun _ => false) followed).1,
      ∀ task ∈ r.event.asks.bind r.pre.tasks, task.update.terminalStatus = none := by decide
  have orderly : ∀ r ∈ (tracked (fun _ => false) followed).1,
      Orderly exampleOptions r.pre r.event := by decide
  exact ⟨rfl, ends_cleanly exampleOptions (Machine.play_run _ followed) fun r mem =>
    ⟨kept_of_pending _ (pending r mem), orderly r mem⟩⟩

/-- The store has kept what an earlier tracker of the job saw. -/
def remembered (key : String) : Bool := key = fingerprint "job" none delivered

def swallowed : List Event := [.dispatch 0 ⟨none, "snapshot", delivered⟩, .look (.stream 0)]

/-- `done` arrives while the store is asked for the progress before it. -/
def overtaken : List Event :=
  [.dispatch 0 ⟨none, "progress", halfway⟩, .dispatch 1 ⟨none, "done", delivered⟩,
    .look (.stream 0), .add (.stream 0), .finish (.stream 0)]

def abandoned : List Event := [.abort "aborted", .next, .next]

theorem entries_last (options : Options) (outcome : Outcome) :
    ∃ before last, outcome.entries options = before ++ [last] ∧ last.isProgress = false := by
  cases outcome with
  | completed job => exact ⟨[.result job], _, rfl, rfl⟩
  | failed job =>
    cases thrown : options.throwOnTerminalError with
    | true => exact ⟨[], .error (terminalError job), if_pos thrown, rfl⟩
    | false =>
      exact ⟨[.result job], .return job, if_neg (by rw [thrown]; exact Bool.false_ne_true), rfl⟩
  | aborted message => exact ⟨[], _, rfl, rfl⟩

/-- The last entry belongs to the outcome. -/
theorem last_of_decided {options : Options} {h : List (Transition State Event)} {s : State}
    (ends : EndsCleanly options h s) (settled : s.settled.isSome = true) {last : Entry}
    (is : s.buffer.entries.getLast? = some last) : last.isProgress = false := by
  obtain ⟨settlement, some_⟩ := Option.isSome_iff_exists.mp settled
  obtain ⟨outcome, progress, -, -, -, entries⟩ := ends.decided settlement some_
  obtain ⟨before, final, split_, plain⟩ := entries_last options outcome
  rw [entries, split_, ← List.append_assoc, List.getLast?_concat] at is
  exact Option.some.inj is ▸ plain

/-- A seen store that holds the terminal update lets it vanish; progress is yielded after the
outcome; and a second call of `next` waits for ever after an abort. -/
theorem not_endsCleanly :
    (Run (machine exampleOptions remembered) (tracked remembered swallowed).1
        (tracked remembered swallowed).2 ∧
      ¬ EndsCleanly exampleOptions (tracked remembered swallowed).1
        (tracked remembered swallowed).2) ∧
    (Run (machine exampleOptions fun _ => false) (tracked (fun _ => false) overtaken).1
        (tracked (fun _ => false) overtaken).2 ∧
      ¬ EndsCleanly exampleOptions (tracked (fun _ => false) overtaken).1
        (tracked (fun _ => false) overtaken).2) ∧
    Run (machine exampleOptions fun _ => false) (tracked (fun _ => false) abandoned).1
        (tracked (fun _ => false) abandoned).2 ∧
      ¬ EndsCleanly exampleOptions (tracked (fun _ => false) abandoned).1
        (tracked (fun _ => false) abandoned).2 := by
  refine ⟨⟨Machine.play_run _ swallowed, fun ends => ?_⟩,
    ⟨Machine.play_run _ overtaken, fun ends => ?_⟩, Machine.play_run _ abandoned, fun ends => ?_⟩
  · have received : Received (tracked remembered swallowed).1 "completed" :=
      ⟨_, .tail _ (.head _), rfl⟩
    have idle : (tracked remembered swallowed).2.tasks = fun _ => none := by
      have same : (tracked remembered swallowed).2.tasks = Function.update (Function.update
          (fun _ => none) (.stream 0) (some ⟨none, delivered, .looking⟩)) (.stream 0) none := rfl
      rw [same, Function.update_idem, Function.update_eq_self_iff]
    rcases ends.heeded ⟨_, received⟩ with settled | completing | ⟨source, task, mem, -⟩
    · exact absurd settled (by decide)
    · exact absurd completing (by decide)
    · rw [idle] at mem
      cases mem
  · have last : (tracked (fun _ => false) overtaken).2.buffer.entries.getLast? =
        some (.progress halfway) := by decide
    cases last_of_decided ends (by decide) last
  · exact absurd (ends.answered (by decide)) (by decide)

end Talos.Sdk.JobTracker
