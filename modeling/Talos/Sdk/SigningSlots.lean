import Talos.Sdk.SigningController
import Mathlib.Data.Finset.Card
import Mathlib.Data.List.Nodup
import Mathlib.Data.Nat.Cast.Order.Ring

/-!
# Slots and queue

The counter of the controller counts the calls that are in the race or whose race is over;
a call is in the queue exactly while its phase says so; a queue that is not empty means
that no slot is free. These facts survive every step in which no call is admitted whose
signal is aborted: `drain` drops such a call without settling it.
-/

namespace Talos.Sdk.Signing

open Database
open Soroban (Map)

abbrev Step := Transition State Event

variable {limits : Limits} {s s' t : State} {event : Event} {x y : RequestId}
  {request before after : Request}

def Phase.executing : Phase → Bool
  | .running => true
  | .raced _ => true
  | _ => false

def State.phase (s : State) (x : RequestId) : Option Phase := (s.requests x).map (·.phase)

def State.settled (s : State) (x : RequestId) : Option Outcome :=
  (s.requests x).bind (·.settled)

/-- The run of a call has a slot. -/
def State.executing (s : State) (x : RequestId) : Bool := (s.phase x).any (·.executing)

/-- The call that a step admits: to a slot, or to the queue. -/
def admitted (limits : Limits) (t : Step) : Option Request :=
  match t.event with
  | .detected x (.capabilities supported) =>
      (t.pre.requests x).filter fun request =>
        request.kind ∈ supported ∧
          ¬ (reached limits.maxConcurrent t.pre.active ∧
            reached limits.maxQueue t.pre.queue.length)
  | _ => none

/-- The signal of a call that is admitted is not aborted. -/
def Prompt (limits : Limits) (t : Step) : Prop :=
  ((admitted limits t).all fun request => !t.pre.isAborted request) = true

theorem Prompt.fresh {t : Step} (prompt : Prompt limits t)
    (admits : admitted limits t = some request) : t.pre.isAborted request = false := by
  unfold Prompt at prompt
  rw [admits] at prompt
  simpa using prompt

/-! ### One step -/

/-- A call that comes to its end, or whose race does. -/
inductive Moves (before : Request) : Request → Prop where
  | ended (outcome : Outcome)
      (open' : before.phase = .detecting ∨ ∃ outcome, before.phase = .returned outcome) :
      Moves before (before.end outcome)
  | raced (answer : Answer) (running : before.phase = .running) :
      Moves before { before with phase := .raced answer }

inductive Effect (limits : Limits) (s : State) (event : Event) : State → Prop where
  | entered (x : RequestId) (request : Request) (new : s.requests x = none)
      (signs : ∃ kind signal, event = .sign x kind signal)
      (phase : request.phase = .detecting ∨ ∃ outcome, request.phase = .ended ∧
        request.settled = some outcome) : Effect limits s event (s.put x request)
  | moved (x : RequestId) (before after : Request) (found : s.requests x = some before)
      (moves : Moves before after) : Effect limits s event (s.put x after)
  | enqueued (x : RequestId) (request : Request) (found : s.requests x = some request)
      (phase : request.phase = .detecting)
      (busy : reached limits.maxConcurrent s.active = true)
      (room : reached limits.maxQueue s.queue.length = false)
      (admits : ∀ s', admitted limits ⟨s, event, s'⟩ = some request) :
      Effect limits s event (s.enqueue x request)
  | started (x : RequestId) (request : Request) (found : s.requests x = some request)
      (phase : request.phase = .detecting)
      (free : reached limits.maxConcurrent s.active = false)
      (admits : ∀ s', admitted limits ⟨s, event, s'⟩ = some request) :
      Effect limits s event (s.execute x request)
  | finished (x : RequestId) (request : Request) (answer : Answer)
      (found : s.requests x = some request) (phase : request.phase = .raced answer) :
      Effect limits s event ((s.release x request answer.outcome).drain limits)
  | aborted (signal : SignalId) (first : s.aborted signal = false) :
      Effect limits s event (s.abort signal)

theorem detected_effect {detection : Detection} (found : s.requests x = some request)
    (phase : request.phase = .detecting) (same : event = .detected x detection) :
    Effect limits s event (s.detected limits x request detection) := by
  have ended : ∀ outcome, Effect limits s event (s.put x (request.end outcome)) :=
    fun outcome => .moved x request _ found (.ended outcome (.inl phase))
  unfold State.detected
  cases detection with
  | threw => exact ended _
  | rejected => exact ended _
  | capabilities supported =>
      dsimp only
      by_cases supports : request.kind ∈ supported
      · rw [if_pos supports]
        have admits : ¬ (reached limits.maxConcurrent s.active = true ∧
              reached limits.maxQueue s.queue.length = true) →
            ∀ s', admitted limits ⟨s, event, s'⟩ = some request := by
          intro room s'
          subst same
          unfold admitted
          dsimp only
          rw [found, Option.filter_some, if_pos (decide_eq_true ⟨supports, room⟩)]
        unfold State.admit
        by_cases busy : reached limits.maxConcurrent s.active = true
        · rw [if_pos busy]
          by_cases full : reached limits.maxQueue s.queue.length = true
          · rw [if_pos full]
            exact ended _
          · rw [if_neg full]
            exact .enqueued x request found phase busy (eq_false_of_ne_true full)
              (admits fun both => full both.2)
        · rw [if_neg busy]
          exact .started x request found phase (eq_false_of_ne_true busy)
            (admits fun both => busy both.1)
      · rw [if_neg supports]
        exact ended _

theorem step_effect (ok : step limits s event = some s') : Effect limits s event s' := by
  cases event with
  | sign x kind signal =>
      simp only [step] at ok
      split at ok
      · next new =>
          cases ok
          unfold State.sign
          dsimp only
          split
          · exact .entered x _ new ⟨kind, signal, rfl⟩ (.inr ⟨_, rfl, rfl⟩)
          · exact .entered x _ new ⟨kind, signal, rfl⟩ (.inl rfl)
      · cases ok
  | detected x detection =>
      simp only [step] at ok
      split at ok
      · next request found =>
          split at ok
          · next phase =>
              cases ok
              exact detected_effect found phase rfl
          · cases ok
      · cases ok
  | answered x answer =>
      simp only [step] at ok
      split at ok
      · next request found =>
          split at ok
          · next phase =>
              cases ok
              exact .moved x request _ found (.raced answer phase)
          · cases ok
      · cases ok
  | timedOut x =>
      simp only [step] at ok
      split at ok
      · next request found =>
          split at ok
          · next phase =>
              cases ok
              exact .moved x request _ found (.raced _ phase)
          · cases ok
      · cases ok
  | finished x =>
      simp only [step] at ok
      split at ok
      · next request found =>
          split at ok
          · next answer phase =>
              cases ok
              exact .finished x request answer found phase
          · cases ok
      · cases ok
  | delivered x =>
      simp only [step] at ok
      split at ok
      · next request found =>
          split at ok
          · next outcome phase =>
              cases ok
              exact .moved x request _ found (.ended outcome (.inr ⟨outcome, phase⟩))
          · cases ok
      · cases ok
  | abort signal =>
      simp only [step] at ok
      split at ok
      · cases ok
      · next first =>
          cases ok
          exact .aborted signal (eq_false_of_ne_true first)

/-! ### Phases -/

theorem phase_of_found (found : s.requests x = some request) : s.phase x = some request.phase := by
  rw [State.phase, found]
  rfl

theorem executing_of_phase {phase : Phase} (here : s.phase x = some phase) :
    s.executing x = phase.executing := by
  rw [State.executing, here]
  rfl

/-- What holds of a call in every state. -/
structure Request.Sound (request : Request) : Prop where
  waits : request.phase = .queued → request.waited = true
  settled : request.phase = .ended → request.settled.isSome = true
  kept : request.phase ≠ .skipped

/-- The counter, the queue and the phases agree. -/
structure Slots (s : State) : Prop where
  counted : ∃ ids : Finset RequestId, ids.card = s.active ∧ ∀ x, x ∈ ids ↔ s.executing x = true
  queued : ∀ x, x ∈ s.queue ↔ s.phase x = some .queued
  nodup : s.queue.Nodup
  prompt : ∀ x ∈ s.queue, ∀ request, s.requests x = some request → s.isAborted request = false
  sound : ∀ x request, s.requests x = some request → request.Sound

/-- One call changes: the counter changes as its part in it does, and it is in the queue if
its phase says so. -/
theorem Slots.change (slots : Slots s) (requests : s'.requests = s.requests.set x request)
    (aborted : s'.aborted = s.aborted) (sound : request.Sound)
    (active : s'.active + (s.executing x).toNat = s.active + request.phase.executing.toNat)
    (here : x ∈ s'.queue ↔ request.phase = .queued)
    (others : ∀ y, y ≠ x → (y ∈ s'.queue ↔ y ∈ s.queue)) (nodup : s'.queue.Nodup)
    (prompt : request.phase = .queued → s.isAborted request = false) : Slots s' := by
  have found : s'.requests x = some request := by rw [requests, Map.set_self]
  have same : ∀ y, y ≠ x → s'.requests y = s.requests y := by
    intro y other
    rw [requests, Map.set_of_ne _ _ other]
  have phases : ∀ y, y ≠ x → s'.phase y = s.phase y := by
    intro y other
    rw [State.phase, State.phase, same y other]
  have executes : s'.executing x = request.phase.executing :=
    executing_of_phase (phase_of_found found)
  have executing : ∀ y, y ≠ x → s'.executing y = s.executing y := by
    intro y other
    rw [State.executing, State.executing, phases y other]
  refine ⟨?_, ?_, nodup, ?_, ?_⟩
  · obtain ⟨ids, card, counts⟩ := slots.counted
    by_cases runs : request.phase.executing = true
    · refine ⟨insert x ids, ?_, fun y => ?_⟩
      · rw [runs] at active
        by_cases already : s.executing x = true
        · rw [Finset.insert_eq_of_mem ((counts x).mpr already)]
          rw [already] at active
          omega
        · rw [Finset.card_insert_of_notMem (mt (counts x).mp already)]
          rw [eq_false_of_ne_true already] at active
          simp only [Bool.toNat_false, Bool.toNat_true] at active
          omega
      · rw [Finset.mem_insert]
        by_cases self : y = x
        · subst self
          exact iff_of_true (.inl rfl) (executes.trans runs)
        · rw [executing y self, ← counts y]
          exact or_iff_right self
    · have rests : request.phase.executing = false := eq_false_of_ne_true runs
      refine ⟨ids.erase x, ?_, fun y => ?_⟩
      · rw [rests] at active
        by_cases already : s.executing x = true
        · rw [Finset.card_erase_of_mem ((counts x).mpr already)]
          rw [already] at active
          simp only [Bool.toNat_false, Bool.toNat_true] at active
          omega
        · rw [Finset.erase_eq_of_notMem (mt (counts x).mp already)]
          rw [eq_false_of_ne_true already] at active
          omega
      · rw [Finset.mem_erase]
        by_cases self : y = x
        · subst self
          exact iff_of_false (fun both => both.1 rfl) (by rw [executes, rests]; exact Bool.false_ne_true)
        · rw [executing y self, ← counts y]
          exact and_iff_right self
  · intro y
    by_cases self : y = x
    · subst self
      rw [here, phase_of_found found, Option.some.injEq]
    · rw [others y self, slots.queued y, phases y self]
  · intro y mem request' found'
    rw [State.isAborted, aborted]
    by_cases self : y = x
    · subst self
      cases found.symm.trans found'
      exact prompt (here.mp mem)
    · exact slots.prompt y ((others y self).mp mem) request' ((same y self).symm.trans found')
  · intro y request' found'
    by_cases self : y = x
    · subst self
      cases found.symm.trans found'
      exact sound
    · exact slots.sound y request' ((same y self).symm.trans found')

theorem Slots.active_pos (slots : Slots s) (executes : s.executing x = true) : 0 < s.active := by
  obtain ⟨ids, card, counts⟩ := slots.counted
  rw [← card]
  exact Finset.card_pos.mpr ⟨x, (counts x).mpr executes⟩

/-- A call changes that has no part in the counter or the queue. -/
theorem Slots.put (slots : Slots s) (same : request.phase.executing = s.executing x)
    (waits : s.phase x ≠ some .queued) (waits' : request.phase ≠ .queued)
    (sound : request.Sound) : Slots (s.put x request) :=
  slots.change rfl rfl sound (by rw [same]; rfl)
    (iff_of_false (mt (slots.queued x).mp waits) waits') (fun _ _ => Iff.rfl) slots.nodup
    fun queued => absurd queued waits'

theorem Slots.enqueue (slots : Slots s) (found : s.requests x = some request)
    (phase : request.phase = .detecting) (fresh : s.isAborted request = false) :
    Slots (s.enqueue x request) := by
  have detecting : s.phase x = some .detecting := (phase_of_found found).trans (congrArg some phase)
  have absent : x ∉ s.queue := by
    intro mem
    cases detecting.symm.trans ((slots.queued x).mp mem)
  refine slots.change rfl rfl ⟨fun _ => rfl, nofun, nofun⟩ ?_ ?_ ?_ ?_ fun _ => fresh
  · rw [executing_of_phase detecting]
    rfl
  · exact iff_of_true (List.mem_append_right _ (List.mem_singleton_self x)) rfl
  · intro y other
    exact List.mem_append.trans (or_iff_left (mt List.mem_singleton.mp other))
  · exact List.nodup_append_comm.mp (List.nodup_cons.mpr ⟨absent, slots.nodup⟩)

/-- A call starts that is not under way; it is taken from the queue if it is there. -/
theorem Slots.execute (slots : Slots s) (found : s.requests x = some request)
    (rests : request.phase.executing = false) :
    Slots { s.execute x request with queue := s.queue.erase x } := by
  refine slots.change rfl rfl ⟨nofun, nofun, nofun⟩ ?_ ?_ ?_ (slots.nodup.erase x) nofun
  · rw [executing_of_phase (phase_of_found found), rests]
    rfl
  · exact iff_of_false slots.nodup.not_mem_erase nofun
  · intro y other
    exact List.mem_erase_of_ne other

theorem Slots.release (slots : Slots s) (found : s.requests x = some request) {answer : Answer}
    (phase : request.phase = .raced answer) (outcome : Outcome) :
    Slots (s.release x request outcome) := by
  have raced : s.phase x = some (.raced answer) :=
    (phase_of_found found).trans (congrArg some phase)
  have executes : s.executing x = true := executing_of_phase raced
  have absent : x ∉ s.queue := by
    intro mem
    cases raced.symm.trans ((slots.queued x).mp mem)
  refine slots.change rfl rfl ⟨nofun, nofun, nofun⟩ ?_ ?_ (fun _ _ => Iff.rfl) slots.nodup nofun
  · have positive := slots.active_pos executes
    rw [executes]
    simp only [State.release, Phase.executing, Bool.toNat_true, Bool.toNat_false]
    omega
  · exact iff_of_false absent nofun

/-! ### Aborts -/

theorem Request.abort_signal (signal : SignalId) (request : Request) :
    (request.abort signal).signal = request.signal := by
  unfold Request.abort
  split <;> rfl

theorem Request.abort_executing (signal : SignalId) (request : Request) :
    (request.abort signal).phase.executing = request.phase.executing := by
  unfold Request.abort
  split
  · cases request.phase <;> rfl
  · rfl

theorem Request.abort_queued (signal : SignalId) (request : Request) :
    (request.abort signal).phase = .queued ↔
      request.phase = .queued ∧ request.signal ≠ some signal := by
  unfold Request.abort
  by_cases listens : request.signal = some signal
  · rw [if_pos listens]
    cases request.phase <;> simp [listens, Phase.abort]
  · rw [if_neg listens]
    exact (and_iff_left listens).symm

theorem Request.settled_abort {outcome : Outcome} (settled : request.settled = some outcome)
    (signal : SignalId) : (request.abort signal).settled = some outcome := by
  unfold Request.abort
  split
  · simp [settled]
  · exact settled

theorem Request.Sound.abort (sound : request.Sound) (signal : SignalId) :
    (request.abort signal).Sound := by
  unfold Request.abort
  by_cases listens : request.signal = some signal
  · rw [if_pos listens]
    cases phase : request.phase with
    | queued =>
        refine ⟨nofun, fun _ => ?_, nofun⟩
        dsimp only
        rw [if_pos (sound.waits phase)]
        rfl
    | ended =>
        refine ⟨nofun, fun _ => ?_, nofun⟩
        dsimp only
        split
        · rfl
        · exact sound.settled phase
    | skipped => exact absurd phase sound.kept
    | detecting => exact ⟨nofun, nofun, nofun⟩
    | running => exact ⟨nofun, nofun, nofun⟩
    | raced answer => exact ⟨nofun, nofun, nofun⟩
    | returned outcome => exact ⟨nofun, nofun, nofun⟩
  · rw [if_neg listens]
    exact sound

theorem phase_abort (s : State) (signal : SignalId) (x : RequestId) :
    (s.abort signal).phase x = (s.requests x).map fun request => (request.abort signal).phase := by
  rw [State.phase, State.abort, Option.map_map]
  rfl

theorem executing_abort (s : State) (signal : SignalId) (x : RequestId) :
    (s.abort signal).executing x = s.executing x := by
  rw [State.executing, State.executing, phase_abort, State.phase]
  cases s.requests x with
  | none => rfl
  | some request => exact request.abort_executing signal

theorem Slots.abort (slots : Slots s) (signal : SignalId) : Slots (s.abort signal) where
  counted := by
    obtain ⟨ids, card, counts⟩ := slots.counted
    refine ⟨ids, card, fun y => ?_⟩
    rw [executing_abort]
    exact counts y
  queued y := by
    refine List.mem_filter.trans ?_
    rw [slots.queued, phase_abort, State.phase]
    cases s.requests y with
    | none => simp
    | some request => simp [Request.abort_queued]
  nodup := slots.nodup.filter _
  prompt y mem request' found' := by
    obtain ⟨mem, other⟩ := List.mem_filter.mp mem
    obtain ⟨request, found, rfl⟩ := Option.map_eq_some_iff.mp found'
    have fresh := slots.prompt y mem request found
    rw [found] at other
    unfold State.isAborted at fresh ⊢
    rw [Request.abort_signal]
    cases listens : request.signal with
    | none => rfl
    | some signal' =>
        rw [listens] at fresh
        have differs : signal' ≠ signal := by
          rintro rfl
          simp [listens] at other
        simpa [State.abort, Function.update_of_ne differs] using fresh
  sound y request' found' := by
    obtain ⟨request, found, rfl⟩ := Option.map_eq_some_iff.mp found'
    exact (slots.sound y request found).abort signal

/-! ### The end of a run -/

/-- A turn of `drain` starts the first call of the queue. -/
theorem shift_eq (slots : Slots s) {rest : List RequestId} (queue : s.queue = x :: rest) :
    ∃ request, s.requests x = some request ∧ request.phase = .queued ∧
      s.shift x rest = { s.execute x request with queue := s.queue.erase x } := by
  have mem : x ∈ s.queue := queue ▸ List.mem_cons_self
  obtain ⟨request, found, phase⟩ := Option.map_eq_some_iff.mp ((slots.queued x).mp mem)
  refine ⟨request, found, phase, ?_⟩
  have fresh : ({ s with queue := rest } : State).isAborted request = false :=
    slots.prompt x mem request found
  unfold State.shift
  dsimp only
  rw [found]
  dsimp only
  rw [fresh, queue, List.erase_cons_head]
  rfl

theorem Slots.shift (slots : Slots s) {rest : List RequestId} (queue : s.queue = x :: rest) :
    Slots (s.shift x rest) ∧ (s.shift x rest).queue = rest := by
  obtain ⟨request, found, phase, shifted⟩ := shift_eq slots queue
  rw [shifted]
  refine ⟨slots.execute found (by rw [phase]; rfl), ?_⟩
  exact (congrArg (List.erase · x) queue).trans (List.erase_cons_head x rest)

theorem Slots.drainLoop (limits : Limits) (slots : Slots s) {queue : List RequestId}
    (same : s.queue = queue) : Slots (Signing.drainLoop limits queue s) := by
  induction queue generalizing s with
  | nil => exact slots
  | cons x rest ih =>
      unfold Signing.drainLoop
      split
      · exact slots
      · obtain ⟨slots, same⟩ := slots.shift same
        exact ih slots same

/-! ### Limits -/

/-- A count that is at most a limit. -/
def Within (limit : WithTop ℚ) (n : Nat) : Prop := ((n : ℚ) : WithTop ℚ) ≤ limit

/-- A limit that can be reached exactly, or never. -/
def Whole (limit : WithTop ℚ) : Prop := limit = ⊤ ∨ ∃ n : Nat, limit = ((n : ℚ) : WithTop ℚ)

theorem Within.mono {limit : WithTop ℚ} {n k : Nat} (within : Within limit k) (le : n ≤ k) :
    Within limit n :=
  le_trans (WithTop.coe_le_coe.mpr (Nat.cast_le.mpr le)) within

theorem within_succ {limit : WithTop ℚ} {n : Nat} (whole : Whole limit)
    (free : reached limit n = false) : Within limit (n + 1) := by
  have below : ¬ limit ≤ ((n : ℚ) : WithTop ℚ) := of_decide_eq_false free
  rcases whole with rfl | ⟨k, rfl⟩
  · exact le_top
  · rw [WithTop.coe_le_coe, Nat.cast_le] at below
    exact WithTop.coe_le_coe.mpr (Nat.cast_le.mpr (by omega))

/-- Both limits hold, and no call waits while a slot is free. -/
structure Bounded (limits : Limits) (s : State) : Prop where
  active : Within limits.maxConcurrent s.active
  queue : Within limits.maxQueue s.queue.length
  busy : s.queue ≠ [] → reached limits.maxConcurrent s.active = true

theorem Bounded.init (limits : Limits) : Bounded limits (machine limits).init where
  active := by
    have one : Within limits.maxConcurrent 1 := by
      rw [Within, Nat.cast_one]
      exact not_lt.mp limits.concurrent_pos
    exact one.mono zero_le_one
  queue := not_lt.mp limits.queue_nonneg
  busy := fun some => absurd rfl some

/-- `drain` leaves the end of the queue, and calls in it only if no slot is free. -/
theorem Bounded.drainLoop (whole : Whole limits.maxConcurrent) (slots : Slots s)
    {queue : List RequestId} (same : s.queue = queue) (active : Within limits.maxConcurrent s.active)
    (length : Within limits.maxQueue s.queue.length) :
    Bounded limits (Signing.drainLoop limits queue s) := by
  induction queue generalizing s with
  | nil => exact ⟨active, length, fun some => absurd same some⟩
  | cons x rest ih =>
      unfold Signing.drainLoop
      split
      · next busy => exact ⟨active, length, fun _ => busy⟩
      · next free =>
          obtain ⟨shifted, rest'⟩ := slots.shift same
          obtain ⟨request, -, -, started⟩ := shift_eq slots same
          refine ih shifted rest' ?_ ?_
          · rw [started]
            exact within_succ whole (eq_false_of_ne_true free)
          · rw [rest']
            rw [same] at length
            exact length.mono (Nat.le_succ _)

/-- The limits are whole numbers, or infinite. -/
def Limits.Whole (limits : Limits) : Prop :=
  Signing.Whole limits.maxConcurrent ∧ Signing.Whole limits.maxQueue

theorem Slots.step (slots : Slots s) (prompt : Prompt limits ⟨s, event, s'⟩)
    (ok : Signing.step limits s event = some s') : Slots s' := by
  cases step_effect ok with
  | entered x request new signs phase =>
      have unknown : s.phase x = none := by rw [State.phase, new]; rfl
      have rests : s.executing x = false := by rw [State.executing, unknown]; rfl
      rcases phase with detecting | ⟨outcome, ended, settled⟩
      · refine slots.put ?_ ?_ ?_ ⟨?_, ?_, ?_⟩ <;> simp [detecting, unknown, rests, Phase.executing]
      · refine slots.put ?_ ?_ ?_ ⟨?_, ?_, ?_⟩ <;>
          simp [ended, settled, unknown, rests, Phase.executing]
  | moved x before after found moves =>
      have phase := phase_of_found found
      cases moves with
      | ended outcome open' =>
          refine slots.put ?_ ?_ nofun ⟨nofun, fun _ => rfl, nofun⟩
          · rw [executing_of_phase phase]
            rcases open' with detecting | ⟨outcome, returned⟩
            · rw [detecting]; rfl
            · rw [returned]; rfl
          · rw [phase]
            rcases open' with detecting | ⟨outcome, returned⟩
            · rw [detecting]; nofun
            · rw [returned]; nofun
      | raced answer running =>
          refine slots.put ?_ ?_ nofun ⟨nofun, nofun, nofun⟩
          · rw [executing_of_phase phase, running]
            rfl
          · rw [phase, running]
            nofun
  | enqueued x request found phase busy room admits =>
      exact slots.enqueue found phase (prompt.fresh (admits _))
  | started x request found phase free admits =>
      have absent : x ∉ s.queue := by
        intro mem
        have queued := (slots.queued x).mp mem
        rw [phase_of_found found, phase] at queued
        cases queued
      have started := slots.execute found (by rw [phase]; rfl)
      rw [List.erase_of_not_mem absent] at started
      exact started
  | finished x request answer found phase =>
      exact (slots.release found phase answer.outcome).drainLoop limits rfl
  | aborted signal first => exact slots.abort signal

theorem Bounded.step (bounded : Bounded limits s) (slots : Slots s) (whole : limits.Whole)
    (ok : Signing.step limits s event = some s') : Bounded limits s' := by
  cases step_effect ok with
  | entered x request new signs phase => exact ⟨bounded.active, bounded.queue, bounded.busy⟩
  | moved x before after found moves => exact ⟨bounded.active, bounded.queue, bounded.busy⟩
  | enqueued x request found phase busy room admits =>
      refine ⟨bounded.active, ?_, fun _ => busy⟩
      have length : (s.queue ++ [x]).length = s.queue.length + 1 := List.length_append
      exact length ▸ within_succ whole.2 room
  | started x request found phase free admits =>
      refine ⟨within_succ whole.1 free, bounded.queue, fun some => ?_⟩
      rw [bounded.busy some] at free
      cases free
  | finished x request answer found phase =>
      exact .drainLoop whole.1 (slots.release found phase answer.outcome) rfl
        (bounded.active.mono (Nat.sub_le _ _)) bounded.queue
  | aborted signal first =>
      refine ⟨bounded.active, bounded.queue.mono (List.length_filter_le _ _), fun some => ?_⟩
      apply bounded.busy
      intro empty
      apply some
      rw [State.abort, empty]
      rfl

theorem Slots.init (limits : Limits) : Slots (machine limits).init where
  counted := ⟨∅, rfl, fun x => iff_of_false (Finset.notMem_empty x) Bool.false_ne_true⟩
  queued _ := iff_of_false List.not_mem_nil nofun
  nodup := List.nodup_nil
  prompt _ mem := absurd mem List.not_mem_nil
  sound _ _ found := nomatch found

end Talos.Sdk.Signing
