import Talos.Database.Machine
import Mathlib.Algebra.Order.Ring.Nat
import Mathlib.Logic.Function.Basic

/-!
# The connection loop of the event stream

`connect`, `run`, `_openConnection` and the heartbeat watchdog of `TalosEventStream`
(`packages/sdk/src/events.ts`), with the loops that `connect` has started between their awaits.
Nobody else calls `close`. Timers fire on time, what has arrived is what the reader has taken up,
and delays between attempts are left open. Times are in milliseconds.
-/

namespace Talos.Sdk.ConnectionLoop

open Database

/-- There is no limit to the attempts if `maxReconnectAttempts` is `none`; an interval of 0 turns
the watchdog off. -/
structure Options where
  maxReconnectAttempts : Option ℕ
  maxHeartbeatMisses : ℕ
  heartbeatIntervalMs : ℕ

inductive StreamState where
  | idle
  | connecting
  | «open»
  | reconnecting
  | closed
  deriving DecidableEq, Repr

/-- Where a loop waits. -/
inductive Phase where
  /-- Before `fetch`. -/
  | opening
  | fetching
  | reading (arrivedAt : ℕ)
  | sleeping
  deriving DecidableEq, Repr

def Phase.arrivedAt : Phase → Option ℕ
  | .reading arrivedAt => some arrivedAt
  | .opening | .fetching | .sleeping => none

/-- `aborted` is that of the only `AbortController`. -/
structure State where
  clock : ℕ
  state : StreamState
  reconnectAttempt : ℕ
  heartbeatTimer : Option ℕ
  heartbeatMisses : ℕ
  aborted : Bool
  /-- The loops are numbered as they start. -/
  started : ℕ
  loops : ℕ → Option Phase

inductive Event where
  | tick (milliseconds : ℕ)
  | connect
  | fetch (i : ℕ)
  | respond (i : ℕ)
  | chunk (i : ℕ)
  /-- A complete event or a comment. -/
  | hear (i : ℕ)
  /-- An error, a refusal or the end of the response. -/
  | disconnect (i : ℕ)
  /-- The heartbeat timer fires. -/
  | miss
  | wake (i : ℕ)
  deriving DecidableEq, Repr

variable (options : Options)

def Options.allows (attempt : ℕ) : Bool := options.maxReconnectAttempts.all (attempt ≤ ·)

/-- The silence after which a connection should be given up. -/
def Options.patience : ℕ := options.maxHeartbeatMisses * options.heartbeatIntervalMs

/-- `setTimeout` takes delays below 2^31. -/
def timeout (milliseconds : ℕ) : ℕ := if milliseconds < 2 ^ 31 then milliseconds else 1

namespace State

variable (s : State)

def put (i : ℕ) (phase : Option Phase) : State :=
  { s with loops := Function.update s.loops i phase }

def clearHeartbeatTimer : State := { s with heartbeatTimer := none }

def resetHeartbeatTimer : State :=
  { s with
    heartbeatTimer :=
      if options.heartbeatIntervalMs = 0 then s.heartbeatTimer
      else some (s.clock + timeout options.heartbeatIntervalMs) }

def close : State :=
  if s.state = .closed then s
  else { s with state := .closed, aborted := true, heartbeatTimer := none }

/-- The top of the loop in `run`, or its end. -/
def attempt (i : ℕ) : State :=
  if s.state ≠ .closed ∧ options.allows s.reconnectAttempt then
    { s with state := if s.reconnectAttempt = 0 then .connecting else .reconnecting }.put i
      (some .opening)
  else (s.put i none).close

/-- What follows a connection. -/
def disconnected (i : ℕ) : State :=
  if s.state = .closed then s.clearHeartbeatTimer.put i none
  else if options.allows (s.reconnectAttempt + 1) then
    { s.clearHeartbeatTimer with reconnectAttempt := s.reconnectAttempt + 1 }.put i (some .sleeping)
  else ({ s.clearHeartbeatTimer with reconnectAttempt := s.reconnectAttempt + 1 }.put i none).close

def missed : State :=
  { s with
    heartbeatTimer := none
    heartbeatMisses := s.heartbeatMisses + 1
    aborted := s.aborted || options.maxHeartbeatMisses ≤ s.heartbeatMisses + 1 }

end State

def step (s : State) : Event → Option State
  | .tick milliseconds =>
      if s.heartbeatTimer.any (· < s.clock + milliseconds) then none
      else some { s with clock := s.clock + milliseconds }
  | .connect =>
      if s.state ∈ [.open, .connecting, .closed] then some s
      else some ({ s with reconnectAttempt := 0, started := s.started + 1 }.attempt options s.started)
  | .fetch i =>
      match s.loops i with
      | some .opening => some (s.put i (some .fetching))
      | _ => none
  | .respond i =>
      match s.loops i with
      | some .fetching => some
          (({ s with state := .open, heartbeatMisses := 0 }.resetHeartbeatTimer options).put i
            (some (.reading s.clock)))
      | _ => none
  | .chunk i =>
      match s.loops i with
      | some (.reading _) => some (s.put i (some (.reading s.clock)))
      | _ => none
  | .hear i =>
      match s.loops i with
      | some (.reading _) => some
          (({ s with heartbeatMisses := 0 }.resetHeartbeatTimer options).put i
            (some (.reading s.clock)))
      | _ => none
  | .disconnect i =>
      match s.loops i with
      | some .opening | some .fetching | some (.reading _) => some (s.disconnected options i)
      | some .sleeping | none => none
  | .miss =>
      if s.heartbeatTimer.any (· ≤ s.clock) then some (s.missed options) else none
  | .wake i =>
      match s.loops i with
      | some .sleeping => some (s.attempt options i)
      | _ => none

def machine : Machine State Event where
  init := ⟨0, .idle, 0, none, 0, false, 0, fun _ => none⟩
  step := step options

/-! ### What should hold -/

def OneLoop (s : State) : Prop := ∀ i j, s.loops i ≠ none → s.loops j ≠ none → i = j

/-- A connection on which nothing has arrived for too long is given up. -/
def Abandons (s : State) : Prop :=
  ∀ i arrivedAt, s.loops i = some (.reading arrivedAt) →
    arrivedAt + options.patience < s.clock → s.aborted = true

/-- A request is sent with a signal that is not aborted. -/
def Alive (s : State) (event : Event) : Prop := ∀ i, event = .fetch i → s.aborted = false

/-! ### When it holds -/

/-- The watchdog sees a silence as soon as its timer fires. -/
def Options.watches : Bool := options.maxHeartbeatMisses = 1 ∧ 0 < options.heartbeatIntervalMs

/-- Nobody connects between attempts, the watchdog aborts nothing but the last attempt, and no
connection is silent for too long, unless one miss is enough for the watchdog. -/
def Careful (s : State) : Event → Prop
  | .connect => s.state ≠ .reconnecting
  | .miss => options.maxHeartbeatMisses ≤ s.heartbeatMisses + 1 →
      options.allows (s.reconnectAttempt + 1) = false
  | .tick milliseconds => options.watches = true ∨ ∀ i < s.started,
      ∀ arrivedAt ∈ (s.loops i).bind Phase.arrivedAt,
        s.clock + milliseconds ≤ arrivedAt + options.patience
  | .fetch _ | .respond _ | .chunk _ | .hear _ | .disconnect _ | .wake _ => True

instance (s : State) : DecidablePred (Careful options s)
  | .connect => inferInstanceAs (Decidable (s.state ≠ .reconnecting))
  | .miss => inferInstanceAs (Decidable (options.maxHeartbeatMisses ≤ s.heartbeatMisses + 1 → _))
  | .tick _ => inferInstanceAs (Decidable (options.watches = true ∨ ∀ i < s.started,
      ∀ arrivedAt ∈ (s.loops i).bind Phase.arrivedAt, _))
  | .fetch _ | .respond _ | .chunk _ | .hear _ | .disconnect _ | .wake _ => .isTrue trivial

/-! ### What careful runs keep -/

/-- There is a timer only while a loop reads, and an abort leaves nothing to be fetched. -/
structure Sound (s : State) : Prop where
  bound : ∀ i, s.started ≤ i → s.loops i = none
  one : OneLoop s
  idle : s.state = .idle → (∀ i, s.loops i = none) ∧ s.heartbeatTimer = none ∧ s.aborted = false
  closed : s.state = .closed → ∀ i, s.loops i = none
  timer : ∀ i phase, s.loops i = some phase → phase.arrivedAt = none → s.heartbeatTimer = none
  dead : s.aborted = true → s.state ≠ .closed →
    options.allows (s.reconnectAttempt + 1) = false ∧
      ∀ i phase, s.loops i = some phase → phase.arrivedAt ≠ none

/-- The times at which something arrived, and what the timer makes of them. -/
structure Watched (s : State) : Prop where
  arrived : ∀ i arrivedAt, s.loops i = some (.reading arrivedAt) → arrivedAt ≤ s.clock
  due : options.watches = true → ∀ i arrivedAt, s.loops i = some (.reading arrivedAt) →
    s.aborted = true ∨ ∃ due ∈ s.heartbeatTimer,
      s.clock ≤ due ∧ due ≤ arrivedAt + options.heartbeatIntervalMs
  silent : options.watches = false → ∀ i arrivedAt, s.loops i = some (.reading arrivedAt) →
    s.clock ≤ arrivedAt + options.patience

section

variable {options}
variable {s s' : State} {event : Event} {i : ℕ} {phase : Phase}

theorem put_same {value : Option Phase} : (s.put i value).loops i = value := Function.update_self ..

theorem put_other {value : Option Phase} {j : ℕ} (other : j ≠ i) :
    (s.put i value).loops j = s.loops j := Function.update_of_ne other ..

theorem put_cases {value : Option Phase} {j : ℕ} {phase : Phase}
    (found : (s.put i value).loops j = some phase) :
    j = i ∧ value = some phase ∨ j ≠ i ∧ s.loops j = some phase := by
  by_cases same : j = i
  · subst same
    exact .inl ⟨rfl, put_same.symm.trans found⟩
  · exact .inr ⟨same, (put_other same).symm.trans found⟩

/-- With one loop, the others are none. -/
theorem Sound.only (sound : Sound options s) (found : s.loops i = some phase) {j : ℕ}
    (other : j ≠ i) : s.loops j = none := by
  by_contra running
  exact other (sound.one j i running (by rw [found]; exact nofun))

theorem Sound.below (sound : Sound options s) (found : s.loops i = some phase) : i < s.started := by
  by_contra beyond
  have none_ := sound.bound i (Nat.le_of_not_lt beyond)
  rw [found] at none_
  cases none_

theorem timeout_le {milliseconds : ℕ} (positive : 0 < milliseconds) :
    timeout milliseconds ≤ milliseconds := by
  unfold timeout
  split
  · exact Nat.le_refl _
  · exact positive

/-- A state with one loop at most. -/
theorem sound_single {t : State} (only : ∀ j ≠ i, t.loops j = none) (below : i < t.started)
    (idle : t.state ≠ .idle) (closed : t.state = .closed → t.loops i = none)
    (timer : ∀ p, t.loops i = some p → p.arrivedAt = none → t.heartbeatTimer = none)
    (dead : t.aborted = true → t.state ≠ .closed →
      options.allows (t.reconnectAttempt + 1) = false ∧
        ∀ p, t.loops i = some p → p.arrivedAt ≠ none) : Sound options t := by
  have here : ∀ j p, t.loops j = some p → j = i := by
    intro j p found
    by_contra other
    cases (only j other).symm.trans found
  refine ⟨?_, ?_, fun is => absurd is idle, ?_, ?_, ?_⟩
  · intro j beyond
    exact only j (Nat.lt_of_lt_of_le below beyond).ne'
  · intro j k running running'
    obtain ⟨p, hp⟩ := Option.ne_none_iff_exists'.mp running
    obtain ⟨q, hq⟩ := Option.ne_none_iff_exists'.mp running'
    exact (here j p hp).trans (here k q hq).symm
  · intro is j
    by_cases same : j = i
    · rw [same]
      exact closed is
    · exact only j same
  · intro j p found quiet
    exact timer p (here j p found ▸ found) quiet
  · intro aborted open_
    obtain ⟨last, reading⟩ := dead aborted open_
    exact ⟨last, fun j p found => reading p (here j p found ▸ found)⟩

theorem Sound.running (sound : Sound options s) (found : s.loops i = some phase) :
    s.state ≠ .idle ∧ s.state ≠ .closed := by
  constructor
  · intro idle
    cases ((sound.idle idle).1 i).symm.trans found
  · intro closed
    cases (sound.closed closed i).symm.trans found

/-- A loop that does not read runs with a signal that is not aborted, and without a timer. -/
theorem Sound.quiet (sound : Sound options s) (found : s.loops i = some phase)
    (quiet : phase.arrivedAt = none) : s.aborted = false ∧ s.heartbeatTimer = none := by
  refine ⟨?_, sound.timer i phase found quiet⟩
  by_contra aborted
  have aborted : s.aborted = true := Bool.eq_true_of_not_eq_false aborted
  exact (sound.dead aborted (sound.running found).2).2 i phase found quiet

theorem sound_closed (closed : s.state = .closed) (none_ : ∀ j, s.loops j = none) :
    Sound options s := by
  refine ⟨fun j _ => none_ j, fun j _ running => absurd (none_ j) running, ?_, fun _ => none_, ?_,
    fun _ open_ => absurd closed open_⟩
  · intro idle
    cases closed.symm.trans idle
  · intro j p found
    cases (none_ j).symm.trans found

theorem close_state : s.close.state = .closed := by
  unfold State.close
  split
  · assumption
  · rfl

theorem close_loops : s.close.loops = s.loops := by
  unfold State.close
  split <;> rfl

/-- The only loop ends. -/
theorem put_none (only : ∀ j ≠ i, s.loops j = none) (j : ℕ) : (s.put i none).loops j = none := by
  by_cases same : j = i
  · rw [same]
    exact put_same
  · exact (put_other same).trans (only j same)

/-- The top of the loop, for the only loop. -/
theorem sound_attempt (only : ∀ j ≠ i, s.loops j = none) (below : i < s.started)
    (alive : s.aborted = false) (timer : s.heartbeatTimer = none) :
    Sound options (s.attempt options i) := by
  unfold State.attempt
  split
  · have notIdle : (if s.reconnectAttempt = 0 then StreamState.connecting else .reconnecting) ≠
        .idle := by
      split <;> exact nofun
    have notClosed : (if s.reconnectAttempt = 0 then StreamState.connecting else .reconnecting) ≠
        .closed := by
      split <;> exact nofun
    refine @sound_single _ i _ ?_ below notIdle (absurd · notClosed) (fun _ _ _ => timer) ?_
    · exact fun j other => (put_other other).trans (only j other)
    · intro aborted
      cases alive.symm.trans aborted
  · refine sound_closed close_state fun j => ?_
    rw [close_loops]
    exact put_none only j

/-- What follows the connection of the only loop. -/
theorem Sound.disconnected (sound : Sound options s) (found : s.loops i = some phase) :
    Sound options (s.disconnected options i) := by
  obtain ⟨notIdle, notClosed⟩ := sound.running found
  have only : ∀ j ≠ i, s.loops j = none := fun j other => sound.only found other
  unfold State.disconnected
  rw [if_neg notClosed]
  split
  · next allowed =>
      refine @sound_single _ i _ ?_ (sound.below found) notIdle (absurd · notClosed)
        (fun _ _ _ => rfl) ?_
      · exact fun j other => (put_other other).trans (only j other)
      · intro aborted open_
        cases allowed.symm.trans (sound.dead aborted open_).1
  · refine sound_closed close_state fun j => ?_
    rw [close_loops]
    exact put_none only j

/-- The only loop moves on with its connection. -/
theorem Sound.moves {t : State} (sound : Sound options s) (found : s.loops i = some phase)
    (loops : ∀ j ≠ i, t.loops j = s.loops j) (started : t.started = s.started)
    (state : t.state = s.state ∨ t.state = .open)
    (attempt : t.reconnectAttempt = s.reconnectAttempt) (aborted : t.aborted = s.aborted)
    (next : ∀ p, t.loops i = some p → p.arrivedAt ≠ none ∨ t.heartbeatTimer = none ∧
      s.aborted = false) : Sound options t := by
  obtain ⟨notIdle, notClosed⟩ := sound.running found
  have open_ : t.state ≠ .idle ∧ t.state ≠ .closed := by
    rcases state with same | same
    · rw [same]
      exact ⟨notIdle, notClosed⟩
    · rw [same]
      exact ⟨nofun, nofun⟩
  refine @sound_single _ i _ ?_ (started ▸ sound.below found) open_.1 (absurd · open_.2) ?_ ?_
  · exact fun j other => (loops j other).trans (sound.only found other)
  · intro p found' quiet
    exact ((next p found').resolve_left (absurd quiet)).1
  · intro dead _
    rw [attempt]
    refine ⟨(sound.dead (aborted ▸ dead) notClosed).1, fun p found' => ?_⟩
    rcases next p found' with reads | ⟨-, alive⟩
    · exact reads
    · cases alive.symm.trans (aborted.symm.trans dead)

/-- A loop is started at first only. -/
theorem Careful.idle (careful : Careful options s .connect)
    (fresh : s.state ∉ [.open, .connecting, .closed]) : s.state = .idle := by
  cases is : s.state with
  | idle => rfl
  | reconnecting => exact absurd is careful
  | connecting | «open» | closed => exact absurd (by rw [is]; decide) fresh

theorem Sound.step (sound : Sound options s) (ok : step options s event = some s')
    (careful : Careful options s event) : Sound options s' := by
  cases event with
  | tick milliseconds =>
      simp only [ConnectionLoop.step] at ok
      split at ok <;> cases ok
      exact ⟨sound.bound, sound.one, sound.idle, sound.closed, sound.timer, sound.dead⟩
  | connect =>
      simp only [ConnectionLoop.step] at ok
      split at ok
      · cases ok
        exact sound
      · next fresh =>
          have idle : s.state = .idle := Careful.idle careful fresh
          obtain ⟨none_, timer, alive⟩ := sound.idle idle
          cases ok
          exact sound_attempt (fun j _ => none_ j) (Nat.lt_succ_self _) alive timer
  | fetch i =>
      simp only [ConnectionLoop.step] at ok
      split at ok <;> cases ok
      next found =>
        obtain ⟨alive, timer⟩ := sound.quiet found rfl
        exact sound.moves found (fun j other => put_other other) rfl (.inl rfl) rfl rfl
          fun _ _ => .inr ⟨timer, alive⟩
  | respond i =>
      simp only [ConnectionLoop.step] at ok
      split at ok <;> cases ok
      next found =>
        refine sound.moves found (fun j other => put_other other) rfl (.inr rfl) rfl rfl ?_
        intro p now
        cases put_same.symm.trans now
        exact .inl nofun
  | chunk i =>
      simp only [ConnectionLoop.step] at ok
      split at ok <;> cases ok
      next found =>
        refine sound.moves found (fun j other => put_other other) rfl (.inl rfl) rfl rfl ?_
        intro p now
        cases put_same.symm.trans now
        exact .inl nofun
  | hear i =>
      simp only [ConnectionLoop.step] at ok
      split at ok <;> cases ok
      next found =>
        refine sound.moves found (fun j other => put_other other) rfl (.inl rfl) rfl rfl ?_
        intro p now
        cases put_same.symm.trans now
        exact .inl nofun
  | disconnect i =>
      simp only [ConnectionLoop.step] at ok
      split at ok <;> cases ok <;> exact sound.disconnected (by assumption)
  | miss =>
      simp only [ConnectionLoop.step] at ok
      split at ok <;> cases ok
      next fires =>
        have reads : ∀ i phase, s.loops i = some phase → phase.arrivedAt ≠ none := by
          intro i phase found quiet
          rw [sound.timer i phase found quiet] at fires
          cases fires
        refine ⟨sound.bound, sound.one, ?_, sound.closed, fun _ _ _ _ => rfl, ?_⟩
        · intro idle
          rw [(sound.idle idle).2.1] at fires
          cases fires
        · intro aborted open_
          refine ⟨?_, reads⟩
          rcases Bool.or_eq_true_iff.mp aborted with before | stall
          · exact (sound.dead before open_).1
          · exact careful (of_decide_eq_true stall)
  | wake i =>
      simp only [ConnectionLoop.step] at ok
      split at ok <;> cases ok
      next found =>
        obtain ⟨alive, timer⟩ := sound.quiet found rfl
        exact sound_attempt (fun j other => sound.only found other) (sound.below found) alive timer

/-! ### Silence -/

theorem watched_of_quiet (quiet : ∀ i phase, s.loops i = some phase → phase.arrivedAt = none) :
    Watched options s := by
  have never : ∀ {i a}, s.loops i ≠ some (.reading a) := fun found => nomatch quiet _ _ found
  exact ⟨fun _ _ found => absurd found never, fun _ _ _ found => absurd found never,
    fun _ _ _ found => absurd found never⟩

/-- Something arrives at the only loop. -/
theorem watched_reading {t : State} (only : ∀ j ≠ i, t.loops j = none)
    (here : t.loops i = some (.reading t.clock))
    (due : options.watches = true → t.aborted = true ∨ ∃ due ∈ t.heartbeatTimer,
      t.clock ≤ due ∧ due ≤ t.clock + options.heartbeatIntervalMs) : Watched options t := by
  have now : ∀ j a, t.loops j = some (.reading a) → a = t.clock := by
    intro j a found
    by_cases same : j = i
    · rw [same, here] at found
      cases found
      rfl
    · cases (only j same).symm.trans found
  refine ⟨fun j a found => (now j a found).le, ?_, ?_⟩
  · intro watches j a found
    rw [now j a found]
    exact due watches
  · intro _ j a found
    rw [now j a found]
    exact Nat.le_add_right _ _

theorem due_of_reset (watches : options.watches = true) :
    ∃ due ∈ (s.resetHeartbeatTimer options).heartbeatTimer,
      s.clock ≤ due ∧ due ≤ s.clock + options.heartbeatIntervalMs := by
  have positive : 0 < options.heartbeatIntervalMs := (of_decide_eq_true watches).2
  refine ⟨s.clock + timeout options.heartbeatIntervalMs, if_neg positive.ne', ?_, ?_⟩
  · exact Nat.le_add_right _ _
  · exact Nat.add_le_add_left (timeout_le positive) _

theorem attempt_quiet (only : ∀ j ≠ i, s.loops j = none) {j : ℕ}
    (found : (s.attempt options i).loops j = some phase) : phase.arrivedAt = none := by
  unfold State.attempt at found
  split at found
  · rcases put_cases found with ⟨-, same⟩ | ⟨other, before⟩
    · cases same
      rfl
    · cases (only j other).symm.trans before
  · rw [close_loops] at found
    cases (put_none only j).symm.trans found

theorem disconnected_quiet (only : ∀ j ≠ i, s.loops j = none) {j : ℕ}
    (found : (s.disconnected options i).loops j = some phase) : phase.arrivedAt = none := by
  have ended : ∀ {t : State}, t.loops = s.loops → (t.put i none).loops j ≠ some phase := by
    intro t same found
    cases (put_none (fun j other => same ▸ only j other) j).symm.trans found
  unfold State.disconnected at found
  split at found
  · exact absurd found (ended rfl)
  · split at found
    · rcases put_cases found with ⟨-, same⟩ | ⟨other, before⟩
      · cases same
        rfl
      · cases (only j other).symm.trans before
    · rw [close_loops] at found
      exact absurd found (ended rfl)

theorem Watched.step (watched : Watched options s) (sound : Sound options s)
    (sound' : Sound options s') (ok : step options s event = some s')
    (careful : Careful options s event) : Watched options s' := by
  cases event with
  | tick milliseconds =>
      simp only [ConnectionLoop.step] at ok
      split at ok <;> cases ok
      next early =>
        refine ⟨fun i a found => (watched.arrived i a found).trans (Nat.le_add_right _ _), ?_, ?_⟩
        · intro watches i a found
          refine (watched.due watches i a found).imp_right ?_
          rintro ⟨due, set_, -, near⟩
          refine ⟨due, set_, ?_, near⟩
          by_contra late
          refine early ?_
          rw [Option.mem_def.mp set_, Option.any_some]
          exact decide_eq_true (Nat.lt_of_not_le late)
        · intro blind i a found
          rcases careful with watches | short
          · cases blind.symm.trans watches
          · exact short i (sound.below found) a (by rw [show s.loops i = _ from found]; rfl)
  | connect =>
      simp only [ConnectionLoop.step] at ok
      split at ok <;> cases ok
      · exact watched
      · next fresh =>
          have idle : s.state = .idle := Careful.idle careful fresh
          refine watched_of_quiet fun j phase found => ?_
          refine attempt_quiet (fun k _ => ?_) found
          exact (sound.idle idle).1 k
  | fetch i =>
      simp only [ConnectionLoop.step] at ok
      split at ok <;> cases ok
      next found =>
        refine watched_of_quiet fun j phase now => ?_
        rcases put_cases now with ⟨-, same⟩ | ⟨other, before⟩
        · cases same
          rfl
        · cases (sound.only found other).symm.trans before
  | respond i =>
      simp only [ConnectionLoop.step] at ok
      split at ok <;> cases ok
      next found =>
        refine @watched_reading _ i _ ?_ put_same fun watches => .inr (due_of_reset watches)
        exact fun j other => (put_other other).trans (sound.only found other)
  | chunk i =>
      simp only [ConnectionLoop.step] at ok
      split at ok <;> cases ok
      next a found =>
        refine @watched_reading _ i _ ?_ put_same fun watches => ?_
        · exact fun j other => (put_other other).trans (sound.only found other)
        · refine (watched.due watches i a found).imp_right ?_
          rintro ⟨due, set_, later, near⟩
          exact ⟨due, set_, later, near.trans (Nat.add_le_add_right (watched.arrived i a found) _)⟩
  | hear i =>
      simp only [ConnectionLoop.step] at ok
      split at ok <;> cases ok
      next found =>
        refine @watched_reading _ i _ ?_ put_same fun watches => .inr (due_of_reset watches)
        exact fun j other => (put_other other).trans (sound.only found other)
  | disconnect i =>
      simp only [ConnectionLoop.step] at ok
      split at ok <;> cases ok <;> rename_i found <;>
        exact watched_of_quiet fun j phase now =>
          disconnected_quiet (fun j other => sound.only found other) now
  | miss =>
      simp only [ConnectionLoop.step] at ok
      split at ok <;> cases ok
      refine ⟨watched.arrived, fun watches i a found => .inl ?_, watched.silent⟩
      have one : options.maxHeartbeatMisses = 1 := (of_decide_eq_true watches).1
      refine Bool.or_eq_true_iff.mpr (.inr (decide_eq_true ?_))
      rw [one]
      exact Nat.le_add_left 1 _
  | wake i =>
      simp only [ConnectionLoop.step] at ok
      split at ok <;> cases ok
      next found =>
        exact watched_of_quiet fun j phase now =>
          attempt_quiet (fun j other => sound.only found other) now

theorem Watched.abandons (watched : Watched options s) : Abandons options s := by
  intro i a found late
  cases watches : options.watches with
  | true =>
      refine (watched.due watches i a found).resolve_right ?_
      rintro ⟨due, -, later, near⟩
      have one : options.maxHeartbeatMisses = 1 := (of_decide_eq_true watches).1
      rw [Options.patience, one, Nat.one_mul] at late
      exact absurd (later.trans near) (Nat.not_le_of_lt late)
  | false => exact absurd (watched.silent watches i a found) (Nat.not_le_of_lt late)

theorem Sound.alive (sound : Sound options s)
    (ok : ConnectionLoop.step options s event = some s') : Alive s event := by
  rintro i rfl
  simp only [ConnectionLoop.step] at ok
  split at ok
  · next found => exact (sound.quiet found rfl).1
  · cases ok

/-! ### What holds of the stream, and when -/

/-- In every run in which nobody connects between attempts, the watchdog aborts nothing but the
last attempt, and no connection is silent for longer than the watchdog can see: there is one loop
at most, a silent connection is given up, and no request is sent with an aborted signal. -/
theorem one_live_connection {h : List (Transition State Event)} (run : Run (machine options) h s)
    (careful : ∀ r ∈ h, Careful options r.pre r.event) :
    OneLoop s ∧ Abandons options s ∧ ∀ r ∈ h, Alive r.pre r.event := by
  have start : Sound options (machine options).init :=
    ⟨fun _ _ => rfl, fun _ _ running => absurd rfl running, fun _ => ⟨fun _ => rfl, rfl, rfl⟩,
      nofun, nofun, nofun⟩
  have kept : Sound options s ∧ Watched options s ∧ ∀ r ∈ h, Alive r.pre r.event := by
    refine run.history (C := fun r => Careful options r.pre r.event)
      (I := fun h s => Sound options s ∧ Watched options s ∧ ∀ r ∈ h, Alive r.pre r.event) careful
      ⟨start, watched_of_quiet nofun, List.forall_mem_nil _⟩ ?_
    rintro h s event s' ⟨sound, watched, alive⟩ ok careful
    have sound' := sound.step ok careful
    exact ⟨sound', watched.step sound sound' ok careful,
      List.forall_mem_cons.mpr ⟨sound.alive ok, alive⟩⟩
  exact ⟨kept.1.one, kept.2.1.abandons, kept.2.2⟩

end

/-! ### Three ways to go wrong -/

/-- Ten attempts and half a minute, as the defaults have it. -/
def exampleOptions (maxHeartbeatMisses : ℕ) : Options := ⟨some 10, maxHeartbeatMisses, 30000⟩

def played (maxHeartbeatMisses : ℕ) (events : List Event) : List (Transition State Event) × State :=
  (machine (exampleOptions maxHeartbeatMisses)).play events
    ([], (machine (exampleOptions maxHeartbeatMisses)).init)

def opened : List Event := [.connect, .fetch 0, .respond 0]

/-- A miss, a comment in time, the end of the response and another attempt. -/
def reopened : List Event :=
  opened ++ [.tick 30000, .miss, .tick 50000, .hear 0, .disconnect 0, .tick 1000, .wake 0, .fetch 0]

theorem one_live_connection_reopened :
    (played 3 reopened).2.reconnectAttempt = 1 ∧ OneLoop (played 3 reopened).2 ∧
      ∀ r ∈ (played 3 reopened).1, Alive r.pre r.event := by
  have run := Machine.play_run (machine (exampleOptions 3)) reopened
  obtain ⟨one, -, alive⟩ := one_live_connection run (by decide)
  exact ⟨by decide, one, alive⟩

/-- A call of `connect` during the second attempt. -/
def connectedTwice : List Event :=
  [.connect, .fetch 0, .disconnect 0, .tick 1000, .wake 0, .connect]

/-- A minute and a half of silence, three misses long. -/
def silent : List Event := opened ++ [.tick 30000, .miss, .tick 60001]

/-- A stall at the first miss. -/
def stalled : List Event := opened ++ [.tick 30000, .miss, .disconnect 0, .wake 0, .fetch 0]

/-- Two loops run; a silent connection is kept; and after a stall a request is sent with the signal
that was aborted. -/
theorem loops_silence_stall :
    (Reachable (machine (exampleOptions 3)) (played 3 connectedTwice).2 ∧
      ¬ OneLoop (played 3 connectedTwice).2) ∧
    (Reachable (machine (exampleOptions 3)) (played 3 silent).2 ∧
      ¬ Abandons (exampleOptions 3) (played 3 silent).2) ∧
    Reachable (machine (exampleOptions 1)) (played 1 stalled).2 ∧
      ¬ ∀ r ∈ (played 1 stalled).1, Alive r.pre r.event := by
  refine ⟨⟨⟨_, Machine.play_run _ _⟩, fun one => ?_⟩,
    ⟨⟨_, Machine.play_run _ _⟩, fun abandons => ?_⟩, ⟨_, Machine.play_run _ _⟩, fun alive => ?_⟩
  · exact absurd (one 0 1 (by decide) (by decide)) (by decide)
  · exact absurd (abandons 0 0 (by decide) (by decide)) (by decide)
  · have sent : ∃ r ∈ (played 1 stalled).1, r.event = .fetch 0 ∧ r.pre.aborted = true := by
      decide
    obtain ⟨r, mem, is, aborted⟩ := sent
    cases aborted.symm.trans (alive r mem 0 is)

end Talos.Sdk.ConnectionLoop
