import Talos.Provisioning.Resumable
import Talos.Saga

/-!
# A call's next step

`Turn` is what an event makes of the call it is about and of the call's row, event by
event. `action` reads the transitions of one run as the actions of a saga.
-/

namespace Talos.Provisioning

open Database Soroban

variable {config : ProvisioningConfig} {s s' : State} {e : Event} {k : JobId}

/-- Call `inv` and its row after event `e` at time `now`. -/
inductive Turn (config : ProvisioningConfig) (now : Int) (row : JobRow) (inv : Invocation) :
    Event → Invocation → JobRow → Prop where
  | renewed (c : CallId) (time : Int) (i : Nat) (phase : inv.phase = .renewing i)
      (held : inv.holds row = true) :
      Turn config now row inv (.renewLease c time)
        { inv with steps := inv.steps.modify i (·.started now), phase := .starting i }
        (row.renewed config time)
  | lost (c : CallId) (time : Int) (i : Nat) (phase : inv.phase = .renewing i) :
      Turn config now row inv (.renewLease c time) { inv with phase := .ended } row
  | persisted (c : CallId) (status : ProvisioningJobStatus)
      (writes : inv.phase.writes = some status) :
      Turn config now row inv (.persist c) (inv.saved status) (inv.patch status now row)
  | unrecorded (c : CallId) (message : String) (i : Nat) (phase : inv.phase = .recording i) :
      Turn config now row inv (.persistFails c message) (inv.caught config i message) row
  | executed (c : CallId) (output : String) (i : Nat) (phase : inv.phase = .executing i) :
      Turn config now row inv (.execute c (.ok output))
        { inv with steps := inv.steps.modify i (·.done output now), phase := .recording i } row
  | threw (c : CallId) (message : String) (i : Nat) (phase : inv.phase = .executing i) :
      Turn config now row inv (.execute c (.error message)) (inv.caught config i message) row
  | announced (c : CallId) (i : Nat) (phase : inv.phase = .announcing i) :
      Turn config now row inv (.announce c none)
        { inv with phase := nextStep inv.workflow inv.steps (i + 1) } row
  | unannounced (c : CallId) (message : String) (i : Nat) (phase : inv.phase = .announcing i) :
      Turn config now row inv (.announce c (some message)) (inv.caught config i message) row
  | compensated (c : CallId) (error : Option String) (i j : Nat)
      (phase : inv.phase = .compensating i j) :
      Turn config now row inv (.compensate c error)
        { inv with steps := inv.steps.modify j (·.unwound error), phase := .unwinding i j } row
  | stopped (c : CallId) : Turn config now row inv (.stop c) { inv with phase := .ended } row

/-- The rows after an event about call `inv`, which becomes `inv'`. -/
def Turns (config : ProvisioningConfig) (s : State) (e : Event) (inv inv' : Invocation)
    (s' : State) : Prop :=
  ∀ k row, s.rows.find k = some row →
    ∃ row', s'.rows.find k = some row' ∧
      if inv.jobId = k then Turn config s.clock row inv e inv' row' else row' = row

theorem turns_still {inv inv' : Invocation} (rows : s'.rows = s.rows)
    (turn : ∀ row, Turn config s.clock row inv e inv' row) : Turns config s e inv inv' s' := by
  intro k row found
  refine ⟨row, rows ▸ found, ?_⟩
  split
  · exact turn row
  · rfl

/-- An UPDATE that picks at most the row of the call. -/
theorem turns_update {inv inv' : Invocation} {p : JobRow → Bool} {f : JobRow → JobRow}
    (keeps : ∀ r, (f r).id = r.id) (rows : s'.rows = s.rows.update p f keeps)
    (own : ∀ row, p row = true → row.id = inv.jobId)
    (turn : ∀ row, s.rows.find inv.jobId = some row →
      Turn config s.clock row inv e inv' (if p row then f row else row)) :
    Turns config s e inv inv' s' := by
  intro k row found
  refine ⟨if p row then f row else row, by rw [rows, Rows.find_update, found]; rfl, ?_⟩
  split
  · next same =>
      subst same
      exact turn row found
  · next other =>
      refine if_neg fun hit => other ?_
      exact (own row hit).symm.trans (Rows.key_of_find found)

/-- An event about a call moves this call and touches no other row than its own. -/
theorem step_turn {c : CallId} (ok : step config s e = some s') (about : e.call = some c) :
    ∃ inv inv', s.calls[c]? = some inv ∧ s'.calls = s.calls.set c inv' ∧
      inv'.jobId = inv.jobId ∧ Turns config s e inv inv' s' := by
  cases e with
  | advance | submitSelect | submitInsert | submitSteps | acquireLease | runProvisioningJob =>
      cases about
  | renewLease _ time =>
      cases about
      simp only [step] at ok
      split at ok
      · next inv call =>
          split at ok
          · next i phase =>
              split at ok
              · cases ok
                unfold renew
                split
                · next held =>
                    refine ⟨inv, _, call, rfl, rfl,
                      turns_update (fun row => row.renewed_id ..) rfl ?_ ?_⟩
                    · exact fun row hit => (of_decide_eq_true hit).1
                    · intro row stored
                      rw [stored, Option.any_some] at held
                      rw [if_pos held]
                      exact .renewed c time i phase held
                · exact ⟨inv, _, call, rfl, rfl, turns_still rfl fun row => .lost c time i phase⟩
              · cases ok
          · cases ok
      · cases ok
  | persist =>
      cases about
      simp only [step] at ok
      split at ok
      · next inv call =>
          split at ok
          · next status writes =>
              cases ok
              refine ⟨inv, inv.saved status, call, rfl, rfl,
                turns_update (fun _ => (inv.patch_row ..).1) rfl ?_ ?_⟩
              · exact fun row hit => of_decide_eq_true hit
              · intro row stored
                rw [if_pos (decide_eq_true (Rows.key_of_find stored))]
                exact .persisted c status writes
          · cases ok
      · cases ok
  | persistFails _ message =>
      cases about
      simp only [step] at ok
      split at ok
      · next inv call =>
          split at ok
          · next i phase =>
              cases ok
              exact ⟨inv, _, call, rfl, rfl, turns_still rfl fun _ => .unrecorded c message i phase⟩
          · cases ok
      · cases ok
  | execute _ outcome =>
      cases about
      simp only [step] at ok
      split at ok
      · next inv call =>
          split at ok
          · next i output phase =>
              cases ok
              exact ⟨inv, _, call, rfl, rfl, turns_still rfl fun _ => .executed c output i phase⟩
          · next i message phase =>
              cases ok
              exact ⟨inv, _, call, rfl, rfl, turns_still rfl fun _ => .threw c message i phase⟩
          · cases ok
      · cases ok
  | announce _ error =>
      cases about
      simp only [step] at ok
      split at ok
      · next inv call =>
          split at ok
          · next i phase =>
              cases ok
              exact ⟨inv, _, call, rfl, rfl, turns_still rfl fun _ => .announced c i phase⟩
          · next i message phase =>
              cases ok
              exact ⟨inv, _, call, rfl, rfl,
                turns_still rfl fun _ => .unannounced c message i phase⟩
          · cases ok
      · cases ok
  | compensate _ error =>
      cases about
      simp only [step] at ok
      split at ok
      · next inv call =>
          split at ok
          · next i j phase =>
              cases ok
              exact ⟨inv, _, call, rfl, rfl,
                turns_still rfl fun _ => .compensated c error i j phase⟩
          · cases ok
      · cases ok
  | stop =>
      cases about
      simp only [step] at ok
      split at ok
      · next inv call =>
          cases ok
          exact ⟨inv, _, call, rfl, rfl, turns_still rfl fun _ => .stopped c⟩
      · cases ok

/-! ### A run as a saga -/

/-- The action of a call in a phase. -/
def Phase.action : Phase → Event → Option (Saga.Action (Option String))
  | .executing i, .execute _ _ => some (.attempt i)
  | .announcing i, .announce _ none => some (.complete i)
  | .failing i true, .persist _ => some (.fail i)
  | .compensating _ j, .compensate _ error => some (.undo j error)
  | .settling _, .persist _ => some .settle
  | _, _ => none

/-- The call that an event is about. -/
def caller (t : Step) : Option Invocation := t.event.call.bind (t.pre.calls[·]?)

/-- The action of run `k` in a step of the machine. -/
def action (k : JobId) (t : Step) : Option (Saga.Action (Option String)) :=
  (caller t).bind fun inv => if inv.jobId = k then inv.phase.action t.event else none

/-- What was done for run `k`, newest first. -/
def log (k : JobId) (h : List Step) : List (Saga.Action (Option String)) := h.filterMap (action k)

/-- The compensations that were called for run `k` with their errors, oldest first. -/
def compensations (k : JobId) (h : List Step) : List (Nat × Option String) :=
  (Saga.undone (log k h)).reverse

/-- No call of run `k` is under way. -/
def Quiet (k : JobId) (s : State) : Prop := ∀ inv ∈ s.calls, inv.jobId = k → inv.phase = .ended

instance (k : JobId) (s : State) : Decidable (Quiet k s) :=
  inferInstanceAs (Decidable (∀ _ ∈ _, _ → _))

/-- The run of a call that crashes. -/
def crashed (t : Step) : Option JobId :=
  match t.event with
  | .stop _ => (caller t).map Invocation.jobId
  | _ => none

/-- One worker is at work on run `k`, without crashes: the run is loaded when no call of it
is under way, and a submission fills in its steps before the first. -/
structure Solo (k : JobId) (t : Step) : Prop where
  survives : crashed t ≠ some k
  loads : loaded t = some k → Quiet k t.pre
  submits : submitted t = some k → Quiet k t.pre ∧ ∀ row ∈ t.pre.rows.find k, row.steps = []

instance (k : JobId) (t : Step) : Decidable (Solo k t) :=
  decidable_of_iff
    (crashed t ≠ some k ∧ (loaded t = some k → Quiet k t.pre) ∧
      (submitted t = some k → Quiet k t.pre ∧ ∀ row ∈ t.pre.rows.find k, row.steps = []))
    ⟨fun ⟨survives, loads, submits⟩ => ⟨survives, loads, submits⟩,
      fun ⟨survives, loads, submits⟩ => ⟨survives, loads, submits⟩⟩

end Talos.Provisioning
