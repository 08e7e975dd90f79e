import Talos.Database.Machine
import Mathlib.Data.List.Range
import Mathlib.Logic.Function.Basic

/-!
# The log of lifecycle events

`emitLifecycleEvent` (`web/src/lib/governance/events.ts`) numbers the events of a Talos with one
statement that reads the greatest number and one that inserts the next. Nothing keeps two calls from
reading the same number; what does is the unique index that the slower of them runs into. The
machine interleaves any number of calls, statement by statement; a statement may also fail, and then
it has no effect.
-/

namespace Talos.LifecycleEvents

open Talos.Database

/-! ### Events -/

inductive AgentLifecycleState where
  | proposed
  | provisioning
  | active
  | paused
  | retiring
  | retired
  | recoveryPending
  | failed
deriving DecidableEq, Repr

inductive GovernanceRole where
  | creator
  | operator
  | governance
  | system
deriving DecidableEq, Repr

inductive LifecycleEventName where
  | proposed
  | provisioningStarted
  | stepCompleted
  | stepFailed
  | compensationStarted
  | compensationCompleted
  | activated
  | paused
  | retiring
  | retired
  | recoveryRequested
  | failed
deriving DecidableEq, Repr

variable {δ : Type}

structure LifecycleEventInput (δ : Type) where
  talosId : String
  eventType : LifecycleEventName
  fromState : Option AgentLifecycleState
  toState : AgentLifecycleState
  actorId : String
  actorRole : GovernanceRole
  jobId : Option String
  stepName : Option String
  detail : Option δ
  idempotencyKey : Option String

/-- The key to look up: an empty one is as good as none. -/
def LifecycleEventInput.lookupKey (input : LifecycleEventInput δ) : Option String :=
  input.idempotencyKey.filter (· ≠ "")

/-- A row of `tls_lifecycle_events`. -/
structure LifecycleEvent (δ : Type) where
  id : String
  talosId : String
  sequence : Nat
  eventType : LifecycleEventName
  fromState : Option AgentLifecycleState
  toState : AgentLifecycleState
  actorId : String
  actorRole : GovernanceRole
  jobId : Option String
  stepName : Option String
  detail : δ
  idempotencyKey : Option String

/-- The values of the insert. -/
def eventRow (sanitizeDetail : Option δ → δ) (input : LifecycleEventInput δ) (id : String)
    (sequence : Nat) : LifecycleEvent δ where
  id := id
  talosId := input.talosId
  sequence := sequence
  eventType := input.eventType
  fromState := input.fromState
  toState := input.toState
  actorId := input.actorId
  actorRole := input.actorRole
  jobId := input.jobId
  stepName := input.stepName
  detail := sanitizeDetail input.detail
  idempotencyKey := input.idempotencyKey

/-! ### Statements -/

/-- The greatest `integer` of the database. -/
def maxInteger : Nat := 2147483647

/-- The events of a Talos, in the order of their inserts. -/
def eventsOf (rows : List (LifecycleEvent δ)) (talosId : String) : List (LifecycleEvent δ) :=
  rows.filter fun row => row.talosId == talosId

/-- The select by key. -/
def byKey (rows : List (LifecycleEvent δ)) (input : LifecycleEventInput δ) :
    Option (LifecycleEvent δ) :=
  input.lookupKey.bind fun key => (eventsOf rows input.talosId).find? fun row =>
    row.idempotencyKey == some key

/-- `ORDER BY sequence DESC LIMIT 1`, or `0`. -/
def tipOf (rows : List (LifecycleEvent δ)) (talosId : String) : Nat :=
  ((eventsOf rows talosId).map (·.sequence)).foldr max 0

/-- The row has the same key: null is like nothing. -/
def SameKey (row row' : LifecycleEvent δ) : Prop :=
  row.idempotencyKey ≠ none ∧ row.idempotencyKey = row'.idempotencyKey

instance (row row' : LifecycleEvent δ) : Decidable (SameKey row row') :=
  inferInstanceAs (Decidable (_ ∧ _))

/-- The number is an `integer`, and no unique index is violated. -/
def Accepts (rows : List (LifecycleEvent δ)) (row : LifecycleEvent δ) : Prop :=
  row.sequence ≤ maxInteger ∧ ∀ other ∈ rows, other.id ≠ row.id ∧
    (other.talosId = row.talosId → other.sequence ≠ row.sequence ∧ ¬ SameKey other row)

instance (rows : List (LifecycleEvent δ)) (row : LifecycleEvent δ) :
    Decidable (Accepts rows row) :=
  inferInstanceAs (Decidable (_ ∧ _))

/-! ### Calls -/

def maxSequenceAttempts : Nat := 5

/-- What a call does next, or how it has ended. -/
inductive Phase where
  | lookup
  | tip (attempt : Nat)
  | insert (attempt tip : Nat)
  | winner (attempt : Nat)
  | returned (id : String) (sequence : Nat) (deduped : Bool)
  | threw
deriving DecidableEq, Repr

structure Call (δ : Type) where
  input : LifecycleEventInput δ
  phase : Phase

def Call.first (input : LifecycleEventInput δ) : Call δ :=
  ⟨input, if input.lookupKey.isSome then .lookup else .tip 0⟩

/-- The row that was found is returned. -/
def Phase.orReturn (otherwise : Phase) : Option (LifecycleEvent δ) → Phase
  | some row => .returned row.id row.sequence true
  | none => otherwise

/-- The end of an attempt. -/
def Phase.again (attempt : Nat) : Phase :=
  if attempt + 1 < maxSequenceAttempts then .tip (attempt + 1) else .threw

/-- The insert was caught. -/
def Phase.caught (input : LifecycleEventInput δ) (attempt : Nat) : Phase :=
  if input.lookupKey.isSome then .winner attempt else .again attempt

structure Log (δ : Type) where
  rows : List (LifecycleEvent δ)
  calls : Nat → Option (Call δ)

def Log.set (log : Log δ) (i : Nat) (call : Call δ) : Log δ :=
  { log with calls := Function.update log.calls i (some call) }

@[simp] theorem Log.set_calls_self (log : Log δ) (i : Nat) (call : Call δ) :
    (log.set i call).calls i = some call :=
  Function.update_self ..

theorem Log.set_calls_of_ne (log : Log δ) {i j : Nat} (call : Call δ) (ne : j ≠ i) :
    (log.set i call).calls j = log.calls j :=
  Function.update_of_ne ne ..

inductive Event (δ : Type) where
  | start (i : Nat) (input : LifecycleEventInput δ)
  | select (i : Nat)
  | insert (i : Nat) (id : String)
  /-- The next statement of the call fails. -/
  | fail (i : Nat)

def Event.caller : Event δ → Nat
  | .start i _ | .select i | .insert i _ | .fail i => i

def step (sanitizeDetail : Option δ → δ) (log : Log δ) : Event δ → Option (Log δ)
  | .start i input =>
      if (log.calls i).isSome then none else some (log.set i (.first input))
  | .select i =>
      match log.calls i with
      | some ⟨input, .lookup⟩ =>
          some (log.set i ⟨input, (Phase.tip 0).orReturn (byKey log.rows input)⟩)
      | some ⟨input, .tip attempt⟩ =>
          some (log.set i ⟨input, .insert attempt (tipOf log.rows input.talosId)⟩)
      | some ⟨input, .winner attempt⟩ =>
          some (log.set i ⟨input, (Phase.again attempt).orReturn (byKey log.rows input)⟩)
      | _ => none
  | .insert i id =>
      match log.calls i with
      | some ⟨input, .insert attempt tip⟩ =>
          let row := eventRow sanitizeDetail input id (tip + 1)
          if Accepts log.rows row then
            some { log.set i ⟨input, .returned id (tip + 1) false⟩ with rows := log.rows ++ [row] }
          else some (log.set i ⟨input, .caught input attempt⟩)
      | _ => none
  | .fail i =>
      match log.calls i with
      | some ⟨input, .insert attempt _⟩ => some (log.set i ⟨input, .caught input attempt⟩)
      | some ⟨input, .lookup⟩ | some ⟨input, .tip _⟩ | some ⟨input, .winner _⟩ =>
          some (log.set i ⟨input, .threw⟩)
      | _ => none

def machine (sanitizeDetail : Option δ → δ) : Machine (Log δ) (Event δ) where
  init := ⟨[], fun _ => none⟩
  step := step sanitizeDetail

/-! ### What a step does -/

/-- The next statement of the call is still to come. -/
def Phase.Running : Phase → Prop
  | .lookup | .tip _ | .insert .. | .winner _ => True
  | .returned .. | .threw => False

/-- The call has neither read the tip nor found a row. -/
def Phase.Quiet : Phase → Prop
  | .lookup | .tip _ | .winner _ | .threw => True
  | .insert .. | .returned .. => False

variable {sanitizeDetail : Option δ → δ} {log log' : Log δ} {e : Event δ} {i : Nat}
  {input : LifecycleEventInput δ} {rows : List (LifecycleEvent δ)} {row : LifecycleEvent δ}

/-- The call has not ended, or not begun. -/
def Pending (log : Log δ) (i : Nat) (input : LifecycleEventInput δ) : Prop :=
  log.calls i = none ∨ ∃ phase : Phase, log.calls i = some ⟨input, phase⟩ ∧ phase.Running

inductive Effect (sanitizeDetail : Option δ → δ) (log : Log δ) (i : Nat) : Log δ → Prop where
  | quiet (input : LifecycleEventInput δ) (phase : Phase) (pending : Pending log i input)
      (quiet : phase.Quiet) : Effect sanitizeDetail log i (log.set i ⟨input, phase⟩)
  | tip (input : LifecycleEventInput δ) (attempt : Nat) (pending : Pending log i input) :
      Effect sanitizeDetail log i
        (log.set i ⟨input, .insert attempt (tipOf log.rows input.talosId)⟩)
  | found (input : LifecycleEventInput δ) (row : LifecycleEvent δ) (pending : Pending log i input)
      (found : byKey log.rows input = some row) :
      Effect sanitizeDetail log i (log.set i ⟨input, .returned row.id row.sequence true⟩)
  | append (input : LifecycleEventInput δ) (attempt tip : Nat) (id : String)
      (inserting : log.calls i = some ⟨input, .insert attempt tip⟩)
      (accepted : Accepts log.rows (eventRow sanitizeDetail input id (tip + 1))) :
      Effect sanitizeDetail log i { log.set i ⟨input, .returned id (tip + 1) false⟩ with
        rows := log.rows ++ [eventRow sanitizeDetail input id (tip + 1)] }

theorem quiet_again (attempt : Nat) : (Phase.again attempt).Quiet := by
  rw [Phase.again]
  split
  · trivial
  · trivial

theorem quiet_caught (input : LifecycleEventInput δ) (attempt : Nat) :
    (Phase.caught input attempt).Quiet := by
  rw [Phase.caught]
  split
  · trivial
  · exact quiet_again attempt

theorem quiet_first (input : LifecycleEventInput δ) : (Call.first input).phase.Quiet := by
  rw [Call.first]
  split
  · trivial
  · trivial

/-- A lookup returns the row it finds, and goes on otherwise. -/
theorem lookup_effect (pending : Pending log i input) {otherwise : Phase}
    (quiet : otherwise.Quiet) :
    Effect sanitizeDetail log i (log.set i ⟨input, otherwise.orReturn (byKey log.rows input)⟩) := by
  cases found : byKey log.rows input with
  | none => exact .quiet input otherwise pending quiet
  | some row => exact .found input row pending found

theorem step_effect (ok : step sanitizeDetail log e = some log') :
    Effect sanitizeDetail log e.caller log' := by
  cases e with
  | start i input =>
    rw [step] at ok
    split at ok
    · cases ok
    · next fresh =>
      obtain rfl := Option.some.inj ok
      exact .quiet input _ (.inl (Option.not_isSome_iff_eq_none.mp fresh)) (quiet_first input)
  | select i =>
    simp only [step] at ok
    split at ok
    · next input called =>
      obtain rfl := Option.some.inj ok
      exact lookup_effect (.inr ⟨_, called, trivial⟩) trivial
    · next input attempt called =>
      obtain rfl := Option.some.inj ok
      exact .tip input attempt (.inr ⟨_, called, trivial⟩)
    · next input attempt called =>
      obtain rfl := Option.some.inj ok
      exact lookup_effect (.inr ⟨_, called, trivial⟩) (quiet_again attempt)
    · cases ok
  | insert i id =>
    simp only [step] at ok
    split at ok
    · next input attempt tip called =>
      split at ok
      · next accepted =>
        obtain rfl := Option.some.inj ok
        exact .append input attempt tip id called accepted
      · obtain rfl := Option.some.inj ok
        exact .quiet input _ (.inr ⟨_, called, trivial⟩) (quiet_caught input attempt)
    · cases ok
  | fail i =>
    simp only [step] at ok
    split at ok
    · next input attempt tip called =>
      obtain rfl := Option.some.inj ok
      exact .quiet input _ (.inr ⟨_, called, trivial⟩) (quiet_caught input attempt)
    · next input called =>
      obtain rfl := Option.some.inj ok
      exact .quiet input _ (.inr ⟨_, called, trivial⟩) trivial
    · next input attempt called =>
      obtain rfl := Option.some.inj ok
      exact .quiet input _ (.inr ⟨_, called, trivial⟩) trivial
    · next input attempt called =>
      obtain rfl := Option.some.inj ok
      exact .quiet input _ (.inr ⟨_, called, trivial⟩) trivial
    · cases ok

/-! ### The rows -/

/-- The events of each Talos are numbered from 1 on, and no two have the same key. -/
structure Numbered (rows : List (LifecycleEvent δ)) : Prop where
  gapless : ∀ talosId, (eventsOf rows talosId).map (·.sequence) =
    List.range' 1 (eventsOf rows talosId).length
  keys : ∀ talosId, ((eventsOf rows talosId).filterMap (·.idempotencyKey)).Nodup

theorem eventsOf_append_self (rows : List (LifecycleEvent δ)) (row : LifecycleEvent δ) :
    eventsOf (rows ++ [row]) row.talosId = eventsOf rows row.talosId ++ [row] := by
  simp [eventsOf]

theorem eventsOf_append_other {talosId : String} (other : row.talosId ≠ talosId) :
    eventsOf (rows ++ [row]) talosId = eventsOf rows talosId := by
  simp [eventsOf, other]

theorem mem_eventsOf {talosId : String} :
    row ∈ eventsOf rows talosId ↔ row ∈ rows ∧ row.talosId = talosId := by
  simp [eventsOf]

theorem foldr_max_of_le {l : List Nat} {a : Nat} (le : ∀ x ∈ l, x ≤ a) : l.foldr max a = a := by
  induction l with
  | nil => rfl
  | cons x rest ih =>
    rw [List.foldr_cons, ih fun y mem => le y (List.mem_cons_of_mem _ mem)]
    exact Nat.max_eq_right (le x List.mem_cons_self)

/-- The tip of the numbers from 1 to `n` is `n`. -/
theorem foldr_max_range (n : Nat) : (List.range' 1 n).foldr max 0 = n := by
  cases n with
  | zero => rfl
  | succ n =>
    rw [List.range'_concat, List.foldr_append, Nat.one_mul]
    have last : [1 + n].foldr max 0 = n + 1 := by
      rw [List.foldr_cons, List.foldr_nil, Nat.max_zero, Nat.add_comm]
    rw [last]
    apply foldr_max_of_le
    intro x mem
    rw [List.mem_range'_1] at mem
    omega

theorem Numbered.tip_eq (numbered : Numbered rows) (talosId : String) :
    tipOf rows talosId = (eventsOf rows talosId).length := by
  rw [tipOf, numbered.gapless, foldr_max_range]

theorem Numbered.empty : Numbered ([] : List (LifecycleEvent δ)) where
  gapless _ := rfl
  keys _ := List.nodup_nil

/-- A row that is accepted with a number no greater than the next one has the next one. -/
theorem Numbered.sequence_eq (numbered : Numbered rows) (accepted : Accepts rows row)
    (positive : 1 ≤ row.sequence) (le : row.sequence ≤ (eventsOf rows row.talosId).length + 1) :
    row.sequence = (eventsOf rows row.talosId).length + 1 := by
  by_contra ne
  have mem : row.sequence ∈ (eventsOf rows row.talosId).map (·.sequence) := by
    rw [numbered.gapless, List.mem_range'_1]
    omega
  obtain ⟨other, mem, same⟩ := List.mem_map.mp mem
  obtain ⟨stored, sameTalos⟩ := mem_eventsOf.mp mem
  exact ((accepted.2 other stored).2 sameTalos).1 same

theorem Numbered.append (numbered : Numbered rows) (accepted : Accepts rows row)
    (next : row.sequence = (eventsOf rows row.talosId).length + 1) : Numbered (rows ++ [row]) := by
  constructor
  · intro talosId
    by_cases same : row.talosId = talosId
    · subst same
      rw [eventsOf_append_self, List.map_append, numbered.gapless, List.length_append,
        List.map_singleton, List.length_singleton, List.range'_concat, next, Nat.one_mul,
        Nat.add_comm]
    · rw [eventsOf_append_other same]
      exact numbered.gapless talosId
  · intro talosId
    by_cases same : row.talosId = talosId
    · subst same
      rw [eventsOf_append_self, List.filterMap_append]
      refine List.nodup_append.mpr ⟨numbered.keys row.talosId, ?_, ?_⟩
      · cases keyed : row.idempotencyKey with
        | none => simp [keyed]
        | some key => simp [keyed]
      · intro key mem key' mem' same
        obtain ⟨other, mem, keyed⟩ := List.mem_filterMap.mp mem
        obtain ⟨row', mem', keyed'⟩ := List.mem_filterMap.mp mem'
        obtain rfl := List.mem_singleton.mp mem'
        obtain ⟨stored, sameTalos⟩ := mem_eventsOf.mp mem
        have sameKey : SameKey other row' := by
          refine ⟨?_, keyed.trans (same ▸ keyed'.symm)⟩
          rw [keyed]
          exact Option.some_ne_none key
        exact ((accepted.2 other stored).2 sameTalos).2 sameKey
    · rw [eventsOf_append_other same]
      exact numbered.keys talosId

/-! ### The calls -/

/-- The rows that the statements of a call have inserted. -/
def insertedBy (i : Nat) (h : List (Transition (Log δ) (Event δ))) : List (LifecycleEvent δ) :=
  h.flatMap fun r => if r.event.caller = i then r.post.rows.drop r.pre.rows.length else []

/-- What a call has inserted so far and what it knows. -/
def Accounts (sanitizeDetail : Option δ → δ) (rows inserted : List (LifecycleEvent δ))
    (input : LifecycleEventInput δ) : Phase → Prop
  | .insert _ tip => inserted = [] ∧ tip ≤ (eventsOf rows input.talosId).length
  | .returned id sequence false =>
      inserted = [eventRow sanitizeDetail input id sequence] ∧
        eventRow sanitizeDetail input id sequence ∈ rows
  | .returned id sequence true => inserted = [] ∧ ∃ row ∈ rows, row.id = id ∧
      row.sequence = sequence ∧ row.talosId = input.talosId ∧ input.idempotencyKey ≠ none ∧
        row.idempotencyKey = input.idempotencyKey
  | .lookup | .tip _ | .winner _ | .threw => inserted = []

theorem eventsOf_extends {rows' : List (LifecycleEvent δ)} (extends' : rows <+: rows')
    (talosId : String) : (eventsOf rows talosId) <+: (eventsOf rows' talosId) :=
  extends'.filter _

/-- What a call knows stays true as rows are added. -/
theorem Accounts.extend {rows' inserted : List (LifecycleEvent δ)} {phase : Phase}
    (accounts : Accounts sanitizeDetail rows inserted input phase) (extends' : rows <+: rows') :
    Accounts sanitizeDetail rows' inserted input phase := by
  cases phase with
  | insert attempt tip =>
    exact ⟨accounts.1, accounts.2.trans (eventsOf_extends extends' _).length_le⟩
  | returned id sequence deduped =>
    cases deduped with
    | false => exact ⟨accounts.1, extends'.mem accounts.2⟩
    | true =>
      obtain ⟨nothing, row, mem, rest⟩ := accounts
      exact ⟨nothing, row, extends'.mem mem, rest⟩
  | _ => exact accounts

theorem Accounts.of_quiet {inserted : List (LifecycleEvent δ)} {phase : Phase} (quiet : phase.Quiet)
    (nothing : inserted = []) : Accounts sanitizeDetail rows inserted input phase := by
  cases phase with
  | insert => exact quiet.elim
  | returned => exact quiet.elim
  | _ => exact nothing

/-- A call that is still running has inserted nothing. -/
theorem Accounts.nothing {inserted : List (LifecycleEvent δ)} {phase : Phase}
    (accounts : Accounts sanitizeDetail rows inserted input phase) (running : phase.Running) :
    inserted = [] := by
  cases phase with
  | insert => exact accounts.1
  | returned => exact running.elim
  | threw => exact running.elim
  | _ => exact accounts

/-- The invariant of the log. -/
structure Inv (sanitizeDetail : Option δ → δ) (h : List (Transition (Log δ) (Event δ)))
    (log : Log δ) : Prop where
  numbered : Numbered log.rows
  calls : ∀ i input phase, log.calls i = some ⟨input, phase⟩ →
    Accounts sanitizeDetail log.rows (insertedBy i h) input phase
  unborn : ∀ i, log.calls i = none → insertedBy i h = []

theorem Inv.init : Inv sanitizeDetail [] (machine sanitizeDetail).init where
  numbered := .empty
  calls _ _ _ none := nomatch none
  unborn _ _ := rfl

variable {h : List (Transition (Log δ) (Event δ))}

theorem Inv.nothing (inv : Inv sanitizeDetail h log) (pending : Pending log i input) :
    insertedBy i h = [] := by
  rcases pending with fresh | ⟨phase, called, running⟩
  · exact inv.unborn i fresh
  · exact (inv.calls i input phase called).nothing running

/-- Nothing is inserted by a step that leaves the rows as they are. -/
theorem insertedBy_of_same (i : Nat) (e : Event δ) (same : log'.rows = log.rows) :
    insertedBy i (⟨log, e, log'⟩ :: h) = insertedBy i h := by
  simp [insertedBy, same]

theorem insertedBy_of_other (e : Event δ) (other : e.caller ≠ i) :
    insertedBy i (⟨log, e, log'⟩ :: h) = insertedBy i h := by
  simp [insertedBy, other]

/-- A call moves without inserting. -/
theorem Inv.move (inv : Inv sanitizeDetail h log) {e : Event δ} {phase : Phase}
    (accounts : Accounts sanitizeDetail log.rows (insertedBy e.caller h) input phase) :
    Inv sanitizeDetail (⟨log, e, log.set e.caller ⟨input, phase⟩⟩ :: h)
      (log.set e.caller ⟨input, phase⟩) := by
  have same (i : Nat) : insertedBy i (⟨log, e, log.set e.caller ⟨input, phase⟩⟩ :: h) =
    insertedBy i h := insertedBy_of_same i e rfl
  constructor
  · exact inv.numbered
  · intro i input' phase' called
    rw [same]
    by_cases self : i = e.caller
    · subst self
      rw [Log.set_calls_self] at called
      obtain ⟨rfl, rfl⟩ := Call.mk.inj (Option.some.inj called)
      exact accounts
    · rw [Log.set_calls_of_ne _ _ self] at called
      exact inv.calls i input' phase' called
  · intro i none
    rw [same]
    by_cases self : i = e.caller
    · subst self
      rw [Log.set_calls_self] at none
      cases none
    · rw [Log.set_calls_of_ne _ _ self] at none
      exact inv.unborn i none

/-- A found row is stored, and has the key of the call. -/
theorem byKey_some (found : byKey rows input = some row) : row ∈ rows ∧
    row.talosId = input.talosId ∧ input.idempotencyKey ≠ none ∧
      row.idempotencyKey = input.idempotencyKey := by
  obtain ⟨key, lookup, found⟩ := Option.bind_eq_some_iff.mp found
  obtain ⟨mem, sameTalos⟩ := mem_eventsOf.mp (List.mem_of_find?_eq_some found)
  have keyed := List.find?_some found
  obtain ⟨given, -⟩ := Option.filter_eq_some_iff.mp lookup
  refine ⟨mem, sameTalos, ?_, ?_⟩
  · rw [given]
    exact Option.some_ne_none key
  · rw [given]
    exact eq_of_beq keyed

/-- An accepted row is the next one of its Talos. -/
theorem Inv.append (inv : Inv sanitizeDetail h log) {e : Event δ} {attempt tip : Nat} {id : String}
    (inserting : log.calls e.caller = some ⟨input, .insert attempt tip⟩)
    (accepted : Accepts log.rows (eventRow sanitizeDetail input id (tip + 1))) :
    Inv sanitizeDetail
      (⟨log, e, { log.set e.caller ⟨input, .returned id (tip + 1) false⟩ with
        rows := log.rows ++ [eventRow sanitizeDetail input id (tip + 1)] }⟩ :: h)
      { log.set e.caller ⟨input, .returned id (tip + 1) false⟩ with
        rows := log.rows ++ [eventRow sanitizeDetail input id (tip + 1)] } := by
  obtain ⟨nothing, le⟩ := inv.calls _ _ _ inserting
  have next := inv.numbered.sequence_eq accepted (Nat.le_add_left 1 tip) (Nat.succ_le_succ le)
  have extends' : log.rows <+: log.rows ++ [eventRow sanitizeDetail input id (tip + 1)] :=
    List.prefix_append _ _
  constructor
  · exact inv.numbered.append accepted next
  · intro i input' phase' called
    by_cases self : i = e.caller
    · subst self
      simp only [Log.set_calls_self] at called
      obtain ⟨rfl, rfl⟩ := Call.mk.inj (Option.some.inj called)
      refine ⟨?_, by simp⟩
      rw [insertedBy, List.flatMap_cons, if_pos rfl, List.drop_left]
      exact congrArg _ nothing
    · simp only [Log.set_calls_of_ne _ _ self] at called
      rw [insertedBy_of_other e (Ne.symm self)]
      exact (inv.calls i input' phase' called).extend extends'
  · intro i none
    by_cases self : i = e.caller
    · subst self
      simp only [Log.set_calls_self, reduceCtorEq] at none
    · simp only [Log.set_calls_of_ne _ _ self] at none
      rw [insertedBy_of_other e (Ne.symm self)]
      exact inv.unborn i none

theorem Inv.step (inv : Inv sanitizeDetail h log)
    (ok : (machine sanitizeDetail).step log e = some log') :
    Inv sanitizeDetail (⟨log, e, log'⟩ :: h) log' := by
  cases step_effect ok with
  | quiet input phase pending quiet => exact inv.move (.of_quiet quiet (inv.nothing pending))
  | tip input attempt pending =>
    refine inv.move ⟨inv.nothing pending, ?_⟩
    rw [inv.numbered.tip_eq]
  | found input row pending found =>
    obtain ⟨mem, sameTalos, keyed, sameKey⟩ := byKey_some found
    exact inv.move ⟨inv.nothing pending, row, mem, rfl, rfl, sameTalos, keyed, sameKey⟩
  | append input attempt tip id inserting accepted => exact inv.append inserting accepted

theorem Inv.of_run (run : Run (machine sanitizeDetail) h log) : Inv sanitizeDetail h log := by
  induction run with
  | refl => exact .init
  | step _ ok ih => exact ih.step ok

/-! ### Readers -/

/-- Rows are only ever added. -/
theorem rows_extend (steps : Steps (machine sanitizeDetail) log h log') :
    log.rows <+: log'.rows := by
  induction steps with
  | refl => exact List.prefix_refl _
  | step _ ok ih =>
    refine ih.trans ?_
    cases step_effect ok with
    | append => exact List.prefix_append _ _
    | _ => exact List.prefix_refl _

/-- An event with a number that is stored already was stored then. -/
theorem Numbered.mem_of_le {rows' : List (LifecycleEvent δ)} (numbered : Numbered rows)
    (numbered' : Numbered rows') (extends' : rows <+: rows') {read : LifecycleEvent δ}
    (stored : read ∈ rows) (mem : row ∈ rows') (sameTalos : row.talosId = read.talosId)
    (le : row.sequence ≤ read.sequence) : row ∈ rows := by
  obtain ⟨later, split⟩ := eventsOf_extends extends' read.talosId
  have numbers := numbered'.gapless read.talosId
  rw [← split, List.map_append, numbered.gapless, List.length_append,
    ← List.range'_append_1, List.append_cancel_left_eq] at numbers
  have early : read.sequence ∈ (eventsOf rows read.talosId).map (·.sequence) :=
    List.mem_map_of_mem (mem_eventsOf.mpr ⟨stored, rfl⟩)
  rw [numbered.gapless, List.mem_range'_1] at early
  have inLog : row ∈ eventsOf rows' read.talosId := mem_eventsOf.mpr ⟨mem, sameTalos⟩
  rw [← split] at inLog
  rcases List.mem_append.mp inLog with before | after
  · exact (mem_eventsOf.mp before).1
  · -- The numbers of later events are greater.
    have late : row.sequence ∈ later.map (·.sequence) := List.mem_map_of_mem after
    rw [numbers, List.mem_range'_1] at late
    omega

/-! ### The contract of the cursor -/

/-- What the log promises after the steps taken so far. -/
structure Sound (sanitizeDetail : Option δ → δ) (h : List (Transition (Log δ) (Event δ)))
    (log : Log δ) : Prop where
  /-- The stored sequences of a Talos are exactly 1 to n. -/
  gapless : ∀ talosId, (eventsOf log.rows talosId).map (·.sequence) =
    List.range' 1 (eventsOf log.rows talosId).length
  /-- An idempotency key has at most one row. -/
  deduplicated : ∀ talosId, ((eventsOf log.rows talosId).filterMap (·.idempotencyKey)).Nodup
  /-- A call that returns reports the one row it has inserted, or, having inserted nothing, a
  stored one with its key. -/
  returned : ∀ i input id sequence deduped,
    log.calls i = some ⟨input, .returned id sequence deduped⟩ →
      ∃ row ∈ log.rows, row.id = id ∧ row.sequence = sequence ∧
        if deduped then insertedBy i h = [] ∧ row.talosId = input.talosId ∧
          input.idempotencyKey ≠ none ∧ row.idempotencyKey = input.idempotencyKey
        else insertedBy i h = [row] ∧ row = eventRow sanitizeDetail input id sequence
  /-- A call that throws has inserted nothing. -/
  threw : ∀ i input, log.calls i = some ⟨input, .threw⟩ → insertedBy i h = []
  /-- Whoever has read up to some stored event finds no new one before it. -/
  replay : ∀ h' log', Steps (machine sanitizeDetail) log h' log' → ∀ read ∈ log.rows,
    ∀ row ∈ log'.rows, row.talosId = read.talosId → row.sequence ≤ read.sequence → row ∈ log.rows

theorem Inv.returned (inv : Inv sanitizeDetail h log) {id : String} {sequence : Nat}
    {deduped : Bool} (called : log.calls i = some ⟨input, .returned id sequence deduped⟩) :
    ∃ row ∈ log.rows, row.id = id ∧ row.sequence = sequence ∧
      if deduped then insertedBy i h = [] ∧ row.talosId = input.talosId ∧
        input.idempotencyKey ≠ none ∧ row.idempotencyKey = input.idempotencyKey
      else insertedBy i h = [row] ∧ row = eventRow sanitizeDetail input id sequence := by
  have accounts := inv.calls i input _ called
  cases deduped with
  | false => exact ⟨_, accounts.2, rfl, rfl, accounts.1, rfl⟩
  | true =>
    obtain ⟨nothing, row, mem, sameId, sameSequence, sameTalos, keyed, sameKey⟩ := accounts
    exact ⟨row, mem, sameId, sameSequence, nothing, sameTalos, keyed, sameKey⟩

/-- After every interleaving of calls, the log keeps its promises. -/
theorem lifecycle_log_sound (sanitizeDetail : Option δ → δ)
    {h : List (Transition (Log δ) (Event δ))} {log : Log δ}
    (run : Run (machine sanitizeDetail) h log) : Sound sanitizeDetail h log := by
  have inv := Inv.of_run run
  constructor
  · exact inv.numbered.gapless
  · exact inv.numbered.keys
  · intro i input id sequence deduped called
    exact inv.returned called
  · intro i input called
    exact inv.calls i input .threw called
  · intro h' log' steps read stored row mem sameTalos le
    have inv' := Inv.of_run (run.trans steps)
    exact inv.numbered.mem_of_le inv'.numbered (rows_extend steps) stored mem sameTalos le

/-- An event of Talos "t" without details. -/
def plainInput (idempotencyKey : Option String) : LifecycleEventInput Unit where
  talosId := "t"
  eventType := .activated
  fromState := some .provisioning
  toState := .active
  actorId := "system"
  actorRole := .system
  jobId := none
  stepName := none
  detail := none
  idempotencyKey := idempotencyKey

/-- Two calls with one key and one without race for the first number; the last to insert with the
key finds the row of the other. -/
def race : List (Transition (Log Unit) (Event Unit)) × Log Unit :=
  (machine fun _ => ()).play
    [.start 0 (plainInput (some "k")), .start 1 (plainInput (some "k")), .start 2 (plainInput none),
      .select 0, .select 1, .select 0, .select 1, .select 2, .insert 2 "a", .insert 0 "b",
      .select 0, .select 0, .insert 0 "b", .insert 1 "c", .select 1]
    ([], (machine fun _ => ()).init)

theorem lifecycle_log_sound_race :
    (race.2.calls 0).map (·.phase) = some (.returned "b" 2 false) ∧
    (race.2.calls 1).map (·.phase) = some (.returned "b" 2 true) ∧
    (race.2.calls 2).map (·.phase) = some (.returned "a" 1 false) ∧
    Sound (fun _ => ()) race.1 race.2 :=
  ⟨by decide, by decide, by decide, lifecycle_log_sound _ (Machine.play_run _ _)⟩

end Talos.LifecycleEvents
