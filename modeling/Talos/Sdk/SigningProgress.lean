import Talos.Sdk.SigningSlots
import Talos.Database.Behavior

/-!
# Every call settles

Each call goes through its phases in one direction, and from every phase but the queue it
goes on when what it awaits comes. A call in the queue goes on because the queue only
moves forward, and moves when one of the runs ends that take all slots. So in a fair
behavior every call settles (`orderly`), if the signal of a call is not aborted when the
call is admitted.
-/

namespace Talos.Sdk.Signing

open Database
open Soroban (Map)

variable {limits : Limits} {s s' : State} {event : Event} {x y : RequestId}
  {request before after : Request}

/-! ### One call in one step -/

/-- What a step makes of a call. -/
inductive Change (s : State) (before : Request) : Request → Prop where
  | same : Change s before before
  | moved (after : Request) (moves : Moves before after) : Change s before after
  | enqueued (phase : before.phase = .detecting) :
      Change s before { before with phase := .queued, waited := true }
  | started (phase : before.phase = .detecting ∨ before.phase = .queued)
      (fresh : s.isAborted before = false) : Change s before { before with phase := .running }
  | released (answer : Answer) (phase : before.phase = .raced answer) :
      Change s before { before with phase := .returned answer.outcome }
  | aborted (signal : SignalId) : Change s before (before.abort signal)

theorem drainLoop_at (limits : Limits) {queue : List RequestId} (slots : Slots s)
    (same : s.queue = queue) (found : s.requests x = some before) :
    (drainLoop limits queue s).requests x = some before ∨
      before.phase = .queued ∧ s.isAborted before = false ∧
        (drainLoop limits queue s).requests x = some { before with phase := .running } := by
  induction queue generalizing s before with
  | nil => exact .inl found
  | cons y rest ih =>
      unfold drainLoop
      split
      · exact .inl found
      · obtain ⟨request, here, phase, shifted⟩ := shift_eq slots same
        obtain ⟨slots', same'⟩ := slots.shift same
        by_cases self : x = y
        · subst self
          cases here.symm.trans found
          have mem : x ∈ s.queue := same ▸ List.mem_cons_self
          have running : (s.shift x rest).requests x = some { before with phase := .running } := by
            rw [shifted]
            exact Map.set_self ..
          rcases ih slots' same' running with still | ⟨queued, -⟩
          · exact .inr ⟨phase, slots.prompt x mem before found, still⟩
          · cases queued
        · have kept : (s.shift y rest).requests x = some before := by
            rw [shifted]
            exact (Map.set_of_ne _ _ self).trans found
          have aborted : (s.shift y rest).isAborted before = s.isAborted before := by
            rw [shifted]
            rfl
          have rest := ih slots' same' kept
          rwa [aborted] at rest

theorem step_at (slots : Slots s) (prompt : Prompt limits ⟨s, event, s'⟩)
    (ok : step limits s event = some s') (found : s.requests x = some before) :
    ∃ after, s'.requests x = some after ∧ Change s before after := by
  cases step_effect ok with
  | entered y request new signs phase =>
      have other : x ≠ y := by
        rintro rfl
        cases new.symm.trans found
      exact ⟨before, (Map.set_of_ne _ _ other).trans found, .same⟩
  | moved y request after here moves =>
      by_cases self : x = y
      · subst self
        cases here.symm.trans found
        exact ⟨after, Map.set_self .., .moved after moves⟩
      · exact ⟨before, (Map.set_of_ne _ _ self).trans found, .same⟩
  | enqueued y request here phase busy room admits =>
      by_cases self : x = y
      · subst self
        cases here.symm.trans found
        exact ⟨_, Map.set_self .., .enqueued phase⟩
      · exact ⟨before, (Map.set_of_ne _ _ self).trans found, .same⟩
  | started y request here phase free admits =>
      by_cases self : x = y
      · subst self
        cases here.symm.trans found
        exact ⟨_, Map.set_self .., .started (.inl phase) (prompt.fresh (admits _))⟩
      · exact ⟨before, (Map.set_of_ne _ _ self).trans found, .same⟩
  | finished y request answer here phase =>
      have slots' := slots.release here phase answer.outcome
      by_cases self : x = y
      · subst self
        cases here.symm.trans found
        have released : (s.release x before answer.outcome).requests x =
            some { before with phase := .returned answer.outcome } := Map.set_self ..
        rcases drainLoop_at limits slots' rfl released with still | ⟨queued, -⟩
        · exact ⟨_, still, .released answer phase⟩
        · cases queued
      · have kept : (s.release y request answer.outcome).requests x = some before :=
          (Map.set_of_ne _ _ self).trans found
        rcases drainLoop_at limits slots' rfl kept with still | ⟨queued, fresh, runs⟩
        · exact ⟨before, still, .same⟩
        · exact ⟨_, runs, .started (.inr queued) fresh⟩
  | aborted signal first =>
      exact ⟨_, congrArg (Option.map _) found, .aborted signal⟩

/-- Phases come in this order. -/
def Phase.rank : Phase → Nat
  | .detecting => 6
  | .queued => 5
  | .running => 4
  | .raced _ => 3
  | .returned _ => 2
  | .ended => 1
  | .skipped => 0

theorem Change.phase (change : Change s before after) :
    after.phase = before.phase ∨ after.phase.rank < before.phase.rank := by
  cases change with
  | same => exact .inl rfl
  | moved after moves =>
      right
      cases moves with
      | ended outcome open' =>
          rcases open' with phase | ⟨outcome, phase⟩
          all_goals
            rw [phase]
            simp [Request.end, Phase.rank]
      | raced answer phase =>
          rw [phase]
          simp [Phase.rank]
  | enqueued phase =>
      right
      rw [phase]
      simp [Phase.rank]
  | started phase fresh =>
      right
      rcases phase with phase | phase
      all_goals
        rw [phase]
        simp [Phase.rank]
  | released answer phase =>
      right
      rw [phase]
      simp [Phase.rank]
  | aborted signal =>
      unfold Request.abort
      split
      · cases phase : before.phase <;> simp [Phase.abort, Phase.rank]
      · exact .inl rfl

theorem Change.settled (change : Change s before after) {outcome : Outcome}
    (settled : before.settled = some outcome) : after.settled = some outcome := by
  cases change with
  | same => exact settled
  | moved after moves =>
      cases moves with
      | ended outcome' open' => simp [Request.end, Request.settle, settled]
      | raced answer phase => exact settled
  | enqueued phase => exact settled
  | started phase fresh => exact settled
  | released answer phase => exact settled
  | aborted signal => exact Request.settled_abort settled signal

/-- A call that starts is not aborted. -/
theorem Change.starts (change : Change s before after) (rests : before.phase ≠ .running)
    (runs : after.phase = .running) : s.isAborted before = false := by
  cases change with
  | same => exact absurd runs rests
  | moved after moves => cases moves <;> cases runs
  | enqueued phase => cases runs
  | started phase fresh => exact fresh
  | released answer phase => cases runs
  | aborted signal =>
      unfold Request.abort at runs
      split at runs
      · revert runs
        cases before.phase <;> nofun
      · exact absurd runs rests

/-! ### The queue -/

theorem drainLoop_suffix {queue : List RequestId} (slots : Slots s) (same : s.queue = queue) :
    (drainLoop limits queue s).queue <:+ queue := by
  induction queue generalizing s with
  | nil => exact ⟨[], same⟩
  | cons x rest ih =>
      unfold drainLoop
      split
      · exact ⟨[], same⟩
      · obtain ⟨slots', same'⟩ := slots.shift same
        exact (ih slots' same').trans (List.suffix_cons x rest)

/-- A call in the end of a list without repetitions is further to the front there. -/
theorem idxOf_suffix {list back : List RequestId} (nodup : list.Nodup) (suffix : back <:+ list)
    (mem : x ∈ back) : back.idxOf x + (list.length - back.length) = list.idxOf x := by
  obtain ⟨front, rfl⟩ := suffix
  have absent : x ∉ front := fun mem' => (List.nodup_append.mp nodup).2.2 x mem' x mem rfl
  rw [List.idxOf_append_of_notMem absent, List.length_append]
  omega

theorem idxOf_filter_le {keep : RequestId → Bool} {list : List RequestId}
    (mem : x ∈ list.filter keep) : (list.filter keep).idxOf x ≤ list.idxOf x := by
  induction list with
  | nil => cases mem
  | cons y rest ih =>
      by_cases self : y = x
      · subst self
        rw [List.filter_cons_of_pos (List.mem_filter.mp mem).2, List.idxOf_cons_self]
        exact Nat.zero_le _
      · rw [List.idxOf_cons_ne _ self]
        by_cases kept : keep y = true
        · rw [List.filter_cons_of_pos kept] at mem ⊢
          rw [List.idxOf_cons_ne _ self]
          exact Nat.succ_le_succ (ih ((List.mem_cons.mp mem).resolve_left fun same => self same.symm))
        · rw [List.filter_cons_of_neg kept] at mem ⊢
          exact Nat.le_succ_of_le (ih mem)

/-- The slot that the end of a run frees goes to the first call of the queue. -/
theorem release_drain_suffix (slots : Slots s) (bounded : Bounded limits s)
    (found : s.requests x = some request) {answer : Answer} (phase : request.phase = .raced answer)
    {rest : List RequestId} (queue : s.queue = y :: rest) :
    ((s.release x request answer.outcome).drain limits).queue <:+ rest := by
  have slots' := slots.release found phase answer.outcome
  have executes : s.executing x = true := by
    rw [executing_of_phase (phase_of_found found), phase]
    rfl
  have free : ¬ reached limits.maxConcurrent (s.active - 1) = true := by
    intro full
    have positive := slots.active_pos executes
    have le : ((s.active : ℚ) : WithTop ℚ) ≤ ((s.active - 1 : ℕ) : ℚ) :=
      bounded.active.trans (of_decide_eq_true full)
    rw [WithTop.coe_le_coe, Nat.cast_le] at le
    omega
  have first : (s.release x request answer.outcome).drain limits =
      drainLoop limits rest ((s.release x request answer.outcome).shift y rest) := by
    have same : (s.release x request answer.outcome).queue = y :: rest := queue
    rw [State.drain, same, drainLoop]
    exact if_neg free
  obtain ⟨shifted, same⟩ := slots'.shift queue
  rw [first]
  exact drainLoop_suffix shifted same

theorem executing_change (requests : s'.requests = s.requests.set x request)
    (keeps : s.executing x = true → request.phase.executing = true)
    (executes : s.executing y = true) : s'.executing y = true := by
  by_cases self : y = x
  · subst self
    have here : s'.phase y = some request.phase := by
      rw [State.phase, requests, Map.set_self]
      rfl
    rw [executing_of_phase here]
    exact keeps executes
  · rw [State.executing, State.phase, requests, Map.set_of_ne _ _ self]
    exact executes

theorem not_executing_of_detecting (found : s.requests x = some request)
    (phase : request.phase = .detecting) : ¬ s.executing x = true := by
  rw [executing_of_phase (phase_of_found found), phase]
  exact Bool.false_ne_true

theorem idxOf_concat (y : RequestId) {list : List RequestId} (mem : x ∈ list) :
    (list ++ [y]).idxOf x = list.idxOf x := List.idxOf_append_of_mem mem

/-- The queue only moves forward, and does when a run ends. -/
theorem queue_step (slots : Slots s) (bounded : Bounded limits s)
    (ok : step limits s event = some s') (mem : x ∈ s.queue) (mem' : x ∈ s'.queue) :
    s'.queue.idxOf x ≤ s.queue.idxOf x ∧
      ∀ y, s.executing y = true →
        s'.executing y = true ∨ s'.queue.idxOf x < s.queue.idxOf x := by
  cases step_effect ok with
  | entered z request new signs phase =>
      refine ⟨le_refl _, fun y executes => .inl (executing_change rfl ?_ executes)⟩
      intro known
      rw [State.executing, State.phase, new] at known
      cases known
  | moved z before after found moves =>
      refine ⟨le_refl _, fun y executes => .inl (executing_change rfl ?_ executes)⟩
      intro known
      rw [executing_of_phase (phase_of_found found)] at known
      cases moves with
      | ended outcome open' =>
          rcases open' with phase | ⟨outcome, phase⟩
          · rw [phase] at known
            cases known
          · rw [phase] at known
            cases known
      | raced answer running => rfl
  | enqueued z request found phase busy room admits =>
      refine ⟨le_of_eq (idxOf_concat z mem), fun y executes => .inl ?_⟩
      exact executing_change rfl (absurd · (not_executing_of_detecting found phase)) executes
  | started z request found phase free admits =>
      exact ⟨le_refl _, fun y executes => .inl (executing_change rfl (fun _ => rfl) executes)⟩
  | finished z request answer found phase =>
      obtain ⟨head, rest, queue⟩ := List.exists_cons_of_ne_nil (List.ne_nil_of_mem mem)
      have suffix := release_drain_suffix slots bounded found phase queue
      have nodup := slots.nodup
      rw [queue] at nodup ⊢
      have position := idxOf_suffix nodup (suffix.trans (List.suffix_cons head rest)) mem'
      have shorter := suffix.length_le
      rw [List.length_cons] at position
      exact ⟨by omega, fun _ _ => .inr (by omega)⟩
  | aborted signal first =>
      refine ⟨idxOf_filter_le mem', fun y executes => .inl ?_⟩
      rw [executing_abort]
      exact executes

/-! ### Behaviors -/

/-- It goes on when an answer, a timeout or a promise comes. -/
def Phase.awaits : Phase → Bool
  | .detecting => true
  | .running => true
  | .raced _ => true
  | .returned _ => true
  | _ => false

/-- What is awaited comes: the answer on capabilities, that of the signer or the timeout,
and the promises that are settled are handled. -/
def Fair (b : Behavior (machine limits)) : Prop :=
  ∀ n x phase, (b.state n).phase x = some phase → phase.awaits = true →
    ∃ k, n ≤ k ∧ (b.state k).phase x ≠ some phase

/-- What the controller promises. -/
structure Orderly (b : Behavior (machine limits)) : Prop where
  limited : ∀ n, ∃ ids : Finset RequestId, (∀ x, x ∈ ids ↔ (b.state n).executing x = true) ∧
    Within limits.maxConcurrent ids.card ∧ Within limits.maxQueue (b.state n).queue.length ∧
    ((b.state n).queue ≠ [] → reached limits.maxConcurrent ids.card = true)
  refused : ∀ n x request, (b.state n).requests x = some request →
    (b.state n).isAborted request = true → request.phase ≠ .running →
    (b.state (n + 1)).phase x ≠ some .running
  once : ∀ n k x outcome, n ≤ k → (b.state n).settled x = some outcome →
    (b.state k).settled x = some outcome
  settles : Fair b → ∀ n x, (b.state n).phase x ≠ none →
    ∃ k, n ≤ k ∧ ((b.state k).settled x).isSome = true

variable {b : Behavior (machine limits)}

theorem invariant (whole : limits.Whole) (prompt : b.Along (Prompt limits)) (n : Nat) :
    Slots (b.state n) ∧ Bounded limits (b.state n) := by
  refine b.invariant_along (I := fun s => Slots s ∧ Bounded limits s) prompt
    ⟨.init limits, .init limits⟩ ?_ n
  rintro t e t' ⟨slots, bounded⟩ ok prompt
  exact ⟨slots.step prompt ok, bounded.step slots whole ok⟩

/-- A call from one time to the next. -/
theorem change (whole : limits.Whole) (prompt : b.Along (Prompt limits)) {n : Nat}
    (found : (b.state n).requests x = some before) :
    ∃ after, (b.state (n + 1)).requests x = some after ∧ Change (b.state n) before after := by
  rcases b.next_cases n with still | ⟨e, taken, ok⟩
  · exact ⟨before, still ▸ found, .same⟩
  · exact step_at (invariant whole prompt n).1 (prompt n e taken) ok found

theorem phase_later (whole : limits.Whole) (prompt : b.Along (Prompt limits)) {n k : Nat}
    (le : n ≤ k) {phase : Phase} (here : (b.state n).phase x = some phase) :
    ∃ phase', (b.state k).phase x = some phase' ∧
      (phase' = phase ∨ phase'.rank < phase.rank) := by
  induction le with
  | refl => exact ⟨phase, here, .inl rfl⟩
  | step _ ih =>
      obtain ⟨phase', there, kept⟩ := ih
      obtain ⟨before, found, rfl⟩ := Option.map_eq_some_iff.mp there
      obtain ⟨after, found', changes⟩ := change whole prompt found
      refine ⟨after.phase, phase_of_found found', ?_⟩
      rcases changes.phase with same | lower
      · rw [same]
        exact kept
      · rcases kept with same | lower'
        · exact .inr (same ▸ lower)
        · exact .inr (lower.trans lower')

theorem settled_later (whole : limits.Whole) (prompt : b.Along (Prompt limits)) {n k : Nat}
    (le : n ≤ k) {outcome : Outcome} (settled : (b.state n).settled x = some outcome) :
    (b.state k).settled x = some outcome := by
  induction le with
  | refl => exact settled
  | step _ ih =>
      obtain ⟨before, found, done⟩ := Option.bind_eq_some_iff.mp ih
      obtain ⟨after, found', changes⟩ := change whole prompt found
      rw [State.settled, found']
      exact changes.settled done

/-- A phase that awaits something is left for a later one. -/
theorem goes_on (whole : limits.Whole) (prompt : b.Along (Prompt limits)) (fair : Fair b) {n : Nat}
    {phase : Phase} (here : (b.state n).phase x = some phase) (awaits : phase.awaits = true) :
    ∃ k, n ≤ k ∧ ∃ phase', (b.state k).phase x = some phase' ∧ phase'.rank < phase.rank := by
  obtain ⟨k, le, left⟩ := fair n x phase here awaits
  obtain ⟨phase', there, same | lower⟩ := phase_later whole prompt le here
  · exact absurd (same ▸ there) left
  · exact ⟨k, le, phase', there, lower⟩

def State.rank (s : State) (x : RequestId) : Nat := (s.phase x).elim 0 Phase.rank

theorem rank_of_phase {phase : Phase} (here : s.phase x = some phase) : s.rank x = phase.rank := by
  rw [State.rank, here]
  rfl

theorem awaits_of_executing {phase : Phase} (executes : phase.executing = true) :
    phase.awaits = true := by
  cases phase with
  | running => rfl
  | raced answer => rfl
  | detecting => cases executes
  | queued => cases executes
  | returned outcome => cases executes
  | ended => cases executes
  | skipped => cases executes

theorem run_ends (whole : limits.Whole) (prompt : b.Along (Prompt limits)) (fair : Fair b)
    (y : RequestId) :
    b.Leads (fun s => s.executing y = true) fun s => ¬ s.executing y = true := by
  refine Behavior.leads_of_rank (fun s => s.rank y) fun r n here => ?_
  obtain ⟨executes, rank⟩ := here
  obtain ⟨phase, phaseHere, awaits⟩ := (Option.any_eq_true _ _).mp executes
  obtain ⟨k, le, phase', there, lower⟩ :=
    goes_on whole prompt fair phaseHere (awaits_of_executing awaits)
  rw [← rank_of_phase there, ← rank_of_phase phaseHere, rank] at lower
  by_cases still : (b.state k).executing y = true
  · exact ⟨k, le, .inr ⟨still, lower⟩⟩
  · exact ⟨k, le, .inl still⟩

/-- While a call waits, some run has a slot. -/
theorem exists_executing (slots : Slots s) (bounded : Bounded limits s) (mem : x ∈ s.queue) :
    ∃ y, s.executing y = true := by
  obtain ⟨ids, card, counts⟩ := slots.counted
  have busy := bounded.busy (List.ne_nil_of_mem mem)
  have positive : 0 < ids.card := by
    rw [card, Nat.pos_iff_ne_zero]
    intro zero
    rw [zero] at busy
    apply limits.concurrent_pos
    exact lt_of_le_of_lt (of_decide_eq_true busy) (WithTop.coe_lt_coe.mpr (by simp))
  obtain ⟨y, mem⟩ := Finset.card_pos.mp positive
  exact ⟨y, (counts y).mp mem⟩

theorem queue_advances (whole : limits.Whole) (prompt : b.Along (Prompt limits)) (fair : Fair b)
    (x : RequestId) (r : Nat) :
    b.Leads (fun s => x ∈ s.queue ∧ s.queue.idxOf x = r)
      fun s => x ∉ s.queue ∨ x ∈ s.queue ∧ s.queue.idxOf x < r := by
  intro n here
  obtain ⟨mem, position⟩ := here
  obtain ⟨slots, bounded⟩ := invariant whole prompt n
  obtain ⟨y, executes⟩ := exists_executing slots bounded mem
  obtain ⟨k, le, stops⟩ := run_ends whole prompt fair y n executes
  -- until the run of `y` ends, the call leaves the queue or moves forward, or keeps its place
  refine Behavior.holds_until (P := fun s : State =>
    (x ∈ s.queue ∧ s.queue.idxOf x ≤ r) ∧ s.executing y = true)
    (Q := fun s : State => x ∉ s.queue ∨ x ∈ s.queue ∧ s.queue.idxOf x < r) ?_ le
    ⟨⟨mem, le_of_eq position⟩, executes⟩ fun both => stops both.2
  rintro j ⟨⟨mem, position⟩, executes⟩
  rcases b.next_cases j with still | ⟨e, -, ok⟩
  · rw [still]
    exact .inl ⟨⟨mem, position⟩, executes⟩
  · by_cases mem' : x ∈ (b.state (j + 1)).queue
    · obtain ⟨slots, bounded⟩ := invariant whole prompt j
      obtain ⟨forward, ends⟩ := queue_step slots bounded ok mem mem'
      rcases ends y executes with goes | advances
      · exact .inl ⟨⟨mem', forward.trans position⟩, goes⟩
      · exact .inr (.inr ⟨mem', lt_of_lt_of_le advances position⟩)
    · exact .inr (.inl mem')

theorem leaves_queue (whole : limits.Whole) (prompt : b.Along (Prompt limits)) (fair : Fair b)
    (x : RequestId) : b.Leads (fun s => x ∈ s.queue) fun s => x ∉ s.queue :=
  Behavior.leads_of_rank (fun s => s.queue.idxOf x) (queue_advances whole prompt fair x)

theorem call_ends (whole : limits.Whole) (prompt : b.Along (Prompt limits)) (fair : Fair b)
    (x : RequestId) : b.Leads (fun s => s.phase x ≠ none) fun s => s.phase x = some .ended := by
  refine Behavior.leads_of_rank (fun s => s.rank x) fun r n here => ?_
  obtain ⟨known, rank⟩ := here
  obtain ⟨phase, phaseHere⟩ := Option.ne_none_iff_exists'.mp known
  have later : ∀ {k}, n ≤ k → (b.state k).phase x ≠ some phase →
      (b.state k).phase x ≠ none ∧ (b.state k).rank x < r := by
    intro k le left
    obtain ⟨phase', there, same | lower⟩ := phase_later whole prompt le phaseHere
    · exact absurd (same ▸ there) left
    · rw [there, rank_of_phase there, ← rank, rank_of_phase phaseHere]
      exact ⟨nofun, lower⟩
  by_cases awaits : phase.awaits = true
  · obtain ⟨k, le, left⟩ := fair n x phase phaseHere awaits
    exact ⟨k, le, .inr (later le left)⟩
  obtain ⟨slots, -⟩ := invariant whole prompt n
  cases phase with
  | ended => exact ⟨n, le_refl n, .inl phaseHere⟩
  | queued =>
      obtain ⟨k, le, left⟩ := leaves_queue whole prompt fair x n ((slots.queued x).mpr phaseHere)
      obtain ⟨slots', -⟩ := invariant whole prompt k
      exact ⟨k, le, .inr (later le (mt (slots'.queued x).mpr left))⟩
  | skipped =>
      obtain ⟨request, found, phase⟩ := Option.map_eq_some_iff.mp phaseHere
      exact absurd phase (slots.sound x request found).kept
  | detecting => exact absurd rfl awaits
  | running => exact absurd rfl awaits
  | raced answer => exact absurd rfl awaits
  | returned outcome => exact absurd rfl awaits

/-- With whole limits the controller keeps its promises in every behavior in which no call
is admitted whose signal is aborted. -/
theorem orderly (whole : limits.Whole) (prompt : b.Along (Prompt limits)) : Orderly b where
  limited n := by
    obtain ⟨slots, bounded⟩ := invariant whole prompt n
    obtain ⟨ids, card, counts⟩ := slots.counted
    refine ⟨ids, counts, ?_, bounded.queue, ?_⟩
    · rw [card]
      exact bounded.active
    · rw [card]
      exact bounded.busy
  refused n x request found aborted rests runs := by
    obtain ⟨after, found', changes⟩ := change whole prompt found
    rw [phase_of_found found', Option.some.injEq] at runs
    rw [changes.starts rests runs] at aborted
    cases aborted
  once n k x outcome le settled := settled_later whole prompt le settled
  settles fair n x known := by
    obtain ⟨k, le, ended⟩ := call_ends whole prompt fair x n known
    obtain ⟨slots, -⟩ := invariant whole prompt k
    obtain ⟨request, found, phase⟩ := Option.map_eq_some_iff.mp ended
    refine ⟨k, le, ?_⟩
    rw [State.settled, found]
    exact (slots.sound x request found).settled phase

/-! ### Two calls -/

instance (limits : Limits) (t : Step) : Decidable (Prompt limits t) :=
  inferInstanceAs (Decidable (_ = true))

/-- One slot and one place in the queue. -/
def single : Limits where
  timeoutMs := ((15000 : ℚ) : WithTop ℚ)
  maxConcurrent := ((1 : ℚ) : WithTop ℚ)
  maxQueue := ((1 : ℚ) : WithTop ℚ)
  timeout_pos := by decide +kernel
  concurrent_pos := by decide +kernel
  queue_nonneg := by decide +kernel

/-- The signer supports requests. -/
def supports : Detection := .capabilities [.httpRequestV1]

def signature : SignatureResult := ⟨"ed25519", "key", [1]⟩

/-- The second call waits for the first, which is aborted while it runs. -/
def inTurn : List Event :=
  [.sign 0 .httpRequestV1 (some 0), .sign 1 .httpRequestV1 none, .detected 0 supports,
    .detected 1 supports, .abort 0, .finished 0, .delivered 0, .answered 1 (.signature signature),
    .finished 1, .delivered 1]

theorem orderly_inTurn : Orderly ((machine single).playing inTurn) := by
  have whole : ((1 : ℚ) : WithTop ℚ) = (((1 : ℕ) : ℚ) : WithTop ℚ) := by rw [Nat.cast_one]
  apply orderly ⟨.inr ⟨1, whole⟩, .inr ⟨1, whole⟩⟩
  exact (machine single).playing_along (by decide)

/-- The first call is aborted while it waits for the capabilities. -/
def abortedEarly : List Event :=
  [.sign 0 .httpRequestV1 (some 0), .abort 0, .detected 0 supports]

/-- So is the second call, which is in the queue when the first ends. -/
def abortedQueued : List Event :=
  [.sign 0 .httpRequestV1 none, .sign 1 .httpRequestV1 (some 0), .detected 0 supports, .abort 0,
    .detected 1 supports, .answered 0 (.signature signature), .finished 0, .delivered 0]

theorem drainLoop_unknown {queue : List RequestId} (unknown : s.requests x = none) :
    (drainLoop limits queue s).requests x = none := by
  induction queue generalizing s with
  | nil => exact unknown
  | cons y rest ih =>
      unfold drainLoop
      split
      · exact unknown
      · apply ih
        unfold State.shift
        dsimp only
        split
        · next request found =>
            have other : x ≠ y := by
              rintro rfl
              cases unknown.symm.trans found
            split
            · exact (Map.set_of_ne _ _ other).trans unknown
            · exact (Map.set_of_ne _ _ other).trans unknown
        · exact unknown

theorem unknown_step (ok : step limits s event = some s') (unknown : s.requests x = none)
    (other : ∀ kind signal, event ≠ .sign x kind signal) : s'.requests x = none := by
  have put : ∀ {y request after}, s.requests y = some request →
      (s.put y after).requests x = none := by
    intro y request after found
    refine (Map.set_of_ne _ _ ?_).trans unknown
    rintro rfl
    cases unknown.symm.trans found
  cases step_effect ok with
  | entered y request new signs phase =>
      obtain ⟨kind, signal, same⟩ := signs
      refine (Map.set_of_ne _ _ ?_).trans unknown
      rintro rfl
      exact other kind signal same
  | moved y before after found moves => exact put found
  | enqueued y request found phase busy room admits => exact put found
  | started y request found phase free admits => exact put found
  | finished y request answer found phase => exact drainLoop_unknown (put found)
  | aborted signal first => exact congrArg (Option.map _) unknown

/-- Nothing happens after the events of a list; what no call awaits then need not come. -/
theorem fair_playing {events : List Event}
    (quiet : ∀ x phase, ((machine limits).after events events.length).phase x = some phase →
      phase.awaits = false) : Fair ((machine limits).playing events) := by
  intro n x phase here awaits
  refine ⟨max n events.length, le_max_left _ _, fun there => ?_⟩
  have last : ((machine limits).playing events).state (max n events.length) =
      (machine limits).after events events.length := (machine limits).after_of_le (le_max_right _ _)
  rw [last] at there
  rw [quiet x phase there] at awaits
  cases awaits

theorem fair_abortedQueued : Fair ((machine single).playing abortedQueued) := by
  apply fair_playing
  intro x phase here
  by_cases known : ∃ kind signal, .sign x kind signal ∈ abortedQueued
  · obtain ⟨kind, signal, mem⟩ := known
    have each : ∀ event ∈ abortedQueued, (match event with
        | .sign x _ _ => ((machine single).after abortedQueued 8).phase x
        | _ => none).all (fun phase : Phase => !phase.awaits) = true := by decide
    have calm := each _ mem
    have same : ((machine single).after abortedQueued 8).phase x = some phase := here
    dsimp only at calm
    rw [same] at calm
    simpa using calm
  · have unknown := ((machine single).playing abortedQueued).invariant_along
      (C := fun t => ∀ kind signal, t.event ≠ .sign x kind signal)
      (I := fun s => s.requests x = none) ?_ rfl
      (fun unknown ok other => unknown_step ok unknown other) 8
    · have none : ((machine single).after abortedQueued 8).phase x = none :=
        congrArg (Option.map _) unknown
      cases none.symm.trans here
    · refine (machine single).playing_along fun n lt kind signal same => known ⟨kind, signal, ?_⟩
      exact same ▸ List.getElem_mem lt

/-- The signer is called for the one; the other is never settled. -/
theorem abandoned :
    (∃ b : Behavior (machine single), (b.state 2).aborted 0 = true ∧
      ((b.state 2).requests 0).map (·.signal) = some (some 0) ∧
      (b.state 2).phase 0 = some .detecting ∧ (b.state 3).phase 0 = some .running) ∧
    ∃ b : Behavior (machine single), Fair b ∧ (b.state 2).phase 1 = some .detecting ∧
      ∀ n, (b.state n).settled 1 = none := by
  refine ⟨⟨(machine single).playing abortedEarly, ?_⟩,
    ⟨(machine single).playing abortedQueued, fair_abortedQueued, ?_, fun n => ?_⟩⟩
  · exact ⟨by decide, by decide, by decide, by decide⟩
  · decide
  · have early : ∀ n < 9, (((machine single).playing abortedQueued).state n).settled 1 = none := by
      decide
    by_cases le : n < 9
    · exact early n le
    · have last : ((machine single).playing abortedQueued).state n =
          ((machine single).playing abortedQueued).state 8 :=
        Machine.after_of_le (machine single) (by change 8 ≤ n; omega)
      rw [last]
      exact early 8 (by omega)

end Talos.Sdk.Signing
