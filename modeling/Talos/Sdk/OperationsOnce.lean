import Talos.Sdk.OperationEffects
import Mathlib.Algebra.Order.Group.Int
import Mathlib.Data.Rat.Cast.Order

/-!
# Operations that run once

The store is asked before an operation runs and is told after it has. So an operation runs
once per key and window in the runs whose steps are `Guarded`, and what a repeated
submission gets is the result of an operation of its kind (`at_most_once`).
-/

namespace Talos.Sdk.Operations

open Database
open Soroban (Map)

variable {V : Type} {c : Core V} {x : SubmissionId} {a : AttemptId} {attempt : Attempt V}
  {result : Option V} {time : Int}

/-- A call has resolved to a result at a time. -/
structure Resolved (attempts : List (Attempt V)) (a : AttemptId) (attempt : Attempt V) (time : Int)
    (result : Option V) : Prop where
  found : attempts[a]? = some attempt
  outcome : attempt.outcome = .resolved time result

/-- The submission that makes a call. -/
structure Owns (submissions : Map SubmissionId (Submission V)) (attempt : Attempt V)
    (owner : Submission V) : Prop where
  found : submissions attempt.submission = some owner
  key : owner.idempotencyKey = attempt.idempotencyKey
  kind : owner.kind = attempt.operationType

/-- The submission is about to return the result of a call, or has returned it since. -/
inductive Carries (owner : Submission V) (time : Int) (result : Option V) : Prop where
  | raced (phase : owner.phase = .raced (.ok result))
  | returned (latest : Int) (returned : Returned owner result latest) (le : time ≤ latest)

/-- A call of the submission has resolved to the result. -/
def Won (attempts : List (Attempt V)) (x : SubmissionId) (result : Option V) : Prop :=
  ∃ a attempt time, Resolved attempts a attempt time result ∧ attempt.submission = x

/-- What holds of the submissions, the calls and the store. -/
structure Inv (c : Core V) : Prop where
  owned : ∀ (a : AttemptId) attempt, c.attempts[a]? = some attempt →
    ∃ owner, Owns c.submissions attempt owner
  won : ∀ a attempt time result, Resolved c.attempts a attempt time result →
    ∃ owner, c.submissions attempt.submission = some owner ∧ Carries owner time result
  credited : ∀ x submission result, c.submissions x = some submission →
    (submission.phase = .raced (.ok result) ∨ submission.phase = .returned result) →
    Won c.attempts x result
  past : ∀ a attempt time result, Resolved c.attempts a attempt time result → time ≤ c.clock
  single : ∀ x y submission other, c.submissions x = some submission →
    c.submissions y = some other → submission.phase.isOpen = true → other.phase.isOpen = true →
    submission.idempotencyKey = other.idempotencyKey → x = y
  stored : ∀ key entry, c.store key = some entry → ∃ x submission,
    c.submissions x = some submission ∧ submission.idempotencyKey = key ∧
      Returned submission entry.result entry.timestamp
  kept : ∀ x submission result time, c.submissions x = some submission →
    Returned submission result time → c.isExpired time = true ∨
      c.store submission.idempotencyKey = some ⟨time, result⟩
  elapsed : ∀ x y submission other result time, c.submissions x = some submission →
    submission.phase.isOpen = true → c.submissions y = some other → Returned other result time →
    other.idempotencyKey = submission.idempotencyKey → c.isExpired time = true
  apart : ∀ a b attempt other time time' result result', a ≠ b →
    Resolved c.attempts a attempt time result → Resolved c.attempts b other time' result' →
    attempt.idempotencyKey = other.idempotencyKey → time ≤ time' →
    isExpired c.config.idempotencyWindow time' time = true

theorem isExpired_mono {window : Number} {now later timestamp earlier : Int}
    (expired : isExpired window now timestamp = true) (le : now ≤ later)
    (le' : earlier ≤ timestamp) : isExpired window later earlier = true := by
  have beyond : window < (((now - timestamp : ℤ) : ℚ) : Number) := of_decide_eq_true expired
  have longer : (((now - timestamp : ℤ) : ℚ) : Number) ≤ (((later - earlier : ℤ) : ℚ) : Number) :=
    WithTop.coe_le_coe.mpr (Int.cast_le.mpr (by omega))
  exact decide_eq_true (lt_of_lt_of_le beyond longer)

/-- While a submission is open, the results for its key have expired, but for the one that
it is about to return. -/
theorem Inv.recent (inv : Inv c) {submission : Submission V}
    (found : c.submissions x = some submission) (isOpen : submission.phase.isOpen = true)
    (resolved : Resolved c.attempts a attempt time result)
    (same : attempt.idempotencyKey = submission.idempotencyKey) :
    c.isExpired time = true ∨ submission.phase = .raced (.ok result) := by
  obtain ⟨owner, known, key, -⟩ := inv.owned a attempt resolved.found
  obtain ⟨owner', known', carries⟩ := inv.won a attempt time result resolved
  cases known.symm.trans known'
  cases carries with
  | raced phase =>
      have own : attempt.submission = x :=
        inv.single _ _ owner submission known found (by rw [phase]; rfl) isOpen (key.trans same)
      rw [own, found] at known
      cases known
      exact .inr phase
  | returned latest returned le =>
      have expired := inv.elapsed x _ submission owner result latest found isOpen known returned
        (key.trans same)
      exact .inl (isExpired_mono expired (le_refl c.clock) le)

/-! ### The clock and the store -/

theorem Inv.init (start : Int) (config : OperationConfig) :
    Inv (machine V config start).init.core where
  owned _ _ here := nomatch here
  won _ _ _ _ resolved := nomatch resolved.found
  credited _ _ _ here := nomatch here
  past _ _ _ _ resolved := nomatch resolved.found
  single _ _ _ _ here := nomatch here
  stored _ _ here := nomatch here
  kept _ _ _ _ here := nomatch here
  elapsed _ _ _ _ _ _ here := nomatch here
  apart _ _ _ _ _ _ _ _ _ resolved := nomatch resolved.found

theorem Inv.advance (inv : Inv c) {now : Int} (later : c.clock ≤ now) :
    Inv { c with clock := now } where
  owned := inv.owned
  won := inv.won
  credited := inv.credited
  past a attempt time result resolved := (inv.past a attempt time result resolved).trans later
  single := inv.single
  stored := inv.stored
  kept x submission result time found returned :=
    (inv.kept x submission result time found returned).imp_left
      fun expired => isExpired_mono expired later (le_refl time)
  elapsed x y submission other result time found isOpen there returned same :=
    isExpired_mono (inv.elapsed x y submission other result time found isOpen there returned same)
      later (le_refl time)
  apart := inv.apart

theorem Inv.prune (inv : Inv c) {store : Map String (Entry V)} (pruned : Pruned c store) :
    Inv { c with store := store } where
  owned := inv.owned
  won := inv.won
  credited := inv.credited
  past := inv.past
  single := inv.single
  stored key entry found := by
    rcases pruned key with same | ⟨gone, -⟩
    · exact inv.stored key entry (same.symm.trans found)
    · cases gone.symm.trans found
  kept x submission result time found returned := by
    rcases inv.kept x submission result time found returned with expired | here
    · exact .inl expired
    · rcases pruned submission.idempotencyKey with same | ⟨-, entry, there, expired⟩
      · exact .inr (same.trans here)
      · cases here.symm.trans there
        exact .inl expired
  elapsed := inv.elapsed
  apart := inv.apart

/-! ### Submissions that go on without a result -/

theorem Turn.back {before : Option (Submission V)} {after : Submission V}
    (turn : Turn before (some after)) (running : after.phase.isOver = false) :
    ∃ earlier, before = some earlier ∧ Continues earlier after ∧
      (earlier = after ∨ earlier.phase.isTrying = true ∧ after.phase.isTrying = true) := by
  cases turn with
  | same => exact ⟨after, rfl, Continues.refl after, .inl rfl⟩
  | goesOn earlier _ continues trying trying' =>
      exact ⟨earlier, rfl, continues, .inr ⟨trying, trying'⟩⟩
  | ends earlier _ _ _ closed => cases running.symm.trans closed
  | answered _ closed => cases running.symm.trans closed

theorem Turn.forth {before : Submission V} {after : Option (Submission V)}
    (turn : Turn (some before) after) :
    ∃ later, after = some later ∧ Continues before later ∧
      (before = later ∨ before.phase.isTrying = true) := by
  cases turn with
  | same => exact ⟨before, rfl, Continues.refl before, .inl rfl⟩
  | goesOn _ later continues trying => exact ⟨later, rfl, continues, .inr trying⟩
  | ends _ later continues trying => exact ⟨later, rfl, continues, .inr trying⟩

/-- A result is not lost. -/
theorem Turn.fixed {before : Submission V} {after : Option (Submission V)}
    (turn : Turn (some before) after)
    (result : before.phase.isTrying = false) : after = some before := by
  obtain ⟨later, rfl, -, rfl | trying⟩ := turn.forth
  · rfl
  · cases result.symm.trans trying

/-- A result does not come of it. -/
theorem Turn.unfixed {before : Option (Submission V)} {after : Submission V}
    (turn : Turn before (some after)) (running : after.phase.isOver = false)
    (result : after.phase.isTrying = false) : before = some after := by
  obtain ⟨earlier, rfl, -, rfl | ⟨-, trying⟩⟩ := turn.back running
  · rfl
  · cases result.symm.trans trying

theorem Turn.opened {before : Option (Submission V)} {after : Submission V}
    (turn : Turn before (some after)) (isOpen : after.phase.isOpen = true) :
    ∃ earlier, before = some earlier ∧ earlier.phase.isOpen = true ∧
      after.idempotencyKey = earlier.idempotencyKey := by
  have running : after.phase.isOver = false := by
    cases phase : after.phase with
    | repeated value => rw [phase] at isOpen; cases isOpen
    | rejected message => rw [phase] at isOpen; cases isOpen
    | _ => rfl
  obtain ⟨earlier, rfl, continues, rfl | ⟨trying, -⟩⟩ := turn.back running
  · exact ⟨earlier, rfl, isOpen, rfl⟩
  · exact ⟨earlier, rfl, Phase.isOpen_of_isTrying trying, continues.key⟩

theorem Returned.of_turn {before : Option (Submission V)} {after : Submission V}
    (returned : Returned after result time) (turn : Turn before (some after)) :
    before = some after := by
  apply turn.unfixed
  · rw [returned.phase]
    rfl
  · rw [returned.phase]
    rfl

theorem Inv.turn (inv : Inv c) {submissions : Map SubmissionId (Submission V)}
    (turned : Turned c.submissions submissions) : Inv { c with submissions := submissions } := by
  have fixed : ∀ {y other}, c.submissions y = some other → other.phase.isTrying = false →
      submissions y = some other := by
    intro y other there idle
    have turn := turned y
    rw [there] at turn
    exact turn.fixed idle
  have turn : ∀ {y other}, submissions y = some other → Turn (c.submissions y) (some other) := by
    intro y other there
    rw [← there]
    exact turned y
  refine ⟨?_, ?_, ?_, inv.past, ?_, ?_, ?_, ?_, inv.apart⟩
  · intro a attempt here
    obtain ⟨owner, found, key, kind⟩ := inv.owned a attempt here
    have turn := turned attempt.submission
    rw [found] at turn
    obtain ⟨later, known, continues, -⟩ := turn.forth
    exact ⟨later, known, continues.key.trans key, continues.kind.trans kind⟩
  · intro a attempt time result resolved
    obtain ⟨owner, found, carries⟩ := inv.won a attempt time result resolved
    refine ⟨owner, fixed found ?_, carries⟩
    cases carries with
    | raced phase => rw [phase]; rfl
    | returned latest returned le => rw [returned.phase]; rfl
  · intro y submission result found phase
    refine inv.credited y submission result ((turn found).unfixed ?_ ?_) phase
    · rcases phase with phase | phase
      · rw [phase]; rfl
      · rw [phase]; rfl
    · rcases phase with phase | phase
      · rw [phase]; rfl
      · rw [phase]; rfl
  · intro y z submission other here there isOpen isOpen' same
    obtain ⟨earlier, known, opened, key⟩ := (turn here).opened isOpen
    obtain ⟨earlier', known', opened', key'⟩ := (turn there).opened isOpen'
    exact inv.single y z earlier earlier' known known' opened opened'
      (key.symm.trans (same.trans key'))
  · intro key entry found
    obtain ⟨y, submission, known, same, returned⟩ := inv.stored key entry found
    refine ⟨y, submission, fixed known ?_, same, returned⟩
    rw [returned.phase]
    rfl
  · intro y submission result time found returned
    exact inv.kept y submission result time (returned.of_turn (turn found)) returned
  · intro y z submission other result time found isOpen there returned same
    obtain ⟨earlier, known, opened, key⟩ := (turn found).opened isOpen
    exact inv.elapsed y z earlier other result time known opened
      (returned.of_turn (turn there)) returned (same.trans key)

/-! ### Submissions that take a slot, and their calls -/

theorem Core.Forgotten.prune {key : String} (forgotten : c.Forgotten key)
    {store : Map String (Entry V)} (pruned : Pruned c store) :
    ({ c with store := store } : Core V).Forgotten key := by
  intro entry found
  rcases pruned key with same | ⟨gone, -⟩
  · exact forgotten entry (same.symm.trans found)
  · cases gone.symm.trans found

theorem Inv.enter (inv : Inv c) {after : Submission V} (new : c.submissions x = none)
    (trying : after.phase.isTrying = true) (forgotten : c.Forgotten after.idempotencyKey)
    (alone : ∀ y other, c.submissions y = some other →
      other.idempotencyKey = after.idempotencyKey → other.phase.isOpen = false) :
    Inv (c.put x after) := by
  have old : ∀ {y other}, c.submissions y = some other →
      c.submissions.set x after y = some other := by
    intro y other there
    refine (Map.set_of_ne _ _ ?_).trans there
    rintro rfl
    cases new.symm.trans there
  refine ⟨?_, ?_, ?_, inv.past, ?_, ?_, ?_, ?_, inv.apart⟩
  · intro a attempt here
    obtain ⟨owner, found, key, kind⟩ := inv.owned a attempt here
    exact ⟨owner, old found, key, kind⟩
  · intro a attempt time result resolved
    obtain ⟨owner, found, carries⟩ := inv.won a attempt time result resolved
    exact ⟨owner, old found, carries⟩
  · intro y submission result found phase
    rcases Map.set_eq_some.mp found with ⟨rfl, rfl⟩ | ⟨-, there⟩
    · rcases phase with phase | phase
      · rw [phase] at trying
        cases trying
      · rw [phase] at trying
        cases trying
    · exact inv.credited y submission result there phase
  · intro y z submission other here there isOpen isOpen' same
    rcases Map.set_eq_some.mp here with ⟨rfl, rfl⟩ | ⟨-, before⟩
    · rcases Map.set_eq_some.mp there with ⟨rfl, rfl⟩ | ⟨-, before'⟩
      · rfl
      · cases isOpen'.symm.trans (alone z other before' same.symm)
    · rcases Map.set_eq_some.mp there with ⟨rfl, rfl⟩ | ⟨-, before'⟩
      · cases isOpen.symm.trans (alone y submission before same)
      · exact inv.single y z submission other before before' isOpen isOpen' same
  · intro key entry found
    obtain ⟨y, submission, known, same, returned⟩ := inv.stored key entry found
    exact ⟨y, submission, old known, same, returned⟩
  · intro y submission result time found returned
    rcases Map.set_eq_some.mp found with ⟨rfl, rfl⟩ | ⟨-, there⟩
    · rw [returned.phase] at trying
      cases trying
    · exact inv.kept y submission result time there returned
  · intro y z submission other result time found isOpen there returned same
    rcases Map.set_eq_some.mp there with ⟨rfl, rfl⟩ | ⟨-, before'⟩
    · rw [returned.phase] at trying
      cases trying
    · rcases Map.set_eq_some.mp found with ⟨rfl, rfl⟩ | ⟨-, before⟩
      · rcases inv.kept z other result time before' returned with expired | there
        · exact expired
        · exact forgotten ⟨time, result⟩ (same ▸ there)
      · exact inv.elapsed y z submission other result time before isOpen before' returned same

theorem getElem?_push {α : Type} {list : List α} {new old : α} {k : Nat} :
    (list ++ [new])[k]? = some old ↔ list[k]? = some old ∨ k = list.length ∧ new = old := by
  rw [List.getElem?_append]
  split
  · next lt => exact (or_iff_left fun both => (Nat.ne_of_lt lt) both.1).symm
  · next ge =>
      rw [List.getElem?_eq_none (Nat.le_of_not_lt ge)]
      by_cases last : k = list.length
      · simp [last]
      · have beyond : k - list.length ≠ 0 := by omega
        simp [last, beyond]

theorem Inv.push (inv : Inv c) {owner : Submission V} {new : Attempt V}
    (owns : Owns c.submissions new owner) (running : new.outcome = .running) :
    Inv { c with attempts := c.attempts ++ [new] } := by
  have old : ∀ {a attempt time result}, Resolved (c.attempts ++ [new]) a attempt time result →
      Resolved c.attempts a attempt time result := by
    intro a attempt time result resolved
    rcases getElem?_push.mp resolved.found with before | ⟨-, rfl⟩
    · exact ⟨before, resolved.outcome⟩
    · cases running.symm.trans resolved.outcome
  refine ⟨?_, ?_, ?_, ?_, inv.single, inv.stored, inv.kept, inv.elapsed, ?_⟩
  · intro a attempt here
    rcases getElem?_push.mp here with before | ⟨-, rfl⟩
    · exact inv.owned a attempt before
    · exact ⟨owner, owns⟩
  · intro a attempt time result resolved
    exact inv.won a attempt time result (old resolved)
  · intro y submission result found phase
    obtain ⟨a, attempt, time, ⟨here, outcome⟩, own⟩ := inv.credited y submission result found phase
    exact ⟨a, attempt, time, ⟨getElem?_push.mpr (.inl here), outcome⟩, own⟩
  · intro a attempt time result resolved
    exact inv.past a attempt time result (old resolved)
  · intro a b attempt other time time' result result' differ resolved resolved'
    exact inv.apart a b attempt other time time' result result' differ (old resolved)
      (old resolved')

theorem Inv.start {submission : Submission V}
    (put : Inv (c.put x { submission with phase := .running c.attempts.length true })) :
    Inv (c.start x submission) := by
  have owns : Owns (c.put x { submission with phase := .running c.attempts.length true }).submissions
      ⟨x, submission.idempotencyKey, submission.kind, .running⟩
      { submission with phase := .running c.attempts.length true } :=
    ⟨Map.set_self .., rfl, rfl⟩
  exact put.push owns rfl

/-! ### Calls that settle -/

theorem getElem?_set {α : Type} {list : List α} {before after other : α} {k l : Nat}
    (found : list[k]? = some before) (there : (list.set k after)[l]? = some other) :
    l = k ∧ after = other ∨ l ≠ k ∧ list[l]? = some other := by
  by_cases same : l = k
  · subst same
    rw [List.getElem?_set_self (List.getElem?_eq_some_iff.mp found).1] at there
    exact .inl ⟨rfl, Option.some.inj there⟩
  · exact .inr ⟨same, (List.getElem?_set_ne (Ne.symm same)).symm.trans there⟩

theorem Resolved.set {attempts : List (Attempt V)} {b : AttemptId} {other after : Attempt V}
    (resolved : Resolved attempts a attempt time result) (found : attempts[b]? = some other)
    (running : other.outcome = .running) : Resolved (attempts.set b after) a attempt time result := by
  have differs : b ≠ a := by
    rintro rfl
    cases found.symm.trans resolved.found
    cases running.symm.trans resolved.outcome
  exact ⟨(List.getElem?_set_ne differs).trans resolved.found, resolved.outcome⟩

theorem Inv.fail (inv : Inv c) (found : c.attempts[a]? = some attempt)
    (running : attempt.outcome = .running) (message : String) :
    Inv { c with attempts := c.attempts.set a { attempt with outcome := .rejected message } } := by
  have old : ∀ {b other time result},
      Resolved (c.attempts.set a { attempt with outcome := .rejected message }) b other time result →
        Resolved c.attempts b other time result := by
    intro b other time result resolved
    rcases getElem?_set found resolved.found with ⟨rfl, rfl⟩ | ⟨-, before⟩
    · cases resolved.outcome
    · exact ⟨before, resolved.outcome⟩
  refine ⟨?_, ?_, ?_, ?_, inv.single, inv.stored, inv.kept, inv.elapsed, ?_⟩
  · intro b other there
    rcases getElem?_set found there with ⟨rfl, rfl⟩ | ⟨-, before⟩
    · obtain ⟨owner, known, key, kind⟩ := inv.owned b attempt found
      exact ⟨owner, known, key, kind⟩
    · exact inv.owned b other before
  · intro b other time result resolved
    exact inv.won b other time result (old resolved)
  · intro y submission result there phase
    obtain ⟨b, other, time, resolved, own⟩ := inv.credited y submission result there phase
    exact ⟨b, other, time, resolved.set found running, own⟩
  · intro b other time result resolved
    exact inv.past b other time result (old resolved)
  · intro b b' other other' time time' result result' differ resolved resolved'
    exact inv.apart b b' other other' time time' result result' differ (old resolved)
      (old resolved')

/-- A submission that was open with its key still is the only one. -/
theorem Inv.single_put (inv : Inv c) {before after : Submission V}
    (found : c.submissions x = some before) (isOpen : before.phase.isOpen = true)
    (continues : Continues before after) (y z : SubmissionId) (submission other : Submission V)
    (here : (c.put x after).submissions y = some submission)
    (there : (c.put x after).submissions z = some other) (isOpen' : submission.phase.isOpen = true)
    (isOpen'' : other.phase.isOpen = true)
    (same : submission.idempotencyKey = other.idempotencyKey) : y = z := by
  rcases Map.set_eq_some.mp here with ⟨rfl, rfl⟩ | ⟨-, earlier⟩
  · rcases Map.set_eq_some.mp there with ⟨rfl, rfl⟩ | ⟨-, earlier'⟩
    · rfl
    · exact inv.single y z before other found earlier' isOpen isOpen''
        (continues.key.symm.trans same)
  · rcases Map.set_eq_some.mp there with ⟨rfl, rfl⟩ | ⟨-, earlier'⟩
    · exact inv.single y z submission before earlier found isOpen' isOpen
        (same.trans continues.key)
    · exact inv.single y z submission other earlier earlier' isOpen' isOpen'' same

theorem Inv.owned_put (inv : Inv c) {before after : Submission V}
    (found : c.submissions x = some before) (continues : Continues before after)
    (here : c.attempts[a]? = some attempt) :
    ∃ owner, Owns (c.put x after).submissions attempt owner := by
  obtain ⟨owner, known, key, kind⟩ := inv.owned a attempt here
  by_cases own : attempt.submission = x
  · rw [own, found] at known
    cases known
    exact ⟨after, Map.set_eq_some.mpr (.inl ⟨own, rfl⟩), continues.key.trans key,
      continues.kind.trans kind⟩
  · exact ⟨owner, (Map.set_of_ne _ _ own).trans known, key, kind⟩

theorem Inv.win (inv : Inv c) (here : c.attempts[a]? = some attempt)
    (running : attempt.outcome = .running) {before after : Submission V}
    (owner : c.submissions attempt.submission = some before) {listening : Bool}
    (racing : before.phase = .running a listening) (continues : Continues before after)
    (phase : after.phase = .raced (.ok result)) :
    Inv { c.put attempt.submission after with
      attempts := c.attempts.set a { attempt with outcome := .resolved c.clock result } } := by
  have isOpen : before.phase.isOpen = true := by
    rw [racing]
    rfl
  -- the results of the other calls for the key have expired
  have recent : ∀ {b other time result}, Resolved c.attempts b other time result →
      other.idempotencyKey = attempt.idempotencyKey → c.isExpired time = true := by
    intro b other time result resolved same
    obtain ⟨owner', known, key, -⟩ := inv.owned a attempt here
    cases owner.symm.trans known
    rcases inv.recent owner isOpen resolved (same.trans key.symm) with expired | raced
    · exact expired
    · cases racing.symm.trans raced
  have idle : ∀ {y other}, c.submissions y = some other → other.phase ≠ .running a listening →
      (c.put attempt.submission after).submissions y = some other := by
    intro y other there rests
    refine (Map.set_of_ne _ _ ?_).trans there
    rintro rfl
    cases owner.symm.trans there
    exact rests racing
  refine ⟨?_, ?_, ?_, ?_, inv.single_put owner isOpen continues, ?_, ?_, ?_, ?_⟩
  · intro b other there
    rcases getElem?_set here there with ⟨rfl, rfl⟩ | ⟨-, old⟩
    · obtain ⟨owner, known, key, kind⟩ := inv.owned_put owner continues here
      exact ⟨owner, known, key, kind⟩
    · exact inv.owned_put owner continues old
  · intro b other time result' resolved
    rcases getElem?_set here resolved.found with ⟨rfl, rfl⟩ | ⟨-, old⟩
    · cases resolved.outcome
      exact ⟨after, Map.set_self .., .raced phase⟩
    · obtain ⟨owner', known, carries⟩ := inv.won b other time result' ⟨old, resolved.outcome⟩
      refine ⟨owner', idle known fun runs => ?_, carries⟩
      cases carries with
      | raced raced => cases runs.symm.trans raced
      | returned latest returned le => cases runs.symm.trans returned.phase
  · intro y submission result' there ended
    rcases Map.set_eq_some.mp there with ⟨rfl, rfl⟩ | ⟨-, earlier⟩
    · have same : result = result' := by
        rcases ended with raced | returned
        · cases phase.symm.trans raced
          rfl
        · cases phase.symm.trans returned
      subst same
      refine ⟨a, { attempt with outcome := .resolved c.clock result }, c.clock, ⟨?_, rfl⟩, rfl⟩
      exact List.getElem?_set_self (List.getElem?_eq_some_iff.mp here).1
    · obtain ⟨b, other, time, resolved, own⟩ := inv.credited y submission result' earlier ended
      exact ⟨b, other, time, resolved.set here running, own⟩
  · intro b other time result' resolved
    rcases getElem?_set here resolved.found with ⟨rfl, rfl⟩ | ⟨-, old⟩
    · cases resolved.outcome
      exact le_refl c.clock
    · exact inv.past b other time result' ⟨old, resolved.outcome⟩
  · intro key entry stored
    obtain ⟨y, submission, known, same, returned⟩ := inv.stored key entry stored
    refine ⟨y, submission, idle known fun runs => ?_, same, returned⟩
    cases runs.symm.trans returned.phase
  · intro y submission result' time there returned
    rcases Map.set_eq_some.mp there with ⟨rfl, rfl⟩ | ⟨-, earlier⟩
    · cases phase.symm.trans returned.phase
    · exact inv.kept y submission result' time earlier returned
  · intro y z submission other result' time there isOpen' there' returned same
    rcases Map.set_eq_some.mp there' with ⟨rfl, rfl⟩ | ⟨-, earlier'⟩
    · cases phase.symm.trans returned.phase
    · rcases Map.set_eq_some.mp there with ⟨rfl, rfl⟩ | ⟨-, earlier⟩
      · exact inv.elapsed _ z before other result' time owner isOpen earlier' returned
          (same.trans continues.key)
      · exact inv.elapsed y z submission other result' time earlier isOpen' earlier' returned same
  · intro b b' other other' time time' result result' differ resolved resolved' same le
    rcases getElem?_set here resolved.found with ⟨rfl, rfl⟩ | ⟨-, old⟩
    · rcases getElem?_set here resolved'.found with ⟨rfl, rfl⟩ | ⟨-, old'⟩
      · exact absurd rfl differ
      · have now := resolved.outcome
        cases now
        have latest := inv.past b' other' time' result' ⟨old', resolved'.outcome⟩
        have expired := recent ⟨old', resolved'.outcome⟩ same.symm
        rw [le_antisymm latest le] at expired ⊢
        exact expired
    · rcases getElem?_set here resolved'.found with ⟨rfl, rfl⟩ | ⟨-, old'⟩
      · have now := resolved'.outcome
        cases now
        exact recent ⟨old, resolved.outcome⟩ same
      · exact inv.apart b b' other other' time time' result result' differ
          ⟨old, resolved.outcome⟩ ⟨old', resolved'.outcome⟩ same le

/-- The result of a race is stored. -/
theorem Inv.complete (inv : Inv c) {before after : Submission V}
    (found : c.submissions x = some before) (phase : before.phase = .raced (.ok result))
    (continues : Continues before after) (returned : Returned after result c.clock) :
    Inv { c.put x after with store := c.store.set before.idempotencyKey ⟨c.clock, result⟩ } := by
  have isOpen : before.phase.isOpen = true := by
    rw [phase]
    rfl
  refine ⟨?_, ?_, ?_, inv.past, inv.single_put found isOpen continues, ?_, ?_, ?_, inv.apart⟩
  · intro a attempt here
    exact inv.owned_put found continues here
  · intro a attempt time result' resolved
    obtain ⟨owner, known, carries⟩ := inv.won a attempt time result' resolved
    by_cases own : attempt.submission = x
    · rw [own, found] at known
      cases known
      refine ⟨after, Map.set_eq_some.mpr (.inl ⟨own, rfl⟩), ?_⟩
      cases carries with
      | raced raced =>
          cases phase.symm.trans raced
          exact .returned c.clock returned (inv.past a attempt time result resolved)
      | returned latest returned le => cases phase.symm.trans returned.phase
    · exact ⟨owner, (Map.set_of_ne _ _ own).trans known, carries⟩
  · intro y submission result' there ended
    rcases Map.set_eq_some.mp there with ⟨rfl, rfl⟩ | ⟨-, earlier⟩
    · have same : result = result' := by
        rcases ended with raced | returned'
        · cases returned.phase.symm.trans raced
        · cases returned.phase.symm.trans returned'
          rfl
      subst same
      exact inv.credited y before result found (.inl phase)
    · exact inv.credited y submission result' earlier ended
  · intro key entry stored
    rcases Map.set_eq_some.mp stored with ⟨rfl, rfl⟩ | ⟨-, earlier⟩
    · exact ⟨x, after, Map.set_self .., continues.key, returned⟩
    · obtain ⟨y, submission, known, same, returned'⟩ := inv.stored key entry earlier
      refine ⟨y, submission, (Map.set_of_ne _ _ ?_).trans known, same, returned'⟩
      rintro rfl
      cases found.symm.trans known
      cases phase.symm.trans returned'.phase
  · intro y submission result' time there returned'
    rcases Map.set_eq_some.mp there with ⟨rfl, rfl⟩ | ⟨-, earlier⟩
    · cases returned.phase.symm.trans returned'.phase
      cases returned.completed.symm.trans returned'.completed
      exact .inr (Map.set_eq_some.mpr (.inl ⟨continues.key, rfl⟩))
    · by_cases same : submission.idempotencyKey = before.idempotencyKey
      · exact .inl (inv.elapsed x y before submission result' time found isOpen earlier returned'
          same)
      · exact (inv.kept y submission result' time earlier returned').imp_right
          (Map.set_of_ne _ _ same).trans
  · intro y z submission other result' time there isOpen' there' returned' same
    rcases Map.set_eq_some.mp there with ⟨rfl, rfl⟩ | ⟨-, earlier⟩
    · rw [returned.phase] at isOpen'
      cases isOpen'
    · rcases Map.set_eq_some.mp there' with ⟨rfl, rfl⟩ | ⟨differs, earlier'⟩
      · -- it was the only one that was open for its key
        have only := inv.single y z submission before earlier found isOpen' isOpen
          (same.symm.trans continues.key)
        subst only
        cases (Map.set_self ..).symm.trans there
        rw [returned.phase] at isOpen'
        cases isOpen'
      · exact inv.elapsed y z submission other result' time earlier isOpen' earlier' returned' same

theorem Inv.effect (inv : Inv c) {event : Event V} {c' : Core V} (effect : Effect c event c') :
    Inv c' := by
  cases effect with
  | clock now silent later => exact inv.advance later
  | pruned store silent pruned => exact inv.prune pruned
  | turned submissions silent turned => exact inv.turn turned
  | repeated x kind operationId key submission result entry submits new found valid stored phase =>
      refine inv.turn (Turned.set ?_)
      rw [new]
      exact .answered submission (by rw [phase]; rfl)
  | refused x kind operationId key submission message store submits new pruned forgotten phase =>
      refine (inv.prune pruned).turn (Turned.set ?_)
      change Turn (c.submissions x) _
      rw [new]
      exact .answered submission (by rw [phase]; rfl)
  | admitted x kind operationId key submission store submits new pruned forgotten sameKey sameKind
      alone quiet =>
      subst sameKey
      exact Inv.start ((inv.prune pruned).enter new rfl (forgotten.prune pruned) alone)
  | resumed x before after silent found phase continues quiet =>
      refine Inv.start (inv.turn (Turned.set ?_))
      rw [found]
      exact .goesOn _ _ ⟨continues.key, continues.kind⟩ (by rw [phase]; rfl) rfl
  | failed a attempt message submissions silent found running turned =>
      exact (inv.turn turned).fail found running message
  | won a attempt before after listening result silent found running owner racing continues phase =>
      exact inv.win found running owner racing continues phase
  | completed x before after result silent found phase continues returned =>
      exact inv.complete found phase continues returned

/-! ### Runs -/

variable {c' : Core V} {event : Event V} {key : String} {kind : OperationType}
  {operationId : OperationId}

theorem Effect.config_eq (effect : Effect c event c') : c'.config = c.config := by
  cases effect <;> rfl

/-- A submission is answered with what is stored. -/
theorem Effect.repeats (effect : Effect c event c')
    (submits : submitting event = some (x, kind, operationId, key)) {entry : Entry V} {value : V}
    (found : c.store key = some entry) (valid : c.isExpired entry.timestamp = false)
    (stored : entry.result = some value) :
    ∃ submission, c'.submissions x = some submission ∧ submission.phase = .repeated value := by
  cases effect with
  | repeated x' kind' operationId' key' submission result entry' submits' new found' valid' stored'
      phase =>
      cases submits.symm.trans submits'
      cases found.symm.trans found'
      cases stored.symm.trans stored'
      exact ⟨submission, Map.set_self .., phase⟩
  | refused x' kind' operationId' key' submission message store submits' new pruned forgotten =>
      cases submits.symm.trans submits'
      cases valid.symm.trans (forgotten entry found)
  | admitted x' kind' operationId' key' submission store submits' new pruned forgotten =>
      cases submits.symm.trans submits'
      cases valid.symm.trans (forgotten entry found)
  | clock now silent => cases silent.symm.trans submits
  | pruned store silent => cases silent.symm.trans submits
  | turned submissions silent => cases silent.symm.trans submits
  | resumed x before after silent => cases silent.symm.trans submits
  | failed a attempt message submissions silent => cases silent.symm.trans submits
  | won a attempt before after listening result silent => cases silent.symm.trans submits
  | completed x before after result silent => cases silent.symm.trans submits

/-- What a submission is answered with is stored. -/
theorem Effect.answers (effect : Effect c event c')
    (submits : submitting event = some (x, kind, operationId, key)) {submission : Submission V}
    {value : V} (here : c'.submissions x = some submission)
    (answered : submission.phase = .repeated value) :
    ∃ entry, c.store key = some entry ∧ c.isExpired entry.timestamp = false ∧
      entry.result = some value := by
  cases effect with
  | repeated x' kind' operationId' key' submission' result entry submits' new found valid stored
      phase =>
      cases submits.symm.trans submits'
      cases (Map.set_self ..).symm.trans here
      cases phase.symm.trans answered
      exact ⟨entry, found, valid, stored⟩
  | refused x' kind' operationId' key' submission' message store submits' new pruned forgotten
      phase =>
      cases submits.symm.trans submits'
      cases (Map.set_self ..).symm.trans here
      cases phase.symm.trans answered
  | admitted x' kind' operationId' key' submission' store submits' =>
      cases submits.symm.trans submits'
      cases (Map.set_self ..).symm.trans here
      cases answered
  | clock now silent => cases silent.symm.trans submits
  | pruned store silent => cases silent.symm.trans submits
  | turned submissions silent => cases silent.symm.trans submits
  | resumed x before after silent => cases silent.symm.trans submits
  | failed a attempt message submissions silent => cases silent.symm.trans submits
  | won a attempt before after listening result silent => cases silent.symm.trans submits
  | completed x before after result silent => cases silent.symm.trans submits

/-- While a call runs, no other one starts for its key. -/
theorem Effect.alone (inv : Inv c) (effect : Effect c event c') {b : AttemptId}
    {other : Attempt V} (new : c.attempts[a]? = none) (starts : c'.attempts[a]? = some attempt)
    (here : c.attempts[b]? = some other) (same : other.idempotencyKey = attempt.idempotencyKey) :
    other.outcome ≠ .running := by
  intro running
  have unset : ∀ {b : AttemptId} {after}, (c.attempts.set b after)[a]? ≠ some attempt := by
    intro b after there
    obtain ⟨lt, -⟩ := List.getElem?_eq_some_iff.mp there
    rw [List.length_set] at lt
    exact absurd lt (Nat.not_lt.mpr (List.getElem?_eq_none_iff.mp new))
  obtain ⟨owner, known, sameKey, -⟩ := inv.owned b other here
  have races : ∀ {key}, attempt.idempotencyKey = key → c.Quiet key →
      owner.idempotencyKey = key ∧ ∃ listening, owner.phase = .running b listening := by
    intro key mine quiet
    obtain ⟨owner', listening, known', phase⟩ := quiet b other here (same.trans mine) running
    cases known.symm.trans known'
    exact ⟨sameKey.trans (same.trans mine), listening, phase⟩
  cases effect with
  | admitted x kind operationId key submission store submits new' pruned forgotten sameKey' sameKind
      alone quiet =>
      subst sameKey'
      rcases getElem?_push.mp starts with old | ⟨-, rfl⟩
      · cases new.symm.trans old
      · obtain ⟨mine, listening, phase⟩ := races rfl quiet
        have closed := alone other.submission owner known mine
        rw [phase] at closed
        cases closed
  | resumed x before after silent found phase continues quiet =>
      rcases getElem?_push.mp starts with old | ⟨-, rfl⟩
      · cases new.symm.trans old
      · obtain ⟨mine, listening, racing⟩ := races continues.key quiet
        have own := inv.single _ x owner before known found (by rw [racing]; rfl)
          (by rw [phase]; rfl) mine
        rw [own, found] at known
        cases known
        cases phase.symm.trans racing
  | failed => exact unset starts
  | won => exact unset starts
  | clock => cases new.symm.trans starts
  | pruned => cases new.symm.trans starts
  | turned => cases new.symm.trans starts
  | repeated => cases new.symm.trans starts
  | refused => cases new.symm.trans starts
  | completed => cases new.symm.trans starts

/-- A submission is answered with the result that was returned to another one of its kind for
its key within the window; what it is answered with is the result of a call of its kind for
its key; no call starts while another one for its key runs. -/
structure Once (r : Step V) : Prop where
  repeats : ∀ x kind operationId key, submitting r.event = some (x, kind, operationId, key) →
    ∀ y other result time, r.pre.submissions y = some other → other.idempotencyKey = key →
      Returned other result time → r.pre.isExpired time = false →
      other.kind = kind ∧ ∃ value submission, result = some value ∧
        r.post.submissions x = some submission ∧ submission.phase = .repeated value
  answers : ∀ x kind operationId key, submitting r.event = some (x, kind, operationId, key) →
    ∀ submission value, r.post.submissions x = some submission →
      submission.phase = .repeated value → ∃ a attempt time,
        Resolved r.pre.attempts a attempt time (some value) ∧ attempt.idempotencyKey = key ∧
          attempt.operationType = kind
  alone : ∀ (a b : AttemptId) attempt other, r.pre.attempts[a]? = none →
    r.post.attempts[a]? = some attempt → r.pre.attempts[b]? = some other →
    other.idempotencyKey = attempt.idempotencyKey → other.outcome ≠ .running

/-- Between two calls for a key that resolve, the window elapses. -/
structure AtMostOnce (window : Number) (h : List (Step V)) (s : State V) : Prop where
  apart : ∀ a b attempt other time time' result result', a ≠ b →
    Resolved s.attempts a attempt time result → Resolved s.attempts b other time' result' →
    attempt.idempotencyKey = other.idempotencyKey → time ≤ time' →
    isExpired window time' time = true
  steps : ∀ r ∈ h, Once r

theorem Once.of_effect {r : Step V} (inv : Inv r.pre.core) (guarded : Guarded r)
    (effect : Effect r.pre.core r.event r.post.core) : Once r where
  repeats x kind operationId key submits y other result time found same returned valid := by
    have unrivalled := guarded.unrivalled submits
    rcases inv.kept y other result time found returned with expired | stored
    · cases valid.symm.trans expired
    · rw [same] at stored
      obtain ⟨value, rfl⟩ := Option.ne_none_iff_exists'.mp
        (unrivalled.defined ⟨time, result⟩ stored valid)
      obtain ⟨submission, here, phase⟩ := effect.repeats submits stored valid rfl
      exact ⟨unrivalled.kind y other (some value) time found same returned valid, value, submission,
        rfl, here, phase⟩
  answers x kind operationId key submits submission value here answered := by
    have unrivalled := guarded.unrivalled submits
    obtain ⟨entry, stored, valid, same⟩ := effect.answers submits here answered
    obtain ⟨y, other, found, sameKey, returned⟩ := inv.stored key entry stored
    have sameKind := unrivalled.kind y other _ _ found sameKey returned valid
    obtain ⟨a, attempt, time, resolved, own⟩ :=
      inv.credited y other entry.result found (.inr returned.phase)
    obtain ⟨owner, known, ownKey, ownKind⟩ := inv.owned a attempt resolved.found
    rw [own, found] at known
    cases known
    rw [same] at resolved
    exact ⟨a, attempt, time, resolved, ownKey.symm.trans sameKey, ownKind.symm.trans sameKind⟩
  alone a b attempt other new starts here same := effect.alone inv new starts here same

/-- In a run whose steps are guarded, an operation runs at most once per key and window. -/
theorem at_most_once {config : OperationConfig} {start : Int} {h : List (Step V)} {s : State V}
    (run : Run (machine V config start) h s) (guarded : ∀ r ∈ h, Guarded r) :
    AtMostOnce config.idempotencyWindow h s := by
  have holds : (Inv s.core ∧ s.config = config) ∧ ∀ r ∈ h, Once r := by
    apply run.history (I := fun h s => (Inv s.core ∧ s.config = config) ∧ ∀ r ∈ h, Once r) guarded
    · exact ⟨⟨Inv.init start config, rfl⟩, fun r mem => nomatch mem⟩
    · rintro h t e t' ⟨⟨inv, same⟩, once⟩ ok guard
      have effect := step_effect guard ok
      refine ⟨⟨inv.effect effect, effect.config_eq.trans same⟩, fun r mem => ?_⟩
      rcases List.mem_cons.mp mem with rfl | earlier
      · exact Once.of_effect inv guard effect
      · exact once r earlier
  obtain ⟨⟨inv, same⟩, once⟩ := holds
  refine ⟨fun a b attempt other time time' result result' differ resolved resolved' key le => ?_,
    once⟩
  rw [← same]
  exact inv.apart a b attempt other time time' result result' differ resolved resolved' key le

/-! ### A purchase, and purchases that are made twice -/

abbrev manager : Machine (State String) (Event String) := machine String defaultOperationConfig 0

def paying (phase : Phase String) : Submission String where
  idempotencyKey := "key"
  context := ⟨"intent", .intentSubmission, .processing, 1, 0, 0, none, none, defaultOperationConfig⟩
  phase := phase

def paid : Submission String where
  idempotencyKey := "key"
  context :=
    ⟨"intent", .intentSubmission, .completed, 1, 0, 0, some 0, none, defaultOperationConfig⟩
  phase := .returned (some "receipt")

def asked : State String where
  clock := 0
  config := defaultOperationConfig
  store := Map.empty
  active := [("intent", 0)]
  cancelled := []
  submissions := Map.empty.set 0 (paying (.running 0 true))
  attempts := [⟨0, "key", .intentSubmission, .running⟩]

def answered : State String :=
  { asked with
    submissions := asked.submissions.set 0 (paying (.raced (.ok (some "receipt"))))
    attempts := [⟨0, "key", .intentSubmission, .resolved 0 (some "receipt")⟩] }

def bought : State String :=
  { answered with
    store := Map.empty.set "key" ⟨0, some "receipt"⟩
    active := []
    submissions := answered.submissions.set 0 paid }

theorem asked_step : step manager.init (.submitIntent 0 "intent" "key") = some asked := by
  have free : manager.init.canStart = true := by decide +kernel
  have tries : ¬ defaultOperationConfig.maxRetries + 1 < (((1 : ℕ) : ℚ) : Number) := by
    decide +kernel
  change some (manager.init.enter 0
    ⟨"key", newContext manager.init "intent" .intentSubmission, .retrying⟩) = _
  unfold State.enter State.register
  dsimp only
  rw [free, if_neg (by decide), if_pos rfl]
  dsimp only
  rw [if_neg (by decide)]
  unfold State.tryAttempt
  exact congrArg some ((if_neg tries).trans (if_neg List.not_mem_nil))

theorem bought_run : Run manager
    [⟨answered, .finished 0, bought⟩, ⟨asked, .resolved 0 (some "receipt"), answered⟩,
      ⟨manager.init, .submitIntent 0 "intent" "key", asked⟩] bought :=
  .step (.step (.step .refl asked_step) rfl) rfl

theorem bought_submission {y : SubmissionId} {other : Submission String}
    (found : bought.submissions y = some other) : other = paid := by
  rcases Map.set_eq_some.mp found with ⟨-, rfl⟩ | ⟨differs, before⟩
  · rfl
  · rcases Map.set_eq_some.mp before with ⟨same, -⟩ | ⟨-, before⟩
    · exact absurd same differs
    · rcases Map.set_eq_some.mp before with ⟨same, -⟩ | ⟨-, before⟩
      · exact absurd same differs
      · cases before

theorem bought_unrivalled : Unrivalled bought .intentSubmission "again" "key" where
  alone _ _ y other found _ := by
    rw [bought_submission found]
    rfl
  quiet _ _ a attempt here _ running := by
    cases a with
    | zero =>
        cases here
        cases running
    | succ a => cases here
  defined entry found _ missing := by
    have stored : Map.set Map.empty "key" ⟨0, some "receipt"⟩ "key" = some entry := found
    rw [Map.set_self] at stored
    cases stored
    cases missing
  kind y other result time found _ _ _ := by
    rw [bought_submission found]
    rfl

theorem at_most_once_bought : AtMostOnce defaultOperationConfig.idempotencyWindow
    [⟨bought, .submitIntent 1 "again" "key", bought.submitIntent 1 "again" "key"⟩,
      ⟨answered, .finished 0, bought⟩, ⟨asked, .resolved 0 (some "receipt"), answered⟩,
      ⟨manager.init, .submitIntent 0 "intent" "key", asked⟩]
    (bought.submitIntent 1 "again" "key") := by
  apply at_most_once (bought_run.step rfl)
  intro r mem
  simp only [List.mem_cons, List.not_mem_nil, or_false] at mem
  rcases mem with rfl | rfl | rfl | rfl
  · exact bought_unrivalled
  · exact trivial
  · intro attempt here
    cases here
    exact ⟨_, true, rfl, rfl⟩
  · exact ⟨fun _ _ y other found => (nomatch found), fun _ _ a attempt here => (nomatch here),
      fun entry found => (nomatch found), fun y other result time found => (nomatch found)⟩

def played (events : List (Event String)) : List (Step String) × State String :=
  manager.play events ([], manager.init)

/-- Two submissions come for one key before the operation has run. -/
def rivals : List (Event String) :=
  [.submitIntent 0 "first" "key", .submitIntent 1 "second" "key", .resolved 0 (some "receipt"),
    .resolved 1 (some "receipt")]

/-- The operation takes longer than the timeout, and so is called again. -/
def outlived : List (Event String) :=
  [.submitIntent 0 "intent" "key", .timedOut 0, .finished 0, .resumed 0,
    .resolved 0 (some "receipt"), .resolved 1 (some "receipt")]

/-- The operation resolves to `undefined`. -/
def unresulted : List (Event String) :=
  [.submitIntent 0 "intent" "key", .resolved 0 none, .finished 0, .submitIntent 1 "intent" "key",
    .resolved 1 none]

/-- A decision comes with the key of an intent. -/
def crossed : List (Event String) :=
  [.submitIntent 0 "intent" "key", .resolved 0 (some "receipt"), .finished 0,
    .evaluateDecision 1 "key"]

theorem not_atMostOnce {h : List (Step String)} {s : State String} {attempt other : Attempt String}
    {result result' : Option String} (first : s.attempts[0]? = some attempt)
    (second : s.attempts[1]? = some other) (outcome : attempt.outcome = .resolved 0 result)
    (outcome' : other.outcome = .resolved 0 result')
    (same : attempt.idempotencyKey = other.idempotencyKey) :
    ¬ AtMostOnce defaultOperationConfig.idempotencyWindow h s := by
  intro once
  have expired := once.apart 0 1 attempt other 0 0 result result' (by decide) ⟨first, outcome⟩
    ⟨second, outcome'⟩ same (le_refl 0)
  have recent : isExpired defaultOperationConfig.idempotencyWindow 0 0 = false := by
    decide
  cases recent.symm.trans expired

theorem ran_twice :
    ¬ AtMostOnce defaultOperationConfig.idempotencyWindow (played rivals).1 (played rivals).2 ∧
    ¬ AtMostOnce defaultOperationConfig.idempotencyWindow (played outlived).1 (played outlived).2 ∧
    ¬ AtMostOnce defaultOperationConfig.idempotencyWindow (played unresulted).1
      (played unresulted).2 ∧
    ¬ AtMostOnce defaultOperationConfig.idempotencyWindow (played crossed).1 (played crossed).2 := by
  refine ⟨?_, ?_, ?_, ?_⟩
  · have first : (played rivals).2.attempts[0]? =
        some ⟨0, "key", .intentSubmission, .resolved 0 (some "receipt")⟩ := by decide +kernel
    have second : (played rivals).2.attempts[1]? =
        some ⟨1, "key", .intentSubmission, .resolved 0 (some "receipt")⟩ := by decide +kernel
    exact not_atMostOnce first second rfl rfl rfl
  · have first : (played outlived).2.attempts[0]? =
        some ⟨0, "key", .intentSubmission, .resolved 0 (some "receipt")⟩ := by decide +kernel
    have second : (played outlived).2.attempts[1]? =
        some ⟨0, "key", .intentSubmission, .resolved 0 (some "receipt")⟩ := by decide +kernel
    exact not_atMostOnce first second rfl rfl rfl
  · have first : (played unresulted).2.attempts[0]? =
        some ⟨0, "key", .intentSubmission, .resolved 0 none⟩ := by decide +kernel
    have second : (played unresulted).2.attempts[1]? =
        some ⟨1, "key", .intentSubmission, .resolved 0 none⟩ := by decide +kernel
    exact not_atMostOnce first second rfl rfl rfl
  · intro once
    have last : (⟨bought, .evaluateDecision 1 "key", bought.evaluateDecision 1 "key"⟩ :
        Step String) ∈ (played crossed).1 := by
      have first : manager.step manager.init (.submitIntent 0 "intent" "key") = some asked :=
        asked_step
      have second : manager.step asked (.resolved 0 (some "receipt")) = some answered := rfl
      have third : manager.step answered (.finished 0) = some bought := rfl
      have fourth : manager.step bought (.evaluateDecision 1 "key") =
        some (bought.evaluateDecision 1 "key") := rfl
      simp only [played, crossed, Machine.play, first, second, third, fourth, List.mem_cons,
        true_or]
    have found : bought.submissions 0 = some paid := Map.set_self answered.submissions 0 paid
    have differs := (once.steps _ last).repeats 1 .decisionEvaluation "key" "key" rfl 0 paid
      (some "receipt") 0 found rfl ⟨rfl, rfl⟩ (by decide +kernel)
    cases differs.1

end Talos.Sdk.Operations
