import Talos.Encoding.Decimal
import Talos.Encoding.JsonText
import Mathlib.Algebra.Order.Floor.Ring
import Mathlib.Data.Rat.Floor

/-!
# Retries under an idempotency key

`withIdempotency` of `packages/sdk/src/idempotency.ts`. A call calls its function until it succeeds,
or fails for good, or the attempts are used up, or the signal aborts. An abort during the wait
between two attempts is thrown as it is, and a limit that is no whole number allows one attempt too
many (`withIdempotency_lawful_iff`).
-/

namespace Talos.Sdk.Idempotency

open Talos.Encoding

/-! ### Keys and stores -/

def maxBytes : ℕ := 128

/-- The message of the `TypeError`. -/
def validateIdempotencyKey (key : Utf16) : Except Utf16 Utf16 :=
  if trimSpace key = [] then .error (ascii "idempotencyKey must be a non-empty string")
  else if maxBytes < (utf8 key).length then
    .error (ascii s!"idempotencyKey must be at most {maxBytes} bytes (got {(utf8 key).length})")
  else .ok key

structure IdempotencyKey where
  key : Utf16
  valid : validateIdempotencyKey key = .ok key

structure IdempotencyRecord (V : Type) where
  key : Utf16
  response : V
  createdAt : ℚ
  deriving DecidableEq, Repr

/-- A store and its state: `record` is what it holds. -/
structure IdempotencyStore (V σ : Type) where
  get : Utf16 → σ → Option (IdempotencyRecord V) × σ
  set : Utf16 → IdempotencyRecord V → σ → σ
  delete : Utf16 → σ → σ
  record : Utf16 → σ → Option (IdempotencyRecord V)
  record_get : ∀ key s, (get key s).1 = none → record key (get key s).2 = none
  record_delete : ∀ key s, record key (delete key s) = none

/-- `_isExpiredAt` -/
def isExpired {V : Type} (ttlMs : Number) (now : ℚ) (record : IdempotencyRecord V) : Bool :=
  match ttlMs with
  | .finite ttl => max 0 ttl ≠ 0 ∧ max 0 ttl < now - record.createdAt
  | .infinite _ | .nan => false

/-- `InMemoryIdempotencyStore`, read at the time `now`. -/
def inMemoryIdempotencyStore (V : Type) (ttlMs : Number) (now : ℚ) :
    IdempotencyStore V (Utf16 → Option (IdempotencyRecord V)) where
  get key map :=
    match map key with
    | none => (none, map)
    | some record =>
        if isExpired ttlMs now record then (none, Function.update map key none)
        else (some record, map)
  set key record map := Function.update map key (some record)
  delete key map := Function.update map key none
  record key map := map key
  record_get key map absent := by
    cases found : map key with
    | none => simp only [found]
    | some record =>
      simp only [found] at absent ⊢
      split at absent
      · next expired =>
        rw [if_pos expired]
        exact Function.update_self ..
      · cases absent
  record_delete _ _ := Function.update_self ..

/-! ### Attempts -/

/-- What `fn` fails with: an `IdempotencyConflictError`, or an error that may have a status. -/
inductive Failure where
  | conflict
  | error (status : Option Number)
  deriving DecidableEq, Repr

inductive Outcome (V : Type) where
  | success (value : V)
  | failure (error : Failure)
  deriving DecidableEq, Repr

def retryableStatuses : List Number := [408, 429, 500, 502, 503, 504].map .finite

/-- A conflict has the status 409. -/
def Failure.retryable : Failure → Bool
  | conflict => false
  | error none => true
  | error (some status) => status ∈ retryableStatuses

inductive Code where
  | conflict
  | exhausted
  | cancelled
  deriving DecidableEq, Repr

inductive Cause where
  | reason
  | failure (error : Failure)
  deriving DecidableEq, Repr

structure IdempotencyError where
  code : Code
  key : Utf16
  message : Utf16
  cause : Option Cause
  deriving DecidableEq, Repr

/-- `clampedAttempts`; `NaN` stays `NaN`, which is `none`. -/
def clamp : Number → Option ℚ
  | .finite n => some (max 1 (min 8 n))
  | .infinite negative => some (if negative then 1 else 8)
  | .nan => none

structure Options (V σ : Type) where
  store : Option (IdempotencyStore V σ)
  maxAttempts : Option Number
  baseDelayMs : Option ℚ
  maxDelayMs : Option ℚ
  jitter : Option Bool

/-- What happens around a call. Attempt `k` starts at the tick `3 * k`, its function is pending at
the next one, and the wait after it is at the one after that. -/
structure World (V : Type) where
  outcome : ℕ → Outcome V
  /-- The tick at which the signal aborts. -/
  abort : Option ℕ
  now : ℕ → ℚ
  random : ℕ → ℚ

def World.aborted {V : Type} (world : World V) (tick : ℕ) : Bool := world.abort.any (· ≤ tick)

/-- `reason` is the reason of the signal, as `defaultSleep` rejects with it. -/
inductive Settled (V : Type) where
  | resolved (value : V)
  | rejected (error : IdempotencyError)
  | reason
  | typeError (message : Utf16)
  deriving DecidableEq, Repr

structure Run (V σ : Type) where
  /-- The calls of `fn`. -/
  calls : ℕ
  delays : List ℚ
  store : σ
  settled : Settled V
  tick : ℕ

section

variable {V σ : Type} (opts : Options V σ) (world : World V) (key : Utf16)

def clampedAttempts : Option ℚ := clamp (opts.maxAttempts.getD (.finite 3))

/-- The attempts for which `attempt < clampedAttempts`. -/
def rounds : ℕ := (clampedAttempts opts).elim 0 fun n => ⌈n⌉₊

/-- `attempt === clampedAttempts - 1` -/
def isLast (attempt : ℕ) : Bool := clampedAttempts opts = some (attempt + 1 : ℚ)

def delayOf (attempt : ℕ) : ℚ :=
  let raw := min (opts.baseDelayMs.getD 100 * 2 ^ attempt) (opts.maxDelayMs.getD 5000)
  if opts.jitter.getD true then world.random attempt * raw * (1 / 2) + raw * (1 / 2) else raw

def attemptsText : String := ((clampedAttempts opts).elim Number.nan .finite).toText

def exhausted (lastError : Option Failure) : Settled V :=
  .rejected ⟨.exhausted, key,
    ascii s!"withIdempotency: all {attemptsText opts} attempt(s) failed for key \"" ++ key ++
      ascii "\"", lastError.map .failure⟩

/-- The attempt is counted from one. -/
def cancelled (word : String) (attempt : ℕ) (cause : Cause) : Settled V :=
  .rejected ⟨.cancelled, key,
    ascii s!"withIdempotency: operation cancelled {word} attempt {attempt + 1}", some cause⟩

def conflicting : Settled V :=
  .rejected ⟨.conflict, key, ascii "withIdempotency: key \"" ++ key ++
    ascii "\" reused with a different payload. Generate a new key.", some (.failure .conflict)⟩

/-- The attempts that are left, from one on. -/
def attempts : ℕ → ℕ → Option Failure → σ → Run V σ
  | 0, attempt, lastError, s => ⟨attempt, [], s, exhausted opts key lastError, 3 * attempt⟩
  | left + 1, attempt, _, s =>
      if world.aborted (3 * attempt) then
        ⟨attempt, [], s, cancelled key "before" attempt .reason, 3 * attempt⟩
      else match world.outcome attempt with
        | .success value =>
            let s := opts.store.elim s fun st => st.set key ⟨key, value, world.now attempt⟩ s
            ⟨attempt + 1, [], s, .resolved value, 3 * attempt + 1⟩
        | .failure error =>
            if error = .conflict then
              let s := opts.store.elim s fun st => st.delete key s
              ⟨attempt + 1, [], s, conflicting key, 3 * attempt + 1⟩
            else if world.aborted (3 * attempt + 1) then
              ⟨attempt + 1, [], s, cancelled key "during" attempt (.failure error),
                3 * attempt + 1⟩
            else if !error.retryable || isLast opts attempt then
              ⟨attempt + 1, [], s, exhausted opts key (some error), 3 * attempt + 1⟩
            else
              let delay := delayOf opts world attempt
              if world.aborted (3 * attempt + 2) then
                ⟨attempt + 1, [delay], s, .reason, 3 * attempt + 2⟩
              else
                let run := attempts left (attempt + 1) (some error) s
                { run with delays := delay :: run.delays }

/-- The record that is found, and the store after that. -/
def lookup (s : σ) : Option (IdempotencyRecord V) × σ :=
  opts.store.elim (none, s) fun st => st.get key s

def withIdempotency (s : σ) : Run V σ :=
  match validateIdempotencyKey key with
  | .error message => ⟨0, [], s, .typeError message, 0⟩
  | .ok key =>
    match lookup opts key s with
    | (some cached, s) => ⟨0, [], s, .resolved cached.response, 0⟩
    | (none, s) => attempts opts world key (rounds opts) 0 none s

/-! ### The law of a run -/

def Settled.code : Settled V → Option Code
  | rejected error => some error.code
  | resolved _ | reason | typeError _ => none

/-- The last call of `fn`. -/
def lastOutcome (run : Run V σ) : Option (Outcome V) :=
  if run.calls = 0 then none else some (world.outcome (run.calls - 1))

/-- How the promise has to settle. -/
def Settles (cached : Option (IdempotencyRecord V)) (run : Run V σ) : Prop :=
  match cached, lastOutcome world run with
  | some record, _ => run.settled = .resolved record.response
  | none, some (.success value) => run.settled = .resolved value
  | none, some (.failure .conflict) => run.settled.code = some .conflict
  | none, _ => run.settled.code = some (if world.aborted run.tick then .cancelled else .exhausted)

structure Lawful (cached : Option (IdempotencyRecord V)) (run : Run V σ) : Prop where
  bounded : ∀ n ∈ clampedAttempts opts, (run.calls : ℚ) ≤ n
  again : ∀ i, i + 1 < run.calls → ∃ error, world.outcome i = .failure error ∧ error.retryable
  live : ∀ i < run.calls, world.aborted (3 * i) = false
  once : cached.isSome → run.calls = 0
  settles : Settles world cached run
  stored : ∀ st ∈ opts.store, (st.record key run.store).isSome →
    cached.isSome ∨ ∃ value, lastOutcome world run = some (.success value)

/-! ### How a run ends -/

/-- The attempt fails with an error after which there is another one. -/
def FailsOn (i : ℕ) : Prop :=
  ∃ error, world.outcome i = .failure error ∧ error.retryable = true ∧ isLast opts i = false

/-- The attempts before the `k`-th are followed by waits that end. -/
def Waits (k : ℕ) : Prop := ∀ i < k, FailsOn opts world i ∧ world.aborted (3 * i + 2) = false

inductive Ends (s : σ) : Run V σ → Prop where
  | used {delays lastError} (waits : Waits opts world (rounds opts)) :
      Ends s ⟨rounds opts, delays, s, exhausted opts key lastError, 3 * rounds opts⟩
  | before {k delays} (waits : Waits opts world k) (more : k < rounds opts)
      (aborted : world.aborted (3 * k) = true) :
      Ends s ⟨k, delays, s, cancelled key "before" k .reason, 3 * k⟩
  | success {k delays value s'} (waits : Waits opts world k) (more : k < rounds opts)
      (live : world.aborted (3 * k) = false) (outcome : world.outcome k = .success value) :
      Ends s ⟨k + 1, delays, s', .resolved value, 3 * k + 1⟩
  | conflict {k delays} (waits : Waits opts world k) (more : k < rounds opts)
      (live : world.aborted (3 * k) = false) (outcome : world.outcome k = .failure .conflict) :
      Ends s ⟨k + 1, delays, opts.store.elim s fun st => st.delete key s, conflicting key,
        3 * k + 1⟩
  | during {k delays error} (waits : Waits opts world k) (more : k < rounds opts)
      (live : world.aborted (3 * k) = false) (outcome : world.outcome k = .failure error)
      (other : error ≠ .conflict) (aborted : world.aborted (3 * k + 1) = true) :
      Ends s ⟨k + 1, delays, s, cancelled key "during" k (.failure error), 3 * k + 1⟩
  | final {k delays error} (waits : Waits opts world k) (more : k < rounds opts)
      (outcome : world.outcome k = .failure error)
      (other : error ≠ .conflict) (live : world.aborted (3 * k + 1) = false)
      (stops : error.retryable = true → isLast opts k = true) :
      Ends s ⟨k + 1, delays, s, exhausted opts key (some error), 3 * k + 1⟩
  | waiting {k delays} (waits : Waits opts world k) (more : k < rounds opts)
      (fails : FailsOn opts world k) (live : world.aborted (3 * k + 1) = false)
      (aborted : world.aborted (3 * k + 2) = true) :
      Ends s ⟨k + 1, delays, s, .reason, 3 * k + 2⟩

/-- How a call without a cached record goes wrong: the signal aborts during a wait, or an attempt is
made beyond the limit, or the limit is `NaN` and the signal has aborted. -/
inductive Defective : Prop where
  | abortedWait {k} (waits : Waits opts world k) (more : k < rounds opts)
      (fails : FailsOn opts world k) (abort : world.abort = some (3 * k + 2))
  | extraAttempt {k n} (limit : clampedAttempts opts = some n) (beyond : n < (k + 1 : ℕ))
      (waits : Waits opts world k) (more : k < rounds opts) (live : world.aborted (3 * k) = false)
  | noNumber (limit : clampedAttempts opts = none) (aborted : world.aborted 0 = true)

end

section

variable {V σ : Type} {opts : Options V σ} {world : World V} {key : Utf16} {s : σ} {run : Run V σ}
  {i j k left attempt : ℕ} {lastError : Option Failure} {n : ℚ}

theorem aborted_mono (le : i ≤ j) (live : world.aborted j = false) : world.aborted i = false := by
  unfold World.aborted at live ⊢
  cases found : world.abort with
  | none => rfl
  | some tick =>
    rw [found, Option.any_some, decide_eq_false_iff_not] at live
    rw [Option.any_some, decide_eq_false_iff_not]
    omega

theorem Ends.delayed (ends : Ends opts world key s run) (delay : ℚ) :
    Ends opts world key s { run with delays := delay :: run.delays } := by
  cases ends with
  | used waits => exact .used waits
  | before waits more aborted => exact .before waits more aborted
  | success waits more live outcome => exact .success waits more live outcome
  | conflict waits more live outcome => exact .conflict waits more live outcome
  | during waits more live outcome other aborted =>
    exact .during waits more live outcome other aborted
  | final waits more outcome other live stops => exact .final waits more outcome other live stops
  | waiting waits more fails live aborted => exact .waiting waits more fails live aborted

theorem Waits.succ (waits : Waits opts world k) (fails : FailsOn opts world k)
    (live : world.aborted (3 * k + 2) = false) : Waits opts world (k + 1) := by
  intro i lt
  rcases Nat.lt_succ_iff_lt_or_eq.mp lt with before | rfl
  · exact waits i before
  · exact ⟨fails, live⟩

/-- By induction on the attempts that are left. -/
theorem attempts_ends (waits : Waits opts world attempt) (sum : attempt + left = rounds opts) :
    Ends opts world key s (attempts opts world key left attempt lastError s) := by
  induction left generalizing attempt lastError with
  | zero =>
    obtain rfl : attempt = rounds opts := sum
    exact .used waits
  | succ left ih =>
    have more : attempt < rounds opts := by omega
    rw [attempts]
    split
    · next aborted => exact .before waits more aborted
    · next live =>
      have live := Bool.eq_false_iff.mpr live
      split
      · next value outcome => exact .success waits more live outcome
      · next error outcome =>
        split
        · next same => exact .conflict waits more live (same ▸ outcome)
        · next other =>
          split
          · next aborted => exact .during waits more live outcome other aborted
          · next live =>
            have live := Bool.eq_false_iff.mpr live
            split
            · next stops =>
              refine .final waits more outcome other live fun retryable => ?_
              rwa [retryable, Bool.not_true, Bool.false_or] at stops
            · next retries =>
              have retries : error.retryable = true ∧ isLast opts attempt = false := by
                simpa using retries
              have fails : FailsOn opts world attempt := ⟨error, outcome, retries⟩
              simp only
              split
              · next aborted => exact .waiting waits more fails live aborted
              · next passed =>
                have passed := Bool.eq_false_iff.mpr passed
                exact (ih (waits.succ fails passed) (by omega)).delayed _

/-! ### Which runs are lawful -/

theorem aborted_of_abort {tick : ℕ} (abort : world.abort = some tick) (le : tick ≤ j) :
    world.aborted j = true := by
  rw [World.aborted, abort, Option.any_some, decide_eq_true le]

theorem rounds_of_none (limit : clampedAttempts opts = none) : rounds opts = 0 := by
  rw [rounds, limit]
  rfl

theorem lt_rounds (limit : clampedAttempts opts = some n) : k < rounds opts ↔ (k : ℚ) < n := by
  rw [rounds, limit]
  exact Nat.lt_ceil

theorem one_le_limit (limit : clampedAttempts opts = some n) : 1 ≤ n := by
  unfold clampedAttempts clamp at limit
  split at limit
  · exact Option.some.inj limit ▸ le_max_left _ _
  · rw [← Option.some.inj limit]
    split <;> norm_num
  · cases limit

/-- The run stops after the `k`-th attempt, so that only that attempt can be one too many. -/
theorem defective_iff_of_stop (waits : Waits opts world k) (more : k < rounds opts)
    (live : world.aborted (3 * k) = false)
    (stops : FailsOn opts world k → world.aborted (3 * k + 1) = true) :
    Defective opts world ↔ ∃ n, clampedAttempts opts = some n ∧ n < (k + 1 : ℕ) := by
  have notBeyond {j : ℕ} (waits' : Waits opts world j) : j ≤ k := by
    by_contra beyond
    obtain ⟨fails, live'⟩ := waits' k (by omega)
    rw [aborted_mono (by omega) live'] at stops
    exact Bool.false_ne_true (stops fails)
  constructor
  · rintro (⟨waits', _, fails, abort⟩ | ⟨limit, beyond, waits', _, _⟩ | ⟨limit, _⟩)
    · rcases (notBeyond waits').lt_or_eq with before | rfl
      · exact absurd (aborted_of_abort abort le_rfl) (by rw [(waits _ before).2]; simp)
      · have early := stops fails
        rw [World.aborted, abort, Option.any_some, decide_eq_true_iff] at early
        omega
    · exact ⟨_, limit, beyond.trans_le (by exact_mod_cast Nat.succ_le_succ (notBeyond waits'))⟩
    · exact absurd more (by rw [rounds_of_none limit]; exact Nat.not_lt_zero _)
  · rintro ⟨n, limit, beyond⟩
    exact .extraAttempt limit beyond waits more live

/-- A run that is lawful but for the limit. -/
theorem lawful_iff_of_stop (waits : Waits opts world k) (more : k < rounds opts)
    (live : world.aborted (3 * k) = false)
    (stops : FailsOn opts world k → world.aborted (3 * k + 1) = true) (calls : run.calls = k + 1)
    (settles : Settles world none run)
    (stored : ∀ st ∈ opts.store, (st.record key run.store).isSome →
      ∃ value, lastOutcome world run = some (.success value)) :
    Lawful opts world key none run ↔ ¬ Defective opts world := by
  rw [defective_iff_of_stop waits more live stops]
  constructor
  · rintro lawful ⟨n, limit, beyond⟩
    exact absurd (calls ▸ lawful.bounded n limit) (not_le.mpr beyond)
  · intro bounded
    refine ⟨fun n limit => ?_, fun i lt => ?_, fun i lt => ?_, nofun, settles,
      fun st has found => .inr (stored st has found)⟩
    · rw [calls]
      exact not_lt.mp fun beyond => bounded ⟨n, limit, beyond⟩
    · obtain ⟨⟨error, outcome, retryable, _⟩, _⟩ := waits i (by omega)
      exact ⟨error, outcome, retryable⟩
    · exact aborted_mono (by omega) live

theorem lastOutcome_succ (calls : run.calls = k + 1) :
    lastOutcome world run = some (world.outcome k) := by
  rw [lastOutcome, calls, if_neg (Nat.succ_ne_zero k), Nat.add_sub_cancel]

/-- The promise settles as after a failure that is no conflict. -/
theorem settles_of_failure {error : Failure} (last : lastOutcome world run = some (.failure error))
    (other : error ≠ .conflict) : Settles world none run ↔
      run.settled.code = some (if world.aborted run.tick then .cancelled else .exhausted) := by
  unfold Settles
  rw [last]
  cases error with
  | conflict => exact absurd rfl other
  | error status => exact Iff.rfl

theorem not_defective_of_before (waits : Waits opts world k) (more : k < rounds opts)
    (aborted : world.aborted (3 * k) = true) : ¬ Defective opts world := by
  have notBeyond {j : ℕ} (live : world.aborted (3 * j) = false) : j < k := by
    by_contra beyond
    rw [aborted_mono (by omega) live] at aborted
    cases aborted
  rintro (⟨_, _, _, abort⟩ | ⟨limit, beyond, _, _, live⟩ | ⟨limit, _⟩)
  · next j waits' _ _ =>
    rcases Nat.lt_or_ge j k with before | after
    · exact absurd (aborted_of_abort abort le_rfl) (by rw [(waits _ before).2]; simp)
    · rw [World.aborted, abort, Option.any_some, decide_eq_true_iff] at aborted
      omega
  · next j n _ _ =>
    have less : (k : ℚ) < n := (lt_rounds limit).mp more
    have le : ((j + 1 : ℕ) : ℚ) ≤ k := by exact_mod_cast notBeyond live
    exact absurd (beyond.trans_le le) (not_lt.mpr less.le)
  · exact absurd more (by rw [rounds_of_none limit]; exact Nat.not_lt_zero _)

/-- All the attempts have failed, and none was the last one: the limit is no whole number. -/
theorem defective_of_used (waits : Waits opts world (rounds opts))
    (limit : clampedAttempts opts = some n) :
    Defective opts world ∧ n < rounds opts := by
  have pos : 0 < rounds opts := (lt_rounds limit).mpr (by
    rw [Nat.cast_zero]
    exact zero_lt_one.trans_le (one_le_limit limit))
  obtain ⟨k, same⟩ : ∃ k, rounds opts = k + 1 := ⟨_, (Nat.succ_pred_eq_of_pos pos).symm⟩
  rw [same] at waits ⊢
  obtain ⟨⟨_, _, _, notLast⟩, live⟩ := waits k (Nat.lt_succ_self k)
  have le : n ≤ (k + 1 : ℕ) := by
    have ceil := Nat.le_ceil n
    rwa [show ⌈n⌉₊ = k + 1 by rw [← same, rounds, limit]; rfl] at ceil
  have beyond : n < (k + 1 : ℕ) := by
    refine le.lt_of_ne fun whole => ?_
    rw [isLast, limit, decide_eq_false_iff_not] at notLast
    exact notLast (by rw [whole, Nat.cast_succ])
  exact ⟨.extraAttempt limit beyond (fun i lt => waits i (by omega)) (same ▸ Nat.lt_succ_self k)
    (aborted_mono (by omega) live), beyond⟩

theorem Ends.lawful_iff (ends : Ends opts world key s run)
    (absent : ∀ st ∈ opts.store, st.record key s = none) :
    Lawful opts world key none run ↔ ¬ Defective opts world := by
  have empty (value : Prop) : ∀ st ∈ opts.store, (st.record key s).isSome → value :=
    fun st has found => by rw [absent st has] at found; cases found
  cases ends with
  | used waits =>
    cases limit : clampedAttempts opts with
    | some n =>
      obtain ⟨defective, beyond⟩ := defective_of_used waits limit
      exact iff_of_false (fun lawful => absurd (lawful.bounded n limit) (not_le.mpr beyond))
        (not_not.mpr defective)
    | none =>
      have nothing := rounds_of_none limit
      have defective : Defective opts world ↔ world.aborted 0 = true := by
        refine ⟨?_, .noNumber limit⟩
        rintro (⟨_, more, _, _⟩ | ⟨_, _, _, more, _⟩ | ⟨_, aborted⟩)
        · exact absurd more (by omega)
        · exact absurd more (by omega)
        · exact aborted
      rw [defective, Bool.not_eq_true]
      constructor
      · intro lawful
        have settles := lawful.settles
        simp only [Settles, lastOutcome, nothing, if_true, Nat.mul_zero] at settles
        cases aborted : world.aborted 0 with
        | false => rfl
        | true =>
          rw [aborted] at settles
          cases settles
      · intro live
        refine ⟨fun n isLimit => ?_, fun i lt => ?_, fun i lt => ?_, nofun, ?_, fun st has found =>
          empty _ st has found⟩
        · rw [limit] at isLimit
          cases isLimit
        · exact absurd lt (by simp only [nothing]; omega)
        · exact absurd lt (by simp only [nothing]; omega)
        · simp only [Settles, lastOutcome, nothing, if_true, Nat.mul_zero, live]
          rfl
  | @before k _ waits more aborted =>
    refine iff_of_true ⟨fun n limit => ((lt_rounds limit).mp more).le, fun i lt => ?_,
      fun i lt => aborted_mono (by omega) (waits i lt).2, nofun, ?_, fun st has found =>
        empty _ st has found⟩ (not_defective_of_before waits more aborted)
    · obtain ⟨⟨error, outcome, retryable, _⟩, _⟩ := waits i (Nat.lt_of_succ_lt lt)
      exact ⟨error, outcome, retryable⟩
    · cases k with
      | zero =>
        simp only [Settles, lastOutcome, if_true, aborted]
        rfl
      | succ k =>
        obtain ⟨⟨error, outcome, retryable, _⟩, _⟩ := waits k (Nat.lt_succ_self k)
        refine (settles_of_failure ((lastOutcome_succ rfl).trans (congrArg some outcome)) ?_).mpr ?_
        · rintro rfl
          cases retryable
        · simp only [aborted]
          rfl
  | @success k _ value _ waits more live outcome =>
    refine lawful_iff_of_stop waits more live (fun ⟨error, fails, _⟩ => ?_) rfl ?_
      fun _ _ _ => ⟨value, (lastOutcome_succ rfl).trans (congrArg some outcome)⟩
    · rw [outcome] at fails
      cases fails
    · unfold Settles
      rw [lastOutcome_succ rfl, outcome]
  | @conflict k _ waits more live outcome =>
    refine lawful_iff_of_stop waits more live (fun ⟨error, fails, retryable, _⟩ => ?_) rfl ?_
      fun st has found => ?_
    · rw [outcome] at fails
      rw [← Outcome.failure.inj fails] at retryable
      cases retryable
    · unfold Settles
      rw [lastOutcome_succ rfl, outcome]
      rfl
    · have isSome : opts.store = some st := has
      simp only [isSome, Option.elim_some, st.record_delete] at found
      cases found
  | @during k _ error waits more live outcome other aborted =>
    refine lawful_iff_of_stop waits more live (fun _ => aborted) rfl ?_ fun st has found =>
      empty _ st has found
    refine (settles_of_failure ((lastOutcome_succ rfl).trans (congrArg some outcome)) other).mpr ?_
    simp only [aborted]
    rfl
  | @final k _ error waits more outcome other live stops =>
    refine lawful_iff_of_stop waits more (aborted_mono (by omega) live)
      (fun ⟨_, fails, retryable, notLast⟩ => ?_) rfl ?_ fun st has found => empty _ st has found
    · rw [outcome] at fails
      rw [← Outcome.failure.inj fails] at retryable
      rw [stops retryable] at notLast
      cases notLast
    · refine (settles_of_failure ((lastOutcome_succ rfl).trans (congrArg some outcome))
        other).mpr ?_
      simp only [live]
      rfl
  | @waiting k _ waits more fails live aborted =>
    have abort : world.abort = some (3 * k + 2) := by
      unfold World.aborted at live aborted
      cases found : world.abort with
      | none =>
        rw [found] at aborted
        cases aborted
      | some tick =>
        rw [found, Option.any_some, decide_eq_true_iff] at aborted
        rw [found, Option.any_some, decide_eq_false_iff_not] at live
        exact congrArg some (by omega)
    refine iff_of_false (fun lawful => ?_) (not_not.mpr (.abortedWait waits more fails abort))
    obtain ⟨error, outcome, retryable, _⟩ := fails
    have settles := lawful.settles
    rw [settles_of_failure ((lastOutcome_succ rfl).trans (congrArg some outcome))
      (fun same => by rw [same] at retryable; cases retryable)] at settles
    cases settles

/-- The law holds of a call with a valid key unless there is no cached record and the signal aborts
during a wait, the limit is no whole number and one more attempt is made, or the limit is `NaN` and
the signal has aborted. -/
theorem withIdempotency_lawful_iff (opts : Options V σ) (world : World V) (key : IdempotencyKey)
    (s : σ) : Lawful opts world key.key (lookup opts key.key s).1
        (withIdempotency opts world key.key s) ↔
      ((lookup opts key.key s).1 = none → ¬ Defective opts world) := by
  rw [withIdempotency, key.valid]
  simp only
  cases found : lookup opts key.key s with
  | mk cached s' =>
    cases cached with
    | some record =>
      refine iff_of_true ⟨fun n limit => ?_, fun i lt => absurd lt (Nat.not_lt_zero _),
        fun i lt => absurd lt (Nat.not_lt_zero _), fun _ => rfl, rfl, fun _ _ _ => .inl rfl⟩ nofun
      exact (Nat.cast_zero (R := ℚ)).trans_le (zero_le_one.trans (one_le_limit limit))
    | none =>
      have absent : ∀ st ∈ opts.store, st.record key.key s' = none := by
        intro st has
        have isSome : opts.store = some st := has
        rw [lookup, isSome, Option.elim_some] at found
        have law := st.record_get key.key s (congrArg Prod.fst found)
        rwa [found] at law
      have ends : Ends opts world key.key s'
          (attempts opts world key.key (rounds opts) 0 none s') :=
        attempts_ends (fun i lt => absurd lt (Nat.not_lt_zero _)) (Nat.zero_add _)
      simpa only [true_imp_iff, forall_const] using ends.lawful_iff absent

/-- Any other text is refused before anything happens. -/
theorem withIdempotency_invalid {text message : Utf16}
    (invalid : validateIdempotencyKey text = .error message) :
    withIdempotency opts world text s = ⟨0, [], s, .typeError message, 0⟩ := by
  rw [withIdempotency, invalid]

end

/-- The key of the example. -/
def keyA : IdempotencyKey := ⟨[97], by decide⟩

/-- The first attempt fails with the status 503, and the signal aborts during the wait after it. -/
def abortedWorld : World ℕ where
  outcome _ := .failure (.error (some (.finite 503)))
  abort := some 2
  now _ := 0
  random _ := 0

def defaults : Options ℕ Unit := ⟨none, none, none, none, none⟩

theorem abort_while_waiting :
    (withIdempotency defaults abortedWorld keyA.key ()).settled = .reason ∧
      ¬ Lawful defaults abortedWorld keyA.key none
        (withIdempotency defaults abortedWorld keyA.key ()) := by
  have settled : (withIdempotency defaults abortedWorld keyA.key ()).settled = .reason := by
    decide +kernel
  have calls : (withIdempotency defaults abortedWorld keyA.key ()).calls = 0 + 1 := by
    decide +kernel
  refine ⟨settled, fun lawful => ?_⟩
  have last : lastOutcome abortedWorld (withIdempotency defaults abortedWorld keyA.key ()) =
      some (.failure (.error (some (.finite 503)))) := lastOutcome_succ calls
  have code := (settles_of_failure last nofun).mp lawful.settles
  rw [settled] at code
  cases code

end Talos.Sdk.Idempotency
