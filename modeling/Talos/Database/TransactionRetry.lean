import Talos.Encoding.Floats
import Talos.Encoding.Text

/-!
# Transactions that are tried again

`withTransactionRetry` (`web/src/db/db-retry.ts`). What the database makes of each call of
`database.transaction` is an input, and so is whether the server has committed: the client may lose
the connection after the commit, and the server rolls back the transaction of a callback that goes
on after a failed statement. The delays, the durations and the log are left out.
-/

namespace Talos.Database

open Encoding

/-! ### Errors -/

/-- The texts of the members of an error that are neither `null` nor `undefined`. -/
structure ErrorObject where
  code : Option Utf16
  sqlState : Option Utf16
  causeCode : Option Utf16
  message : Option Utf16
  deriving DecidableEq, Repr

inductive Thrown where
  | object (error : ErrorObject)
  /-- Neither an object nor an array. -/
  | other
  deriving DecidableEq, Repr

def retryableSqlstates : List Utf16 :=
  ["40001", "40P01", "55P03", "08000", "08001", "08003", "08004", "08006", "57P01", "57P02",
    "57P03"].map ascii

def retryableNetworkCodes : List Utf16 :=
  ["ECONNRESET", "ETIMEDOUT", "EPIPE", "ECONNREFUSED", "EHOSTUNREACH"].map ascii

def retryableMessages : List Utf16 :=
  ["serialization failure", "deadlock detected",
    "could not serialize access due to concurrent update",
    "could not serialize access due to read/write dependencies", "lock not available",
    "connection terminated", "connection closed", "connection refused"].map ascii

def isRetryableDbError (table : CaseTable) : Thrown → Bool
  | .other => false
  | .object error =>
      let code := (error.code <|> error.sqlState).getD []
      let causeCode := error.causeCode.getD []
      if code ∈ retryableSqlstates ∨ causeCode ∈ retryableSqlstates then true
      else if code ∈ retryableNetworkCodes ∨ causeCode ∈ retryableNetworkCodes then true
      else
        let message := toLowerCase table (error.message.getD [])
        retryableMessages.any fun part => part <:+: message

/-! ### Options -/

inductive TransactionCategory where
  | money
  | token
  | patron
  | job
  | genesis
  deriving DecidableEq, Repr

structure TransactionRetryOptions where
  category : Option TransactionCategory
  maxRetries : Option Number
  enabled : Option Bool
  deriving DecidableEq, Repr

/-- `DB_TRANSACTION_RETRY_ENABLED` and `DB_TRANSACTION_RETRY_MAX_RETRIES`. -/
structure Environment where
  enabled : Option Utf16
  maxRetries : Option Utf16
  deriving DecidableEq, Repr

def getEnvBoolean (table : CaseTable) (val : Option Utf16) (defaultValue : Bool) : Bool :=
  match val with
  | none | some [] => defaultValue
  | some val => toLowerCase table val ≠ ascii "false" ∧ val ≠ ascii "0"

def getEnvNumber (val : Option Utf16) (defaultValue : Number) : Number :=
  match val with
  | none | some [] => defaultValue
  | some val => match parseInt val with
    | none => defaultValue
    | some parsed => .ofExact parsed

namespace TransactionRetryOptions

def isEnabled (options : TransactionRetryOptions) (table : CaseTable) (env : Environment) : Bool :=
  options.enabled.getD (getEnvBoolean table env.enabled true)

def limit (options : TransactionRetryOptions) (env : Environment) : Number :=
  options.maxRetries.getD (getEnvNumber env.maxRetries (.finite 5))

end TransactionRetryOptions

/-! ### Attempts -/

variable {α : Type}

/-- What becomes of one call of `database.transaction(txCallback)`. -/
inductive Attempt (α : Type) where
  /-- The transaction cannot begin, and the callback is not called. -/
  | notBegun (error : Thrown)
  | rolledBack (answer : Except Thrown α)
  | committed (answer : Except Thrown α)

namespace Attempt

def answer : Attempt α → Except Thrown α
  | notBegun error => .error error
  | rolledBack answer | committed answer => answer

def called : Attempt α → Bool
  | notBegun _ => false
  | rolledBack _ | committed _ => true

def isCommitted : Attempt α → Bool
  | notBegun _ | rolledBack _ => false
  | committed _ => true

end Attempt

inductive Outcome (α : Type) where
  | resolved (result : α)
  | rejected (error : Thrown)
  /-- `SerializationRetryExhaustedError`. -/
  | exhausted (category : TransactionCategory) (attempts : ℕ) (originalError : Thrown)

/-- `attempt <= maxRetries` -/
def atMost (attempt : ℕ) (maxRetries : Number) : Bool :=
  maxRetries ≠ .nan ∧ ¬ (Number.finite attempt).gt maxRetries

/-- The attempts that are made from the number `attempt` on, and how the promise settles if they
are enough. -/
def attemptFrom (table : CaseTable) (category : TransactionCategory) (maxRetries : Number)
    (attempt : ℕ) : List (Attempt α) → List (Attempt α) × Option (Outcome α)
  | [] => ([], none)
  | transaction :: rest =>
      match transaction.answer with
      | .ok result => ([transaction], some (.resolved result))
      | .error err =>
          let retryable := isRetryableDbError table err
          if retryable ∧ atMost attempt maxRetries then
            let (made, outcome) := attemptFrom table category maxRetries (attempt + 1) rest
            (transaction :: made, outcome)
          else if retryable ∧ (Number.finite attempt).gt maxRetries then
            ([transaction], some (.exhausted category attempt err))
          else ([transaction], some (.rejected err))

def withTransactionRetry (table : CaseTable) (env : Environment)
    (options : TransactionRetryOptions) (attempts : List (Attempt α)) :
    List (Attempt α) × Option (Outcome α) :=
  let category := options.category.getD .job
  if options.isEnabled table env then
    attemptFrom table category (options.limit env) 1 attempts
  else match attempts with
    | [] => ([], none)
    | transaction :: _ => match transaction.answer with
      | .ok result => ([transaction], some (.resolved result))
      | .error err => ([transaction], some (.rejected err))

/-! ### Effects at most once -/

def calls (made : List (Attempt α)) : ℕ := made.countP Attempt.called

def commits (made : List (Attempt α)) : ℕ := made.countP Attempt.isCommitted

/-- The rows of a table when each transaction inserts `row`, as the callback of a buyback and of a
token sale does. -/
def record {Row : Type} (row : Row) (rows : List Row) : List (Attempt α) → List Row
  | [] => rows
  | attempt :: made => record row (if attempt.isCommitted then rows ++ [row] else rows) made

/-- `count` is at most `maxRetries + 1`. -/
def Within (count : ℕ) : Number → Prop
  | .finite x => count ≤ x + 1
  | .infinite negative => negative = false
  | .nan => False

/-- What a promise that settles says of the transactions. -/
def Once (made : List (Attempt α)) : Outcome α → Prop
  | .resolved _ => commits made = 1
  | .rejected _ => commits made ≤ 1
  | .exhausted _ _ _ => commits made = 0

structure AtMostOnce (maxRetries : Number) (run : List (Attempt α) × Option (Outcome α)) :
    Prop where
  bounded : Within (calls run.1) maxRetries
  once : ∀ outcome ∈ run.2, Once run.1 outcome
  recorded : ∀ result, run.2 = some (.resolved result) → ∀ (Row : Type) (row : Row) rows,
    record row rows run.1 = rows ++ [row]

/-- The attempt fails with an error that is classified as retryable. -/
def Retryable (table : CaseTable) (attempt : Attempt α) : Prop :=
  ∃ err, attempt.answer = .error err ∧ isRetryableDbError table err = true

/-- The attempts, numbered from `n`, are all tried again. -/
def Repeated (table : CaseTable) (maxRetries : Number) (n : ℕ) : List (Attempt α) → Prop
  | [] => True
  | attempt :: rest =>
      (Retryable table attempt ∧ atMost n maxRetries = true) ∧
        Repeated table maxRetries (n + 1) rest

/-- What attempts are compared with. With retries off none is tried again, as with NaN. -/
def patience (table : CaseTable) (env : Environment) (options : TransactionRetryOptions) : Number :=
  if options.isEnabled table env then options.limit env else .nan

/-- `last` is the last attempt that is made, and its predecessors are `earlier`. -/
def EndsWith (table : CaseTable) (maxRetries : Number) (n : ℕ) (attempts earlier : List (Attempt α))
    (last : Attempt α) : Prop :=
  (∃ rest, attempts = earlier ++ last :: rest) ∧ Repeated table maxRetries n earlier ∧
    ¬ (Retryable table last ∧ atMost (n + earlier.length) maxRetries = true)

/-- No attempt is committed before the last. The last is committed if it resolves, and not if its
error is one to try again. -/
def Clean (table : CaseTable) (maxRetries : Number) (earlier : List (Attempt α))
    (last : Attempt α) : Prop :=
  commits earlier = 0 ∧ (∀ result, last.answer = .ok result → last.isCommitted = true) ∧
    (Retryable table last → maxRetries ≠ .nan → last.isCommitted = false)

/-- One attempt is committed before the last, and the last is neither committed nor one to try
again. -/
def Recovered (table : CaseTable) (earlier : List (Attempt α)) (last : Attempt α) : Prop :=
  commits earlier = 1 ∧ last.isCommitted = false ∧ ¬ Retryable table last

structure Harmless (table : CaseTable) (env : Environment) (options : TransactionRetryOptions)
    (attempts : List (Attempt α)) : Prop where
  /-- One call, if the first attempt comes to it, is not too many. -/
  bound : Within (calls (attempts.take 1)) (options.limit env)
  ends : ∀ earlier last, EndsWith table (patience table env options) 1 attempts earlier last →
    Clean table (patience table env options) earlier last ∨ Recovered table earlier last

variable {table : CaseTable} {env : Environment} {options : TransactionRetryOptions}
  {category : TransactionCategory} {maxRetries : Number} {n : ℕ}
  {attempts earlier : List (Attempt α)} {last : Attempt α}

/-! ### The loop -/

theorem atMost_nan : atMost n .nan = false := by
  simp [atMost]

/-- How the promise settles after the attempt with the number `n`. -/
def settle (table : CaseTable) (category : TransactionCategory) (maxRetries : Number) (n : ℕ)
    (last : Attempt α) : Outcome α :=
  match last.answer with
  | .ok result => .resolved result
  | .error err =>
      if isRetryableDbError table err ∧ (Number.finite n).gt maxRetries then
        .exhausted category n err
      else .rejected err

theorem attemptFrom_last (rest : List (Attempt α))
    (ends : ¬ (Retryable table last ∧ atMost n maxRetries = true)) :
    attemptFrom table category maxRetries n (last :: rest) =
      ([last], some (settle table category maxRetries n last)) := by
  rw [attemptFrom, settle]
  cases answer : last.answer with
  | ok result => rfl
  | error err =>
      have beyond : ¬ (isRetryableDbError table err = true ∧ atMost n maxRetries = true) :=
        fun both => ends ⟨⟨err, answer, both.1⟩, both.2⟩
      simp only [if_neg beyond]
      split_ifs <;> rfl

theorem attemptFrom_repeat {attempt : Attempt α} (rest : List (Attempt α))
    (again : Retryable table attempt ∧ atMost n maxRetries = true) :
    attemptFrom table category maxRetries n (attempt :: rest) =
      (attempt :: (attemptFrom table category maxRetries (n + 1) rest).1,
        (attemptFrom table category maxRetries (n + 1) rest).2) := by
  obtain ⟨⟨err, answer, retryable⟩, within⟩ := again
  rw [attemptFrom, answer]
  simp only [retryable, within, and_self, if_true]

/-- Attempts that are all tried again do not settle the promise. -/
theorem attemptFrom_repeated (all : Repeated table maxRetries n attempts) :
    attemptFrom table category maxRetries n attempts = (attempts, none) := by
  induction attempts generalizing n with
  | nil => rfl
  | cons attempt rest ih => rw [attemptFrom_repeat rest all.1, ih all.2]

theorem attemptFrom_endsWith (ends : EndsWith table maxRetries n attempts earlier last) :
    attemptFrom table category maxRetries n attempts =
      (earlier ++ [last], some (settle table category maxRetries (n + earlier.length) last)) := by
  obtain ⟨⟨rest, rfl⟩, all, final⟩ := ends
  induction earlier generalizing n with
  | nil => exact attemptFrom_last rest final
  | cons attempt earlier ih =>
      have number : n + (attempt :: earlier).length = n + 1 + earlier.length := by
        rw [List.length_cons, Nat.add_right_comm, Nat.add_assoc]
      rw [number] at final ⊢
      rw [List.cons_append, attemptFrom_repeat _ all.1, ih all.2 final]
      rfl

theorem repeated_or_endsWith (table : CaseTable) (maxRetries : Number) (n : ℕ)
    (attempts : List (Attempt α)) : Repeated table maxRetries n attempts ∨
      ∃ earlier last, EndsWith table maxRetries n attempts earlier last := by
  induction attempts generalizing n with
  | nil => exact .inl trivial
  | cons attempt rest ih =>
      by_cases again : Retryable table attempt ∧ atMost n maxRetries = true
      · rcases ih (n + 1) with all | ⟨earlier, last, ⟨later, rfl⟩, all, final⟩
        · exact .inl ⟨again, all⟩
        · refine .inr ⟨attempt :: earlier, last, ⟨later, rfl⟩, ⟨again, all⟩, ?_⟩
          rwa [List.length_cons, ← Nat.add_assoc, Nat.add_right_comm]
      · exact .inr ⟨[], attempt, ⟨rest, rfl⟩, trivial, again⟩

theorem withTransactionRetry_eq (table : CaseTable) (env : Environment)
    (options : TransactionRetryOptions) (attempts : List (Attempt α)) :
    withTransactionRetry table env options attempts =
      attemptFrom table (options.category.getD .job) (patience table env options) 1 attempts := by
  unfold withTransactionRetry patience
  split_ifs with on
  · rfl
  · cases attempts with
    | nil => rfl
    | cons attempt rest =>
        rw [attemptFrom_last rest fun both => by simp [atMost_nan] at both, settle]
        cases answer : attempt.answer with
        | ok result => simp only [answer]
        | error err => simp [answer, Number.gt]

/-! ### Calls -/

theorem Within.mono {a b : ℕ} {maxRetries : Number} (within : Within b maxRetries) (le : a ≤ b) :
    Within a maxRetries := by
  cases maxRetries with
  | finite x => exact (Nat.cast_le.mpr le).trans within
  | infinite | nan => exact within

theorem calls_le (made : List (Attempt α)) : calls made ≤ made.length := List.countP_le_length

theorem atMost_iff : atMost n maxRetries = true ↔ Within (n + 1) maxRetries := by
  cases maxRetries with
  | finite x => simp [atMost, Number.gt, Within]
  | infinite negative => cases negative <;> simp [atMost, Number.gt, Within]
  | nan => simp [atMost, Within]

/-- As many attempts as are tried again, and one more. -/
theorem within_repeated (all : Repeated table maxRetries n attempts) (some : attempts ≠ []) :
    Within (n + attempts.length) maxRetries := by
  induction attempts generalizing n with
  | nil => exact absurd rfl some
  | cons attempt rest ih =>
      cases rest with
      | nil => exact atMost_iff.mp all.1.2
      | cons next rest =>
          have number : n + (attempt :: next :: rest).length = n + 1 + (next :: rest).length := by
            rw [List.length_cons, Nat.add_right_comm, Nat.add_assoc]
          rw [number]
          exact ih all.2 (List.cons_ne_nil _ _)

theorem within_limit (within : Within n (patience table env options)) :
    Within n (options.limit env) := by
  unfold patience at within
  split_ifs at within
  · exact within
  · exact within.elim

/-- If the first attempt is not too many, no later one is. -/
theorem bounded_iff : Within (calls (withTransactionRetry table env options attempts).1)
    (options.limit env) ↔ Within (calls (attempts.take 1)) (options.limit env) := by
  rw [withTransactionRetry_eq]
  rcases repeated_or_endsWith table (patience table env options) 1 attempts with all | ⟨earlier,
    last, ends⟩
  · rw [attemptFrom_repeated all]
    refine ⟨fun within => within.mono (List.take_sublist 1 attempts).countP_le, fun within => ?_⟩
    cases attempts with
    | nil => exact within
    | cons attempt rest =>
        refine (within_limit (within_repeated all (List.cons_ne_nil _ _))).mono ?_
        exact (calls_le _).trans (Nat.le_add_left _ _)
  · rw [attemptFrom_endsWith ends]
    obtain ⟨⟨rest, rfl⟩, all, -⟩ := ends
    cases earlier with
    | nil => exact Iff.rfl
    | cons attempt earlier =>
        refine ⟨fun within => within.mono ?_, fun _ => ?_⟩
        · exact (List.take_sublist 1 (attempt :: earlier ++ [last])).countP_le
        · refine (within_limit (within_repeated all (List.cons_ne_nil _ _))).mono ?_
          refine (calls_le _).trans ?_
          rw [List.length_append, List.length_singleton, Nat.add_comm]

/-! ### Commits -/

theorem record_eq {Row : Type} (row : Row) (rows : List Row) (made : List (Attempt α)) :
    record row rows made = rows ++ List.replicate (commits made) row := by
  induction made generalizing rows with
  | nil => exact (List.append_nil rows).symm
  | cons attempt made ih =>
      rw [record, ih, commits, commits, List.countP_cons]
      split_ifs with committed
      · rw [List.append_assoc, List.singleton_append, ← List.replicate_succ]
      · rfl

theorem commits_append (earlier : List (Attempt α)) (last : Attempt α) :
    commits (earlier ++ [last]) = commits earlier + if last.isCommitted then 1 else 0 := by
  rw [commits, List.countP_append, List.countP_singleton]
  rfl

theorem repeated_nan (all : Repeated table .nan n attempts) : attempts = [] := by
  cases attempts with
  | nil => rfl
  | cons attempt rest => exact absurd all.1.2 (by simp [atMost_nan])

theorem once_settle_iff (ends : EndsWith table maxRetries n attempts earlier last) :
    Once (earlier ++ [last]) (settle table category maxRetries (n + earlier.length) last) ↔
      Clean table maxRetries earlier last ∨ Recovered table earlier last := by
  obtain ⟨-, all, final⟩ := ends
  rw [Clean, Recovered, settle]
  cases answer : last.answer with
  | ok result =>
      have settled : ¬ Retryable table last := by
        rintro ⟨err, failed, -⟩
        rw [answer] at failed
        cases failed
      simp only [Once, commits_append, settled]
      cases last.isCommitted <;> simp
  | error err =>
      by_cases retryable : isRetryableDbError table err = true
      · have again : Retryable table last := ⟨err, answer, retryable⟩
        by_cases number : maxRetries = .nan
        · subst number
          rw [repeated_nan all]
          cases committed : last.isCommitted <;>
            simp [Once, commits, committed, Number.gt]
        · have beyond : (Number.finite (n + earlier.length : ℕ)).gt maxRetries = true := by
            by_contra under
            exact final ⟨again, by simpa [atMost, number] using under⟩
          simp only [retryable, beyond, Once, commits_append]
          cases last.isCommitted <;> simp [again, number]
      · have finished : ¬ Retryable table last := by
          rintro ⟨err', failed', retryable'⟩
          obtain rfl := Except.error.inj (answer.symm.trans failed')
          exact retryable retryable'
        simp only [retryable, Once, commits_append, finished]
        cases last.isCommitted
        · simp
          omega
        · simp

theorem atMostOnce_iff (table : CaseTable) (env : Environment) (options : TransactionRetryOptions)
    (attempts : List (Attempt α)) :
    AtMostOnce (options.limit env) (withTransactionRetry table env options attempts) ↔
      Harmless table env options attempts := by
  have run (earlier : List (Attempt α)) (last : Attempt α)
      (ends : EndsWith table (patience table env options) 1 attempts earlier last) :
      withTransactionRetry table env options attempts = (earlier ++ [last], _) :=
    (withTransactionRetry_eq table env options attempts).trans (attemptFrom_endsWith ends)
  constructor
  · intro most
    refine ⟨bounded_iff.mp most.bounded, fun earlier last ends => ?_⟩
    have once := most.once
    rw [run earlier last ends] at once
    exact (once_settle_iff ends).mp (once _ rfl)
  · intro harmless
    have once : ∀ outcome ∈ (withTransactionRetry table env options attempts).2,
        Once (withTransactionRetry table env options attempts).1 outcome := by
      rcases repeated_or_endsWith table (patience table env options) 1 attempts with all |
        ⟨earlier, last, ends⟩
      · rw [withTransactionRetry_eq, attemptFrom_repeated all]
        rintro outcome ⟨⟩
      · rw [run earlier last ends]
        rintro outcome ⟨⟩
        exact (once_settle_iff ends).mpr (harmless.ends earlier last ends)
    refine ⟨bounded_iff.mpr harmless.bound, once, fun result resolved Row row rows => ?_⟩
    have one : commits (withTransactionRetry table env options attempts).1 = 1 := once _ resolved
    rw [record_eq, one]
    rfl

def connectionReset : Thrown :=
  .object ⟨some (ascii "ECONNRESET"), none, none, some (ascii "read ECONNRESET")⟩

/-- The connection is lost after the commit, and the callback is called again. -/
def lostAfterCommit : List (Attempt Unit) :=
  [.committed (.error connectionReset), .committed (.ok ())]

/-- The options of a buyback. -/
def moneyOptions : TransactionRetryOptions := ⟨some .money, none, none⟩

theorem committed_twice :
    ¬ AtMostOnce (moneyOptions.limit ⟨none, none⟩)
      (withTransactionRetry .caseless ⟨none, none⟩ moneyOptions lostAfterCommit) := by
  intro most
  have once : commits lostAfterCommit = 1 := most.once (.resolved ()) rfl
  exact absurd once (by decide)

end Talos.Database
