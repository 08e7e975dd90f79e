import Mathlib.Algebra.Order.Ring.Rat
import Mathlib.Data.List.Sort
import Talos.Database.Machine

/-!
# The send queue of the Telegram adapter

`TelegramSendQueue` (`prime-agent/src/talos_agent/adapters/telegram_queue.py`). Every method is one
`BEGIN IMMEDIATE` transaction; one that raises leaves the database as it was. The queue is in the
database only, so a restart is a caller that does not come back. Times are in seconds and exact:
the rounding of floats is not modelled.
-/

namespace Talos.Telegram

open Database

inductive SendState where
  | pending
  | sending
  | sent
  | failed
  | indeterminate
  deriving DecidableEq, Repr

def rateWindowSeconds : ℚ := 60

def maxTextChars : ℕ := 4096

def maxRetryAfterSeconds : ℚ := 86400

/-- `TelegramQueueConfig` with what `__post_init__` checks. -/
structure QueueConfig where
  minIntervalSeconds : ℚ := 1
  maxPerMinute : ℕ := 20
  maxQueueSize : ℕ := 1000
  maxAttempts : ℕ := 5
  maxAgeSeconds : ℚ := 3600
  leaseSeconds : ℚ := 60
  retentionSeconds : ℚ := 86400
  minInterval_nonneg : 0 ≤ minIntervalSeconds := by decide +kernel
  limits_pos : 1 ≤ maxPerMinute ∧ 1 ≤ maxQueueSize ∧ 1 ≤ maxAttempts := by decide +kernel
  age_pos : 0 < maxAgeSeconds ∧ 0 < leaseSeconds := by decide +kernel
  retention_covers : 2 * rateWindowSeconds ≤ retentionSeconds := by decide +kernel

/-- A row of `telegram_send_queue`. -/
structure Row where
  id : ℕ
  dedupeKey : Option String
  chatId : String
  kind : String
  text : String
  replyToMessageId : Option ℤ
  state : SendState
  attemptCount : ℕ
  nextAttemptAt : ℚ
  lastAttemptAt : Option ℚ
  leaseExpiresAt : Option ℚ
  messageId : Option ℤ
  lastErrorCode : Option String
  createdAt : ℚ
  updatedAt : ℚ
  deriving DecidableEq, Repr

/-- The two tables: the rows in the order of their ids, the id of the next row, and
`blocked_until` of the chats. -/
structure Store where
  rows : List Row
  nextId : ℕ
  blockedUntil : String → Option ℚ

/-- Class and message of an exception. -/
structure QueueError where
  name : String
  message : String
  deriving DecidableEq, Repr

variable (config : QueueConfig)

/-- The UPDATE of the rows that meet a condition. -/
def update (rows : List Row) (p : Row → Bool) (f : Row → Row) : List Row :=
  rows.map fun row => if p row then f row else row

/-! ### Stale rows -/

def Row.leaseExpired (now : ℚ) (row : Row) : Bool :=
  row.state = .sending ∧ row.leaseExpiresAt.any (· ≤ now)

def Row.tooOld (now : ℚ) (row : Row) : Bool :=
  row.state = .pending ∧ row.createdAt + config.maxAgeSeconds ≤ now

/-- `_expire_locked` -/
def expireLocked (now : ℚ) (rows : List Row) : List Row :=
  update
    (update rows (Row.leaseExpired now) fun row =>
      { row with
        state := .indeterminate
        lastErrorCode := some "lease_expired"
        leaseExpiresAt := none
        updatedAt := now })
    (Row.tooOld config now) fun row =>
      { row with state := .failed, lastErrorCode := some "expired", updatedAt := now }

/-! ### The producer -/

structure Message where
  chatId : String
  kind : String
  text : String
  replyToMessageId : Option ℤ
  dedupeKey : Option String
  deriving DecidableEq, Repr

structure EnqueueResult where
  itemId : ℕ
  created : Bool
  state : SendState
  messageId : Option ℤ
  deriving DecidableEq, Repr

/-- The characters that `str.strip` takes away. -/
def isSpace (c : Char) : Bool :=
  (0x09 ≤ c.toNat && c.toNat ≤ 0x0D) || (0x1C ≤ c.toNat && c.toNat ≤ 0x20) ||
    (0x2000 ≤ c.toNat && c.toNat ≤ 0x200A) ||
    c.toNat ∈ [0x85, 0xA0, 0x1680, 0x2028, 0x2029, 0x202F, 0x205F, 0x3000]

def isBlank (text : String) : Bool := text.toList.all isSpace

def isAsciiAlnum (c : Char) : Bool := c.isDigit || c.isUpper || c.isLower

/-- `^[A-Za-z0-9][A-Za-z0-9._:-]{0,127}$` -/
def isKey (key : String) : Bool :=
  key.toList.length ≤ 128 && key.toList.head?.any isAsciiAlnum &&
    key.toList.all fun c => isAsciiAlnum c || c ∈ ['.', '_', ':', '-']

/-- `^[a-z][a-z0-9_]{0,63}$` -/
def isCode (code : String) : Bool :=
  code.toList.length ≤ 64 && code.toList.head?.any Char.isLower &&
    code.toList.all fun c => c.isLower || c.isDigit || c = '_'

def Message.check (message : Message) : Except QueueError Unit :=
  if message.kind ∉ ["post", "reply"] then .error ⟨"ValueError", "invalid queue message kind"⟩
  else if isBlank message.chatId then
    .error ⟨"ValueError", "chat_id must be a non-empty string"⟩
  else if isBlank message.text then .error ⟨"ValueError", "message text must not be empty"⟩
  else if maxTextChars < message.text.toList.length then
    .error ⟨"ValueError", "message text exceeds the Telegram limit"⟩
  else if message.dedupeKey.any fun key => ! isKey key then
    .error ⟨"ValueError", "dedupe key is invalid"⟩
  else .ok ()

def Message.sameContent (message : Message) (row : Row) : Bool :=
  row.chatId = message.chatId ∧ row.kind = message.kind ∧ row.text = message.text ∧
    row.replyToMessageId = message.replyToMessageId

def Message.row (message : Message) (id : ℕ) (now : ℚ) : Row where
  id := id
  dedupeKey := message.dedupeKey
  chatId := message.chatId
  kind := message.kind
  text := message.text
  replyToMessageId := message.replyToMessageId
  state := .pending
  attemptCount := 0
  nextAttemptAt := now
  lastAttemptAt := none
  leaseExpiresAt := none
  messageId := none
  lastErrorCode := none
  createdAt := now
  updatedAt := now

def Row.unsent (row : Row) : Bool := row.state = .pending ∨ row.state = .sending

def enqueue (now : ℚ) (message : Message) (s : Store) :
    Except QueueError (EnqueueResult × Store) := do
  message.check
  match message.dedupeKey.bind fun key => s.rows.find? fun row => row.dedupeKey = some key with
  | some row =>
      if message.sameContent row then .ok (⟨row.id, false, row.state, row.messageId⟩, s)
      else .error ⟨"TelegramQueueConflictError",
        "dedupe key was already used for different content"⟩
  | none =>
      let rows := expireLocked config now s.rows
      if config.maxQueueSize ≤ (rows.filter Row.unsent).length then
        .error ⟨"TelegramQueueFullError", "telegram send queue is full"⟩
      else .ok (⟨s.nextId, true, .pending, none⟩,
        { s with rows := rows ++ [message.row s.nextId now], nextId := s.nextId + 1 })

/-! ### The consumer -/

structure ClaimOutcome where
  item : Option Row
  waitSeconds : Option ℚ
  deriving DecidableEq

/-- The attempts of a chat in the last minute that rows still show, oldest first. -/
def recent (now : ℚ) (chatId : String) (rows : List Row) : List ℚ :=
  ((rows.filter fun row => row.chatId = chatId).filterMap fun row =>
    row.lastAttemptAt.filter fun t => now - rateWindowSeconds < t).insertionSort (· ≤ ·)

/-- `_wait_locked` -/
def waitLocked (now : ℚ) (s : Store) (head : Row) : ℚ :=
  let recent := recent now head.chatId s.rows
  let waits := [head.nextAttemptAt - now] ++
    ((s.blockedUntil head.chatId).map (· - now)).toList ++
    (match recent.getLast? with
    | none => []
    | some last =>
        [last + config.minIntervalSeconds - now] ++
          (match recent[recent.length - config.maxPerMinute]? with
          | some t => if config.maxPerMinute ≤ recent.length then [t + rateWindowSeconds - now] else []
          | none => []))
  waits.foldl max 0

def Row.claimed (now : ℚ) (row : Row) : Row :=
  { row with
    state := .sending
    attemptCount := row.attemptCount + 1
    lastAttemptAt := some now
    leaseExpiresAt := some (now + config.leaseSeconds)
    updatedAt := now }

/-- The first row that is pending. -/
def headRow (rows : List Row) : Option Row := rows.find? fun row => row.state = .pending

def claimNext (now : ℚ) (onlyId : Option ℕ) (s : Store) : ClaimOutcome × Store :=
  let s := { s with rows := expireLocked config now s.rows }
  if s.rows.any fun row => row.state = .sending then
    (⟨none, some (max config.minIntervalSeconds (1 / 4))⟩, s)
  else match headRow s.rows with
    | none => (⟨none, none⟩, s)
    | some head =>
        let wait := waitLocked config now s head
        if onlyId.any (· ≠ head.id) ∨ 0 < wait then (⟨none, some wait⟩, s)
        else
          (⟨some (head.claimed config now), some 0⟩,
            { s with
              rows := update s.rows (fun row => row.id = head.id ∧ row.state = .pending)
                (Row.claimed config now) })

/-! ### What comes of a claimed row -/

def noLongerClaimed : QueueError :=
  ⟨"TelegramQueueBusyError", "telegram queue message is no longer claimed"⟩

def checkCode (code : String) : Except QueueError Unit :=
  if isCode code then .ok ()
  else .error ⟨"ValueError", "error code must be a short snake_case identifier"⟩

/-- `_finish` -/
def finish (now : ℚ) (itemId : ℕ) (state : SendState) (code : Option String)
    (messageId : Option ℤ) (s : Store) : Except QueueError Store := do
  code.forM checkCode
  if s.rows.any fun row => row.id = itemId ∧ row.state = .sending then
    .ok { s with
      rows := update s.rows (fun row => row.id = itemId ∧ row.state = .sending) fun row =>
        { row with
          state := state
          lastErrorCode := code
          messageId := messageId
          leaseExpiresAt := none
          updatedAt := now } }
  else .error noLongerClaimed

def markSent (now : ℚ) (itemId : ℕ) (messageId : Option ℤ) : Store → Except QueueError Store :=
  finish now itemId .sent none messageId

def markFailed (now : ℚ) (itemId : ℕ) (code : String) : Store → Except QueueError Store :=
  finish now itemId .failed (some code) none

def markIndeterminate (now : ℚ) (itemId : ℕ) (code : String) : Store → Except QueueError Store :=
  finish now itemId .indeterminate (some code) none

/-- A delay within its bounds. -/
def clampDelay (seconds : ℚ) : ℚ := min (max seconds 0) maxRetryAfterSeconds

def Row.retried (now delaySeconds : ℚ) (code : String) (consumeAttempt : Bool) (row : Row) : Row :=
  let attempts := row.attemptCount - if consumeAttempt then 0 else 1
  let exhausted : Bool := consumeAttempt && config.maxAttempts ≤ attempts
  { row with
    state := if exhausted then .failed else .pending
    attemptCount := attempts
    nextAttemptAt := now + clampDelay delaySeconds
    leaseExpiresAt := none
    lastErrorCode := some (if exhausted then "max_attempts" else code)
    updatedAt := now }

def markRetry (now : ℚ) (itemId : ℕ) (delaySeconds : ℚ) (code : String) (consumeAttempt : Bool)
    (s : Store) : Except QueueError Store := do
  checkCode code
  match s.rows.find? fun row => row.id = itemId with
  | some row =>
      if row.state = .sending then
        .ok { s with
          rows := update s.rows (fun row => row.id = itemId)
            (Row.retried config now delaySeconds code consumeAttempt) }
      else .error noLongerClaimed
  | none => .error noLongerClaimed

def blockChat (now : ℚ) (chatId : String) (seconds : ℚ) (s : Store) : Store :=
  let until_ := now + clampDelay seconds
  { s with
    blockedUntil := Function.update s.blockedUntil chatId
      (some ((s.blockedUntil chatId).elim until_ (max · until_))) }

def prune (now : ℚ) (s : Store) : Store :=
  let cutoff := now - config.retentionSeconds
  { s with
    rows := s.rows.filter fun row =>
      ! ((row.state = .sent ∨ row.state = .failed) ∧ row.updatedAt < cutoff)
    blockedUntil := fun chatId => (s.blockedUntil chatId).filter fun until_ => cutoff ≤ until_ }

/-! ### Runs -/

/-- An attempt to send a row begins when it is claimed. -/
structure Attempt where
  row : ℕ
  chatId : String
  time : ℚ
  deriving DecidableEq

/-- The attempts and the ends of blocks are not stored: all there were, newest first. -/
structure State where
  clock : ℚ
  store : Store
  attempts : List Attempt
  blocks : List (String × ℚ)

inductive Call where
  | enqueue (message : Message)
  | claimNext (onlyId : Option ℕ)
  | markSent (itemId : ℕ) (messageId : Option ℤ)
  | markFailed (itemId : ℕ) (code : String)
  | markIndeterminate (itemId : ℕ) (code : String)
  | markRetry (itemId : ℕ) (delaySeconds : ℚ) (code : String) (consumeAttempt : Bool)
  | blockChat (chatId : String) (seconds : ℚ)
  | prune

/-- A call at a time. -/
structure Event where
  now : ℚ
  call : Call

/-- What a call that may raise leaves. -/
def State.after (s : State) (store : Except QueueError Store) : State :=
  match store with
  | .ok store => { s with store := store }
  | .error _ => s

def State.perform (s : State) : Call → State
  | .enqueue message =>
      s.after ((Telegram.enqueue config s.clock message s.store).map Prod.snd)
  | .claimNext onlyId =>
      let (outcome, store) := Telegram.claimNext config s.clock onlyId s.store
      { s with
        store := store
        attempts := (outcome.item.map fun row => ⟨row.id, row.chatId, s.clock⟩).toList ++ s.attempts }
  | .markSent itemId messageId => s.after (Telegram.markSent s.clock itemId messageId s.store)
  | .markFailed itemId code => s.after (Telegram.markFailed s.clock itemId code s.store)
  | .markIndeterminate itemId code =>
      s.after (Telegram.markIndeterminate s.clock itemId code s.store)
  | .markRetry itemId delaySeconds code consumeAttempt =>
      s.after (Telegram.markRetry config s.clock itemId delaySeconds code consumeAttempt s.store)
  | .blockChat chatId seconds =>
      { s with
        store := Telegram.blockChat s.clock chatId seconds s.store
        blocks := (chatId, s.clock + clampDelay seconds) :: s.blocks }
  | .prune => { s with store := Telegram.prune config s.clock s.store }

def step (s : State) (event : Event) : Option State :=
  if s.clock ≤ event.now then some (State.perform config { s with clock := event.now } event.call)
  else none

def machine (start : ℚ) : Machine State Event where
  init := ⟨start, ⟨[], 1, fun _ => none⟩, [], []⟩
  step := step config

end Talos.Telegram
