import Talos.Database.Machine
import Talos.Database.Table

/-!
# Idempotency reservations

`reserve` reads the row of its key and then inserts, or deletes and inserts, or
answers; `complete`, `release` and `purgeExpired` are one statement each. Times are
in milliseconds. The machine interleaves the statements of any number of requests. A request is the
caller of one `reserve`; its number is also the fresh id of the row it inserts.
-/

namespace Talos.Idempotency

open Database Soroban

abbrev RequestId := Nat

inductive RowStatus where
  | reserved
  | completed
  deriving DecidableEq

/-- A row of `tls_idempotency_keys`; `key` is the key of the table. -/
structure ReservationRow where
  id : RequestId
  payloadHash : String
  status : RowStatus
  /-- The JSON text of the stored response. -/
  result : Option String
  expiresAt : Int
  deriving DecidableEq

inductive IdempotencyStatus where
  | ok
  | conflict
  | replay (result : Option String)
  | hashMismatch
  deriving DecidableEq

/-- How far a call of `reserve` has come: before its SELECT, before its INSERT,
before the DELETE of a row it saw expired, or over. -/
inductive Stage where
  | selecting
  | inserting
  | deleting
  | returned (answer : IdempotencyStatus)
  | failed
  deriving DecidableEq

/-- What a call of `reserve` has fixed before its first statement. -/
structure ReserveCall where
  key : String
  payloadHash : String
  now : Int
  expiresAt : Int
  deriving DecidableEq

structure Request where
  call : ReserveCall
  stage : Stage
  /-- The request has called `release`. -/
  released : Bool
  deriving DecidableEq

structure State where
  clock : Int
  rows : Table String ReservationRow
  requests : Map RequestId Request

/-- What `reserve` does next with the row it read. -/
def afterSelect (call : ReserveCall) : Option ReservationRow → Stage
  | none => .inserting
  | some existing =>
      if existing.expiresAt < call.now then .deleting
      else if existing.payloadHash ≠ call.payloadHash then .returned .hashMismatch
      else match existing.status with
        | .completed => .returned (.replay existing.result)
        | .reserved => .returned .conflict

/-- The row `reserve` inserts. -/
def reservation (r : RequestId) (call : ReserveCall) : ReservationRow :=
  { id := r
    payloadHash := call.payloadHash
    status := .reserved
    result := none
    expiresAt := call.expiresAt }

/-- One statement of one request, a clock reading or the passing of time. -/
inductive Event where
  | advance (now : Int)
  | reserve (r : RequestId) (key payloadHash : String) (ttlMs : Int)
  | select (r : RequestId)
  | insert (r : RequestId)
  | delete (r : RequestId)
  | complete (r : RequestId) (result : String)
  | release (r : RequestId)
  | purgeExpired (now : Int)
  deriving DecidableEq

def Request.at (q : Request) (stage : Stage) : Request := { q with stage := stage }

def State.setRequest (s : State) (r : RequestId) (q : Request) : State :=
  { s with requests := s.requests.set r q }

/-- `UPDATE … SET status = 'completed' WHERE key AND status = 'reserved'`. -/
def completeRow (rows : Table String ReservationRow) (key result : String) :
    Table String ReservationRow :=
  rows.update (fun k row => k = key ∧ row.status = .reserved)
    fun row => { row with status := .completed, result := some result }

/-- `DELETE WHERE key AND status = 'reserved'`. -/
def releaseRow (rows : Table String ReservationRow) (key : String) :
    Table String ReservationRow :=
  rows.delete fun k row => k = key ∧ row.status = .reserved

/-- `DELETE WHERE key`. -/
def deleteRow (rows : Table String ReservationRow) (key : String) : Table String ReservationRow :=
  rows.delete fun k _ => k = key

/-- `DELETE WHERE expiresAt < now`. -/
def purgeRows (rows : Table String ReservationRow) (now : Int) : Table String ReservationRow :=
  rows.delete fun _ row => row.expiresAt < now

def step (s : State) : Event → Option State
  | .advance now => if s.clock ≤ now then some { s with clock := now } else none
  | .reserve r key payloadHash ttlMs =>
      match s.requests r with
      | some _ => none
      | none => some (s.setRequest r
          { call := ⟨key, payloadHash, s.clock, s.clock + ttlMs⟩
            stage := .selecting
            released := false })
  | .select r =>
      match s.requests r with
      | some q =>
          if q.stage = .selecting then
            some (s.setRequest r (q.at (afterSelect q.call (s.rows q.call.key))))
          else none
      | none => none
  | .insert r =>
      match s.requests r with
      | some q =>
          if q.stage = .inserting then
            match s.rows.insert q.call.key (reservation r q.call) with
            | some rows => some { s.setRequest r (q.at (.returned .ok)) with rows := rows }
            -- The unique constraint: the driver throws.
            | none => some (s.setRequest r (q.at .failed))
          else none
      | none => none
  | .delete r =>
      match s.requests r with
      | some q =>
          if q.stage = .deleting then
            some { s.setRequest r (q.at .inserting) with rows := deleteRow s.rows q.call.key }
          else none
      | none => none
  | .complete r result =>
      match s.requests r with
      | some q => some { s with rows := completeRow s.rows q.call.key result }
      | none => none
  | .release r =>
      match s.requests r with
      | some q => some { s.setRequest r { q with released := true } with
          rows := releaseRow s.rows q.call.key }
      | none => none
  | .purgeExpired now =>
      if now ≤ s.clock then some { s with rows := purgeRows s.rows now } else none

/-- Empty tables, at any time. -/
def machine (start : Int) : Machine State Event where
  init := ⟨start, Map.empty, Map.empty⟩
  step := step

end Talos.Idempotency
