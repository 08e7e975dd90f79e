import Talos.AuditChain
import Talos.Database.Machine

/-!
# Writers of the audit log

`writeAuditLog` and `writeAuditLogWithChain` (`web/src/lib/auth.ts`), the job handler of
`AUDIT_LOG_WRITE_QUEUE` and the rows that `/api/talos/:id/audit/verify` passes to `verifyChain`,
for the log of one agent. A writer takes its time before the transaction; the row it continues
is read by one statement and its own row is inserted by another, with nothing that keeps two
writers from continuing the same row.
-/

namespace Talos.AuditChain

open Encoding Database

def auditChainVersion : String := "1"

/-- A number in the order of time. -/
def rank (d : Date) : Int :=
  (((((d.year * 12 + d.month.val) * 31 + d.day.val) * 24 + d.hour.val) * 60 + d.minute.val) * 60 +
    d.second.val) * 1000 + d.millisecond.val

/-- What is logged about one request. -/
structure Request where
  talosId : String
  method : String
  path : String
  statusCode : Int
  ipAddress : Option String
  deriving DecidableEq

/-- The row of the job handler, and of `writeAuditLog` while the chain is disabled: the chain's
columns are null and `createdAt` is the database's clock. -/
def plainRow (request : Request) (createdAt : Date) : AuditRow where
  sequenceNumber := none
  entryHash := none
  previousHash := none
  chainVersion := none
  talosId := request.talosId
  method := request.method
  path := request.path
  statusCode := request.statusCode
  ipAddress := request.ipAddress
  createdAt := createdAt

/-- The row that continues `latest`. -/
def chainedRow (sha256 : String → String) (request : Request) (createdAt : Date)
    (latest : Option AuditRow) : AuditRow :=
  let sequenceNumber := (latest.bind (·.sequenceNumber)).getD (-1) + 1
  let previousHash := (latest.bind (·.entryHash)).getD genesisHash
  let entry : AuditChainEntry :=
    { sequenceNumber := sequenceNumber
      talosId := request.talosId
      method := request.method
      path := request.path
      statusCode := request.statusCode
      ipAddress := request.ipAddress
      createdAt := createdAt.toISOString }
  { sequenceNumber := some sequenceNumber
    entryHash := some (computeEntryHash sha256 entry)
    previousHash := some previousHash
    chainVersion := some auditChainVersion
    talosId := request.talosId
    method := request.method
    path := request.path
    statusCode := request.statusCode
    ipAddress := request.ipAddress
    createdAt := createdAt }

/-- `ORDER BY createdAt DESC LIMIT 1`; of rows with one time any may come. -/
def IsLatest (rows : List AuditRow) : Option AuditRow → Prop
  | none => rows = []
  | some row => row ∈ rows ∧ ∀ other ∈ rows, rank other.createdAt ≤ rank row.createdAt

instance (rows : List AuditRow) : DecidablePred (IsLatest rows)
  | none => inferInstanceAs (Decidable (rows = []))
  | some _ => inferInstanceAs (Decidable (_ ∧ _))

/-- A call of `writeAuditLogWithChain`: `read` is the row its current attempt has read. -/
structure Writer where
  request : Request
  createdAt : Date
  read : Option (Option AuditRow)

structure Log where
  rows : List AuditRow
  writers : Nat → Option Writer

inductive Event where
  | start (w : Nat) (request : Request) (createdAt : Date)
  /-- The first statement of an attempt; an attempt before it has failed. -/
  | read (w : Nat) (latest : Option AuditRow)
  /-- The insert is committed. The caller may not learn it: then the call is retried or given up. -/
  | insert (w : Nat) (acknowledged : Bool)
  | giveUp (w : Nat)
  | plain (request : Request) (createdAt : Date)

def Log.set (log : Log) (w : Nat) (writer : Option Writer) : Log :=
  { log with writers := Function.update log.writers w writer }

def step (sha256 : String → String) (log : Log) : Event → Option Log
  | .start w request createdAt =>
      if (log.writers w).isSome then none
      else some (log.set w (some ⟨request, createdAt, none⟩))
  | .read w latest =>
      match log.writers w with
      | none => none
      | some writer =>
          if IsLatest log.rows latest then some (log.set w (some { writer with read := some latest }))
          else none
  | .insert w acknowledged =>
      match log.writers w with
      | some ⟨request, createdAt, some latest⟩ =>
          let log := { log with
            rows := log.rows ++ [chainedRow sha256 request createdAt latest] }
          some (log.set w (if acknowledged then none else some ⟨request, createdAt, none⟩))
      | _ => none
  | .giveUp w => if (log.writers w).isSome then some (log.set w none) else none
  | .plain request createdAt => some { log with rows := log.rows ++ [plainRow request createdAt] }

def machine (sha256 : String → String) : Machine Log Event where
  init := ⟨[], fun _ => none⟩
  step := step sha256

/-! ### The verify route -/

/-- `isNotNull(entryHash)`. -/
def AuditRow.isChained (row : AuditRow) : Bool := row.entryHash.isSome

def Log.chained (log : Log) : List AuditRow := log.rows.filter AuditRow.isChained

/-- The first rows in any order that `ORDER BY createdAt` allows are accepted. -/
def Accepts (sha256 : String → String) (log : Log) : Prop :=
  ∀ rows : List AuditRow, rows.Perm log.chained →
    rows.Pairwise (fun a b => rank a.createdAt ≤ rank b.createdAt) →
    ∀ limit, (verifyChain sha256 (rows.take limit)).valid = true

/-! ### What breaks the chain -/

/-- The writer is about to add a row although a chained row is stored that is not older than its
own time, or not among those the row it has read continues: it has read no chained row, or one
older. -/
def Hazard (log : Log) : Event → Prop
  | .insert w _ =>
      ∃ writer ∈ log.writers w, ∃ latest ∈ writer.read, ∃ row ∈ log.chained,
        rank writer.createdAt ≤ rank row.createdAt ∨
          ∀ seen ∈ latest, seen.isChained = false ∨ rank seen.createdAt < rank row.createdAt
  | _ => False

instance (log : Log) : DecidablePred (Hazard log)
  | .insert _ _ => inferInstanceAs (Decidable (∃ writer ∈ _, _))
  | .start .. | .read .. | .giveUp .. | .plain .. => inferInstanceAs (Decidable False)

end Talos.AuditChain
