import Talos.Database.TimeCursor
import Talos.Database.Table
import Talos.Jobs.Model

/-!
# Admin listings

`listJobs` and `listEvents`: the jobs and the outbox events under their filters, newest first, in
pages. The cursor is the `createdAt` of the last row of a page, as an ISO string; the models take it
as the date it denotes. Times of rows are in microseconds, cursors in milliseconds.
-/

namespace Talos.AdminListing

open Database Paging

/-! ### Jobs -/

/-- A row of `tls_jobs`, with the columns that only its listing reads. -/
structure ListedJob where
  id : Jobs.JobId
  job : Jobs.JobRow
  createdAt : Int
  updatedAt : Int
  deriving DecidableEq

structure ListJobsFilter where
  status : Option Jobs.JobStatus
  queue : Option String
  cursor : Option Int
  limit : Option Int

/-- The conditions on `status` and `queue`; an empty queue is none. -/
def ListJobsFilter.admits (filter : ListJobsFilter) (row : ListedJob) : Bool :=
  filter.status.all (row.job.status = ·) && filter.queue.all fun queue =>
    queue = "" || row.job.queue = queue

/-- The limit is 50 by default and lies between 1 and 200. -/
def pageLimit (limit : Option Int) : Nat := (min (max (limit.getD 50) 1) 200).toNat

abbrev JobTable := Rows ListedJob Jobs.JobId ListedJob.id

/-- The database orders the rows of one query by `createdAt`, and of one time as it likes. -/
def listJobs (db : Option Int → NewestFirst ListedJob ListedJob.createdAt) (table : JobTable)
    (filter : ListJobsFilter) : Page (Option Int) ListedJob :=
  timePage (table.select filter.admits) (pageLimit filter.limit) (db filter.cursor) filter.cursor

/-! ### Outbox events -/

abbrev EventId := Nat

inductive OutboxStatus where
  | pending
  | leased
  | dispatched
  | deadLetter
  deriving DecidableEq

/-- A row of `tls_outbox_events`. -/
structure OutboxEvent where
  id : EventId
  aggregateType : String
  aggregateId : String
  eventType : String
  payload : String
  status : OutboxStatus
  runAt : Int
  leaseId : Option String
  leaseOwner : Option String
  leaseExpiresAt : Option Int
  attempts : Nat
  maxAttempts : Int
  dedupeKey : Option String
  lastError : Option String
  createdAt : Int
  updatedAt : Int
  dispatchedAt : Option Int
  deriving DecidableEq

structure ListEventsFilter where
  status : Option OutboxStatus
  eventType : Option String
  cursor : Option Int
  limit : Option Int

/-- The conditions on `status` and `eventType`; an empty event type is none. -/
def ListEventsFilter.admits (filter : ListEventsFilter) (row : OutboxEvent) : Bool :=
  filter.status.all (row.status = ·) && filter.eventType.all fun eventType =>
    eventType = "" || row.eventType = eventType

abbrev EventTable := Rows OutboxEvent EventId OutboxEvent.id

def listEvents (db : Option Int → NewestFirst OutboxEvent OutboxEvent.createdAt)
    (table : EventTable) (filter : ListEventsFilter) : Page (Option Int) OutboxEvent :=
  timePage (table.select filter.admits) (pageLimit filter.limit) (db filter.cursor) filter.cursor

/-! ### What a reader of all pages sees -/

theorem pageLimit_pos (limit : Option Int) : 0 < pageLimit limit := by
  rw [pageLimit]
  omega

theorem listJobs_eq (db : Option Int → NewestFirst ListedJob ListedJob.createdAt) (table : JobTable)
    (filter : ListJobsFilter) :
    (fun cursor => listJobs db table { filter with cursor := cursor }) =
      timePages (table.select filter.admits) (pageLimit filter.limit) db := rfl

theorem listEvents_eq (db : Option Int → NewestFirst OutboxEvent OutboxEvent.createdAt)
    (table : EventTable) (filter : ListEventsFilter) :
    (fun cursor => listEvents db table { filter with cursor := cursor }) =
      timePages (table.select filter.admits) (pageLimit filter.limit) db := rfl

/-- Following the cursors visits every row that the filter admits exactly once, if and only if of
these rows, newest first, the last one of a full page and the first one behind it were created in
different milliseconds. -/
theorem listings_visit_once_iff
    (jobDb : Option Int → NewestFirst ListedJob ListedJob.createdAt) (jobs : JobTable)
    (jobFilter : ListJobsFilter)
    (eventDb : Option Int → NewestFirst OutboxEvent OutboxEvent.createdAt) (events : EventTable)
    (eventFilter : ListEventsFilter) :
    (VisitsOnce (fun cursor => listJobs jobDb jobs { jobFilter with cursor := cursor })
        (jobs.select jobFilter.admits) ↔
      BoundariesApart (pageLimit jobFilter.limit)
        (dates ListedJob.createdAt (jobs.select jobFilter.admits))) ∧
    (VisitsOnce (fun cursor => listEvents eventDb events { eventFilter with cursor := cursor })
        (events.select eventFilter.admits) ↔
      BoundariesApart (pageLimit eventFilter.limit)
        (dates OutboxEvent.createdAt (events.select eventFilter.admits))) := by
  constructor
  · rw [listJobs_eq]
    exact visitsOnce_iff (pageLimit_pos jobFilter.limit)
  · rw [listEvents_eq]
    exact visitsOnce_iff (pageLimit_pos eventFilter.limit)

/-! ### Two jobs of one millisecond -/

def everyJob : ListJobsFilter := ⟨none, none, none, some 1⟩

/-- A job created 5 ms after the epoch, enqueued with the defaults. -/
def listedJob (id : Jobs.JobId) : ListedJob where
  id := id
  job :=
    { queue := "email", payload := "{}", status := .pending, priority := 0, runAt := 5
      leaseId := none, leaseOwner := none, leaseExpiresAt := none, heartbeatAt := none
      attempts := 0, maxAttempts := 8, retryClass := .transient, cancelRequested := false
      idempotencyKey := none, lastError := none, result := none, completedAt := none }
  createdAt := 5000
  updatedAt := 5000

def twinJobs : JobTable := ⟨[listedJob 1, listedJob 2], by decide⟩

/-- Read one by one, the second of the two jobs is never visited, whatever the database does. -/
theorem listings_skip_twin : ¬ ∃ db,
    VisitsOnce (fun cursor => listJobs db twinJobs { everyJob with cursor := cursor })
      (twinJobs.select everyJob.admits) := by
  rintro ⟨db, visits⟩
  rw [listJobs_eq] at visits
  have apart : BoundariesApart 1 [5, 5] := (visitsOnce_iff (pageLimit_pos (some 1))).mp visits
  exact Int.lt_irrefl 5 (apart 0 5 5 rfl rfl)

end Talos.AdminListing
