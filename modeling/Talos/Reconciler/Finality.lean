import Talos.Reconciler.Effects

/-!
# Finality

`validateTransition` compares a proposal with the copy it was computed from, and the
UPDATE that follows names the row by id alone. So an instance that holds an older copy
takes a stored record out of its terminal status (`final_status_lost`). As long as no
UPDATE meets a terminal record, finality is final (`finality_along`); an UPDATE whose
copy still has the stored status never does (`writesActive_of_fresh`).
-/

namespace Talos.Reconciler

open Database

abbrev Step := Transition State Event

variable {configs : InstanceId → ReconcilerConfig} {start : Int} {downstream : Downstream}
  {s s' : State} {e : Event} {h : List Step} {k : RecordId} {row : TxRecord}

/-- The copy whose outcome this step writes. -/
def writtenCopy (t : Step) : Option TxRecord :=
  match t.event with
  | .write j => (t.pre.tasks[j]?).map Task.record
  | _ => none

/-- If this step is the UPDATE of `processRecord`, the stored record is not terminal. -/
def WritesActive (t : Step) : Prop :=
  ∀ copy ∈ writtenCopy t, ∀ row ∈ t.pre.records.find copy.id, isTerminal row = false

/-- If this step is the UPDATE of `processRecord`, the stored record has the status of
the copy. -/
def WritesFresh (t : Step) : Prop :=
  ∀ copy ∈ writtenCopy t, ∀ row ∈ t.pre.records.find copy.id,
    row.finalityStatus = copy.finalityStatus

instance (t : Step) : Decidable (WritesActive t) :=
  inferInstanceAs (Decidable (∀ _ ∈ _, ∀ _ ∈ _, _))

/-- The stored record `k` has the terminal status `status`. -/
def Settled (k : RecordId) (status : FinalityStatus) (s : State) : Prop :=
  ∃ row, s.records.find k = some row ∧ isTerminal row = true ∧ row.finalityStatus = status

theorem Settled.step {status : FinalityStatus} (settled : Settled k status s)
    (ok : step configs s e = some s') (guard : WritesActive ⟨s, e, s'⟩) : Settled k status s' := by
  obtain ⟨row, found, isOver, same⟩ := settled
  have change := step_row ok k
  generalize after : s'.records.find k = stored at change
  cases change with
  | stays => exact ⟨row, after.trans found, isOver, same⟩
  | inserted _ _ _ absent =>
      rw [found] at absent
      cases absent
  | written j task update row' event holds _ id found' =>
      rw [found] at found'
      cases found'
      have copied : task.record ∈ writtenCopy ⟨s, e, s'⟩ := by simp [writtenCopy, event, holds]
      rw [guard task.record copied row (id ▸ found)] at isOver
      cases isOver
  | marked _ _ row' _ _ _ _ found' =>
      rw [found] at found'
      cases found'
      exact ⟨_, after, isOver, same⟩

/-- In a run in which no UPDATE meets a terminal record, a terminal status that was
ever stored is still stored. -/
theorem finality_along (run : Run (machine configs start downstream) h s)
    (each : ∀ t ∈ h, WritesActive t) :
    ∀ t ∈ h, ∀ k row, t.post.records.find k = some row → isTerminal row = true →
      ∃ row', s.records.find k = some row' ∧ row'.finalityStatus = row.finalityStatus := by
  intro t mem k row found isOver
  obtain ⟨later, earlier, rfl⟩ := List.append_of_mem mem
  obtain ⟨-, -, after⟩ := run.split
  have settled : Settled k row.finalityStatus s := by
    refine after.invariant_along (fun u mem => each u (List.mem_append_left _ mem))
      ⟨row, found, isOver, rfl⟩ ?_
    exact fun settled ok guard => settled.step ok guard
  obtain ⟨row', found', -, same⟩ := settled
  exact ⟨row', found', same⟩

/-! ### Copies that are still true -/

/-- Every copy in memory was taken of an active record. -/
theorem copied_active (reach : Reachable (machine configs start downstream) s) {record : TxRecord}
    {i : InstanceId} (copied : Copied s i record) : isActive record = true := by
  have inv : ∀ i record, Copied s i record → isActive record = true := by
    refine reach.invariant
      (I := fun s => ∀ i record, Copied s i record → isActive record = true) ?_ ?_
    · intro i record copied
      cases copied with
      | selected _ _ _ tick => cases tick
      | queued mem => cases mem
      | processed _ mem => cases mem
    · intro s e s' inv ok i record copied
      rcases step_copied ok copied with earlier | ⟨-, selected⟩
      · exact inv i record earlier
      · exact (Rows.mem_select.mp selected).2
  exact inv i record copied

theorem writesActive_of_fresh (reach : Reachable (machine configs start downstream) s)
    (ok : step configs s e = some s') (fresh : WritesFresh ⟨s, e, s'⟩) :
    WritesActive ⟨s, e, s'⟩ := by
  intro copy written row found
  have same := fresh copy written row found
  obtain ⟨i, copied⟩ : ∃ i, Copied s i copy := by
    cases e with
    | write j =>
        obtain ⟨task, holds, rfl⟩ := Option.map_eq_some_iff.mp written
        refine ⟨task.owner, .processed task (List.mem_of_getElem? holds) rfl ?_ rfl⟩
        intro finished
        simp only [step, holds, finished] at ok
        cases ok
    | _ => cases written
  have active := copied_active reach copied
  rw [isActive_iff] at active
  rw [isTerminal, same]
  exact active

/-! ### Two instances -/

def plainConfig : ReconcilerConfig := ⟨120, 10, 50, 1, none⟩

def payment : Registration := ⟨"abc", .commerceJob, some "j", none, none⟩

/-- The stored record of a payment registered at time zero. -/
def paymentRecord : TxRecord := newRecord 1 { payment with expiresAt := some oneHour } 0

def noRows : Downstream := ⟨fun _ => none, fun _ => none⟩

/-- One instance processes a failed payment. -/
def failedPayment : List Event :=
  [.registerTx 0 payment, .registerInsert 0 1, .runOneTick 0 0 (some 100),
    .select 0 [paymentRecord], .queue 0, .poll 0 (.failed 99 none), .write 0, .repair 0 none,
    .mark 0, .finish 0]

theorem finality_along_failed :
    let run := (machine (fun _ => plainConfig) 0 noRows).play failedPayment
      ([], (machine (fun _ => plainConfig) 0 noRows).init)
    Run (machine (fun _ => plainConfig) 0 noRows) run.1 run.2 ∧ (∀ t ∈ run.1, WritesActive t) ∧
      ∀ t ∈ run.1, ∀ k row, t.post.records.find k = some row → isTerminal row = true →
        ∃ row', run.2.records.find k = some row' ∧ row'.finalityStatus = row.finalityStatus :=
  have guards : ∀ t ∈ ((machine (fun _ => plainConfig) 0 noRows).play failedPayment
      ([], (machine (fun _ => plainConfig) 0 noRows).init)).1, WritesActive t := by decide
  ⟨Machine.play_run .., guards, finality_along (Machine.play_run ..) guards⟩

/-- Two instances hold a copy of one pending payment. The first learns that it failed
and stores that; the second, whose poll met an error of the ledger's server, then
stores the status of its copy. -/
def stalePayment : List Event :=
  [.registerTx 0 payment, .registerInsert 0 1, .runOneTick 0 0 (some 100),
    .runOneTick 1 1 (some 100), .select 0 [paymentRecord], .select 1 [paymentRecord], .queue 0,
    .queue 1, .poll 1 (.error "503"), .poll 0 (.failed 99 none), .write 0, .write 1]

theorem final_status_lost :
    ∃ h s, Run (machine (fun _ => plainConfig) 0 noRows) h s ∧
      (∃ t ∈ h, (t.post.records.find 1).map TxRecord.finalityStatus = some .failed) ∧
      (s.records.find 1).map TxRecord.finalityStatus = some .pending :=
  ⟨_, _, Machine.play_run _ stalePayment, by decide, by decide⟩

end Talos.Reconciler
