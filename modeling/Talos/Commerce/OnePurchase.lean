import Talos.Commerce.Payments
import Talos.TokenSales.Effects

/-!
# One purchase per payment

Each route looks for another use of a payment in its own way: the service route by the
payment token, the jobs route by the transaction hash among the jobs, a sale by the purchase
of the hash. Only the unique payment signature of the jobs holds at the moment of the record,
and it is the token in one route and the hash in the other. So a payment buys at most one
thing only while nothing else of it is recorded under another signature (`Single`).
-/

namespace Talos.Commerce

open Database Soroban
open TokenSales (TxHash TalosId RequestId)

variable {network : Network} {operator : TokenSales.Operator} {s s' : State} {event : Event}

/-- The jobs and completed purchases recorded of a transaction so far. -/
def State.recorded (s : State) (h : TxHash) : Nat :=
  s.jobs.list.countP (fun job => job.txHash = h) + if s.completed h then 1 else 0

/-- The transaction of a job that is about to be recorded. -/
def Phase.recording : Phase → Option TxHash
  | .inserting h => some h
  | _ => none

/-- When a job is recorded, each job of its transaction has its payment signature, so that
the unique index refuses it, and the transaction has bought no tokens; when a purchase is
completed for the first time, no job of its transaction is recorded. -/
def Single (s : State) : Event → Prop
  | .insert id => ∀ request ∈ s.orders id, ∀ h ∈ request.2.recording,
      (∀ job ∈ s.jobs.list, job.txHash = h → job.paymentSig = request.1.paymentSig h) ∧
        s.completed h = false
  | .sale (.commit id) => ∀ request ∈ s.sales.requests id,
      s.completed request.1.txHash = false →
        ∀ job ∈ s.jobs.list, job.txHash ≠ request.1.txHash
  | _ => True

instance (s : State) : DecidablePred (Single s)
  | .insert id => inferInstanceAs (Decidable (∀ request ∈ s.orders id,
      ∀ h ∈ request.2.recording,
      (∀ job ∈ s.jobs.list, job.txHash = h → job.paymentSig = request.1.paymentSig h) ∧
        s.completed h = false))
  | .sale (.commit id) => inferInstanceAs (Decidable (∀ request ∈ s.sales.requests id,
      s.completed request.1.txHash = false →
        ∀ job ∈ s.jobs.list, job.txHash ≠ request.1.txHash))
  | .sale (.post ..) | .sale (.claim _) | .sale (.verify ..) | .sale (.checkAccount ..)
  | .sale (.submit ..) | .sale (.readPatron _) | .sale (.respond _) | .sale (.markFailed _)
  | .sale (.crash _) | .postService .. | .postJob .. | .checkToken _ | .verify .. | .settle ..
  | .takeQuota .. | .submit .. | .checkDuplicate _ | .fulfil .. | .crash _ =>
      inferInstanceAs (Decidable True)

/-! ### Steps -/

/-- A step records a job, or may complete a purchase, or records nothing. -/
inductive Records (operator : TokenSales.Operator) (s s' : State) : Event → Prop where
  | nothing {event : Event} :
      s'.jobs = s.jobs → s'.completed = s.completed → s'.sales = s.sales →
      Records operator s s' event
  | job {id : RequestId} {o : Order} {h : TxHash} :
      s.orders id = some (o, .inserting h) →
      s.jobs.insert (o.job s.jobs.list.length h) = some s'.jobs →
      s'.completed = s.completed → s'.sales = s.sales → Records operator s s' (.insert id)
  | sale {sale : TokenSales.Event} {sales : TokenSales.State} :
      TokenSales.step operator s.sales sale = some sales → s' = s.afterSale sales →
      Records operator s s' (.sale sale)

/-- The jobs and purchases stay as they are. -/
def SameRecords (s s' : State) : Prop :=
  s'.jobs = s.jobs ∧ s'.completed = s.completed ∧ s'.sales = s.sales

theorem receive_records (id : RequestId) (o : Order) : SameRecords s (s.receive id o) := by
  unfold State.receive
  split
  · split
    · exact ⟨rfl, rfl, rfl⟩
    · exact ⟨rfl, rfl, rfl⟩
  · split
    · exact ⟨rfl, rfl, rfl⟩
    · exact ⟨rfl, rfl, rfl⟩
    · exact ⟨rfl, rfl, rfl⟩

theorem accept_records (id : RequestId) (accepted : Except Response Order) :
    SameRecords s (s.accept id accepted) := by
  unfold State.accept
  split
  · exact ⟨rfl, rfl, rfl⟩
  · exact receive_records id _

theorem paid_records (id : RequestId) (o : Order) (h : TxHash) :
    SameRecords s (s.paid id o h) := by
  unfold State.paid
  split
  · exact ⟨rfl, rfl, rfl⟩
  · exact ⟨rfl, rfl, rfl⟩

theorem SameRecords.records (same : SameRecords s s') : Records operator s s' event :=
  .nothing same.1 same.2.1 same.2.2

theorem insertJob_records {id : RequestId} {o : Order} {h : TxHash}
    (here : s.orders id = some (o, .inserting h)) :
    Records operator s (s.insertJob id o h) (.insert id) := by
  unfold State.insertJob
  split
  · next jobs inserted =>
      refine .job here ?_ rfl rfl
      unfold Order.insert at inserted
      split at inserted
      · cases inserted
      · next ok =>
          split at inserted
          · cases inserted
          · cases inserted
            exact ok
  · exact .nothing rfl rfl rfl
  · split
    · exact .nothing rfl rfl rfl
    · exact .nothing rfl rfl rfl

theorem advance_records {id : RequestId} {o : Order} {phase : Phase}
    (same : event.order = some id) (here : s.orders id = some (o, phase))
    (taken : advance network s id o phase event = some s') : Records operator s s' event := by
  unfold advance at taken
  split at taken
  · split at taken
    · cases taken
      exact .nothing rfl rfl rfl
    · cases taken
      exact .nothing rfl rfl rfl
  · split at taken
    · cases taken
      exact .nothing rfl rfl rfl
    · split at taken
      · cases taken
        exact .nothing rfl rfl rfl
      · cases taken
        exact .nothing rfl rfl rfl
  · split at taken
    · cases taken
      exact .nothing rfl rfl rfl
    · cases taken
      exact (paid_records id o _).records
  · split at taken
    · cases taken
      exact .nothing rfl rfl rfl
    · split at taken
      · cases taken
        exact .nothing rfl rfl rfl
      · cases taken
        exact .nothing rfl rfl rfl
      · cases taken
        exact .nothing rfl rfl rfl
  · split at taken
    · cases taken
      exact .nothing rfl rfl rfl
    · split at taken
      · cases taken
        exact .nothing rfl rfl rfl
      · cases taken
        exact .nothing rfl rfl rfl
  · split at taken
    · cases taken
      exact .nothing rfl rfl rfl
    · cases taken
      exact (paid_records id o _).records
  · split at taken
    · cases taken
      exact .nothing rfl rfl rfl
    · cases taken
      exact .nothing rfl rfl rfl
  · cases taken
    cases same
    exact insertJob_records here
  · cases taken
    exact .nothing rfl rfl rfl
  · cases taken

theorem step_records (ok : step network operator s event = some s') :
    Records operator s s' event := by
  unfold step at ok
  split at ok
  · obtain ⟨sales, taken, rfl⟩ := Option.map_eq_some_iff.mp ok
    exact .sale taken rfl
  · split at ok
    · cases ok
    · cases ok
      exact (accept_records _ _).records
  · split at ok
    · cases ok
    · cases ok
      exact (accept_records _ _).records
  · split at ok
    · cases ok
    · next id same =>
        split at ok
        · cases ok
        · next o phase here => exact advance_records same here ok

/-! ### Counting what is recorded -/

/-- The purchases that are completed were, and those that are completed by now are. -/
def Counted (s : State) : Prop :=
  ∀ {h row}, s.sales.purchases h = some row → row.status = .completed → s.completed h = true

/-- A payment has bought at most one thing, and the completed purchases are counted. -/
structure Once (s : State) : Prop where
  most : ∀ h, s.recorded h ≤ 1
  counted : Counted s

theorem recorded_eq_zero {h : TxHash} (jobs : ∀ job ∈ s.jobs.list, job.txHash ≠ h)
    (completed : s.completed h = false) : s.recorded h = 0 := by
  have none : s.jobs.list.countP (fun job => job.txHash = h) = 0 := by
    rw [List.countP_eq_zero]
    exact fun job mem hit => jobs job mem (of_decide_eq_true hit)
  rw [State.recorded, none, completed]
  rfl

/-- A job whose signature is free is the first record of its transaction. -/
theorem job_most (once : Once s) {o : Order} {h : TxHash} {jobId : JobId}
    (inserted : s.jobs.insert (o.job jobId h) = some s'.jobs)
    (completed : s'.completed = s.completed)
    (signed : ∀ job ∈ s.jobs.list, job.txHash = h → job.paymentSig = o.paymentSig h)
    (unsold : s.completed h = false) (h' : TxHash) : s'.recorded h' ≤ 1 := by
  obtain ⟨free, rows⟩ := Rows.insert_eq_some.mp inserted
  have first : ∀ job ∈ s.jobs.list, job.txHash ≠ h := by
    intro job mem same
    apply Rows.find_eq_none.mp free
    exact List.mem_map.mpr ⟨job, mem, signed job mem same⟩
  have count : s'.recorded h' = s.recorded h' + if h = h' then 1 else 0 := by
    rw [State.recorded, State.recorded, rows, completed, List.countP_append, List.countP_singleton,
      Nat.add_right_comm]
    change _ + (if decide (h = h') = true then 1 else 0) = _
    simp only [decide_eq_true_eq]
  rw [count]
  by_cases same : h = h'
  · subst same
    rw [if_pos rfl, recorded_eq_zero first unsold]
  · rw [if_neg same]
    exact once.most h'

theorem recorded_afterSale (sales : TokenSales.State) (h : TxHash) :
    (s.afterSale sales).recorded h = s.jobs.list.countP (fun job => job.txHash = h) +
      if (s.completed h || (sales.purchases h).any fun row => row.status = .completed) then 1
      else 0 := rfl

theorem sale_most (once : Once s) {sale : TokenSales.Event} {sales : TokenSales.State}
    (taken : TokenSales.step operator s.sales sale = some sales)
    (single : Single s (.sale sale)) (h : TxHash) : (s.afterSale sales).recorded h ≤ 1 := by
  have most := once.most h
  rw [State.recorded] at most
  rw [recorded_afterSale]
  cases before : s.completed h with
  | true =>
      rw [before] at most
      rw [Bool.true_or]
      exact most
  | false =>
      rw [before] at most
      rw [Bool.false_or]
      cases now : (sales.purchases h).any fun row => row.status = .completed with
      | false => exact most
      | true =>
          obtain ⟨row, found, completed⟩ := (Option.any_eq_true _ _).mp now
          rcases TokenSales.step_completed taken found (of_decide_eq_true completed) with
            ⟨row', stored, completed'⟩ | ⟨id, p, _, _, rfl, here, rfl⟩
          · cases before.symm.trans (once.counted stored completed')
          · have none := recorded_eq_zero (single _ here before) before
            rw [State.recorded, before] at none
            rw [Nat.eq_zero_of_add_eq_zero_right none]
            exact Nat.le_refl 1

theorem step_once (once : Once s) (ok : step network operator s event = some s')
    (single : Single s event) : Once s' := by
  cases step_records ok with
  | nothing jobs completed sales =>
      refine ⟨fun h => ?_, fun found => ?_⟩
      · rw [State.recorded, jobs, completed]
        exact once.most h
      · rw [sales] at found
        rw [completed]
        exact once.counted found
  | job here inserted completed sales =>
      obtain ⟨signed, unsold⟩ := single _ here _ rfl
      refine ⟨job_most once inserted completed signed unsold, fun found => ?_⟩
      rw [sales] at found
      rw [completed]
      exact once.counted found
  | sale taken after =>
      subst after
      refine ⟨sale_most once taken single, fun found completed => ?_⟩
      change (_ || Option.any _ _) = true
      rw [Bool.or_eq_true, Option.any_eq_true]
      exact .inr ⟨_, found, decide_eq_true completed⟩

theorem once_init : Once (machine network operator).init where
  most := fun _ => Nat.zero_le 1
  counted := fun absent => nomatch absent

/-- Along a run in which each record is single, a transaction buys at most one thing. -/
theorem recorded_le_one {log : List (Transition State Event)}
    (run : Run (machine network operator) log s) (single : ∀ r ∈ log, Single r.pre r.event)
    (h : TxHash) : s.recorded h ≤ 1 :=
  (run.invariant_along single once_init
    fun once ok single => step_once once ok single).most h

/-! ### Runs on an example -/

def exampleService : ServiceRow := ⟨"search", 5, some "G-PAYEE", false⟩

/-- Each transaction pays the service. -/
def exampleNetwork : Network where
  usdcIssuer := "G-USDC"
  operatorPublicKey := "G-OPERATOR"
  decode _ := some ⟨false, true, [⟨"payment", some ⟨"USDC", "G-USDC"⟩, some "G-PAYEE", 5⟩]⟩
  hash _ := "settled"

def serves (id : RequestId) (paymentToken : Xdr) : List Event :=
  [.postService id ⟨"talos", some "buyer", none, some none, "payload", some paymentToken,
      some exampleService, none⟩,
    .checkToken id, .verify id true, .settle id true, .insert id]

def works (id : RequestId) (txHash : TxHash) : List Event :=
  [.postJob id ⟨"talos", some "G-BUYER", none, some txHash, none, "payload", some exampleService,
      some (.active, none)⟩,
    .takeQuota id true, .checkDuplicate id, .insert id]

def sells (id : RequestId) (txHash : TxHash) : List Event :=
  (TokenSales.buys id txHash 60).map .sale

def played (events : List Event) : List (Transition State Event) × State :=
  (machine exampleNetwork TokenSales.exampleOperator).play events
    ([], (machine exampleNetwork TokenSales.exampleOperator).init)

/-- A payment for each route, two of which are presented again. -/
def presentedAgain : List Event :=
  serves 0 "token" ++ works 0 "work" ++ sells 0 "purchase" ++ serves 0 "token" ++ works 0 "work"

theorem recorded_le_one_presented : (played presentedAgain).2.recorded "settled" ≤ 1 ∧
    (played presentedAgain).2.jobs.list.length = 2 :=
  ⟨recorded_le_one (Machine.play_run _ presentedAgain) (by decide +kernel) "settled",
    by decide +kernel⟩

/-- A payment that buys tokens and a job, and one that buys two jobs. -/
theorem recorded_twice :
    (Reachable (machine exampleNetwork TokenSales.exampleOperator)
        (played (sells 0 "payment" ++ works 0 "payment")).2 ∧
      (played (sells 0 "payment" ++ works 0 "payment")).2.recorded "payment" = 2) ∧
    Reachable (machine exampleNetwork TokenSales.exampleOperator)
        (played (works 0 "settled" ++ serves 1 "token")).2 ∧
      (played (works 0 "settled" ++ serves 1 "token")).2.recorded "settled" = 2 := by
  refine ⟨⟨⟨_, Machine.play_run _ _⟩, ?_⟩, ⟨_, Machine.play_run _ _⟩, ?_⟩
  · decide +kernel
  · decide +kernel

end Talos.Commerce
