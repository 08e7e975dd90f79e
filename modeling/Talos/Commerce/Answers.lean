import Talos.Commerce.Payments

/-!
# Answers to payments

The handling of one request of the service route or the jobs route, between the requests of
others, with every way in which a call or a statement can fail: a submission may be applied
although it reports an error, a transaction may commit although its answer is lost, and the error
of a refused INSERT may hide its code. Each answer says whether the request can be retried, or
nothing about it.
-/

namespace Talos.Commerce

open Database
open TokenSales (TxHash)

variable (network : Network)

/-! ### The answers of the routes -/

structure Answer where
  response : Response
  retryable : Option Bool
  deriving DecidableEq

namespace Order

variable (o : Order)

def isToken : Bool :=
  match o.payment with
  | .token _ => true
  | .signedXdr _ | .txHash _ => false

/-- The hash of the payment. -/
def hash : TxHash :=
  match o.payment with
  | .token xdr | .signedXdr xdr => network.hash xdr
  | .txHash txHash => txHash

/-- What the service route says of a conflict, and the jobs route does not. -/
def conflict (response : Response) : Answer := ⟨response, if o.isToken then some false else none⟩

/-- The outer handler. -/
def internalError : Answer :=
  ⟨.error 500 "Internal server error", if o.isToken then some true else none⟩

def replay (job : JobRow) : Answer :=
  match job.idempotencyResponse with
  | some body => ⟨.created true body, none⟩
  | none => o.conflict beingProcessed

end Order

def settlementFailed : Answer := ⟨.error 502 "On-chain payment settlement failed", some true⟩

def submissionFailed : Answer := ⟨.error 402 "Payment submission failed", some true⟩

/-- `PaymentVerificationError` -/
def paymentMismatch : Answer :=
  ⟨.error 402 "Payment was submitted but did not match the expected amount or recipient",
    some false⟩

def Inserted.isRow : Inserted → Bool
  | .row _ => true
  | .keyTaken | .paymentTaken => false

namespace Answers

/-! ### The routes -/

inductive Request where
  | service (request : ServiceRequest)
  | job (request : JobRequest)

/-- The service route marks what is wrong with a request as not retryable, if it says so at all. -/
def serviceRefusal (response : Response) : Answer :=
  match response with
  | .error 400 _ => ⟨response, some false⟩
  | .error _ _ | .created _ _ => ⟨response, none⟩

def Request.validate : Request → Except Answer Order
  | .service request => (validateService request).mapError serviceRefusal
  | .job request => (validateJob network request).mapError fun response => ⟨response, none⟩

inductive Stage where
  /-- The idempotency key. -/
  | lookingUp
  | checkingToken
  | verifying
  | settling
  | takingQuota
  | submitting
  | checkingDuplicate
  | fulfilling
  | inserting
  /-- The answer of the request that took the idempotency key, in the service route. -/
  | readingCached
  | answered (answer : Answer)
  deriving DecidableEq

/-- `applied` if the request has moved the money. -/
structure State where
  jobs : Jobs
  applied : Bool
  stage : Stage

inductive Event where
  /-- Another request records a job. -/
  | record (job : JobRow)
  | lookUp
  | checkToken
  | verify (accepted : Bool)
  | settle (applied reported : Bool)
  | takeQuota (granted : Bool)
  | submit (applied reported : Bool)
  | checkDuplicate
  | fulfil (fulfilled : Bool)
  /-- The transaction of the job; its error shows the code 23505 if `coded`. -/
  | insert (coded : Bool)
  /-- It commits, but the answer is lost; it is tried again, or fails. -/
  | commit
  | readCached
  /-- A statement fails. -/
  | fail

/-- What comes after the payment. -/
def afterPayment (o : Order) : Stage := if o.service.instant then .fulfilling else .inserting

def State.goto (s : State) (stage : Stage) : State := { s with stage := stage }

def State.answer (s : State) (answer : Answer) : State := s.goto (.answered answer)

def State.insertJob (s : State) (o : Order) (coded : Bool) : State :=
  match o.insert s.jobs (o.hash network) with
  | .row jobs =>
      { s with jobs := jobs }.answer
        ⟨.created false (o.created s.jobs.list.length (o.hash network)), none⟩
  | .paymentTaken =>
      if coded then s.answer (o.conflict (paymentUsed o))
      else s.answer (o.internalError)
  | .keyTaken =>
      if !coded then s.answer (o.internalError)
      else if o.isToken then s.goto .readingCached
      else s.answer ⟨beingProcessed, none⟩

/-- A step of an accepted request. -/
def advance (s : State) (o : Order) : Stage → Event → Option State
  | .lookingUp, .lookUp =>
      match o.existing s.jobs with
      | some job =>
          if !o.equivalent job then
            some (s.answer (o.conflict
              (.error 409 "Idempotency-Key reused with a different payload.")))
          else some (s.answer (o.replay job))
      | none => some (s.goto (if o.isToken then .checkingToken else .takingQuota))
  | .checkingToken, .checkToken =>
      if s.jobs.list.any fun job => job.paymentSig = o.paymentSig (o.hash network) then
        some (s.answer (o.conflict (paymentUsed o)))
      else some (s.goto .verifying)
  | .verifying, .verify accepted =>
      match o.payment with
      | .token paymentToken =>
          if (verifyX402PaymentOffline network paymentToken (toFixed2 o.service.price)
              o.payee).isSome ∨ accepted = false then
            some (s.answer ⟨.error 402 "Invalid or insufficient x402 payment", some false⟩)
          else some (s.goto .settling)
      | .signedXdr _ | .txHash _ => none
  | .settling, .settle applied reported =>
      some (if reported then { s with applied := applied }.goto (afterPayment o)
        else { s with applied := applied }.answer settlementFailed)
  | .takingQuota, .takeQuota granted =>
      if !granted then some (s.answer ⟨.error 429 "Quota exceeded", none⟩)
      else match o.payment with
        | .txHash _ => some (s.goto .checkingDuplicate)
        | .signedXdr _ | .token _ => some (s.goto .submitting)
  | .submitting, .submit applied reported =>
      match o.payment with
      | .signedXdr signedXdr =>
          if !reported then some ({ s with applied := applied }.answer submissionFailed)
          else if !pays network signedXdr o.service.price o.payee then
            some ({ s with applied := applied }.answer paymentMismatch)
          else some ({ s with applied := applied }.goto .checkingDuplicate)
      | .token _ | .txHash _ => none
  | .checkingDuplicate, .checkDuplicate =>
      if s.jobs.list.any fun job => job.txHash = o.hash network then
        some (s.answer ⟨paymentUsed o, none⟩)
      else some (s.goto (afterPayment o))
  | .fulfilling, .fulfil fulfilled =>
      if fulfilled then some (s.goto .inserting)
      else some (s.answer ⟨.error 502 "Service fulfillment failed", some false⟩)
  | .inserting, .insert coded => some (s.insertJob network o coded)
  | .inserting, .commit =>
      match o.insert s.jobs (o.hash network) with
      | .row jobs => some { s with jobs := jobs }
      | .paymentTaken | .keyTaken => none
  | .readingCached, .readCached =>
      match s.jobs.list.find? (o.hasKey true) with
      | some job => some (s.answer (o.replay job))
      | none => some (s.answer ⟨beingProcessed, some false⟩)
  | .lookingUp, .fail | .checkingToken, .fail | .verifying, .fail | .takingQuota, .fail
  | .checkingDuplicate, .fail | .inserting, .fail | .readingCached, .fail =>
      some (s.answer (o.internalError))
  | _, _ => none

/-- An answered request is at its end; until then other requests record jobs. -/
def step (request : Request) (s : State) (event : Event) : Option State :=
  match request.validate network, s.stage, event with
  | .error _, _, _ | .ok _, .answered _, _ => none
  | .ok _, _, .record job => (s.jobs.insert job).map fun jobs => { s with jobs := jobs }
  | .ok o, stage, event => advance network s o stage event

def machine (request : Request) (jobs : Jobs) : Machine State Event where
  init := ⟨jobs, false, match request.validate network with
    | .error answer => .answered answer
    | .ok _ => .lookingUp⟩
  step := step network request

/-! ### What an answer should say -/

/-- A job of the transaction exists. -/
def State.Recorded (s : State) (txHash : TxHash) : Prop := ∃ job ∈ s.jobs.list, job.txHash = txHash

instance (s : State) (txHash : TxHash) : Decidable (s.Recorded txHash) :=
  inferInstanceAs (Decidable (∃ job ∈ s.jobs.list, job.txHash = txHash))

/-- Retryable only if the payment was not applied; and if it was, there is a job of it, or the
answer says that the request is not to be retried. -/
def Tells (s : State) (txHash : TxHash) (answer : Answer) : Prop :=
  (answer.retryable = some true → s.applied = false) ∧
    (s.applied = true → s.Recorded txHash ∨ answer.retryable = some false)

def Truthful (o : Order) (s : State) : Prop :=
  ∀ answer, s.stage = .answered answer → Tells s (o.hash network) answer

/-! ### When it does -/

/-- The payment is applied and no job of it is known. -/
def State.Owing (s : State) (o : Order) : Prop :=
  s.applied = true ∧ ¬ s.Recorded (o.hash network)

/-- What makes the outer handler right: it tells to retry in the service route, and nothing in the
jobs route. -/
def State.MayFail (s : State) (o : Order) : Prop :=
  if o.isToken then s.applied = false else ¬ s.Owing network o

/-- No payment is applied whose submission reports an error; and after the payment no statement
fails, no error of an INSERT hides its code, and the idempotency key is not taken. -/
def Honest (o : Order) (s : State) : Event → Prop
  | .settle applied reported | .submit applied reported => applied = true → reported = true
  | .fail => s.MayFail network o
  | .insert coded => (o.insert s.jobs (o.hash network)).isRow = true ∨
      o.isToken = true ∧ coded = true ∨ s.MayFail network o
  | .readCached => ∀ job ∈ s.jobs.list.find? (o.hasKey true),
      job.idempotencyResponse.isSome → ¬ s.Owing network o
  | .record _ | .lookUp | .checkToken | .verify _ | .takeQuota _ | .checkDuplicate | .fulfil _
  | .commit => True

instance (s : State) (o : Order) : Decidable (s.Owing network o) :=
  inferInstanceAs (Decidable (s.applied = true ∧ ¬ s.Recorded (o.hash network)))

instance (s : State) (o : Order) : Decidable (s.MayFail network o) :=
  inferInstanceAs (Decidable (if o.isToken then s.applied = false else ¬ s.Owing network o))

instance (o : Order) (s : State) : DecidablePred (Honest network o s)
  | .settle applied reported | .submit applied reported =>
      inferInstanceAs (Decidable (applied = true → reported = true))
  | .fail => inferInstanceAs (Decidable (s.MayFail network o))
  | .insert coded => inferInstanceAs (Decidable ((o.insert s.jobs (o.hash network)).isRow = true ∨
      o.isToken = true ∧ coded = true ∨ s.MayFail network o))
  | .readCached => inferInstanceAs (Decidable (∀ job ∈ s.jobs.list.find? (o.hasKey true),
      job.idempotencyResponse.isSome → ¬ s.Owing network o))
  | .record _ | .lookUp | .checkToken | .verify _ | .takeQuota _ | .checkDuplicate | .fulfil _
  | .commit => .isTrue trivial

/-! ### Answers -/

section

variable {s : State} {txHash : TxHash} {answer : Answer}

theorem tells_of_unpaid (unpaid : s.applied = false) : Tells s txHash answer :=
  ⟨fun _ => unpaid, fun paid => absurd (unpaid.symm.trans paid) nofun⟩

theorem tells_of_final (final : answer.retryable = some false) : Tells s txHash answer :=
  ⟨fun retryable => absurd (final.symm.trans retryable) nofun, fun _ => .inr final⟩

theorem tells_retryable (retryable : answer.retryable = some true) :
    Tells s txHash answer ↔ s.applied = false := by
  constructor
  · intro tells
    exact tells.1 retryable
  · exact tells_of_unpaid

/-- An answer that says nothing is right if the payment is recorded. -/
theorem tells_silent (silent : answer.retryable = none) :
    Tells s txHash answer ↔ ¬ (s.applied = true ∧ ¬ s.Recorded txHash) := by
  rw [Tells, silent]
  simp

end

variable {network} {o : Order} {s s' : State} {event : Event} {answer : Answer}

theorem truthful_goto {stage : Stage} (open_ : ∀ answer, stage ≠ .answered answer) :
    Truthful network o (s.goto stage) :=
  fun answer answered => absurd answered (open_ answer)

theorem truthful_answer :
    Truthful network o (s.answer answer) ↔ Tells s (o.hash network) answer := by
  constructor
  · intro truthful
    exact truthful answer rfl
  · rintro tells _ ⟨⟩
    exact tells

theorem tells_internalError : Tells s (o.hash network) o.internalError ↔ s.MayFail network o := by
  cases token : o.isToken with
  | true =>
      rw [tells_retryable (by simp [Order.internalError, token]), State.MayFail, if_pos token]
  | false =>
      rw [tells_silent (by simp [Order.internalError, token]), State.MayFail,
        if_neg (by simp [token])]
      rfl

/-- A conflict is final in the service route. -/
theorem tells_conflict {response : Response} : Tells s (o.hash network) (o.conflict response) ↔
    o.isToken = true ∨ s.MayFail network o := by
  cases token : o.isToken with
  | true =>
      exact iff_of_true (tells_of_final (by simp [Order.conflict, token])) (.inl rfl)
  | false =>
      rw [tells_silent (by simp [Order.conflict, token]), State.MayFail, if_neg (by simp [token])]
      exact (or_iff_right nofun).symm

/-! ### Steps -/

/-- Before the payment. -/
def Stage.isEarly : Stage → Bool
  | .lookingUp | .checkingToken | .verifying | .settling | .takingQuota | .submitting => true
  | .checkingDuplicate | .fulfilling | .inserting | .readingCached | .answered _ => false

/-- Before the payment nothing is applied, and only the service route reads a cached answer. -/
structure Staged (o : Order) (s : State) : Prop where
  unpaid : s.stage.isEarly = true → s.applied = false
  token : s.stage = .readingCached → o.isToken = true

theorem step_cases {request : Request} (ok : step network request s event = some s') :
    ∃ o, request.validate network = .ok o ∧ (∀ answer, s.stage ≠ .answered answer) ∧
      ((∃ job jobs, event = .record job ∧ s.jobs.insert job = some jobs ∧
        s' = { s with jobs := jobs }) ∨ advance network s o s.stage event = some s') := by
  unfold step at ok
  split at ok
  · cases ok
  · cases ok
  · next o job valid open_ =>
      obtain ⟨jobs, inserted, rfl⟩ := Option.map_eq_some_iff.mp ok
      exact ⟨o, valid, open_, .inl ⟨job, jobs, rfl, inserted, rfl⟩⟩
  · next o valid _ open_ =>
      exact ⟨o, valid, open_, .inr ok⟩

/-- The stages at which an event is possible. -/
def Event.stages : Event → List Stage
  | .record _ => []
  | .lookUp => [.lookingUp]
  | .checkToken => [.checkingToken]
  | .verify _ => [.verifying]
  | .settle _ _ => [.settling]
  | .takeQuota _ => [.takingQuota]
  | .submit _ _ => [.submitting]
  | .checkDuplicate => [.checkingDuplicate]
  | .fulfil _ => [.fulfilling]
  | .insert _ | .commit => [.inserting]
  | .readCached => [.readingCached]
  | .fail => [.lookingUp, .checkingToken, .verifying, .takingQuota, .checkingDuplicate, .inserting,
      .readingCached]

theorem mem_stages {stage : Stage} (ok : advance network s o stage event = some s') :
    stage ∈ event.stages := by
  cases event <;> cases stage <;> first | cases ok; done | simp [Event.stages]

theorem afterPayment_open (answer : Answer) : afterPayment o ≠ .answered answer := by
  unfold afterPayment
  split <;> exact nofun

theorem Staged.unpaid_at {stage : Stage} (staged : Staged o s) (here : s.stage = stage)
    (early : stage.isEarly = true) : s.applied = false :=
  staged.unpaid (here ▸ early)

/-- The row of the job carries the hash of the payment. -/
theorem recorded_of_insert {txHash : TxHash} {jobs : Jobs} (ok : o.insert s.jobs txHash = .row jobs) :
    ∃ job ∈ jobs.list, job.txHash = txHash := by
  unfold Order.insert at ok
  split at ok
  · cases ok
  · next inserted done =>
      split at ok <;> cases ok
      obtain ⟨-, rows⟩ := Rows.insert_eq_some.mp done
      exact ⟨_, by rw [rows]; exact List.mem_append_right _ List.mem_cons_self, rfl⟩

theorem tells_recorded (silent : answer.retryable = none) (recorded : s.Recorded (o.hash network)) :
    Tells s (o.hash network) answer :=
  (tells_silent silent).mpr fun owing => owing.2 recorded

theorem tells_replay {job : JobRow} : Tells s (o.hash network) (o.replay job) ↔
    (job.idempotencyResponse.isSome → ¬ s.Owing network o) ∧
      (job.idempotencyResponse = none → o.isToken = true ∨ s.MayFail network o) := by
  unfold Order.replay
  cases job.idempotencyResponse with
  | some body => simp [tells_silent, State.Owing]
  | none => simp [tells_conflict]

theorem insertJob_truthful {coded : Bool} :
    Truthful network o (s.insertJob network o coded) ↔ Honest network o s (.insert coded) := by
  unfold State.insertJob Honest
  cases inserted : o.insert s.jobs (o.hash network) with
  | row jobs =>
      exact iff_of_true (truthful_answer.mpr (tells_recorded rfl (recorded_of_insert inserted)))
        (.inl rfl)
  | paymentTaken =>
      cases coded with
      | true => simp [Inserted.isRow, truthful_answer, tells_conflict]
      | false => simp [Inserted.isRow, truthful_answer, tells_internalError]
  | keyTaken =>
      cases coded with
      | false => simp [Inserted.isRow, truthful_answer, tells_internalError]
      | true =>
          cases token : o.isToken with
          | true => simp [truthful_goto]
          | false =>
              simp [Inserted.isRow, truthful_answer, tells_silent, State.MayFail, State.Owing, token]

/-- An answer is truthful exactly if the step that gives it is honest. -/
theorem truthful_iff_honest (staged : Staged o s)
    (ok : advance network s o s.stage event = some s') :
    Truthful network o s' ↔ Honest network o s event := by
  have here := mem_stages ok
  cases event with
  | record job => cases here
  | lookUp =>
      replace here := List.mem_singleton.mp here
      have unpaid := staged.unpaid_at here rfl
      rw [here] at ok
      refine iff_of_true ?_ trivial
      simp only [advance] at ok
      split at ok
      · split at ok <;> cases ok <;> exact truthful_answer.mpr (tells_of_unpaid unpaid)
      · cases ok
        refine truthful_goto fun answer => ?_
        split <;> exact nofun
  | checkToken =>
      replace here := List.mem_singleton.mp here
      have unpaid := staged.unpaid_at here rfl
      rw [here] at ok
      refine iff_of_true ?_ trivial
      simp only [advance] at ok
      split at ok <;> cases ok
      · exact truthful_answer.mpr (tells_of_unpaid unpaid)
      · exact truthful_goto nofun
  | verify accepted =>
      replace here := List.mem_singleton.mp here
      have unpaid := staged.unpaid_at here rfl
      rw [here] at ok
      refine iff_of_true ?_ trivial
      simp only [advance] at ok
      split at ok
      · split at ok <;> cases ok
        · exact truthful_answer.mpr (tells_of_unpaid unpaid)
        · exact truthful_goto nofun
      · cases ok
      · cases ok
  | settle applied reported =>
      rw [List.mem_singleton.mp here] at ok
      cases reported with
      | true =>
          cases ok
          exact iff_of_true (truthful_goto afterPayment_open) fun _ => rfl
      | false =>
          cases ok
          rw [if_neg Bool.false_ne_true, truthful_answer, tells_retryable rfl]
          cases applied <;> simp [Honest]
  | takeQuota granted =>
      replace here := List.mem_singleton.mp here
      have unpaid := staged.unpaid_at here rfl
      rw [here] at ok
      refine iff_of_true ?_ trivial
      simp only [advance] at ok
      split at ok
      · cases ok
        exact truthful_answer.mpr (tells_of_unpaid unpaid)
      · split at ok <;> cases ok <;> exact truthful_goto nofun
  | submit applied reported =>
      rw [List.mem_singleton.mp here] at ok
      simp only [advance] at ok
      split at ok
      · cases reported with
        | true =>
            refine iff_of_true ?_ fun _ => rfl
            split at ok
            · cases ‹(!true) = true›
            · split at ok <;> cases ok
              · exact truthful_answer.mpr (tells_of_final rfl)
              · exact truthful_goto nofun
        | false =>
            cases ok
            rw [truthful_answer, tells_retryable rfl]
            cases applied <;> simp [Honest]
      · cases ok
      · cases ok
  | checkDuplicate =>
      rw [List.mem_singleton.mp here] at ok
      refine iff_of_true ?_ trivial
      simp only [advance] at ok
      split at ok
      · next found =>
          cases ok
          obtain ⟨job, mem, same⟩ := List.any_eq_true.mp found
          exact truthful_answer.mpr (tells_recorded rfl ⟨job, mem, of_decide_eq_true same⟩)
      · cases ok
        exact truthful_goto afterPayment_open
  | fulfil fulfilled =>
      rw [List.mem_singleton.mp here] at ok
      refine iff_of_true ?_ trivial
      simp only [advance] at ok
      split at ok <;> cases ok
      · exact truthful_goto nofun
      · exact truthful_answer.mpr (tells_of_final rfl)
  | insert coded =>
      rw [List.mem_singleton.mp here] at ok
      cases ok
      exact insertJob_truthful
  | commit =>
      replace here := List.mem_singleton.mp here
      rw [here] at ok
      simp only [advance] at ok
      split at ok <;> cases ok
      refine iff_of_true (fun answer answered => ?_) trivial
      cases here.symm.trans answered
  | readCached =>
      replace here := List.mem_singleton.mp here
      have token := staged.token here
      rw [here] at ok
      simp only [advance] at ok
      split at ok
      · next job found =>
          cases ok
          rw [truthful_answer, tells_replay, Honest, found]
          simp [token]
      · next found =>
          cases ok
          rw [truthful_answer, Honest, found]
          exact iff_of_true (tells_of_final rfl) nofun
  | fail =>
      have failed : s' = s.answer o.internalError := by
        cases stage : s.stage <;> rw [stage] at ok <;> cases ok <;> rfl
      rw [failed, truthful_answer, tells_internalError]
      rfl

theorem staged_goto {stage : Stage} (late : stage.isEarly = true → s.applied = false)
    (other : stage ≠ .readingCached) : Staged o (s.goto stage) :=
  ⟨late, fun reading => absurd reading other⟩

theorem staged_answer : Staged o (s.answer answer) := staged_goto nofun nofun

theorem staged_afterPayment : Staged o (s.goto (afterPayment o)) := by
  unfold afterPayment
  split <;> exact staged_goto nofun nofun

theorem Staged.insertJob {coded : Bool} : Staged o (s.insertJob network o coded) := by
  unfold State.insertJob
  split
  · exact staged_answer
  · split <;> exact staged_answer
  · split
    · exact staged_answer
    · split
      · next token => exact ⟨nofun, fun _ => token⟩
      · exact staged_answer

theorem Staged.advance (staged : Staged o s)
    (ok : advance network s o s.stage event = some s') : Staged o s' := by
  have here := mem_stages ok
  cases event with
  | record job => cases here
  | lookUp =>
      replace here := List.mem_singleton.mp here
      have unpaid := staged.unpaid_at here rfl
      rw [here] at ok
      simp only [Answers.advance] at ok
      split at ok
      · split at ok <;> cases ok <;> exact staged_answer
      · cases ok
        exact staged_goto (fun _ => unpaid) (by split <;> exact nofun)
  | checkToken =>
      replace here := List.mem_singleton.mp here
      have unpaid := staged.unpaid_at here rfl
      rw [here] at ok
      simp only [Answers.advance] at ok
      split at ok <;> cases ok
      · exact staged_answer
      · exact staged_goto (fun _ => unpaid) nofun
  | verify accepted =>
      replace here := List.mem_singleton.mp here
      have unpaid := staged.unpaid_at here rfl
      rw [here] at ok
      simp only [Answers.advance] at ok
      split at ok
      · split at ok <;> cases ok
        · exact staged_answer
        · exact staged_goto (fun _ => unpaid) nofun
      · cases ok
      · cases ok
  | settle applied reported =>
      rw [List.mem_singleton.mp here] at ok
      cases reported <;> cases ok
      · exact staged_answer
      · exact staged_afterPayment
  | takeQuota granted =>
      replace here := List.mem_singleton.mp here
      have unpaid := staged.unpaid_at here rfl
      rw [here] at ok
      simp only [Answers.advance] at ok
      split at ok
      · cases ok
        exact staged_answer
      · split at ok <;> cases ok <;> exact staged_goto (fun _ => unpaid) nofun
  | submit applied reported =>
      rw [List.mem_singleton.mp here] at ok
      simp only [Answers.advance] at ok
      split at ok
      · split at ok
        · cases ok
          exact staged_answer
        · split at ok <;> cases ok
          · exact staged_answer
          · exact staged_goto nofun nofun
      · cases ok
      · cases ok
  | checkDuplicate =>
      rw [List.mem_singleton.mp here] at ok
      simp only [Answers.advance] at ok
      split at ok <;> cases ok
      · exact staged_answer
      · exact staged_afterPayment
  | fulfil fulfilled =>
      rw [List.mem_singleton.mp here] at ok
      simp only [Answers.advance] at ok
      split at ok <;> cases ok
      · exact staged_goto nofun nofun
      · exact staged_answer
  | insert coded =>
      rw [List.mem_singleton.mp here] at ok
      cases ok
      exact Staged.insertJob
  | commit =>
      replace here := List.mem_singleton.mp here
      rw [here] at ok
      simp only [Answers.advance] at ok
      split at ok <;> cases ok
      refine ⟨fun early => ?_, fun reading => ?_⟩
      · rw [here] at early
        cases early
      · cases here.symm.trans reading
  | readCached =>
      rw [List.mem_singleton.mp here] at ok
      simp only [Answers.advance] at ok
      split at ok <;> cases ok <;> exact staged_answer
  | fail =>
      cases stage : s.stage <;> rw [stage] at ok <;> cases ok <;> exact staged_answer

/-! ### What holds of answers, and when -/

theorem truthful_of_open (open_ : ∀ answer, s.stage ≠ .answered answer) : Truthful network o s :=
  fun answer answered => absurd answered (open_ answer)

/-- The answer to a request that is accepted is truthful exactly if every step of the run is
honest; a request that is refused is not paid, and does not move on. -/
theorem tells_iff {request : Request} {jobs : Jobs} {h : List (Transition State Event)}
    (run : Run (machine network request jobs) h s) :
    (∀ o, request.validate network = .ok o →
      (Truthful network o s ↔ ∀ r ∈ h, Honest network o r.pre r.event)) ∧
    ∀ answer, request.validate network = .error answer →
      h = [] ∧ s.stage = .answered answer ∧ s.applied = false := by
  constructor
  · intro o valid
    have start : Staged o (machine network request jobs).init ∧
        (Truthful network o (machine network request jobs).init ↔
          ∀ r ∈ ([] : List (Transition State Event)), Honest network o r.pre r.event) := by
      have stage : (machine network request jobs).init.stage = .lookingUp := by
        simp only [machine, valid]
      refine ⟨⟨fun _ => rfl, fun reading => ?_⟩, iff_of_true (truthful_of_open ?_) (List.forall_mem_nil _)⟩
      · cases stage.symm.trans reading
      · rw [stage]
        exact nofun
    refine (run.history (C := fun _ => True)
      (I := fun h s => Staged o s ∧ (Truthful network o s ↔ ∀ r ∈ h, Honest network o r.pre r.event))
      (fun _ _ => trivial) start ?_).2
    rintro h s event s' ⟨staged, before⟩ ok -
    obtain ⟨o', valid', open_, step⟩ := step_cases ok
    cases valid.symm.trans valid'
    have earlier : ∀ r ∈ h, Honest network o r.pre r.event := before.mp (truthful_of_open open_)
    rw [List.forall_mem_cons, and_iff_left earlier]
    rcases step with ⟨job, jobs, rfl, -, rfl⟩ | step
    · exact ⟨⟨staged.unpaid, staged.token⟩, iff_of_true (truthful_of_open open_) trivial⟩
    · exact ⟨staged.advance step, truthful_iff_honest staged step⟩
  · intro answer refused
    cases run with
    | refl => exact ⟨rfl, by simp only [machine, refused], rfl⟩
    | step steps ok =>
        obtain ⟨o, valid, -⟩ := step_cases ok
        cases refused.symm.trans valid

/-! ### A submission that is applied and reports an error -/

def exampleService : ServiceRow := ⟨"search", 5, some "G-PAYEE", false⟩

/-- Every transaction pays five USDC to the payee. -/
def exampleNetwork : Network where
  usdcIssuer := "G-USDC"
  operatorPublicKey := "G-OPERATOR"
  decode _ := some ⟨false, true, [⟨"payment", some ⟨"USDC", "G-USDC"⟩, some "G-PAYEE", 5⟩]⟩
  hash _ := "settled"

def exampleRequest : Request :=
  .service ⟨"talos", some "buyer", none, some none, "payload", some "token", some exampleService,
    none⟩

def exampleJobRequest : Request :=
  .job ⟨"talos", some "G-BUYER", some "signed", none, some "key", "payload", some exampleService,
    some (.active, none)⟩

def exampleOrder : Order :=
  ⟨"talos", "buyer", exampleService, "G-PAYEE", "payload", "pending", none, .token "token"⟩

def exampleJobOrder : Order :=
  ⟨"talos", "human:G-BUYER", exampleService, "G-PAYEE", "payload", "pending", some "key",
    .signedXdr "signed"⟩

theorem exampleRequest_valid : exampleRequest.validate exampleNetwork = .ok exampleOrder := rfl

def played (request : Request) (events : List Event) : List (Transition State Event) × State :=
  (machine exampleNetwork request .empty).play events
    ([], (machine exampleNetwork request .empty).init)

/-- Everything goes well. -/
def settled : List Event :=
  [.lookUp, .checkToken, .verify true, .settle true true, .insert true]

theorem tells_iff_settled :
    (played exampleRequest settled).2.applied = true ∧
      Truthful exampleNetwork exampleOrder (played exampleRequest settled).2 := by
  have run := Machine.play_run (machine exampleNetwork exampleRequest .empty) settled
  exact ⟨by decide +kernel, ((tells_iff run).1 _ exampleRequest_valid).mpr (by decide +kernel)⟩

/-- A payment that is applied and reported as an error, in both routes. -/
theorem retry_after_payment :
    (Reachable (machine exampleNetwork exampleRequest .empty)
        (played exampleRequest [.lookUp, .checkToken, .verify true, .settle true false]).2 ∧
      ¬ Truthful exampleNetwork exampleOrder
        (played exampleRequest [.lookUp, .checkToken, .verify true, .settle true false]).2) ∧
    Reachable (machine exampleNetwork exampleJobRequest .empty)
        (played exampleJobRequest [.lookUp, .takeQuota true, .submit true false]).2 ∧
      ¬ Truthful exampleNetwork exampleJobOrder
        (played exampleJobRequest [.lookUp, .takeQuota true, .submit true false]).2 := by
  have settling : (played exampleRequest
      [.lookUp, .checkToken, .verify true, .settle true false]).2.stage =
        .answered settlementFailed := by decide +kernel
  have submitting : (played exampleJobRequest
      [.lookUp, .takeQuota true, .submit true false]).2.stage =
        .answered submissionFailed := by decide +kernel
  refine ⟨⟨⟨_, Machine.play_run _ _⟩, fun truthful => ?_⟩, ⟨_, Machine.play_run _ _⟩,
    fun truthful => ?_⟩
  · exact absurd ((truthful _ settling).1 rfl) (by decide +kernel)
  · exact absurd ((truthful _ submitting).1 rfl) (by decide +kernel)

end Answers

end Talos.Commerce
