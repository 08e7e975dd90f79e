import Talos.Database.Machine
import Talos.Database.Table
import Mathlib.Algebra.Order.Ring.Rat
import Mathlib.Data.Rat.Floor

/-!
# Distributions of revenue

`POST /api/talos/:id/revenue/distribute`
(`web/src/app/api/talos/[id]/revenue/distribute/route.ts`), for one Talos whose patrons and
investor share stay as they are. An event is a statement or the transaction to one patron of
one call, or revenue that is recorded; what the network answers is part of the event, as is
the identifier that is created for a call without one. Amounts are exact.
-/

namespace Talos.Revenue.Distribute

open Database Soroban

abbrev PublicKey := String
abbrev TxHash := String
abbrev DistributionId := String
abbrev CallId := Nat

/-- A row of `tls_patrons`. -/
structure Patron where
  stellarPublicKey : PublicKey
  pulseAmount : Nat
  active : Bool
  deriving DecidableEq

structure Treasury where
  creatorPublicKey : PublicKey
  investorShare : Option Nat
  patrons : List Patron
  unique : (patrons.map Patron.stellarPublicKey).Nodup

/-- The environment of the process. -/
structure Operator where
  publicKey : PublicKey
  hasSecret : Bool

structure Request where
  requesterPublicKey : Option PublicKey
  distributionId : Option DistributionId

/-- A request that is accepted. -/
structure Call where
  requesterPublicKey : PublicKey
  distributionId : DistributionId
  deriving DecidableEq

/-- What one patron is to be paid. -/
structure Payout where
  patron : PublicKey
  amount : ℚ
  deriving DecidableEq

structure Transfer where
  patron : PublicKey
  amount : ℚ
  txHash : TxHash
  deriving DecidableEq

structure Failure where
  patron : PublicKey
  error : String
  deriving DecidableEq

inductive DividendStatus where
  | completed
  | partlyPaid
  | failed
  deriving DecidableEq

/-- A row of `tls_dividends`; `distributionId` is its key. -/
structure DividendRow where
  amount : ℚ
  patronCount : Nat
  totalPulse : Nat
  txHash : Option TxHash
  breakdown : List Transfer
  status : DividendStatus
  retryCount : Nat
  lastError : Option String
  deriving DecidableEq

inductive Response where
  | error (status : Nat) (message : String)
  /-- Of a distribution that is recorded already. -/
  | executed (status : DividendStatus) (transfers : List Transfer)
  | distributed (recorded : Bool) (totalRevenue : ℚ) (transfers : List Transfer)
      (errors : List Failure)
  deriving DecidableEq

/-! ### The payouts -/

variable (treasury : Treasury)

/-- `talos.investorShare ?? 25`, in percent. -/
def Treasury.share : ℚ := (treasury.investorShare.getD 25 : Nat)

def Treasury.activePatrons : List Patron := treasury.patrons.filter Patron.active

def totalPulse (patrons : List Patron) : Nat := (patrons.map Patron.pulseAmount).sum

def Treasury.distributableAmount (totalRevenue : ℚ) : ℚ := totalRevenue * treasury.share / 100

def Patron.payout (patron : Patron) (distributableAmount : ℚ) (totalPulse : Nat) : Payout where
  patron := patron.stellarPublicKey
  amount := ⌊distributableAmount * (patron.pulseAmount / totalPulse) * 10000000⌋ / 10000000

/-- The amounts of the patrons, without dust. -/
def payoutsOf (patrons : List Patron) (distributableAmount : ℚ) (totalPulse : Nat) :
    List Payout :=
  (patrons.map fun patron => patron.payout distributableAmount totalPulse).filter fun payout =>
    1 / 10000000 ≤ payout.amount

def Treasury.payouts (totalRevenue : ℚ) : List Payout :=
  payoutsOf treasury.activePatrons (treasury.distributableAmount totalRevenue)
    (totalPulse treasury.activePatrons)

/-! ### The records -/

/-- `x.toFixed(6)`, of a number that is not negative. -/
def toFixed6 (x : ℚ) : ℚ := ⌊x * 1000000 + 1 / 2⌋ / 1000000

def distributedTotal (transfers : List Transfer) : ℚ := (transfers.map Transfer.amount).sum

def Treasury.dividend (transfers : List Transfer) (errors : List Failure) : DividendRow where
  amount := toFixed6 (distributedTotal transfers)
  patronCount := transfers.length
  totalPulse := totalPulse treasury.activePatrons
  txHash := transfers.head?.map Transfer.txHash
  breakdown := transfers
  status := if errors = [] then .completed else .partlyPaid
  retryCount := 0
  lastError := none

def Treasury.failedDividend (lastError : String) : DividendRow where
  amount := 0
  patronCount := 0
  totalPulse := totalPulse treasury.activePatrons
  txHash := none
  breakdown := []
  status := .failed
  retryCount := 1
  lastError := some lastError

/-! ### Steps -/

inductive Phase where
  | lookingUp
  | readingRevenue
  | transferring (totalRevenue : ℚ) (remaining : List Payout) (transfers : List Transfer)
      (errors : List Failure)
  | recording (totalRevenue : ℚ) (transfers : List Transfer) (errors : List Failure)
  | recordingFailure (totalRevenue : ℚ) (transfers : List Transfer) (errors : List Failure)
      (lastError : String)
  deriving DecidableEq

/-- What becomes of a transaction: it is applied and reported, applied and reported as an
error, or not applied. -/
inductive Outcome where
  | applied (txHash : TxHash)
  | lost (error : String)
  | rejected (error : String)

/-- A transfer that was applied, and the call that sent it. -/
structure Sent where
  call : CallId
  distributionId : DistributionId
  patron : PublicKey
  amount : ℚ
  deriving DecidableEq

structure State where
  revenues : List ℚ
  /-- The largest total of the revenues so far. -/
  peak : ℚ
  dividends : Table DistributionId DividendRow
  calls : Map CallId (Call × Phase)
  /-- The number of calls so far. -/
  started : CallId
  /-- The transfers that were applied, newest first. -/
  sent : List Sent
  responses : List (CallId × Response)

inductive Event where
  | recordRevenue (amount : ℚ)
  | post (request : Request) (created : DistributionId)
  | lookUp (id : CallId)
  | readRevenue (id : CallId)
  | transfer (id : CallId) (outcome : Outcome)
  | record (id : CallId) (error : Option String)
  | recordFailure (id : CallId) (error : Option String)
  | crash (id : CallId)

namespace State

variable (s : State)

def goto (id : CallId) (call : Call) (phase : Phase) : State :=
  { s with calls := s.calls.set id (call, phase) }

def stop (id : CallId) : State := { s with calls := s.calls.remove id }

def respond (id : CallId) (response : Response) : State :=
  { s with calls := s.calls.remove id, responses := (id, response) :: s.responses }

def send (id : CallId) (call : Call) (payout : Payout) : State :=
  { s with sent := ⟨id, call.distributionId, payout.patron, payout.amount⟩ :: s.sent }

end State

def State.receive (s : State) (request : Request) (created : DistributionId) : State :=
  let accepted := { s with started := s.started + 1 }
  match request.requesterPublicKey.filter (· ≠ "") with
  | none => accepted.respond s.started (.error 400 "requesterPublicKey is required")
  | some requesterPublicKey =>
      accepted.goto s.started
        ⟨requesterPublicKey, (request.distributionId.filter (· ≠ "")).getD created⟩ .lookingUp

/-- What follows the transfers. -/
def State.afterTransfers (s : State) (id : CallId) (call : Call) (totalRevenue : ℚ)
    (transfers : List Transfer) (errors : List Failure) : State :=
  if transfers ≠ [] ∧ 0 < distributedTotal transfers then
    s.goto id call (.recording totalRevenue transfers errors)
  else if errors ≠ [] then
    s.goto id call (.recordingFailure totalRevenue transfers errors
      (", ".intercalate (errors.map Failure.error)))
  else s.respond id (.distributed false totalRevenue transfers errors)

/-- The loop over the patrons. -/
def State.transferNext (s : State) (id : CallId) (call : Call) (totalRevenue : ℚ)
    (remaining : List Payout) (transfers : List Transfer) (errors : List Failure) : State :=
  match remaining with
  | [] => s.afterTransfers id call totalRevenue transfers errors
  | payout :: rest =>
      s.goto id call (.transferring totalRevenue (payout :: rest) transfers errors)

variable (operator : Operator)

/-- The lookup of the distribution, and who may distribute. -/
def State.lookUp (s : State) (id : CallId) (call : Call) : State :=
  match s.dividends call.distributionId with
  | some row => s.respond id (.executed row.status row.breakdown)
  | none =>
      if call.requesterPublicKey ≠ treasury.creatorPublicKey ∧
          call.requesterPublicKey ≠ operator.publicKey then
        s.respond id (.error 403 "Only the creator or operator can trigger distribution")
      else s.goto id call .readingRevenue

/-- The revenue is read, and the transfers start. -/
def State.readRevenue (s : State) (id : CallId) (call : Call) : State :=
  let totalRevenue := s.revenues.sum
  if totalRevenue ≤ 0 then s.respond id (.error 400 "No revenue to distribute")
  else if treasury.activePatrons = [] then
    s.respond id (.error 400 "No active patrons to distribute to")
  else if totalPulse treasury.activePatrons = 0 then
    s.respond id (.error 400 "Total Mitos held by patrons is 0")
  else if !operator.hasSecret then
    s.respond id (.error 500 "STELLAR_OPERATOR_SECRET_KEY not configured")
  else s.transferNext id call totalRevenue (treasury.payouts totalRevenue) [] []

/-- The record of what was transferred; `error` if its transaction fails. -/
def State.record (s : State) (id : CallId) (call : Call) (totalRevenue : ℚ)
    (transfers : List Transfer) (errors : List Failure) (error : Option String) : State :=
  match error, s.dividends.insert call.distributionId (treasury.dividend transfers errors) with
  | none, some dividends =>
      { s with dividends := dividends }.respond id
        (.distributed true totalRevenue transfers errors)
  | some error, _ =>
      s.goto id call (.recordingFailure totalRevenue transfers errors error)
  | none, none =>
      s.goto id call (.recordingFailure totalRevenue transfers errors
        "duplicate key value violates unique constraint")

/-- The record of a failure, whose own failure is logged only. -/
def State.recordFailure (s : State) (id : CallId) (call : Call) (totalRevenue : ℚ)
    (transfers : List Transfer) (errors : List Failure) (lastError : String)
    (error : Option String) : State :=
  let response : Response := .distributed false totalRevenue transfers errors
  match error, s.dividends.insert call.distributionId (treasury.failedDividend lastError) with
  | none, some dividends => { s with dividends := dividends }.respond id response
  | some _, _ | none, none => s.respond id response

/-- A step of a call in a phase. -/
def advance (s : State) (id : CallId) (call : Call) : Phase → Event → Option State
  | .lookingUp, .lookUp _ => some (s.lookUp treasury operator id call)
  | .readingRevenue, .readRevenue _ => some (s.readRevenue treasury operator id call)
  | .transferring totalRevenue (payout :: rest) transfers errors, .transfer _ outcome =>
      match outcome with
      | .applied txHash =>
          some ((s.send id call payout).transferNext id call totalRevenue rest
            (transfers ++ [⟨payout.patron, payout.amount, txHash⟩]) errors)
      | .lost error =>
          some ((s.send id call payout).transferNext id call totalRevenue rest transfers
            (errors ++ [⟨payout.patron, error⟩]))
      | .rejected error =>
          some (s.transferNext id call totalRevenue rest transfers
            (errors ++ [⟨payout.patron, error⟩]))
  | .recording totalRevenue transfers errors, .record _ error =>
      some (s.record treasury id call totalRevenue transfers errors error)
  | .recordingFailure totalRevenue transfers errors lastError, .recordFailure _ error =>
      some (s.recordFailure treasury id call totalRevenue transfers errors lastError error)
  | _, .crash _ => some (s.stop id)
  | _, _ => none

def Event.call : Event → Option CallId
  | .recordRevenue _ | .post .. => none
  | .lookUp id | .readRevenue id | .transfer id _ | .record id _ | .recordFailure id _
  | .crash id => some id

def State.recordRevenue (s : State) (amount : ℚ) : State :=
  { s with
    revenues := amount :: s.revenues
    peak := max s.peak (amount :: s.revenues).sum }

def step (s : State) (event : Event) : Option State :=
  match event with
  | .recordRevenue amount => some (s.recordRevenue amount)
  | .post request created => some (s.receive request created)
  | _ =>
      match event.call with
      | none => none
      | some id =>
          match s.calls id with
          | none => none
          | some (call, phase) => advance treasury operator s id call phase event

def machine : Machine State Event where
  init := ⟨[], 0, fun _ => none, fun _ => none, 0, [], []⟩
  step := step treasury operator

end Talos.Revenue.Distribute
