import Talos.Database.Machine
import Talos.Database.Table
import Mathlib.Algebra.Order.Ring.Rat
import Mathlib.Data.List.ReduceOption

/-!
# Buybacks

`POST /api/talos/:id/revenue/buyback`
(`web/src/app/api/talos/[id]/revenue/buyback/route.ts`), with its ledger of idempotency keys.
As in the machine of the token sales, an event is one statement or one network call of one
request, and a request may stop between any two of them. The amounts are those that
`buybackSchema` accepts, the key is the header without the white space around it, and the
message text of a success is left out.
-/

namespace Talos.Revenue

open Database Soroban

abbrev TalosId := String
abbrev TxHash := String
abbrev IdempotencyKey := String
abbrev RequestId := Nat

/-- What the route reads of the Talos. -/
structure TalosRow where
  id : TalosId
  stellarAssetCode : Option String
  deriving DecidableEq

structure Amounts where
  usdcAmount : ℚ
  mitosAmount : ℚ
  deriving DecidableEq

/-- The environment of the process: whether `STELLAR_OPERATOR_SECRET_KEY` is set, and the
digest of a body. -/
structure Operator where
  hasSecret : Bool
  requestHash : Amounts → String

/-- A request, whether its API key may write revenue, and the Talos of its path if there is
one. -/
structure Request where
  authorized : Bool
  talos : Option TalosRow
  amounts : Option Amounts
  idempotencyKey : Option IdempotencyKey

/-- A request that is accepted. -/
structure Buyback where
  talos : TalosRow
  amounts : Amounts
  idempotencyKey : Option IdempotencyKey
  deriving DecidableEq

inductive BuybackStatus where
  | pending
  | completed
  | failed
  deriving DecidableEq

structure BuybackResponse where
  txHash : TxHash
  mitosBurned : ℚ
  usdcSpent : ℚ
  deriving DecidableEq

/-- A row of `tls_buyback_requests`; the Talos and the idempotency key are its key. -/
structure BuybackRow where
  requestHash : String
  status : BuybackStatus
  responseBody : Option BuybackResponse
  deriving DecidableEq

/-- A row of `tls_revenues`. -/
structure RevenueRow where
  talosId : TalosId
  amount : ℚ
  txHash : TxHash
  deriving DecidableEq

inductive Response where
  | error (status : Nat) (message : String)
  | success (replayed : Bool) (body : BuybackResponse)
  deriving DecidableEq

structure Key where
  talosId : TalosId
  idempotencyKey : IdempotencyKey
  deriving DecidableEq

def Buyback.key (b : Buyback) : Option Key := b.idempotencyKey.map (Key.mk b.talos.id)

/-- `Number(n.toFixed(7)) === n`, of a number that is greater than 0. -/
def isAmount (x : ℚ) : Bool := 0 < x ∧ (x * 10000000).den = 1

def isKey (key : IdempotencyKey) : Bool := 1 ≤ key.length ∧ key.length ≤ 255

def validate (operator : Operator) (request : Request) : Except Response Buyback :=
  if !request.authorized then .error (.error 401 "Unauthorized")
  else match request.amounts with
    | none => .error (.error 400 "Validation failed")
    | some amounts =>
        if !isAmount amounts.usdcAmount || !isAmount amounts.mitosAmount then
          .error (.error 400 "Validation failed")
        else if request.idempotencyKey.any fun key => !isKey key then
          .error (.error 400 "Validation failed")
        else match request.talos with
          | none => .error (.error 404 "TALOS not found")
          | some talos =>
              if !talos.stellarAssetCode.any fun code => code.toList.contains ':' then
                .error (.error 400 "No Mitos token configured for this TALOS")
              else if !operator.hasSecret then
                .error (.error 500 "STELLAR_OPERATOR_SECRET_KEY not configured")
              else .ok ⟨talos, amounts, request.idempotencyKey⟩

/-! ### Requests -/

inductive Phase where
  /-- Before the key is claimed; `retry` if a failed row was read. -/
  | claiming (retry : Bool)
  | submitting
  | committing (txHash : TxHash)
  | responding (body : BuybackResponse)
  /-- Before the row of the key is marked failed. -/
  | failing (message : String)
  /-- Before the response of another error is sent. -/
  | erring (message : String)
  deriving DecidableEq

/-- What becomes of the transaction: it is applied and reported, or an error is reported, with
a response of Horizon or without one, of a transaction that may be applied all the same. -/
inductive Submission where
  | applied (txHash : TxHash)
  | error (response applied : Bool) (message : String)

structure State where
  buybacks : Table Key BuybackRow
  revenues : List RevenueRow
  requests : Map RequestId (Buyback × Phase)
  /-- The keys of the transfers that were applied, newest first. -/
  transfers : List (Option Key)
  /-- The responses that were sent, with the key of their request, newest first. -/
  responses : List (Option Key × Response)

inductive Event where
  | post (id : RequestId) (request : Request)
  | claim (id : RequestId)
  | submit (id : RequestId) (outcome : Submission)
  | commit (id : RequestId)
  | respond (id : RequestId)
  | markFailed (id : RequestId)
  | crash (id : RequestId)

namespace State

variable (s : State)

def goto (id : RequestId) (b : Buyback) (phase : Phase) : State :=
  { s with requests := s.requests.set id (b, phase) }

/-- The request ends, by a crash or a statement that fails. -/
def stop (id : RequestId) : State := { s with requests := s.requests.remove id }

/-- The request ends with a response. -/
def respond (id : RequestId) (b : Buyback) (response : Response) : State :=
  { s with
    requests := s.requests.remove id
    responses := (b.key, response) :: s.responses }

/-- `UPDATE tls_buyback_requests … WHERE talosId AND idempotencyKey`. -/
def updateBuyback (key : Key) (f : BuybackRow → BuybackRow) : State :=
  { s with buybacks := Function.update s.buybacks key ((s.buybacks key).map f) }

/-- The transaction is applied. -/
def transfer (b : Buyback) : State := { s with transfers := b.key :: s.transfers }

end State

def inProgress : Response :=
  .error 409 "A buyback is already in progress for this Idempotency-Key"

variable (operator : Operator)

/-- The lookup of the key, which another body, a replay or a pending row ends. -/
def State.lookup (s : State) (id : RequestId) (b : Buyback) : State :=
  match b.key with
  | none => s.goto id b .submitting
  | some key =>
      match s.buybacks key with
      | none => s.goto id b (.claiming false)
      | some row =>
          if row.requestHash ≠ operator.requestHash b.amounts then
            s.respond id b
              (.error 422 "Idempotency-Key was already used with a different request body")
          else match row.status, row.responseBody with
            | .completed, some body => s.respond id b (.success true body)
            | .pending, _ => s.respond id b inProgress
            | _, _ => s.goto id b (.claiming true)

def Buyback.newRow (b : Buyback) : BuybackRow where
  requestHash := operator.requestHash b.amounts
  status := .pending
  responseBody := none

/-- The INSERT of a new key or the UPDATE of a failed one. -/
def State.claimKey (s : State) (id : RequestId) (b : Buyback) (key : Key) (retry : Bool) :
    State :=
  if retry then
    (s.updateBuyback key fun row =>
      { row with status := .pending, responseBody := none }).goto id b .submitting
  else match s.buybacks.insert key (b.newRow operator) with
    | some buybacks => { s with buybacks := buybacks }.goto id b .submitting
    | none => s.respond id b inProgress

/-- An error of the submission: with a response of Horizon the key is to be marked failed. -/
def State.submissionError (s : State) (id : RequestId) (b : Buyback) (response : Bool)
    (message : String) : State :=
  match b.key, response with
  | some _, true => s.goto id b (.failing message)
  | _, _ => s.goto id b (.erring message)

def Buyback.responseBody (b : Buyback) (txHash : TxHash) : BuybackResponse where
  txHash := txHash
  mitosBurned := b.amounts.mitosAmount
  usdcSpent := b.amounts.usdcAmount

/-- The transaction of a buyback. -/
def State.commitBuyback (s : State) (id : RequestId) (b : Buyback) (txHash : TxHash) : State :=
  let body := b.responseBody txHash
  let recorded :=
    { s with revenues := ⟨b.talos.id, -b.amounts.usdcAmount, txHash⟩ :: s.revenues }
  match b.key with
  | none => recorded.goto id b (.responding body)
  | some key =>
      (recorded.updateBuyback key fun row =>
        { row with status := .completed, responseBody := some body }).goto id b
          (.responding body)

/-! ### Steps -/

/-- A step of a request in a phase. -/
def advance (s : State) (id : RequestId) (b : Buyback) : Phase → Event → Option State
  | .claiming retry, .claim _ => b.key.map fun key => s.claimKey operator id b key retry
  | .submitting, .submit _ outcome =>
      match outcome with
      | .applied txHash => some ((s.transfer b).goto id b (.committing txHash))
      | .error response applied message =>
          let sent := if applied then s.transfer b else s
          some (sent.submissionError id b response message)
  | .committing txHash, .commit _ => some (s.commitBuyback id b txHash)
  | .responding body, .respond _ => some (s.respond id b (.success false body))
  | .erring message, .respond _ => some (s.respond id b (.error 500 message))
  | .failing message, .markFailed _ =>
      b.key.map fun key =>
        (s.updateBuyback key fun row => { row with status := .failed }).respond id b
          (.error 500 message)
  | _, .crash _ => some (s.stop id)
  | _, _ => none

def Event.request : Event → RequestId
  | .post id _ | .claim id | .submit id _ | .commit id | .respond id | .markFailed id
  | .crash id => id

def step (s : State) (event : Event) : Option State :=
  match event with
  | .post id request =>
      match s.requests id with
      | some _ => none
      | none =>
          match validate operator request with
          | .error _ => some s
          | .ok b => some (s.lookup operator id b)
  | _ =>
      match s.requests event.request with
      | none => none
      | some (b, phase) => advance operator s event.request b phase event

def machine : Machine State Event where
  init := ⟨fun _ => none, [], fun _ => none, [], []⟩
  step := step operator

end Talos.Revenue
