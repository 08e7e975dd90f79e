import Talos.Database.Machine
import Talos.Database.Table
import Mathlib.Algebra.Order.Ring.Rat
import Mathlib.Data.Rat.Floor

/-!
# Token sales

`POST /api/talos/:id/buy-token` (`web/src/app/api/talos/[id]/buy-token/route.ts`). The
machine interleaves the statements and network calls of any number of requests; what the
network answers is part of the event, and a request may stop between any two of them, also
because a statement fails. Amounts and prices are exact. The notice to the reconciler, which
a sale does not wait for, is left out, and the message text of a response.
-/

namespace Talos.TokenSales

open Database Soroban

abbrev TxHash := String
abbrev TalosId := String
abbrev PublicKey := String
abbrev RequestId := Nat

structure Asset where
  code : String
  issuer : PublicKey
  deriving DecidableEq

/-- What the route reads of the Talos. -/
structure TalosRow where
  id : TalosId
  pulsePrice : ℚ
  minPatronPulse : Option Nat
  stellarAssetCode : Option String
  agentWalletAddress : Option PublicKey
  tokenSymbol : Option String
  deriving DecidableEq

/-- The environment of the process. -/
structure Operator where
  publicKey : PublicKey
  usdcIssuer : PublicKey
  /-- Whether `STELLAR_OPERATOR_SECRET_KEY` is set. -/
  hasSecret : Bool

/-- A request, and the Talos of its path if there is one. -/
structure Request where
  talos : Option TalosRow
  buyerPublicKey : Option PublicKey
  amount : Option ℚ
  txHash : Option TxHash

/-- A request that is accepted. -/
structure Purchase where
  talos : TalosRow
  buyerPublicKey : PublicKey
  amount : ℚ
  txHash : TxHash
  deriving DecidableEq

inductive PurchaseStatus where
  | pending
  | completed
  | failed
  deriving DecidableEq

inductive PatronStatus where
  | updated
  | registered
  | pending (need : ℚ)
  deriving DecidableEq

structure PurchaseResponse where
  txHash : TxHash
  mitosTxHash : Option TxHash
  tokenSymbol : String
  amount : ℚ
  pricePerToken : ℚ
  totalCost : ℚ
  buyerPublicKey : PublicKey
  totalPulseHeld : ℚ
  patronStatus : PatronStatus
  deriving DecidableEq

/-- A row of `tls_token_purchases`; `txHash` is its key. -/
structure PurchaseRow where
  talosId : TalosId
  buyerPublicKey : PublicKey
  amount : ℚ
  totalCost : ℚ
  status : PurchaseStatus
  responseBody : Option PurchaseResponse
  deriving DecidableEq

/-- A row of `tls_revenues`. -/
structure RevenueRow where
  talosId : TalosId
  amount : ℚ
  txHash : TxHash
  deriving DecidableEq

inductive Response where
  | error (status : Nat) (message : String)
  | success (replayed : Bool) (body : PurchaseResponse)
  deriving DecidableEq

/-! ### Validation -/

/-- The numbers that an `integer` column holds. -/
def integerColumn (x : ℚ) : Bool := x.den = 1 ∧ -2147483648 ≤ x ∧ x ≤ 2147483647

/-- `Math.round(x * 1e6) / 1e6`. -/
def roundMicros (x : ℚ) : ℚ := ⌊x * 1000000 + 1 / 2⌋ / 1000000

def Purchase.totalCost (p : Purchase) : ℚ := roundMicros (p.amount * p.talos.pulsePrice)

def validate (request : Request) : Except Response Purchase :=
  match request.buyerPublicKey, request.amount, request.txHash with
  | none, _, _ => .error (.error 400 "buyerPublicKey is required")
  | some _, none, _ => .error (.error 400 "amount must be a positive number")
  | some buyerPublicKey, some amount, txHash =>
      if buyerPublicKey = "" then .error (.error 400 "buyerPublicKey is required")
      else if amount ≤ 0 then .error (.error 400 "amount must be a positive number")
      else match txHash.filter (· ≠ ""), request.talos with
        | none, _ => .error (.error 400 "txHash is required — submit USDC payment first")
        | some _, none => .error (.error 404 "TALOS not found")
        | some txHash, some talos =>
            if talos.pulsePrice ≤ 0 then
              .error (.error 400 "Token is not available for purchase")
            else .ok ⟨talos, buyerPublicKey, amount, txHash⟩

/-! ### Verification of the payment -/

structure Operation where
  type : String
  asset : Option Asset
  destination : Option PublicKey
  amount : ℚ

/-- A transaction as Horizon knows it; `inner` is what its envelope decodes to. -/
structure TxResult where
  successful : Bool
  sourceAccount : PublicKey
  inner : Option (PublicKey × List Operation)

def isPayment (operator : Operator) (p : Purchase) (op : Operation) : Bool :=
  op.type = "payment" ∧ op.asset = some ⟨"USDC", operator.usdcIssuer⟩ ∧
    (op.destination = some operator.publicKey ∨
      op.destination.isSome ∧ op.destination = p.talos.agentWalletAddress.filter (· ≠ "")) ∧
    |op.amount - p.totalCost| ≤ 1 / 1000000

/-- The error of a payment that does not pay for the purchase. -/
def verifyPayment (operator : Operator) (p : Purchase) : Option TxResult → Option String
  | none => some "Transaction not found on Stellar network"
  | some tx =>
      if !tx.successful then some "Transaction was not successful on-chain"
      else match tx.inner with
        | none => some "Failed to verify transaction details"
        | some (source, operations) =>
            if source ≠ p.buyerPublicKey ∧ tx.sourceAccount ≠ p.buyerPublicKey then
              some "Transaction signer does not match buyerPublicKey"
            else if operations.any (isPayment operator p) then none
            else some "No matching USDC payment found in transaction"

/-! ### Requests -/

inductive Phase where
  /-- Before the purchase row is claimed; `retry` if a failed one was read. -/
  | claiming (retry : Bool)
  | verifying
  | checkingAccount
  | transferring
  | readingPatron (mitosTxHash : Option TxHash)
  | committing (mitosTxHash : Option TxHash) (existingPatron : Option ℚ)
  /-- After the commit, before the response is sent. -/
  | responding (body : PurchaseResponse)
  /-- Before the purchase row is marked failed. -/
  | failing (status : Nat) (message : String)
  deriving DecidableEq

/-- What becomes of the transaction that sends the tokens: it is applied and reported, applied
and reported as an error, or not applied. -/
inductive Submission where
  | applied (hash : TxHash)
  | lost
  | rejected
  deriving DecidableEq

structure State where
  purchases : Table TxHash PurchaseRow
  patrons : Table (TalosId × PublicKey) ℚ
  revenues : List RevenueRow
  requests : Map RequestId (Purchase × Phase)
  /-- The keys of the token transfers that were applied, newest first. -/
  transfers : List TxHash
  /-- The responses that were sent, with the key of their request, newest first. -/
  responses : List (TxHash × Response)

inductive Event where
  | post (id : RequestId) (request : Request)
  | claim (id : RequestId)
  | verify (id : RequestId) (found : Option TxResult)
  | checkAccount (id : RequestId) (exists_ : Bool)
  | submit (id : RequestId) (outcome : Submission)
  | readPatron (id : RequestId)
  | commit (id : RequestId)
  | respond (id : RequestId)
  | markFailed (id : RequestId)
  | crash (id : RequestId)

namespace State

variable (s : State)

def goto (id : RequestId) (p : Purchase) (phase : Phase) : State :=
  { s with requests := s.requests.set id (p, phase) }

/-- The request ends, by a crash or a statement that fails. -/
def stop (id : RequestId) : State := { s with requests := s.requests.remove id }

/-- The request ends with a response. -/
def respond (id : RequestId) (p : Purchase) (response : Response) : State :=
  { s with
    requests := s.requests.remove id
    responses := (p.txHash, response) :: s.responses }

/-- `UPDATE tls_token_purchases … WHERE txHash`. -/
def updatePurchase (txHash : TxHash) (f : PurchaseRow → PurchaseRow) : State :=
  { s with purchases := Function.update s.purchases txHash ((s.purchases txHash).map f) }

def setPatron (p : Purchase) (pulseAmount : ℚ) : State :=
  { s with patrons := s.patrons.set (p.talos.id, p.buyerPublicKey) pulseAmount }

end State

def inProgress : Response := .error 409 "Purchase is already in progress for this transaction"

/-- The lookup of the purchase, which a replay or a pending row ends. -/
def State.lookup (s : State) (id : RequestId) (p : Purchase) : State :=
  match s.purchases p.txHash with
  | none => s.goto id p (.claiming false)
  | some row =>
      match row.status, row.responseBody with
      | .completed, some body => s.respond id p (.success true body)
      | .pending, _ => s.respond id p inProgress
      | _, _ => s.goto id p (.claiming true)

def Purchase.newRow (p : Purchase) : PurchaseRow where
  talosId := p.talos.id
  buyerPublicKey := p.buyerPublicKey
  amount := p.amount
  totalCost := p.totalCost
  status := .pending
  responseBody := none

/-- The INSERT of a new purchase or the UPDATE of a failed one. -/
def State.claimPurchase (s : State) (id : RequestId) (p : Purchase) (retry : Bool) : State :=
  if retry then
    (s.updatePurchase p.txHash fun row =>
      { row with status := .pending, responseBody := none }).goto id p .verifying
  else if !integerColumn p.amount then
    s.stop id
  else match s.purchases.insert p.txHash p.newRow with
    | some purchases => { s with purchases := purchases }.goto id p .verifying
    | none => s.respond id p inProgress

def Purchase.sendsTokens (operator : Operator) (p : Purchase) : Bool :=
  operator.hasSecret && p.talos.stellarAssetCode.any fun code => code.toList.contains ':'

/-! ### The commit -/

def Purchase.minForPatron (p : Purchase) : ℚ := (p.talos.minPatronPulse.getD 100 : Nat)

def Purchase.newPulseAmount (p : Purchase) (existingPatron : Option ℚ) : ℚ :=
  existingPatron.getD 0 + p.amount

def Purchase.becomesPatron (p : Purchase) (existingPatron : Option ℚ) : Bool :=
  p.minForPatron ≤ p.newPulseAmount existingPatron

def Purchase.patronStatus (p : Purchase) (existingPatron : Option ℚ) : PatronStatus :=
  if p.becomesPatron existingPatron then
    if existingPatron.isSome then .updated else .registered
  else .pending (p.minForPatron - p.newPulseAmount existingPatron)

def Purchase.responseBody (p : Purchase) (mitosTxHash : Option TxHash)
    (existingPatron : Option ℚ) : PurchaseResponse where
  txHash := p.txHash
  mitosTxHash := mitosTxHash
  tokenSymbol := p.talos.tokenSymbol.getD "MITOS"
  amount := p.amount
  pricePerToken := p.talos.pulsePrice
  totalCost := p.totalCost
  buyerPublicKey := p.buyerPublicKey
  totalPulseHeld := p.newPulseAmount existingPatron
  patronStatus := p.patronStatus existingPatron

/-- The patron row is written, or the write fails: an amount that does not fit its column, or
a row that was inserted in the meantime. -/
def State.writePatron (s : State) (p : Purchase) (existingPatron : Option ℚ) : Option State :=
  match existingPatron with
  | some _ =>
      if integerColumn (p.newPulseAmount existingPatron) then
        some { s with
          patrons := Function.update s.patrons (p.talos.id, p.buyerPublicKey)
            ((s.patrons (p.talos.id, p.buyerPublicKey)).map fun _ =>
              p.newPulseAmount existingPatron) }
      else none
  | none =>
      if !p.becomesPatron none then some s
      else if integerColumn (p.newPulseAmount none) then
        (s.patrons.insert (p.talos.id, p.buyerPublicKey) (p.newPulseAmount none)).map fun patrons =>
          { s with patrons := patrons }
      else none

/-- The transaction of a purchase; if it fails the request ends. -/
def State.commitPurchase (s : State) (id : RequestId) (p : Purchase) (mitosTxHash : Option TxHash)
    (existingPatron : Option ℚ) : State :=
  match s.writePatron p existingPatron with
  | none => s.stop id
  | some written =>
      let body := p.responseBody mitosTxHash existingPatron
      ({ written with
        revenues := ⟨p.talos.id, p.totalCost, p.txHash⟩ :: written.revenues }.updatePurchase
          p.txHash fun row => { row with status := .completed, responseBody := some body }).goto
            id p (.responding body)

/-! ### Steps -/

variable (operator : Operator)

def transferFailed : Phase :=
  .failing 500 "Failed to send Mitos tokens to buyer. Purchase cancelled."

/-- A step of a request in a phase. -/
def advance (s : State) (id : RequestId) (p : Purchase) : Phase → Event → Option State
  | .claiming retry, .claim _ => some (s.claimPurchase id p retry)
  | .verifying, .verify _ found =>
      match verifyPayment operator p found with
      | some message => some (s.goto id p (.failing 400 message))
      | none => some (s.goto id p .checkingAccount)
  | .checkingAccount, .checkAccount _ exists_ =>
      if !exists_ then
        some (s.goto id p
          (.failing 400 ("Stellar account " ++ p.buyerPublicKey ++ " does not exist")))
      else if p.sendsTokens operator then some (s.goto id p .transferring)
      else some (s.goto id p (.readingPatron none))
  | .transferring, .submit _ outcome =>
      match outcome with
      | .applied hash =>
          some ({ s with transfers := p.txHash :: s.transfers }.goto id p
            (.readingPatron (some hash)))
      | .lost => some ({ s with transfers := p.txHash :: s.transfers }.goto id p transferFailed)
      | .rejected => some (s.goto id p transferFailed)
  | .readingPatron mitosTxHash, .readPatron _ =>
      some (s.goto id p (.committing mitosTxHash (s.patrons (p.talos.id, p.buyerPublicKey))))
  | .committing mitosTxHash existingPatron, .commit _ =>
      some (s.commitPurchase id p mitosTxHash existingPatron)
  | .responding body, .respond _ => some (s.respond id p (.success false body))
  | .failing status message, .markFailed _ =>
      some ((s.updatePurchase p.txHash fun row => { row with status := .failed }).respond id p
        (.error status message))
  | _, .crash _ => some (s.stop id)
  | _, _ => none

def Event.request : Event → RequestId
  | .post id _ | .claim id | .verify id _ | .checkAccount id _ | .submit id _ | .readPatron id
  | .commit id | .respond id | .markFailed id | .crash id => id

def step (s : State) (event : Event) : Option State :=
  match event with
  | .post id request =>
      match s.requests id with
      | some _ => none
      | none =>
          match validate request with
          | .error _ => some s
          | .ok p => some (s.lookup id p)
  | _ =>
      match s.requests event.request with
      | none => none
      | some (p, phase) => advance operator s event.request p phase event

def machine : Machine State Event where
  init := ⟨fun _ => none, fun _ => none, [], fun _ => none, [], []⟩
  step := step operator

end Talos.TokenSales
