import Talos.TokenSales.BuyToken
import Talos.Database.Table

/-!
# What a payment buys

Three routes take a transaction of the buyer as a payment: `POST /api/talos/:id/service`
(`web/src/app/api/talos/[id]/service/route.ts`), `POST /api/talos/:id/jobs`
(`web/src/app/api/talos/[id]/jobs/route.ts`) and the sale of tokens. The first two record
commerce jobs; their steps are interleaved with those of the sales. What the network, the
facilitator and the fulfilment answer is part of the event; settling or submitting a
transaction again gives the same hash. The revenue that is recorded with a job, its result and
the text of a message are left out.
-/

namespace Talos.Commerce

open Database Soroban
open TokenSales (TxHash TalosId PublicKey RequestId Operation Asset)

abbrev Xdr := String
abbrev JobId := Nat

/-! ### The payments -/

/-- A transaction as `TransactionBuilder.fromXDR` reads it; `signed` if one of its signatures
is that of its source. -/
structure Transaction where
  feeBump : Bool
  signed : Bool
  operations : List Operation

structure Network where
  usdcIssuer : PublicKey
  operatorPublicKey : PublicKey
  decode : Xdr → Option Transaction
  /-- The hash that a transaction settles under. -/
  hash : Xdr → TxHash

variable (network : Network)

/-- `Number(x).toFixed(2)`. -/
def toFixed2 (x : ℚ) : ℚ := ⌊x * 100 + 1 / 2⌋ / 100

/-- The error category of a payment token. -/
def verifyX402PaymentOffline (paymentToken : Xdr) (expectedAmount : ℚ) (expectedTo : PublicKey) :
    Option String :=
  match network.decode paymentToken with
  | none => some "malformed-xdr"
  | some tx =>
      if tx.feeBump then some "malformed-xdr"
      else if !tx.signed then some "network"
      else match tx.operations with
        | [op] =>
            if op.type ≠ "payment" then some "missing-operation"
            else if op.asset ≠ some ⟨"USDC", network.usdcIssuer⟩ then some "issuer/asset"
            else if op.destination ≠ some expectedTo then some "recipient"
            else if op.amount < expectedAmount then some "amount"
            else none
        | _ => some "missing-operation"

/-- Whether a submitted transaction pays the price to the recipient. -/
def pays (signedXdr : Xdr) (expectedAmount : ℚ) (expectedRecipient : PublicKey) : Bool :=
  (network.decode signedXdr).any fun tx => tx.operations.any fun op =>
    op.type = "payment" ∧ op.asset = some ⟨"USDC", network.usdcIssuer⟩ ∧
      op.destination = some expectedRecipient ∧ expectedAmount ≤ op.amount

/-! ### The orders -/

/-- A row of `tls_commerce_services`. -/
structure ServiceRow where
  serviceName : String
  price : ℚ
  stellarPublicKey : Option PublicKey
  instant : Bool
  deriving DecidableEq

inductive TalosStatus where
  | active
  | paused
  | retired
  deriving DecidableEq

/-- A request of the service route: whose API key it carries, its bid if that is accepted, and
the header of its payment without the prefix. -/
structure ServiceRequest where
  talosId : TalosId
  requester : Option TalosId
  idempotencyKey : Option String
  bid : Option (Option String)
  payload : String
  paymentToken : Option Xdr
  service : Option ServiceRow
  agentWalletAddress : Option PublicKey

/-- A request of the jobs route. -/
structure JobRequest where
  talosId : TalosId
  buyerPublicKey : Option PublicKey
  signedXdr : Option Xdr
  txHash : Option TxHash
  idempotencyKey : Option String
  payload : String
  service : Option ServiceRow
  talos : Option (TalosStatus × Option PublicKey)

inductive Payment where
  | token (paymentToken : Xdr)
  | signedXdr (signedXdr : Xdr)
  | txHash (txHash : TxHash)
  deriving DecidableEq

/-- A request that is accepted. -/
structure Order where
  talosId : TalosId
  requesterTalosId : String
  service : ServiceRow
  payee : PublicKey
  payload : String
  status : String
  idempotencyKey : Option String
  payment : Payment
  deriving DecidableEq

structure CreatedResponse where
  jobId : JobId
  status : String
  txHash : TxHash
  deriving DecidableEq

inductive Response where
  | error (status : Nat) (message : String)
  | created (replayed : Bool) (body : CreatedResponse)
  deriving DecidableEq

/-- `IDEMPOTENCY_KEY_MAX_BYTES`. -/
def idempotencyKeyMaxBytes : Nat := 128

def keyTooLong (idempotencyKey : Option String) : Bool :=
  idempotencyKey.any fun key => idempotencyKeyMaxBytes < key.utf8ByteSize

def keyError : Response := .error 400 "Idempotency-Key must be at most 128 bytes"

def ServiceRow.status (service : ServiceRow) : String :=
  if service.instant then "completed" else "pending"

def validateService (request : ServiceRequest) : Except Response Order :=
  match request.requester with
  | none => .error (.error 401 "Unauthorized")
  | some requester =>
      if keyTooLong request.idempotencyKey then .error keyError
      else match request.bid, request.paymentToken with
        | none, _ => .error (.error 400 "Invalid bid payload")
        | some _, none =>
            .error (.error 400 "Missing X-PAYMENT header with Stellar x402 payment token")
        | some bidStatus, some paymentToken =>
            match request.service with
            | none => .error (.error 404 "No service registered for this TALOS")
            | some service =>
                match (service.stellarPublicKey.filter (· ≠ "")).or
                    (request.agentWalletAddress.filter (· ≠ "")) with
                | none => .error (.error 500 "No payment address configured for this TALOS")
                | some payee =>
                    .ok {
                      talosId := request.talosId
                      requesterTalosId := requester
                      service := service
                      payee := payee
                      payload := request.payload
                      status := bidStatus.getD service.status
                      idempotencyKey := request.idempotencyKey
                      payment := .token paymentToken }

def JobRequest.payment (request : JobRequest) : Option Payment :=
  match request.signedXdr.filter (· ≠ ""), request.txHash.filter (· ≠ "") with
  | some signedXdr, _ => some (.signedXdr signedXdr)
  | none, some txHash => some (.txHash txHash)
  | none, none => none

def validateJob (request : JobRequest) : Except Response Order :=
  match request.buyerPublicKey.filter (· ≠ ""), request.payment with
  | none, _ => .error (.error 400 "buyerPublicKey is required")
  | some _, none => .error (.error 400 "signedXdr (or txHash) is required")
  | some buyerPublicKey, some payment =>
      if keyTooLong request.idempotencyKey then .error keyError
      else match request.talos, request.service with
        | none, _ => .error (.error 404 "TALOS not found")
        | some _, none => .error (.error 404 "This agent offers no services")
        | some (.paused, _), some _ =>
            .error (.error 409 "This agent is paused and cannot accept new work")
        | some (.retired, _), some _ =>
            .error (.error 409 "This agent is retired and cannot accept new work")
        | some (.active, agentWalletAddress), some service =>
            .ok {
              talosId := request.talosId
              requesterTalosId := "human:" ++ buyerPublicKey
              service := service
              payee := (service.stellarPublicKey.or agentWalletAddress).getD
                network.operatorPublicKey
              payload := request.payload
              status := service.status
              idempotencyKey := request.idempotencyKey
              payment := payment }

/-! ### The jobs -/

/-- A row of `tls_commerce_jobs`; `paymentSig` is unique. -/
structure JobRow where
  id : JobId
  talosId : TalosId
  requesterTalosId : String
  serviceName : String
  payload : String
  paymentSig : String
  txHash : TxHash
  amount : ℚ
  status : String
  idempotencyKey : Option String
  idempotencyResponse : Option CreatedResponse
  deriving DecidableEq

abbrev Jobs := Rows JobRow String JobRow.paymentSig

/-- What keeps the payment of an order from being used again. -/
def Order.paymentSig (o : Order) (txHash : TxHash) : String :=
  match o.payment with
  | .token paymentToken => paymentToken
  | .signedXdr _ | .txHash _ => txHash

def Order.created (o : Order) (jobId : JobId) (txHash : TxHash) : CreatedResponse where
  jobId := jobId
  status := o.status
  txHash := txHash

def Order.job (o : Order) (jobId : JobId) (txHash : TxHash) : JobRow where
  id := jobId
  talosId := o.talosId
  requesterTalosId := o.requesterTalosId
  serviceName := o.service.serviceName
  payload := o.payload
  paymentSig := o.paymentSig txHash
  txHash := txHash
  amount := o.service.price
  status := o.status
  idempotencyKey := o.idempotencyKey
  idempotencyResponse := o.idempotencyKey.map fun _ => o.created jobId txHash

/-- A row under the idempotency key of an order, of the same requester if `own`. -/
def Order.hasKey (o : Order) (own : Bool) (job : JobRow) : Bool :=
  o.idempotencyKey.isSome ∧ job.talosId = o.talosId ∧ job.idempotencyKey = o.idempotencyKey ∧
    (own → job.requesterTalosId = o.requesterTalosId)

/-- The job that a lookup of the idempotency key finds: the service route looks among those of
its requester, the jobs route among all. -/
def Order.existing (o : Order) (jobs : Jobs) : Option JobRow :=
  match o.payment with
  | .token _ => jobs.list.find? (o.hasKey true)
  | .signedXdr _ | .txHash _ => jobs.list.find? (o.hasKey false)

/-- Whether a job was made for the same request. -/
def Order.equivalent (o : Order) (job : JobRow) : Bool :=
  match o.payment with
  | .token _ => job.payload = o.payload
  | .signedXdr _ | .txHash _ =>
      job.serviceName = o.service.serviceName ∧ job.payload = o.payload

def beingProcessed : Response :=
  .error 409 "Request with this Idempotency-Key is already being processed"

def replayOf (job : JobRow) : Response :=
  match job.idempotencyResponse with
  | some body => .created true body
  | none => beingProcessed

/-- INSERT of a job, refused by its payment signature or its idempotency key. -/
inductive Inserted where
  | row (jobs : Jobs)
  | keyTaken
  | paymentTaken

def Order.insert (o : Order) (jobs : Jobs) (txHash : TxHash) : Inserted :=
  match jobs.insert (o.job jobs.list.length txHash) with
  | none => .paymentTaken
  | some inserted => if jobs.list.any (o.hasKey true) then .keyTaken else .row inserted

/-! ### Steps -/

inductive Phase where
  | checkingToken (paymentToken : Xdr)
  | verifying (paymentToken : Xdr)
  | settling (paymentToken : Xdr)
  | takingQuota
  | submitting (signedXdr : Xdr)
  | checkingDuplicate (txHash : TxHash)
  | fulfilling (txHash : TxHash)
  | inserting (txHash : TxHash)
  deriving DecidableEq

structure State where
  sales : TokenSales.State
  /-- The purchases that were completed in some state so far. -/
  completed : TxHash → Bool
  jobs : Jobs
  orders : Map RequestId (Order × Phase)
  /-- The responses that were sent, newest first. -/
  responses : List (RequestId × Response)

inductive Event where
  | sale (event : TokenSales.Event)
  | postService (id : RequestId) (request : ServiceRequest)
  | postJob (id : RequestId) (request : JobRequest)
  | checkToken (id : RequestId)
  | verify (id : RequestId) (accepted : Bool)
  | settle (id : RequestId) (settled : Bool)
  | takeQuota (id : RequestId) (granted : Bool)
  | submit (id : RequestId) (submitted : Bool)
  | checkDuplicate (id : RequestId)
  | fulfil (id : RequestId) (fulfilled : Bool)
  | insert (id : RequestId)
  | crash (id : RequestId)

namespace State

variable (s : State)

def goto (id : RequestId) (o : Order) (phase : Phase) : State :=
  { s with orders := s.orders.set id (o, phase) }

def stop (id : RequestId) : State := { s with orders := s.orders.remove id }

def respond (id : RequestId) (response : Response) : State :=
  { s with orders := s.orders.remove id, responses := (id, response) :: s.responses }

/-- What is done once the payment has settled. -/
def paid (id : RequestId) (o : Order) (txHash : TxHash) : State :=
  if o.service.instant then s.goto id o (.fulfilling txHash)
  else s.goto id o (.inserting txHash)

end State

/-- The lookup of the idempotency key, which a replay or a conflict ends. -/
def State.receive (s : State) (id : RequestId) (o : Order) : State :=
  match o.existing s.jobs with
  | some job =>
      if !o.equivalent job then
        s.respond id (.error 409 "Idempotency-Key reused with a different payload.")
      else s.respond id (replayOf job)
  | none =>
      match o.payment with
      | .token paymentToken => s.goto id o (.checkingToken paymentToken)
      | .signedXdr _ | .txHash _ => s.goto id o .takingQuota

def paymentUsed (o : Order) : Response :=
  match o.payment with
  | .token _ => .error 409 "Payment token already used (replay detected)"
  | .signedXdr _ | .txHash _ => .error 409 "Transaction already used for a job (replay)"

/-- The transaction that records the job. -/
def State.insertJob (s : State) (id : RequestId) (o : Order) (txHash : TxHash) : State :=
  match o.insert s.jobs txHash with
  | .row jobs =>
      { s with jobs := jobs }.respond id
        (.created false (o.created s.jobs.list.length txHash))
  | .paymentTaken => s.respond id (paymentUsed o)
  | .keyTaken =>
      match o.payment, s.jobs.list.find? (o.hasKey true) with
      | .token _, some job => s.respond id (replayOf job)
      | _, _ => s.respond id beingProcessed

/-- A step of an order in a phase. -/
def advance (s : State) (id : RequestId) (o : Order) : Phase → Event → Option State
  | .checkingToken paymentToken, .checkToken _ =>
      if s.jobs.list.any fun job => job.paymentSig = paymentToken then
        some (s.respond id (paymentUsed o))
      else some (s.goto id o (.verifying paymentToken))
  | .verifying paymentToken, .verify _ accepted =>
      match verifyX402PaymentOffline network paymentToken (toFixed2 o.service.price) o.payee with
      | some _ => some (s.respond id (.error 402 "Invalid or insufficient x402 payment"))
      | none =>
          if !accepted then
            some (s.respond id (.error 402 "Invalid or insufficient x402 payment"))
          else some (s.goto id o (.settling paymentToken))
  | .settling paymentToken, .settle _ settled =>
      if !settled then some (s.respond id (.error 502 "On-chain payment settlement failed"))
      else some (s.paid id o (network.hash paymentToken))
  | .takingQuota, .takeQuota _ granted =>
      if !granted then some (s.respond id (.error 429 "Quota exceeded"))
      else match o.payment with
        | .txHash txHash => some (s.goto id o (.checkingDuplicate txHash))
        | .signedXdr signedXdr | .token signedXdr => some (s.goto id o (.submitting signedXdr))
  | .submitting signedXdr, .submit _ submitted =>
      if !submitted then some (s.respond id (.error 402 "Payment submission failed"))
      else if !pays network signedXdr o.service.price o.payee then
        some (s.respond id (.error 402
          "Payment was submitted but did not match the expected amount or recipient"))
      else some (s.goto id o (.checkingDuplicate (network.hash signedXdr)))
  | .checkingDuplicate txHash, .checkDuplicate _ =>
      if s.jobs.list.any fun job => job.txHash = txHash then some (s.respond id (paymentUsed o))
      else some (s.paid id o txHash)
  | .fulfilling txHash, .fulfil _ fulfilled =>
      if !fulfilled then some (s.respond id (.error 502 "Service fulfillment failed"))
      else some (s.goto id o (.inserting txHash))
  | .inserting txHash, .insert _ => some (s.insertJob id o txHash)
  | _, .crash _ => some (s.stop id)
  | _, _ => none

def Event.order : Event → Option RequestId
  | .sale _ | .postService .. | .postJob .. => none
  | .checkToken id | .verify id _ | .settle id _ | .takeQuota id _ | .submit id _
  | .checkDuplicate id | .fulfil id _ | .insert id | .crash id => some id

/-- The purchases that are completed after a step of the sales too. -/
def State.afterSale (s : State) (sales : TokenSales.State) : State :=
  { s with
    sales := sales
    completed := fun h =>
      s.completed h || (sales.purchases h).any fun row => row.status = .completed }

variable (operator : TokenSales.Operator)

def State.accept (s : State) (id : RequestId) (accepted : Except Response Order) : State :=
  match accepted with
  | .error response => s.respond id response
  | .ok o => s.receive id o

def step (s : State) (event : Event) : Option State :=
  match event with
  | .sale sale => (TokenSales.step operator s.sales sale).map s.afterSale
  | .postService id request =>
      match s.orders id with
      | some _ => none
      | none => some (s.accept id (validateService request))
  | .postJob id request =>
      match s.orders id with
      | some _ => none
      | none => some (s.accept id (validateJob network request))
  | _ =>
      match event.order with
      | none => none
      | some id =>
          match s.orders id with
          | none => none
          | some (o, phase) => advance network s id o phase event

def machine : Machine State Event where
  init :=
    ⟨(TokenSales.machine operator).init, fun _ => false, .empty, fun _ => none, []⟩
  step := step network operator

end Talos.Commerce
