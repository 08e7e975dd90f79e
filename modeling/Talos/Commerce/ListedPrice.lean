import Talos.Commerce.Payments
import Talos.Encoding.Decimal
import Talos.Encoding.Floats

/-!
# The listed price

What is checked of a payment before a commerce job is made, with the numbers as the code has them:
the price of a service is a `numeric` with six decimals, the amount of a payment is a number of
stroops, and both are compared as doubles, in the service route after `toFixed(2)`
(`verifyX402PaymentOffline` of `web/src/lib/stellar-x402.ts` and `submitAndVerifyPayment` of
`web/src/app/api/talos/[id]/jobs/route.ts`). What the SDK, the facilitator, the network and the
fulfilment answer is given.
-/

namespace Talos.Commerce.ListedPrice

open Database Encoding
open TokenSales (TxHash PublicKey Asset)

/-! ### Transactions -/

/-- An amount of 64 bits. -/
structure Amount where
  stroops : ℤ
  inRange : -2 ^ 63 ≤ stroops ∧ stroops < 2 ^ 63

namespace Amount

variable (a : Amount)

def exact : ℚ := a.stroops / 10 ^ 7

/-- The text that the SDK gives. -/
def text : String := (if a.stroops < 0 then "-" else "") ++ fixed a.stroops.natAbs 7

/-- `Number` and `parseFloat` of the text. -/
def number : ℚ := toDouble a.exact

end Amount

/-- The keys that the SDK decodes are not empty. -/
abbrev Account := { key : PublicKey // key ≠ "" }

inductive Operation where
  /-- Of the native asset if there is no other. -/
  | payment (asset : Option Asset) (destination : Account) (amount : Amount)
  | other (type : String)

/-- A transaction with its signatures; of a fee bump, the operations are those inside. -/
structure Transaction where
  feeBump : Bool
  source : PublicKey
  signatures : List String
  operations : List Operation

structure Stellar where
  /-- `STELLAR_NETWORK === "mainnet"` -/
  mainnet : Bool
  usdcIssuer : PublicKey
  operatorPublicKey : PublicKey
  /-- `TransactionBuilder.fromXDR`, with the message of its error. -/
  fromXdr : (mainnet : Bool) → Xdr → Except String Transaction
  /-- Whether a signature of a transaction is that of its source, if the check does not raise. -/
  verify : Transaction → String → Option Bool
  hash : Xdr → TxHash

/-- What `Payments` knows of an operation. -/
def Operation.outline : Operation → TokenSales.Operation
  | .payment asset destination amount => ⟨"payment", asset, some destination, amount.exact⟩
  | .other type => ⟨type, none, none, 0⟩

def Stellar.signed (stellar : Stellar) (tx : Transaction) : Bool :=
  tx.signatures.any fun sig => stellar.verify tx sig = some true

/-- What `Payments` knows of the network. -/
def Stellar.network (stellar : Stellar) : Network where
  usdcIssuer := stellar.usdcIssuer
  operatorPublicKey := stellar.operatorPublicKey
  decode xdr := (stellar.fromXdr stellar.mainnet xdr).toOption.map fun tx =>
    ⟨tx.feeBump, stellar.signed tx, tx.operations.map Operation.outline⟩
  hash := stellar.hash

/-! ### The checks -/

structure VerifyError where
  errorCategory : String
  errorMessage : String
  deriving DecidableEq, Repr

variable (stellar : Stellar)

/-- The price that a text such as `1.00` stands for, as a number. -/
def ofText (amount : String) : ℚ := toDouble (decimalValue amount)

def verifyX402PaymentOffline (paymentToken : Xdr) (expectedAmount : String)
    (expectedTo : PublicKey) : Except VerifyError Unit :=
  match stellar.fromXdr stellar.mainnet paymentToken with
  | .error err => .error ⟨"malformed-xdr", s!"Failed to parse XDR: {err}"⟩
  | .ok tx =>
      if tx.feeBump then
        .error ⟨"malformed-xdr", "Fee-bump transactions are not accepted as payment tokens"⟩
      else if !stellar.signed tx then
        .error ⟨"network", "Transaction signature is invalid or network passphrase mismatch"⟩
      else match tx.operations with
        | [.payment asset destination amount] =>
            match asset with
            | none => .error ⟨"issuer/asset", "Asset cannot be native XLM, must be USDC"⟩
            | some ⟨code, issuer⟩ =>
                if code ≠ "USDC" then
                  .error ⟨"issuer/asset", s!"Asset code must be USDC, found {code}"⟩
                else if issuer ≠ stellar.usdcIssuer then
                  .error ⟨"issuer/asset",
                    s!"Asset issuer must be {stellar.usdcIssuer}, found {issuer}"⟩
                else if destination.val ≠ expectedTo then
                  .error ⟨"recipient", s!"Payment destination {destination.val} does not match " ++
                    s!"expected {expectedTo}"⟩
                else if amount.number < ofText expectedAmount then
                  .error ⟨"amount", s!"Payment amount {amount.text} is less than expected " ++
                    expectedAmount⟩
                else .ok ()
        | [.other type] =>
            .error ⟨"missing-operation", s!"Operation must be a payment, found {type}"⟩
        | operations => .error ⟨"missing-operation",
            "Transaction must contain exactly one operation, found " ++
              toString operations.length⟩

/-- `facilitator` is the answer of the package or of the facilitator. -/
def verifyX402Payment (paymentToken : Xdr) (expectedAmount : String) (expectedTo : PublicKey)
    (facilitator : Except VerifyError Unit) : Except VerifyError Unit := do
  verifyX402PaymentOffline stellar paymentToken expectedAmount expectedTo
  facilitator

/-- Whether an operation pays in the jobs route; `expectedAmount` is the price as a number. -/
def isPayment (expectedAmount : ℚ) (expectedRecipient : PublicKey) : Operation → Bool
  | .payment asset destination amount =>
      asset = some ⟨"USDC", stellar.usdcIssuer⟩ ∧ destination.val = expectedRecipient ∧
        expectedAmount ≤ amount.number
  | .other _ => false

/-- `submitted` is the hash that Horizon answers with, if it accepts the transaction. -/
def submitAndVerifyPayment (signedXdr : Xdr) (expectedAmount : ℚ) (expectedRecipient : PublicKey)
    (submitted : Option TxHash) : Option TxHash :=
  match stellar.fromXdr false signedXdr with
  | .error _ => none
  | .ok tx =>
      submitted.filter fun _ =>
        tx.operations.any (isPayment stellar expectedAmount expectedRecipient)

/-! ### The routes -/

/-- What the others answer to a request, and the jobs when it is received and at its INSERT. -/
structure Answers where
  jobs : Jobs
  facilitator : Except VerifyError Unit
  quota : Bool
  /-- The hash of the settlement or of the submission. -/
  txHash : Option TxHash
  fulfilled : Bool
  jobsAtInsert : Jobs

/-- The fulfilment, if the service is instant, and the INSERT: the job that is created. -/
def record (o : Order) (answers : Answers) (txHash : TxHash) : Option JobRow :=
  if o.service.instant ∧ !answers.fulfilled then none
  else match o.insert answers.jobsAtInsert txHash with
    | .row _ => some (o.job answers.jobsAtInsert.list.length txHash)
    | .keyTaken | .paymentTaken => none

/-- `POST /api/talos/:id/service` -/
def postService (request : ServiceRequest) (answers : Answers) : Option JobRow :=
  match validateService request with
  | .error _ => none
  | .ok o => match o.existing answers.jobs, o.payment with
    | none, .token paymentToken =>
        if answers.jobs.list.any fun job => job.paymentSig = paymentToken then none
        else
          let expectedAmount := Encoding.toFixed2 (toDouble o.service.price)
          match verifyX402Payment stellar paymentToken expectedAmount o.payee
              answers.facilitator with
          | .error _ => none
          | .ok () => answers.txHash.bind (record o answers)
    | some _, _ | none, .signedXdr _ | none, .txHash _ => none

/-- `POST /api/talos/:id/jobs` -/
def postJob (request : JobRequest) (answers : Answers) : Option JobRow :=
  match validateJob stellar.network request with
  | .error _ => none
  | .ok o => match o.existing answers.jobs with
    | some _ => none
    | none =>
        let paid := match o.payment with
          | .txHash txHash => some txHash
          | .signedXdr signedXdr | .token signedXdr =>
              submitAndVerifyPayment stellar signedXdr (toDouble o.service.price) o.payee
                answers.txHash
        if !answers.quota then none
        else paid.bind fun txHash =>
          if answers.jobsAtInsert.list.any fun job => job.txHash = txHash then none
          else record o answers txHash

/-! ### The claim on a price -/

/-- A price that `numeric(18, 6)` holds, in millionths. -/
structure Price where
  micros : ℕ
  small : micros < 10 ^ 18

def Price.exact (price : Price) : ℚ := price.micros / 10 ^ 6

/-- The key of a service, or the wallet of its agent. -/
def payeeOf (service : ServiceRow) (agentWalletAddress : Option PublicKey) : Option PublicKey :=
  (service.stellarPublicKey.filter (· ≠ "")).or (agentWalletAddress.filter (· ≠ ""))

/-- A payment of the price, or more, in USDC to the payee. -/
def Pays (price : Price) (payee : Option PublicKey) (op : Operation) : Prop :=
  ∃ destination amount, op = .payment (some ⟨"USDC", stellar.usdcIssuer⟩) destination amount ∧
    payee = some destination.val ∧ price.exact ≤ amount.exact

/-- Whatever the others answer, a job of the service route has been paid, by a transaction that its
source has signed and that does nothing else. -/
def ServicePaid (price : Price) : Prop :=
  ∀ (stellar : Stellar) (request : ServiceRequest) (answers : Answers) service job,
    request.service = some service → service.price = price.exact →
    postService stellar request answers = some job →
    ∃ token tx op, request.paymentToken = some token ∧
      stellar.fromXdr stellar.mainnet token = .ok tx ∧ tx.feeBump = false ∧
      stellar.signed tx = true ∧ tx.operations = [op] ∧
      Pays stellar price (payeeOf service request.agentWalletAddress) op

/-- And a job of the jobs route, if the transaction is given. The key of a service is not null. -/
def JobPaid (price : Price) : Prop :=
  ∀ (stellar : Stellar) (request : JobRequest) (answers : Answers) service talos signedXdr job,
    request.service = some service → service.price = price.exact →
    service.stellarPublicKey.isSome → request.talos = some talos →
    request.signedXdr = some signedXdr → signedXdr ≠ "" →
    postJob stellar request answers = some job →
    ∃ tx, stellar.fromXdr false signedXdr = .ok tx ∧
      ∃ op ∈ tx.operations, Pays stellar price (payeeOf service talos.2) op

/-- The greatest amount that is less. -/
def Price.below (price : Price) : Amount where
  stroops := min (10 * price.micros - 1) (2 ^ 63 - 1)
  inRange := by
    constructor
    · exact le_min (by omega) (by norm_num)
    · exact (min_le_right _ _).trans_lt (by norm_num)

/-- The number that the service route compares an amount with. -/
def Price.listed (price : Price) : ℚ := ofText (Encoding.toFixed2 (toDouble price.exact))

/-! ### Amounts -/

variable {stellar}

theorem Amount.number_mono {a b : Amount} (le : a.stroops ≤ b.stroops) : a.number ≤ b.number := by
  refine toDouble_monotone (div_le_div_of_nonneg_right ?_ (by positivity))
  exact_mod_cast le

theorem Price.below_lt (price : Price) : price.below.exact < price.exact := by
  have le : price.below.stroops ≤ 10 * price.micros - 1 := min_le_left _ _
  have le : (price.below.stroops : ℚ) ≤ 10 * price.micros - 1 := by exact_mod_cast le
  rw [Amount.exact, Price.exact, div_lt_div_iff₀ (by positivity) (by positivity)]
  linarith

/-- An amount that is less than the price is at most the greatest such. -/
theorem Price.number_le_below {price : Price} {a : Amount} (less : a.exact < price.exact) :
    a.number ≤ price.below.number := by
  refine Amount.number_mono (le_min ?_ ?_)
  · rw [Amount.exact, Price.exact, div_lt_div_iff₀ (by positivity) (by positivity)] at less
    have less : a.stroops < 10 * price.micros := by
      have less : (a.stroops : ℚ) < 10 * price.micros := by linarith
      exact_mod_cast less
    omega
  · have high := a.inRange.2
    omega

/-! ### What the checks let through -/

theorem verifyX402PaymentOffline_eq_ok {token : Xdr} {expectedAmount : String}
    {payee : PublicKey} :
    verifyX402PaymentOffline stellar token expectedAmount payee = .ok () ↔
      ∃ tx destination amount, stellar.fromXdr stellar.mainnet token = .ok tx ∧
        tx.feeBump = false ∧ stellar.signed tx = true ∧
        tx.operations = [.payment (some ⟨"USDC", stellar.usdcIssuer⟩) destination amount] ∧
        destination.val = payee ∧ ofText expectedAmount ≤ amount.number := by
  constructor
  · intro ok
    unfold verifyX402PaymentOffline at ok
    split at ok
    · cases ok
    · next tx read =>
      split_ifs at ok with feeBump unsigned
      split at ok
      · next asset destination amount only =>
        cases asset with
        | none => cases ok
        | some asset =>
            dsimp only at ok
            split_ifs at ok with code issuer recipient less
            obtain ⟨code', issuer'⟩ := asset
            obtain rfl := not_not.mp code
            obtain rfl := not_not.mp issuer
            exact ⟨tx, destination, amount, read, by simpa using feeBump, by simpa using unsigned,
              only, not_not.mp recipient, not_lt.mp less⟩
      · cases ok
      · cases ok
  · rintro ⟨tx, destination, amount, read, feeBump, signed, only, rfl, enough⟩
    unfold verifyX402PaymentOffline
    simp [read, feeBump, signed, only, enough]

theorem verifyX402Payment_eq_ok {token : Xdr} {expectedAmount : String} {payee : PublicKey}
    {facilitator : Except VerifyError Unit} :
    verifyX402Payment stellar token expectedAmount payee facilitator = .ok () ↔
      verifyX402PaymentOffline stellar token expectedAmount payee = .ok () ∧
        facilitator = .ok () := by
  unfold verifyX402Payment
  cases verifyX402PaymentOffline stellar token expectedAmount payee with
  | error err => simp [bind, Except.bind]
  | ok u => simp [bind, Except.bind]

/-- An order of the service route has the token and the payee of its request. -/
theorem validateService_eq_ok {request : ServiceRequest} {o : Order}
    (ok : validateService request = .ok o) :
    request.service = some o.service ∧
      payeeOf o.service request.agentWalletAddress = some o.payee ∧
      ∃ token, request.paymentToken = some token ∧ o.payment = .token token := by
  unfold validateService at ok
  split at ok
  · cases ok
  · split_ifs at ok
    split at ok
    · cases ok
    · cases ok
    · next token _ isToken =>
      split at ok
      · cases ok
      · next service stored =>
        split at ok
        · cases ok
        · next payee isPayee =>
          obtain rfl := Except.ok.inj ok
          exact ⟨stored, isPayee, token, isToken, rfl⟩

/-- The same in the jobs route, for a service with a key. -/
theorem validateJob_eq_ok {network : Network} {request : JobRequest} {o : Order}
    {signedXdr : Xdr} {talos : TalosStatus × Option PublicKey}
    (ok : validateJob network request = .ok o) (isSigned : request.signedXdr = some signedXdr)
    (nonempty : signedXdr ≠ "") (isTalos : request.talos = some talos) :
    request.service = some o.service ∧ o.payment = .signedXdr signedXdr ∧
      o.payee = (o.service.stellarPublicKey.or talos.2).getD network.operatorPublicKey := by
  unfold validateJob at ok
  have kept : request.signedXdr.filter (· ≠ "") = some signedXdr := by
    rw [isSigned, Option.filter_some, if_pos (decide_eq_true nonempty)]
  have payment : request.payment = some (.signedXdr signedXdr) := by
    rw [JobRequest.payment, kept]
  rw [payment, isTalos] at ok
  split at ok
  · cases ok
  · cases ok
  · next isPayment =>
    obtain rfl := Option.some.inj isPayment
    split_ifs at ok
    split at ok
    · cases ok
    · cases ok
    · cases ok
    · cases ok
    · next service isTalos' stored =>
      obtain rfl := Option.some.inj isTalos'
      obtain rfl := Except.ok.inj ok
      exact ⟨stored, rfl, rfl⟩

theorem servicePaid_of_below {price : Price} (below : price.below.number < price.listed) :
    ServicePaid price := by
  intro stellar request answers service job stored isPrice created
  unfold postService at created
  split at created
  · cases created
  · next o valid =>
    obtain ⟨stored', payee, token, isToken, payment⟩ := validateService_eq_ok valid
    obtain rfl := Option.some.inj (stored.symm.trans stored')
    rw [payment] at created
    split at created
    · next token' _ same =>
      obtain rfl := Payment.token.inj same
      split_ifs at created
      dsimp only at created
      split at created
      · cases created
      · next verified =>
        obtain ⟨offline, -⟩ := verifyX402Payment_eq_ok.mp verified
        obtain ⟨tx, destination, amount, read, feeBump, signed, only, isPayee, enough⟩ :=
          verifyX402PaymentOffline_eq_ok.mp offline
        refine ⟨token, tx, _, isToken, read, feeBump, signed, only, destination, amount, rfl,
          isPayee ▸ payee, ?_⟩
        rw [isPrice] at enough
        by_contra less
        exact absurd (enough.trans (Price.number_le_below (not_le.mp less))) (not_le.mpr below)
    · cases created
    · cases created
    · cases created

theorem isPayment_eq_true {expectedAmount : ℚ} {payee : PublicKey} {op : Operation} :
    isPayment stellar expectedAmount payee op = true ↔
      ∃ destination amount, op = .payment (some ⟨"USDC", stellar.usdcIssuer⟩) destination amount ∧
        destination.val = payee ∧ expectedAmount ≤ amount.number := by
  cases op with
  | payment asset destination amount =>
      rw [isPayment, decide_eq_true_eq]
      constructor
      · rintro ⟨rfl, same, enough⟩
        exact ⟨destination, amount, rfl, same, enough⟩
      · rintro ⟨_, _, is, same, enough⟩
        obtain ⟨rfl, rfl, rfl⟩ := Operation.payment.inj is
        exact ⟨rfl, same, enough⟩
  | other type =>
      constructor
      · rintro ⟨⟩
      · rintro ⟨_, _, ⟨⟩, -⟩

theorem jobPaid_of_below {price : Price} (below : price.below.number < toDouble price.exact) :
    JobPaid price := by
  intro stellar request answers service talos signedXdr job stored isPrice key isTalos isSigned
    nonempty created
  unfold postJob at created
  split at created
  · cases created
  · next o valid =>
    obtain ⟨stored', payment, payee⟩ := validateJob_eq_ok valid isSigned nonempty isTalos
    obtain rfl := Option.some.inj (stored.symm.trans stored')
    rw [payment] at created
    split at created
    · cases created
    · dsimp only at created
      split_ifs at created
      obtain ⟨txHash, paid, -⟩ := Option.bind_eq_some_iff.mp created
      unfold submitAndVerifyPayment at paid
      split at paid
      · cases paid
      · next tx read =>
        obtain ⟨-, found⟩ := Option.filter_eq_some_iff.mp paid
        obtain ⟨op, mem, pays⟩ := List.any_eq_true.mp found
        obtain ⟨destination, amount, rfl, isPayee, enough⟩ := isPayment_eq_true.mp pays
        refine ⟨tx, read, _, mem, destination, amount, rfl, ?_, ?_⟩
        · obtain ⟨stellarPublicKey, isKey⟩ := Option.isSome_iff_exists.mp key
          rw [isKey, Option.some_or, Option.getD_some] at payee
          rw [payeeOf, isKey, ← payee, ← isPayee, Option.filter_some,
            if_pos (decide_eq_true destination.property), Option.some_or]
        · rw [isPrice] at enough
          by_contra less
          exact absurd (enough.trans (Price.number_le_below (not_le.mp less))) (not_le.mpr below)

/-! ### Prices of whole cents -/

/-- Below `10 ^ 8` a price and the amount that is a stroop less are two numbers. -/
theorem Price.below_number_lt {price : Price} (low : price.micros < 10 ^ 14) :
    price.below.number < toDouble price.exact := by
  have isBelow : price.below.exact = price.exact - 1 / 10 ^ 7 := by
    have stroops : price.below.stroops = 10 * price.micros - 1 := min_eq_left (by omega)
    rw [Amount.exact, stroops, Price.exact]
    push_cast
    ring
  have bound : price.exact < 10 ^ 8 := by
    have low : (price.micros : ℚ) < 10 ^ 14 := by exact_mod_cast low
    rw [Price.exact, div_lt_iff₀ (by positivity)]
    linarith
  have nonneg : 0 ≤ price.exact := div_nonneg (Nat.cast_nonneg _) (by positivity)
  have size : |price.exact - 1 / 10 ^ 7| ≤ 10 ^ 8 := by
    rw [abs_le]
    constructor <;> linarith
  have near := abs_le.mp (toDouble_error price.exact)
  have near' := abs_le.mp (toDouble_error (price.exact - 1 / 10 ^ 7))
  rw [abs_of_nonneg nonneg] at near
  rw [Amount.number, isBelow]
  linarith [near.1, near'.2]

theorem Price.listed_eq {price : Price} {cents : ℕ} (whole : price.micros = 10000 * cents)
    (low : price.micros < 10 ^ 14) : price.listed = toDouble price.exact := by
  have isCents : price.exact = cents / 100 := by
    rw [Price.exact, whole]
    push_cast
    ring
  have few : (cents : ℚ) < 10 ^ 10 := by
    have few : cents < 10 ^ 10 := by omega
    exact_mod_cast few
  have near := abs_le.mp (toDouble_error price.exact)
  rw [isCents, abs_of_nonneg (by positivity)] at near
  have nearest : ⌊toDouble (cents / 100) * 100 + 1 / 2⌋ = cents := by
    rw [Int.floor_eq_iff]
    constructor
    · push_cast
      linarith [near.1]
    · push_cast
      linarith [near.2]
  rw [Price.listed, ofText, isCents, Encoding.toFixed2, nearest, Int.toNat_natCast,
    decimalValue_fixed (by decide)]
  norm_num

/-- So such a price is paid in full in both routes. -/
theorem paid_of_whole_cents {price : Price} {cents : ℕ} (whole : price.micros = 10000 * cents)
    (low : price.micros < 10 ^ 14) : ServicePaid price ∧ JobPaid price := by
  have below := Price.below_number_lt low
  exact ⟨servicePaid_of_below (Price.listed_eq whole low ▸ below), jobPaid_of_below below⟩

/-! ### A payment that is less than the price -/

/-- A transaction with one payment. -/
def transfer (amount : Amount) : Transaction where
  feeBump := false
  source := "BUYER"
  signatures := ["signature"]
  operations := [.payment (some ⟨"USDC", "ISSUER"⟩) ⟨"PAYEE", by decide⟩ amount]

/-- A network where every envelope is the transaction, and signed. -/
def transferred (amount : Amount) : Stellar where
  mainnet := false
  usdcIssuer := "ISSUER"
  operatorPublicKey := "OPERATOR"
  fromXdr _ _ := .ok (transfer amount)
  verify _ _ := some true
  hash xdr := xdr

def willing : Answers where
  jobs := Rows.empty
  facilitator := .ok ()
  quota := true
  txHash := some "hash"
  fulfilled := true
  jobsAtInsert := Rows.empty

def offer (price : ℚ) : ServiceRow := ⟨"service", price, some "PAYEE", false⟩

def purchase (price : ℚ) : ServiceRequest where
  talosId := "provider"
  requester := some "requester"
  idempotencyKey := none
  bid := some none
  payload := ""
  paymentToken := some "xdr"
  service := some (offer price)
  agentWalletAddress := none

def hire (price : ℚ) : JobRequest where
  talosId := "provider"
  buyerPublicKey := some "BUYER"
  signedXdr := some "xdr"
  txHash := none
  idempotencyKey := none
  payload := ""
  service := some (offer price)
  talos := some (.active, none)

def purchased (price : ℚ) : Order where
  talosId := "provider"
  requesterTalosId := "requester"
  service := offer price
  payee := "PAYEE"
  payload := ""
  status := "pending"
  idempotencyKey := none
  payment := .token "xdr"

def hired (price : ℚ) : Order where
  talosId := "provider"
  requesterTalosId := "human:BUYER"
  service := offer price
  payee := "PAYEE"
  payload := ""
  status := "pending"
  idempotencyKey := none
  payment := .signedXdr "xdr"

/-- A token that is checked and settled makes a job. -/
theorem postService_eq_record {request : ServiceRequest} {answers : Answers} {o : Order}
    {token : Xdr} {txHash : TxHash} (valid : validateService request = .ok o)
    (unknown : o.existing answers.jobs = none) (payment : o.payment = .token token)
    (unused : (answers.jobs.list.any fun job => job.paymentSig = token) = false)
    (verified : verifyX402Payment stellar token (Encoding.toFixed2 (toDouble o.service.price))
      o.payee answers.facilitator = .ok ()) (settled : answers.txHash = some txHash) :
    postService stellar request answers = record o answers txHash := by
  unfold postService
  rw [valid]
  dsimp only
  rw [unknown, payment]
  simp only [unused, verified, settled]
  rfl

theorem not_servicePaid {price : Price} {amount : Amount} (less : amount.exact < price.exact)
    (enough : price.listed ≤ amount.number) : ¬ ServicePaid price := by
  intro paid
  have verified : verifyX402Payment (transferred amount) "xdr"
      (Encoding.toFixed2 (toDouble price.exact)) "PAYEE" (.ok ()) = .ok () :=
    verifyX402Payment_eq_ok.mpr ⟨verifyX402PaymentOffline_eq_ok.mpr
      ⟨transfer amount, _, amount, rfl, rfl, rfl, rfl, rfl, enough⟩, rfl⟩
  have created : postService (transferred amount) (purchase price.exact) willing =
      some ((purchased price.exact).job 0 "hash") :=
    postService_eq_record (o := purchased price.exact) rfl rfl rfl rfl verified rfl
  obtain ⟨token, tx, op, -, read, -, -, only, destination, amount', rfl, -, atLeast⟩ :=
    paid _ _ _ _ _ rfl rfl created
  have isTransfer : (.ok (transfer amount) : Except String Transaction) = .ok tx := read
  obtain rfl := Except.ok.inj isTransfer
  obtain ⟨-, -, rfl⟩ := Operation.payment.inj (List.cons.inj only).1
  exact absurd atLeast (not_le.mpr less)

/-- The same for a transaction that is submitted. -/
theorem postJob_eq_record {request : JobRequest} {answers : Answers} {o : Order}
    {signedXdr : Xdr} {txHash : TxHash} (valid : validateJob stellar.network request = .ok o)
    (unknown : o.existing answers.jobs = none) (payment : o.payment = .signedXdr signedXdr)
    (granted : answers.quota = true)
    (paid : submitAndVerifyPayment stellar signedXdr (toDouble o.service.price) o.payee
      answers.txHash = some txHash)
    (unused : (answers.jobsAtInsert.list.any fun job => job.txHash = txHash) = false) :
    postJob stellar request answers = record o answers txHash := by
  unfold postJob
  rw [valid]
  dsimp only
  rw [unknown, payment]
  simp only [paid, granted, Option.bind_some, unused]
  rfl

theorem not_jobPaid {price : Price} {amount : Amount} (less : amount.exact < price.exact)
    (enough : toDouble price.exact ≤ amount.number) : ¬ JobPaid price := by
  intro paid
  have pays : (transfer amount).operations.any
      (isPayment (transferred amount) (toDouble price.exact) "PAYEE") = true :=
    List.any_eq_true.mpr
      ⟨_, List.mem_cons_self, isPayment_eq_true.mpr ⟨_, amount, rfl, rfl, enough⟩⟩
  have verified : submitAndVerifyPayment (transferred amount) "xdr" (toDouble price.exact) "PAYEE"
      (some "hash") = some "hash" := if_pos pays
  have created : postJob (transferred amount) (hire price.exact) willing =
      some ((hired price.exact).job 0 "hash") :=
    postJob_eq_record (o := hired price.exact) rfl rfl rfl rfl verified rfl
  obtain ⟨tx, read, op, mem, destination, amount', rfl, -, atLeast⟩ :=
    paid _ _ _ _ _ _ _ rfl rfl rfl rfl rfl (by decide) created
  have isTransfer : (.ok (transfer amount) : Except String Transaction) = .ok tx := read
  obtain rfl := Except.ok.inj isTransfer
  obtain ⟨-, -, rfl⟩ := Operation.payment.inj (List.mem_singleton.mp mem)
  exact absurd atLeast (not_le.mpr less)

theorem listed_price_paid_iff (price : Price) :
    (ServicePaid price ↔ price.below.number < price.listed) ∧
      (JobPaid price ↔ price.below.number < toDouble price.exact) := by
  refine ⟨⟨fun paid => ?_, servicePaid_of_below⟩, ⟨fun paid => ?_, jobPaid_of_below⟩⟩
  · by_contra high
    exact not_servicePaid price.below_lt (not_lt.mp high) paid
  · by_contra high
    exact not_jobPaid price.below_lt (not_lt.mp high) paid

/-- A price of 1.004, which is listed as 1.00. -/
def priceWithMills : Price := ⟨1004000, by norm_num⟩

def oneDollar : Amount := ⟨10000000, by norm_num⟩

/-- A price that is one number with the amount that is a stroop less. -/
def largePrice : Price := ⟨10000000000000002, by norm_num⟩

def largeAmount : Amount := ⟨100000000000000019, by norm_num⟩

theorem less_is_paid :
    ¬ (∀ price : Price, ServicePaid price) ∧ ¬ ∀ price : Price, JobPaid price := by
  have mills : oneDollar.exact < priceWithMills.exact ∧
      priceWithMills.listed ≤ oneDollar.number := by
    decide +kernel
  have stroop : largeAmount.exact < largePrice.exact ∧
      toDouble largePrice.exact ≤ largeAmount.number := by
    decide +kernel
  exact ⟨fun paid => not_servicePaid mills.1 mills.2 (paid _),
    fun paid => not_jobPaid stroop.1 stroop.2 (paid _)⟩

end Talos.Commerce.ListedPrice
