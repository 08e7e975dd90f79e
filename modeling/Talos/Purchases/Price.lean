import Talos.Encoding.Decimal

/-!
# Prices of purchases

What `purchase_service` (`prime-agent/src/talos_agent/tools/commerce.py`) does with the price of a
402 response until it has a signed payment: the checks of the agent, the conversion to smallest
units, `X402Signer.sign_payment` and `POST /api/talos/:id/sign`
(`web/src/app/api/talos/[id]/sign/route.ts`). A float or a `Number` is the rational number it
stands for.
-/

namespace Talos.Purchases

open Encoding

def usdcDecimals : ℕ := 6

def usdcUnitScale : ℕ := 10 ^ usdcDecimals

/-- `\A\d+(?:\.\d{1,6})?\Z`, with ASCII digits. -/
def isPrice (text : String) : Bool :=
  whole text ≠ [] && (whole text).all Char.isDigit &&
    match text.toList.dropWhile (· ≠ '.') with
    | [] => true
    | _ :: digits => 1 ≤ digits.length && digits.length ≤ usdcDecimals && digits.all Char.isDigit

def priceToUsdcUnits (price : String) : Option ℕ :=
  if isPrice price then
    some (Nat.ofDigitChars 10 (whole price) 0 * usdcUnitScale +
      Nat.ofDigitChars 10 (fraction price ++
        List.replicate (usdcDecimals - (fraction price).length) '0') 0)
  else none

/-! ### The 402 response -/

/-- A decimal in JSON that is not negative: an integer, another number or a text. -/
inductive Price where
  | int (n : ℕ)
  | real (decimal : {decimal : ℚ // 0 ≤ decimal})
  | text (plain : {text : String // isPrice text = true})

/-- The decimal that is written. -/
def Price.exact : Price → ℚ
  | .int n => n
  | .real decimal => decimal.1
  | .text plain => decimalValue plain.1

inductive PyValue where
  | int (n : ℕ)
  | float (x : ℚ)
  | str (text : String)

def Price.load : Price → PyValue
  | .int n => .int n
  | .real decimal => .float (toDouble decimal.1)
  | .text plain => .str plain.1

/-- `float(value)`. What overflows is above every budget. -/
def Price.toFloat (price : Price) : ℚ := toDouble price.exact

def PyValue.toStr : PyValue → String
  | .int n => String.ofList (Nat.toDigits 10 n)
  | .float x => strFloat x
  | .str text => text

/-- `quoteAmount` is `quote.amount`; `expiryError` is what `enforce_commerce_quote_expiry` finds. -/
structure ServiceResponse where
  statusCode : ℕ
  price : Price
  payee : String
  quoteAmount : Option Price
  expiryError : Option String

/-- The price that is in effect. -/
def ServiceResponse.effective (response : ServiceResponse) : Price :=
  response.quoteAmount.getD response.price

/-- `price` after the quote was looked at. -/
def ServiceResponse.loaded (response : ServiceResponse) : PyValue :=
  match response.quoteAmount with
  | some amount => .float amount.toFloat
  | none => response.price.load

/-! ### The checks of the agent -/

/-- Floats of the configuration and of `get_spending_period(30)`. -/
structure Budget where
  gtmBudget : ℚ
  spentMonth : ℚ
  approvalThreshold : ℚ

inductive Refusal where
  | error (message : String)
  | approvalRequested
  deriving DecidableEq

def precheck (budget : Budget) : Except Refusal Unit :=
  if budget.gtmBudget ≤ budget.spentMonth then .error (.error "GTM budget exhausted for this month")
  else .ok ()

/-- From the response to the amount in smallest units. -/
def quotedUnits (budget : Budget) (response : ServiceResponse) : Except Refusal ℕ :=
  if response.statusCode ≠ 402 then
    .error (.error ("Expected 402, got " ++ toString response.statusCode))
  else match response.expiryError with
    | some message => .error (.error message)
    | none =>
        let price := response.loaded.toStr
        if budget.gtmBudget < toDouble (budget.spentMonth + response.effective.toFloat) then
          .error (.error ("Purchase of $" ++ price ++ " would exceed GTM budget"))
        else if budget.approvalThreshold < response.effective.toFloat then .error .approvalRequested
        else match priceToUsdcUnits price with
          | none => .error (.error ("Commerce quote price is malformed: " ++ price))
          | some units => .ok units

/-! ### The signing proxy -/

/-- A `numeric(18, 2)` column. -/
structure Numeric where
  hundredths : ℕ
  fits : hundredths < 10 ^ 18

def Numeric.toNumber (n : Numeric) : ℚ := toDouble (n.hundredths / 100)

structure X402PaymentPayload where
  «from» : String
  «to» : String
  amount : String
  assetCode : String
  deriving DecidableEq

/-- What the route finds; `signX402Payment` is whether a transaction with the payment is signed. -/
structure Proxy where
  authorized : Bool
  agentWalletAddress : Option String
  approvalThreshold : Numeric
  agentSecret : Option String
  signX402Payment : X402PaymentPayload → Bool

/-- The payment that was signed, and the amount that was compared with the threshold. -/
structure Signed where
  payment : X402PaymentPayload
  compared : ℚ
  deriving DecidableEq

def sign (proxy : Proxy) (payee : String) (amount : ℕ) (assetCode : String) :
    Except String Signed :=
  if proxy.authorized = false then .error "Invalid API key"
  else match proxy.agentWalletAddress with
    | none => .error "No agent wallet for this TALOS"
    | some address =>
        let amountUsd := toDouble amount
        if payee = "" then .error "Validation failed"
        else if 2 ^ 1024 - 2 ^ 970 ≤ amountUsd ∨ amountUsd ≤ 0 then
          .error "amount must be a positive number"
        else if proxy.approvalThreshold.toNumber < amountUsd then
          .error "Amount exceeds approval threshold"
        else if proxy.agentSecret.isNone then
          .error "Agent secret key not configured for this TALOS"
        else
          let payment : X402PaymentPayload :=
            { «from» := address
              «to» := payee
              amount := toFixed2 amountUsd
              assetCode := assetCode }
          if proxy.signX402Payment payment then .ok ⟨payment, amountUsd⟩ else .error "Signing failed"

/-- `X402Signer.sign_payment`; the signer is available once it has found the agent's wallet. -/
def signPayment (available : Bool) (proxy : Proxy) (payee : String) (amount : ℕ) :
    Except String Signed :=
  if available = false then .error "x402 signer not initialized"
  else sign proxy payee amount "USDC"

/-- `purchase_service` until it has the payment header. -/
def purchaseService (budget : Budget) (available : Bool) (proxy : Proxy)
    (response : ServiceResponse) : Except Refusal Signed := do
  precheck budget
  let units ← quotedUnits budget response
  match signPayment available proxy response.payee units with
  | .error message => .error (.error message)
  | .ok signed => .ok signed

theorem Price.exact_nonneg (price : Price) : 0 ≤ price.exact := by
  cases price with
  | int n => exact Nat.cast_nonneg n
  | real decimal => exact decimal.2
  | text plain => exact div_nonneg (Nat.cast_nonneg _) (by positivity)

/-! ### Units -/

section

variable {text : String} {units : ℕ} {response : ServiceResponse} {budget : Budget}

/-- Nothing but digits and a point. -/
theorem chars_of_isPrice (price : isPrice text = true) :
    ∀ c ∈ text.toList, c.isDigit = true ∨ c = '.' := by
  intro c mem
  unfold isPrice at price
  simp only [Bool.and_eq_true] at price
  obtain ⟨⟨-, digits⟩, rest⟩ := price
  rw [← List.takeWhile_append_dropWhile (p := fun c => decide (c ≠ '.')) (l := text.toList)] at mem
  rcases List.mem_append.mp mem with before | after
  · exact .inl (List.all_eq_true.mp digits c before)
  · cases dropped : text.toList.dropWhile fun c => decide (c ≠ '.') with
    | nil =>
        rw [dropped] at after
        cases after
    | cons point decimals =>
        have stops := List.head_dropWhile_not (fun c => decide (c ≠ '.'))
          (l := text.toList) (by rw [dropped]; exact List.cons_ne_nil _ _)
        simp only [dropped, Bool.and_eq_true] at rest after stops
        rcases List.mem_cons.mp after with rfl | later
        · exact .inr (not_not.mp (of_decide_eq_false stops))
        · exact .inl (List.all_eq_true.mp rest.2 c later)

/-- The units of a price are exactly what its text says. -/
theorem priceToUsdcUnits_exact (ok : priceToUsdcUnits text = some units) :
    isPrice text = true ∧ (units : ℚ) / usdcUnitScale = decimalValue text := by
  unfold priceToUsdcUnits at ok
  split at ok
  · next price =>
      cases ok
      refine ⟨price, ?_⟩
      have short : (fraction text).length ≤ usdcDecimals := by
        unfold isPrice at price
        simp only [Bool.and_eq_true] at price
        unfold fraction
        obtain ⟨-, rest⟩ := price
        cases dropped : text.toList.dropWhile fun c => decide (c ≠ '.') with
        | nil => simp
        | cons point decimals =>
            simp only [dropped, Bool.and_eq_true, decide_eq_true_eq] at rest
            exact rest.1.2
      rw [decimalValue, Nat.ofDigitChars_append, Nat.ofDigitChars_append,
        Nat.ofDigitChars_replicate_zero,
        @Nat.ofDigitChars_eq_ofDigitChars_zero _ (Nat.ofDigitChars 10 (whole text) 0)]
      have split : (usdcUnitScale : ℚ) = 10 ^ (fraction text).length *
          10 ^ (usdcDecimals - (fraction text).length) := by
        rw [← pow_add, Nat.add_sub_cancel' short, usdcUnitScale]
        push_cast
        rfl
      push_cast
      rw [split]
      field_simp
  · cases ok

end

end Talos.Purchases
