import Talos.Purchases.Price

/-!
# What a purchase pays

The agent sends smallest units to the signing proxy, which reads them as USDC. So the payment is
about a million times the price (`signed_amount`), and so is what is compared with the threshold.
-/

namespace Talos.Purchases

open Encoding

variable {budget : Budget} {available : Bool} {proxy : Proxy} {response : ServiceResponse}
  {units : ℕ} {signed : Signed}

/-! ### From the price to the units -/

theorem quotedUnits_eq_ok (ok : quotedUnits budget response = .ok units) :
    ¬ budget.gtmBudget < toDouble (budget.spentMonth + response.effective.toFloat) ∧
      priceToUsdcUnits response.loaded.toStr = some units := by
  unfold quotedUnits at ok
  split at ok
  · cases ok
  · split at ok
    · cases ok
    · dsimp only at ok
      split at ok
      · cases ok
      · next within =>
          split at ok
          · cases ok
          · split at ok
            · cases ok
            · next converted =>
                cases ok
                exact ⟨within, converted⟩

/-- The text of a float is off by less than a part in `2 ^ 50`. -/
theorem units_strFloat {x : ℚ} (pos : 0 < x) (ok : priceToUsdcUnits (strFloat x) = some units) :
    |(units : ℚ) / usdcUnitScale - x| ≤ x / 2 ^ 50 := by
  obtain ⟨price, exact⟩ := priceToUsdcUnits_exact ok
  rcases strFloat_cases x with ⟨places, n, pos', same, value⟩ | exponent
  · rw [exact, same, decimalValue_fixed pos', value]
    exact shortest_near pos
  · rcases chars_of_isPrice price 'e' exponent with digit | point
    · exact absurd digit (by decide)
    · exact absurd point (by decide)

theorem Price.toFloat_near {price : Price} (pos : 0 < price.exact) :
    |price.toFloat - price.exact| ≤ price.exact / 2 ^ 53 := by
  have near := toDouble_error price.exact
  rwa [abs_of_pos pos] at near

theorem units_float {price : Price} (pos : 0 < price.exact)
    (ok : priceToUsdcUnits (strFloat price.toFloat) = some units) :
    |(units : ℚ) / usdcUnitScale - price.exact| ≤ price.exact / 2 ^ 48 := by
  have near := units_strFloat (toDouble_pos pos) ok
  have float := abs_le.mp (Price.toFloat_near pos)
  unfold Price.toFloat at near float
  rw [abs_le] at near ⊢
  constructor <;> linarith

/-- The units are those of the price, but for the rounding of floats. -/
theorem units_near (pos : 0 < response.effective.exact)
    (ok : priceToUsdcUnits response.loaded.toStr = some units) :
    |(units : ℚ) / usdcUnitScale - response.effective.exact| ≤ response.effective.exact / 2 ^ 48 := by
  have same : ∀ {text}, priceToUsdcUnits text = some units →
      decimalValue text = response.effective.exact →
      |(units : ℚ) / usdcUnitScale - response.effective.exact| ≤
        response.effective.exact / 2 ^ 48 := by
    intro text ok value
    rw [(priceToUsdcUnits_exact ok).2, value, sub_self, abs_zero]
    positivity
  unfold ServiceResponse.loaded at ok
  cases quoted : response.quoteAmount with
  | some amount =>
      have effective : response.effective = amount := by rw [ServiceResponse.effective, quoted]; rfl
      rw [effective] at pos ⊢
      rw [quoted] at ok
      exact units_float pos ok
  | none =>
      have effective : response.effective = response.price := by
        rw [ServiceResponse.effective, quoted]
        rfl
      rw [effective] at pos same ⊢
      rw [quoted] at ok
      generalize response.price = price at ok pos same ⊢
      cases price with
      | int n =>
          exact same ok (decimalValue_digits n)
      | real decimal =>
          exact units_float pos ok
      | text plain =>
          exact same ok rfl

/-! ### From the units to the payment -/

theorem sign_eq_ok {payee assetCode : String} {amount : ℕ}
    (ok : sign proxy payee amount assetCode = .ok signed) :
    signed.payment.amount = toFixed2 (toDouble amount) ∧ signed.compared = toDouble amount := by
  unfold sign at ok
  split at ok
  · cases ok
  · split at ok
    · cases ok
    · dsimp only at ok
      split_ifs at ok
      cases ok
      exact ⟨rfl, rfl⟩

theorem purchaseService_eq_ok (ok : purchaseService budget available proxy response = .ok signed) :
    ∃ units, priceToUsdcUnits response.loaded.toStr = some units ∧
      signed.payment.amount = toFixed2 (toDouble units) ∧ signed.compared = toDouble units := by
  unfold purchaseService at ok
  cases ready : precheck budget with
  | error refusal =>
      rw [ready] at ok
      cases ok
  | ok =>
      cases quoted : quotedUnits budget response with
      | error refusal =>
          rw [ready, quoted] at ok
          cases ok
      | ok units =>
          rw [ready, quoted] at ok
          cases isSigned : signPayment available proxy response.payee units with
          | error message =>
              simp only [isSigned, Except.bind, bind, reduceCtorEq] at ok
          | ok payment =>
              simp only [isSigned, Except.bind, bind, Except.ok.injEq] at ok
              subst ok
              unfold signPayment at isSigned
              split at isSigned
              · cases isSigned
              · exact ⟨units, (quotedUnits_eq_ok quoted).2, sign_eq_ok isSigned⟩

/-- Both amounts are above `990000` times the price. -/
theorem signed_amount (pos : 0 < response.effective.exact)
    (ok : purchaseService budget available proxy response = .ok signed) :
    990000 * response.effective.exact < decimalValue signed.payment.amount ∧
      990000 * response.effective.exact < signed.compared := by
  obtain ⟨units, converted, amount, compared⟩ := purchaseService_eq_ok ok
  have near := abs_le.mp (units_near pos converted)
  have scale : ((usdcUnitScale : ℕ) : ℚ) = 1000000 := by
    rw [usdcUnitScale, usdcDecimals]
    norm_num
  rw [scale] at near
  have some_ : (1 : ℚ) ≤ units := by
    have positive : (0 : ℚ) < units := by linarith [near.1]
    exact_mod_cast positive
  have double := abs_le.mp (toDouble_error (units : ℚ))
  rw [abs_of_pos (by linarith)] at double
  have fixed := abs_le.mp (toFixed2_near (x := toDouble units) (by linarith [double.1]))
  rw [amount, compared]
  constructor
  · linarith [near.1, double.1, fixed.1]
  · linarith [near.1, double.1]

/-- A purchase that gets its payment signed pays something else than the price, and something else
was compared with the threshold. -/
theorem signed_ne_price (pos : 0 < response.effective.exact)
    (ok : purchaseService budget available proxy response = .ok signed) :
    decimalValue signed.payment.amount ≠ response.effective.exact ∧
      signed.compared ≠ response.effective.exact := by
  obtain ⟨amount, compared⟩ := signed_amount pos ok
  constructor <;> linarith

/-! ### Five dollars for five smallest units -/

def exampleBudget : Budget := ⟨200, 0, 10⟩

def tenDollars : Numeric := ⟨1000, by decide⟩

def exampleProxy : Proxy where
  authorized := true
  agentWalletAddress := some "G-AGENT"
  approvalThreshold := tenDollars
  agentSecret := some "S-AGENT"
  signX402Payment _ := true

def exampleResponse : ServiceResponse where
  statusCode := 402
  price := .text ⟨"0.000005", by decide +kernel⟩
  payee := "G-PAYEE"
  quoteAmount := none
  expiryError := none

def exampleSigned : Signed :=
  ⟨⟨"G-AGENT", "G-PAYEE", "5.00", "USDC"⟩, 5⟩

theorem example_signed :
    purchaseService exampleBudget true exampleProxy exampleResponse = .ok exampleSigned := by
  decide +kernel

theorem signed_ne_price_small :
    decimalValue exampleSigned.payment.amount ≠ exampleResponse.effective.exact ∧
      exampleSigned.compared ≠ exampleResponse.effective.exact :=
  signed_ne_price (by decide +kernel) example_signed

/-- A price of 0.000005 USDC is signed as a payment of 5.00 USDC. -/
theorem five_dollars :
    purchaseService exampleBudget true exampleProxy exampleResponse = .ok exampleSigned ∧
      exampleResponse.effective.exact = 5 / 10 ^ 6 ∧
      decimalValue exampleSigned.payment.amount = 5 ∧
      ¬ decimalValue exampleSigned.payment.amount = exampleResponse.effective.exact :=
  ⟨example_signed, by decide +kernel, by decide +kernel, by decide +kernel⟩

end Talos.Purchases
