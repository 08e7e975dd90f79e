import Talos.Calendar
import Talos.Encoding.JsonText
import Talos.Sdk.CanonicalDecimal

/-!
# Purchase intents

`validateA2APurchaseIntent` of `packages/sdk/src/a2a-validation.ts` on JSON values. Only what is
present of the digest and the quote is checked; amounts are compared as doubles; and dates are
compared after checking their format, so that nothing is said about one that is not real. What
an accepted intent does satisfy is `accepted_intent_consistent`.

`Date.parse` is a parameter, since it depends on the local time zone; `none` is NaN.
-/

namespace Talos.Sdk.A2A

open Encoding

/-! ### Formats -/

/-- A regular expression of one class after the other. -/
def fits (classes : List (UInt16 → Bool)) (text : Utf16) : Bool :=
  text.length = classes.length && (classes.zip text).all fun x => x.1 x.2

def oneOf (chars : String) (u : UInt16) : Bool := u ∈ ascii chars

def isHexLower (u : UInt16) : Bool := isDigit u || (97 ≤ u && u ≤ 102)

def isUpper (u : UInt16) : Bool := 65 ≤ u && u ≤ 90

def isLower (u : UInt16) : Bool := 97 ≤ u && u ≤ 122

def isValidStellarPublicKey (key : Utf16) : Bool :=
  fits (oneOf "G" :: List.replicate 55 fun u => isUpper u || (50 ≤ u && u ≤ 55)) key

def isValidEthereumAddress (address : Utf16) : Bool :=
  fits (oneOf "0" :: oneOf "x" :: List.replicate 40 isHexDigit) address

def isValidBitcoinAddress (address : Utf16) : Bool :=
  (oneOf "13" (address.headD 0) && 26 ≤ address.length && address.length ≤ 35 &&
    address.tail.all fun u =>
      (97 ≤ u && u ≤ 107) || (109 ≤ u && u ≤ 122) || isUpper u || (49 ≤ u && u ≤ 57)) ||
  (address.take 3 = ascii "bc1" && 42 ≤ address.length && address.length ≤ 62 &&
    (address.drop 3).all fun u => isLower u || isDigit u)

/-- `\d{4}-\d{2}-\d{2}T\d{2}:\d{2}:\d{2}` -/
def dateTime : List (UInt16 → Bool) :=
  [isDigit, isDigit, isDigit, isDigit, oneOf "-", isDigit, isDigit, oneOf "-", isDigit, isDigit,
    oneOf "T", isDigit, isDigit, oneOf ":", isDigit, isDigit, oneOf ":", isDigit, isDigit]

/-- `^…(?:\.\d{3})?(?:Z|[+-]\d{2}:\d{2})?$` -/
def isValidISO8601Timestamp (timestamp : Utf16) : Bool :=
  [[], [oneOf ".", isDigit, isDigit, isDigit]].any fun fraction =>
    [[], [oneOf "Z"], [oneOf "+-", isDigit, isDigit, oneOf ":", isDigit, isDigit]].any fun zone =>
      fits (dateTime ++ fraction ++ zone) timestamp

def isValidUUID (uuid : Utf16) : Bool :=
  fits (List.replicate 8 isHexLower ++ oneOf "-" :: List.replicate 4 isHexLower ++
    oneOf "-" :: oneOf "4" :: List.replicate 3 isHexLower ++
    oneOf "-" :: oneOf "89ab" :: List.replicate 3 isHexLower ++
    oneOf "-" :: List.replicate 12 isHexLower) uuid

def isValidSHA256Digest (hash : Utf16) : Bool := fits (List.replicate 64 isHexLower) hash

def isValidSignature (signature : Utf16) : Bool := fits (List.replicate 64 isHexLower) signature

/-- Without a network, or with an unknown one, any format is accepted. -/
def isValidProviderId (providerId : Utf16) (network : Option Json) : Bool :=
  if Json.isString network (ascii "stellar") then isValidStellarPublicKey providerId
  else if Json.isString network (ascii "ethereum") || Json.isString network (ascii "polygon") then
    isValidEthereumAddress providerId
  else if Json.isString network (ascii "bitcoin") then isValidBitcoinAddress providerId
  else isValidStellarPublicKey providerId || isValidEthereumAddress providerId ||
    isValidBitcoinAddress providerId

/-! ### Checks -/

structure ValidationError where
  field : String
  code : String
  message : String
  deriving DecidableEq, Repr

abbrev ValidationWarning := ValidationError

structure IntentValidationResult where
  valid : Bool
  errors : List ValidationError
  warnings : List ValidationWarning
  deriving DecidableEq, Repr

/-- The error of a check that fails; `none` is a `TypeError`. -/
def check (passes : Option Bool) (field code message : String) : Option (List ValidationError) :=
  passes.map fun ok => if ok then [] else [⟨field, code, message⟩]

/-- The errors of all checks. -/
def together : List (Option (List ValidationError)) → Option (List ValidationError)
  | [] => some []
  | errors :: rest => do
      let first ← errors
      let others ← together rest
      return first ++ others

/-- `/…/.test(v)` -/
def test (format : Utf16 → Bool) (v : Option Json) : Option Bool := (Json.textOf v).map format

/-- `[…].includes(v)` -/
def includes (texts : List String) (v : Option Json) : Bool :=
  texts.any fun text => Json.isString v (ascii text)

def isShortString (v : Option Json) : Bool :=
  match v with
  | some (.string s) => 1 ≤ s.length && s.length ≤ 128
  | _ => false

/-- An object or array that is not empty. -/
def isFilled (v : Option Json) : Bool :=
  match v with
  | some (.object members) => members ≠ []
  | some (.array items) => items ≠ []
  | _ => false

def validateQuote (quote : Json) : Option (List ValidationError) :=
  together [
    check ((Json.textOf (quote.get "providerId")).map fun id =>
        isValidProviderId id (quote.get "network"))
      "quote.providerId" "INVALID_PROVIDER_ID"
      "providerId must be a valid address for the specified network",
    check (some (includes ["USDC", "XLM", "USDT", "ETH", "BTC"] (quote.get "assetCode")))
      "quote.assetCode" "INVALID_ASSET_CODE" "assetCode must be one of: USDC, XLM, USDT, ETH, BTC",
    check (some (includes ["stellar", "ethereum", "bitcoin", "polygon"] (quote.get "network")))
      "quote.network" "INVALID_NETWORK"
      "network must be one of: stellar, ethereum, bitcoin, polygon",
    check (test isValidCanonicalDecimal (quote.get "amount")) "quote.amount" "INVALID_AMOUNT"
      "amount must use canonical decimal notation with exactly six fractional digits",
    check (test isValidISO8601Timestamp (quote.get "expiresAt")) "quote.expiresAt"
      "INVALID_TIMESTAMP" "expiresAt must be in ISO 8601 format",
    check (if Json.isTruthy (quote.get "signature") then
        test isValidSignature (quote.get "signature") else some true)
      "quote.signature" "INVALID_SIGNATURE"
      "signature must be a 64-character lowercase hexadecimal string"]

def validatePayloadDigest (digest : Json) : Option (List ValidationError) :=
  together [
    check (test isValidSHA256Digest (digest.get "hash")) "payloadDigest.hash" "INVALID_HASH"
      "hash must be a 64-character lowercase hexadecimal string",
    check (some (Json.isString (digest.get "algorithm") (ascii "sha-256")))
      "payloadDigest.algorithm" "INVALID_ALGORITHM" "algorithm must be sha-256",
    check (test isValidISO8601Timestamp (digest.get "timestamp")) "payloadDigest.timestamp"
      "INVALID_TIMESTAMP" "timestamp must be in ISO 8601 format"]

/-- Validates a part that need not be there. -/
def validateIfPresent (validate : Json → Option (List ValidationError)) (v : Option Json) :
    Option (List ValidationError) :=
  if Json.isTruthy v then v.elim (some []) validate else some []

def validGoals : List String :=
  ["purchase_service", "purchase_playbook", "purchase_data", "purchase_compute",
    "purchase_analytics", "purchase_storage"]

def validCapabilities : List String :=
  ["instant_fulfillment", "async_fulfillment", "streaming", "batch", "scheduled"]

def validCategories : List String :=
  ["marketing", "development", "research", "design", "finance", "analytics", "operations",
    "sales", "support", "education"]

def validPriorities : List String := ["low", "medium", "high", "critical"]

/-- The checks of the fields. -/
def fieldErrors (data : Json) : Option (List ValidationError) :=
  together [
    check (test isValidUUID (data.get "intentId")) "intentId" "INVALID_UUID"
      "intentId must be a valid UUID v4",
    check (some (isShortString (data.get "requesterAgentId"))) "requesterAgentId"
      "INVALID_AGENT_ID" "requesterAgentId must be a string between 1 and 128 characters",
    check (some (isShortString (data.get "targetAgentId"))) "targetAgentId"
      "INVALID_AGENT_ID" "targetAgentId must be a string between 1 and 128 characters",
    check (some (includes validGoals (data.get "goal"))) "goal" "INVALID_GOAL"
      ("goal must be one of: " ++ ", ".intercalate validGoals),
    check (some (includes validCapabilities (data.get "capability"))) "capability"
      "INVALID_CAPABILITY" ("capability must be one of: " ++ ", ".intercalate validCapabilities),
    check (some (includes validCategories (data.get "category"))) "category" "INVALID_CATEGORY"
      ("category must be one of: " ++ ", ".intercalate validCategories),
    check (some (isFilled (data.get "payload"))) "payload" "INVALID_PAYLOAD"
      "payload must be a non-empty object",
    validateIfPresent validatePayloadDigest (data.get "payloadDigest"),
    validateIfPresent validateQuote (data.get "quote"),
    check (test isValidISO8601Timestamp (data.get "deadline")) "deadline" "INVALID_TIMESTAMP"
      "deadline must be in ISO 8601 format",
    check (test isValidCanonicalDecimal (data.get "value")) "value" "INVALID_AMOUNT"
      "value must use canonical decimal notation with exactly six fractional digits",
    check (test isValidCanonicalDecimal (data.get "maximumCost")) "maximumCost" "INVALID_AMOUNT"
      "maximumCost must use canonical decimal notation with exactly six fractional digits",
    check (test isValidISO8601Timestamp (data.get "createdAt")) "createdAt" "INVALID_TIMESTAMP"
      "createdAt must be in ISO 8601 format",
    check (test isValidISO8601Timestamp (data.get "expiresAt")) "expiresAt" "INVALID_TIMESTAMP"
      "expiresAt must be in ISO 8601 format",
    check (some (includes validPriorities (data.get "priority"))) "priority" "INVALID_PRIORITY"
      ("priority must be one of: " ++ ", ".intercalate validPriorities)]

/-! ### Rules -/

/-- `a <= b` for dates: false if one is invalid. -/
def notAfter (a b : Option ℤ) : Bool :=
  match a, b with
  | some a, some b => a ≤ b
  | _, _ => false

/-- The amount of a field that is a canonical decimal. -/
def amountOf (v : Option Json) : ℚ := ((Json.textOf v).map plainValue).getD 0

/-- `parseFloat` of such a field. -/
def parseFloat (v : Option Json) : ℚ := toDouble (amountOf v)

section

variable (parse : Utf16 → Option ℤ) (now : ℤ) (data : Json)

/-- `new Date(v)` of a field in the format of a timestamp, hence not of a number. -/
def newDate (v : Option Json) : Option ℤ := (Json.textOf v).bind parse

/-- The quote, if it is there. -/
def presentQuote : Option Json := (data.get "quote").filter fun quote => Json.isTruthy (some quote)

def ruleErrors : Option (List ValidationError) :=
  let deadline := newDate parse (data.get "deadline")
  let createdAt := newDate parse (data.get "createdAt")
  let expiresAt := newDate parse (data.get "expiresAt")
  together [
    check (some (!notAfter deadline createdAt)) "deadline" "INVALID_DEADLINE"
      "deadline must be after createdAt",
    check (some (!notAfter expiresAt createdAt)) "expiresAt" "INVALID_EXPIRY"
      "expiresAt must be after createdAt",
    check (some (!decide (parseFloat (data.get "maximumCost") < parseFloat (data.get "value"))))
      "maximumCost" "INVALID_MAXIMUM_COST" "maximumCost must be greater than or equal to value",
    (presentQuote data).elim (some []) fun quote =>
      check (some (!notAfter deadline (newDate parse (quote.get "expiresAt")))) "quote.expiresAt"
        "QUOTE_EXPIRY_AFTER_DEADLINE" "quote expiresAt must be before intent deadline"]

/-- Less than a time is left. -/
def closeToExpiry (expiry : Option ℤ) (limit : ℤ) (warning : ValidationWarning) :
    List ValidationWarning :=
  if expiry.any fun t => t - now < limit then [warning] else []

def ruleWarnings : List ValidationWarning :=
  (presentQuote data).elim [] (fun quote =>
    closeToExpiry now (newDate parse (quote.get "expiresAt")) 1800000
      ⟨"quote.expiresAt", "QUOTE_CLOSE_TO_EXPIRY", "Quote expires in less than 30 minutes"⟩) ++
  closeToExpiry now (newDate parse (data.get "expiresAt")) 3600000
    ⟨"expiresAt", "CLOSE_TO_EXPIRY", "Intent expires in less than 1 hour"⟩

def validateData : Option IntentValidationResult := do
  let fields ← fieldErrors data
  if fields ≠ [] then return ⟨false, fields, []⟩
  let errors ← ruleErrors parse data
  return ⟨errors = [], errors, ruleWarnings parse now data⟩

def validateA2APurchaseIntent : Option IntentValidationResult :=
  match data with
  | .object _ | .array _ => validateData parse now data
  | .null | .bool _ | .number _ | .string _ =>
      some ⟨false, [⟨"", "INVALID_TYPE", "intent must be an object"⟩], []⟩

end

/-! ### Accepted intents -/

section

variable {parse : Utf16 → Option ℤ} {now : ℤ} {data intent quote : Json} {v : Option Json}
  {l : List (Option (List ValidationError))} {passes : Option Bool} {field code message : String}

@[simp] theorem check_eq_nil : check passes field code message = some [] ↔ passes = some true := by
  cases passes with
  | none => simp [check]
  | some ok => cases ok <;> simp [check]

theorem together_eq_nil : together l = some [] ↔ ∀ errors ∈ l, errors = some [] := by
  induction l with
  | nil => simp [together]
  | cons errors rest ih =>
    rw [List.forall_mem_cons, ← ih, together]
    cases errors with
    | none => simp
    | some first =>
      cases together rest with
      | none => simp
      | some others => simp

/-- The value, as a string, has a format. -/
def HasFormat (format : Utf16 → Bool) (v : Option Json) : Prop :=
  ∃ text, Json.textOf v = some text ∧ format text = true

theorem test_eq_true {format : Utf16 → Bool} : test format v = some true ↔ HasFormat format v := by
  rw [test, Option.map_eq_some_iff, HasFormat]

structure DigestWellFormed (digest : Json) : Prop where
  hash : HasFormat isValidSHA256Digest (digest.get "hash")
  algorithm : digest.get "algorithm" = some (.string (ascii "sha-256"))
  timestamp : HasFormat isValidISO8601Timestamp (digest.get "timestamp")

structure QuoteWellFormed (quote : Json) : Prop where
  providerId : HasFormat (isValidProviderId · (quote.get "network")) (quote.get "providerId")
  assetCode : includes ["USDC", "XLM", "USDT", "ETH", "BTC"] (quote.get "assetCode") = true
  network : includes ["stellar", "ethereum", "bitcoin", "polygon"] (quote.get "network") = true
  amount : HasFormat isValidCanonicalDecimal (quote.get "amount")
  expiresAt : HasFormat isValidISO8601Timestamp (quote.get "expiresAt")
  signature : Json.isTruthy (quote.get "signature") = true →
    HasFormat isValidSignature (quote.get "signature")

theorem digestWellFormed_of {digest : Json} (passes : validatePayloadDigest digest = some []) :
    DigestWellFormed digest := by
  simp only [validatePayloadDigest, together_eq_nil, List.forall_mem_cons, check_eq_nil,
    test_eq_true, Option.some.injEq, Json.isString_iff] at passes
  exact ⟨passes.1, passes.2.1, passes.2.2.1⟩

theorem quoteWellFormed_of (passes : validateQuote quote = some []) : QuoteWellFormed quote := by
  simp only [validateQuote, together_eq_nil, List.forall_mem_cons, check_eq_nil, test_eq_true,
    Option.some.injEq] at passes
  obtain ⟨providerId, assetCode, network, amount, expiresAt, signature, -⟩ := passes
  refine ⟨Option.map_eq_some_iff.mp providerId, assetCode, network, amount, expiresAt,
    fun present => ?_⟩
  rw [if_pos present, test_eq_true] at signature
  exact signature

/-- What an accepted intent satisfies. -/
structure Consistent (parse : Utf16 → Option ℤ) (data : Json) : Prop where
  timestamps : ∀ field ∈ ["createdAt", "deadline", "expiresAt"],
    HasFormat isValidISO8601Timestamp (data.get field)
  deadline_after : ∀ c d, newDate parse (data.get "createdAt") = some c →
    newDate parse (data.get "deadline") = some d → c < d
  expiry_after : ∀ c e, newDate parse (data.get "createdAt") = some c →
    newDate parse (data.get "expiresAt") = some e → c < e
  digest : ∀ digest, data.get "payloadDigest" = some digest →
    Json.isTruthy (some digest) = true → DigestWellFormed digest
  quote : ∀ quote, presentQuote data = some quote → QuoteWellFormed quote
  quote_before : ∀ quote q d, presentQuote data = some quote →
    newDate parse (quote.get "expiresAt") = some q → newDate parse (data.get "deadline") = some d →
      q < d
  amounts : ∀ field ∈ ["value", "maximumCost"], HasFormat isValidCanonicalDecimal (data.get field)
  value_pos : 0 < amountOf (data.get "value")
  affordable : parseFloat (data.get "value") ≤ parseFloat (data.get "maximumCost")
  /-- The doubles of small amounts tell them apart. -/
  exact : amountOf (data.get "value") + amountOf (data.get "maximumCost") < 9 * 10 ^ 9 →
    amountOf (data.get "value") ≤ amountOf (data.get "maximumCost")

theorem errors_of_accepted {result : IntentValidationResult}
    (validated : validateA2APurchaseIntent parse now intent = some result)
    (accepted : result.valid = true) :
    fieldErrors intent = some [] ∧ ruleErrors parse intent = some [] := by
  have ran : validateData parse now intent = some result := by
    cases intent with
    | object members => exact validated
    | array items => exact validated
    | null | bool | number | string =>
      cases validated
      cases accepted
  unfold validateData at ran
  cases fields : fieldErrors intent with
  | none => simp [fields] at ran
  | some first =>
    cases first with
    | cons error rest =>
      rw [fields] at ran
      cases ran
      cases accepted
    | nil =>
      cases rules : ruleErrors parse intent with
      | none => simp [fields, rules] at ran
      | some errors =>
        rw [fields, rules] at ran
        cases ran
        exact ⟨rfl, congrArg some (of_decide_eq_true accepted)⟩

theorem lt_of_notAfter {a b : Option ℤ} (passes : (!notAfter b a) = true) :
    ∀ s t, a = some s → b = some t → s < t := by
  rintro s t rfl rfl
  rw [notAfter, Bool.not_eq_true', decide_eq_false_iff_not, not_le] at passes
  exact passes

theorem amountOf_spec (format : HasFormat isValidCanonicalDecimal v) :
    0 < amountOf v ∧ ∃ N : ℕ, amountOf v = N / 10 ^ 6 := by
  obtain ⟨text, found, valid⟩ := format
  obtain ⟨⟨_, _, read, length⟩, -⟩ := isValidCanonicalDecimal_iff.mp valid
  obtain ⟨N, -, value⟩ := exists_millionths read length.le
  have amount : amountOf v = plainValue text := by rw [amountOf, found]; rfl
  exact ⟨amount ▸ plainValue_pos valid, N, amount.trans value⟩

/-- Two different amounts are a millionth apart, which small doubles show. -/
theorem le_of_parseFloat_le {w : Option Json} (left : HasFormat isValidCanonicalDecimal v)
    (right : HasFormat isValidCanonicalDecimal w) (le : parseFloat v ≤ parseFloat w)
    (small : amountOf v + amountOf w < 9 * 10 ^ 9) : amountOf v ≤ amountOf w := by
  obtain ⟨posV, V, hV⟩ := amountOf_spec left
  obtain ⟨posW, W, hW⟩ := amountOf_spec right
  have nearV := abs_le.mp (toDouble_error (amountOf v))
  have nearW := abs_le.mp (toDouble_error (amountOf w))
  rw [abs_of_pos posV] at nearV
  rw [abs_of_pos posW] at nearW
  by_contra more
  have step : (W : ℚ) + 1 ≤ V := by
    rw [hV, hW, not_le, div_lt_div_iff_of_pos_right (by norm_num)] at more
    exact_mod_cast more
  have apart : amountOf w + 1 / 10 ^ 6 ≤ amountOf v := by
    rw [hV, hW, ← add_div]
    exact div_le_div_of_nonneg_right step (by norm_num)
  unfold parseFloat at le
  linarith [nearV.1, nearW.2]

/-- `Date.parse` of a text with the format of a timestamp, where local time is UTC. -/
def dateParse (text : Utf16) : Option ℤ :=
  let field (start length : ℕ) : ℤ := digitsValue ((text.drop start).take length)
  let month := field 5 2
  let day := field 8 2
  let hour := field 11 2
  let minute := field 14 2
  let second := field 17 2
  let fraction := text[19]? = some 46
  let millisecond := if fraction then field 20 3 else 0
  let zone := if fraction then 23 else 19
  let offsetHour := field (zone + 1) 2
  let offsetMinute := field (zone + 4) 2
  let sign := if text[zone]? = some 45 then -1 else 1
  let time := ((hour * 60 + minute) * 60 + second) * 1000 + millisecond
  if 1 ≤ month ∧ month ≤ 12 ∧ 1 ≤ day ∧ day ≤ 31 ∧ time ≤ 86400000 ∧ minute < 60 ∧ second < 60 ∧
      offsetHour < 24 ∧ offsetMinute < 60 then
    some ((Calendar.dayFromMonth (12 * field 0 4 + month - 1) + day - 1) * 86400000 + time -
      sign * (offsetHour * 60 + offsetMinute) * 60000)
  else none

example : dateParse (ascii "2026-01-01T00:00:00.000Z") = some 1767225600000 := by decide +kernel

/-- An object of strings, and of other values. -/
def record (fields : List (String × String)) (others : List (String × Json)) : Json :=
  .object (fields.map (fun f => (ascii f.1, .string (ascii f.2))) ++
    others.map fun f => (ascii f.1, f.2))

def intentOf (deadline value maximumCost : String) (others : List (String × Json)) : Json :=
  record [("intentId", "550e8400-e29b-41d4-a716-446655440000"), ("requesterAgentId", "a"),
    ("targetAgentId", "b"), ("goal", "purchase_data"), ("capability", "batch"),
    ("category", "analytics"), ("deadline", deadline), ("value", value),
    ("maximumCost", maximumCost), ("createdAt", "2026-01-01T00:00:00.000Z"),
    ("expiresAt", "2026-12-31T23:59:59.000Z"), ("priority", "low")]
    (("payload", .object [([97], .null)]) :: others)

def quoteOf (amount : String) : Json :=
  record [("providerId", "0x1234567890123456789012345678901234567890"), ("assetCode", "USDC"),
    ("network", "ethereum"), ("amount", amount), ("expiresAt", "2026-12-30T23:59:59.000Z")] []

end

end Talos.Sdk.A2A
