import Talos.Database.Machine
import Talos.Database.Table
import Talos.Encoding.Decimal
import Talos.Encoding.Json
import Mathlib.Data.Char
import Mathlib.Data.List.Lex

/-!
# Signed transfers

`POST /api/talos/:id/transfer` (`web/src/app/api/talos/[id]/transfer/route.ts`,
`web/src/lib/transfer-signature.ts` and `transferSchema` of `web/src/lib/schemas.ts`). A request
is authenticated and its signature verified; then it reads the clock and the threshold; then it
inserts the nonce; then it calls `sendUSDC`. Requests of all instances and the pruning of nonces
interleave between these. Times are in milliseconds.
-/

namespace Talos.Transfers

open Encoding Database

structure TransferSignedPayload where
  agent : String
  destination : String
  asset : String
  amount : String
  nonce : String
  expiry : String
  deriving DecidableEq, Repr

/-! ### The request schema -/

def isLowerHex (c : Char) : Bool := c.isDigit || ('a' ≤ c && c ≤ 'f')

/-- `/^[0-9a-f]{64}$/` -/
def isHex64 (text : String) : Bool := text.toList.length = 64 && text.toList.all isLowerHex

def isBase32 (c : Char) : Bool := ('A' ≤ c && c ≤ 'Z') || ('2' ≤ c && c ≤ '7')

/-- `/^G[A-Z2-7]{55}$/` -/
def isStellarAddress (text : String) : Bool :=
  text.toList.head? = some 'G' && text.toList.tail.length = 55 && text.toList.tail.all isBase32

/-- `/^(?:0|[1-9][0-9]{0,11})\.[0-9]{2}$/` -/
def isCanonicalDecimal (amount : String) : Bool :=
  amount.toList = whole amount ++ '.' :: fraction amount &&
    (whole amount = ['0'] || ((whole amount).head? ≠ some '0' && whole amount ≠ [])) &&
    (whole amount).length ≤ 12 && (whole amount).all Char.isDigit &&
    (fraction amount).length = 2 && (fraction amount).all Char.isDigit

def atMostStellarMaximum (amount : String) : Bool :=
  (whole amount).length < 12 || whole amount < "922337203685".toList ||
    (whole amount = "922337203685".toList && fraction amount ≤ "47".toList)

def canonicalTransferAmountSchema (amount : String) : Bool :=
  isCanonicalDecimal amount && amount ≠ "0.00" && atMostStellarMaximum amount

/-- `/^[1-9][0-9]{9,12}$/` -/
def isUnixSeconds (expiry : String) : Bool :=
  10 ≤ expiry.toList.length && expiry.toList.length ≤ 13 && expiry.toList.head? ≠ some '0' &&
    expiry.toList.all Char.isDigit

/-- Number of UTF-16 code units. -/
def utf16Length (text : String) : Nat :=
  (text.toList.map fun c => if c.toNat < 0x10000 then 1 else 2).sum

def transferSchema (payload : TransferSignedPayload) (signature : String) : Bool :=
  1 ≤ utf16Length payload.agent && utf16Length payload.agent ≤ 128 &&
    isStellarAddress payload.destination && payload.asset = "USDC" &&
    canonicalTransferAmountSchema payload.amount && isHex64 payload.nonce &&
    isUnixSeconds payload.expiry && isHex64 signature

/-- An amount in hundredths. -/
def cents (amount : String) : Nat := Nat.ofDigitChars 10 (whole amount ++ fraction amount) 0

def expirySeconds (expiry : String) : Nat := Nat.ofDigitChars 10 expiry.toList 0

/-- `Number` of a decimal with two fractional digits. -/
def number (hundredths : Nat) : ℚ := toDouble (hundredths / 100)

/-! ### The signature -/

def transferSignatureDomain : String := "talos.transfer.v1"

def maxTransferAuthLifetimeSeconds : Nat := 5 * 60

def nonceRetentionSeconds : Nat := 3600

def canonicalChars (payload : TransferSignedPayload) : List Char :=
  "\x7b\"agent\":".toList ++ (jsonString payload.agent ++
  (",\"destination\":".toList ++ (jsonString payload.destination ++
  (",\"asset\":".toList ++ (jsonString payload.asset ++
  (",\"amount\":".toList ++ (jsonString payload.amount ++
  (",\"nonce\":".toList ++ (jsonString payload.nonce ++
  (",\"expiry\":".toList ++ (jsonString payload.expiry ++ "\x7d".toList)))))))))))

def canonicalizeTransferPayload (payload : TransferSignedPayload) : String :=
  transferSignatureDomain ++ ":" ++ String.ofList (canonicalChars payload)

/-- `hmac key text` is the HMAC-SHA256 in lower-case hexadecimal. -/
def signTransferPayload (hmac : String → String → String) (payload : TransferSignedPayload)
    (agentApiKey : String) : String :=
  hmac agentApiKey (canonicalizeTransferPayload payload)

def verifyTransferSignature (hmac : String → String → String) (payload : TransferSignedPayload)
    (agentApiKey signature : String) : Bool :=
  isHex64 signature && signTransferPayload hmac payload agentApiKey = signature

/-! ### The route -/

/-- Status and error text of a response. -/
structure Refusal where
  status : Nat
  error : String
  deriving DecidableEq, Repr

/-- What administration sets: `verifyAgentApiKey` with scope `wallet:sign`, thresholds in
hundredths, and the environment. -/
structure Platform where
  verifyAgentApiKey : (talosId apiKey : String) → Except Refusal Unit
  approvalThreshold : (talosId : String) → Option Nat
  agentSecret : (talosId : String) → Option String

structure TransferRequest where
  talosId : String
  apiKey : String
  payload : TransferSignedPayload
  signature : String
  deriving DecidableEq

/-- Authentication, schema, agent and signature. -/
def authenticate (hmac : String → String → String) (platform : Platform)
    (request : TransferRequest) : Except Refusal Unit := do
  platform.verifyAgentApiKey request.talosId request.apiKey
  if transferSchema request.payload request.signature = false then
    .error ⟨400, "Validation failed"⟩
  else if request.payload.agent ≠ request.talosId then
    .error ⟨400, "Signed transfer agent does not match the target TALOS"⟩
  else if verifyTransferSignature hmac request.payload request.apiKey request.signature = false then
    .error ⟨403, "Invalid transfer signature"⟩
  else .ok ()

/-- What a request found when it read the clock. -/
structure Checked where
  readAt : Nat
  approvalThreshold : Option Nat
  agentSecret : String
  deriving DecidableEq

def Checked.nowSeconds (checked : Checked) : Nat := checked.readAt / 1000

/-- Expiry, threshold and secret. -/
def check (platform : Platform) (clock : Nat) (request : TransferRequest) :
    Except Refusal Checked :=
  let approvalThreshold := platform.approvalThreshold request.talosId
  if expirySeconds request.payload.expiry ≤ clock / 1000 then
    .error ⟨403, "Transfer authorization has expired"⟩
  else if approvalThreshold.any fun t => number t < number (cents request.payload.amount) then
    .error ⟨403, "Amount exceeds approval threshold. Create an approval request first."⟩
  else match platform.agentSecret request.talosId with
    | none => .error ⟨503, "Agent secret key not configured for this TALOS"⟩
    | some agentSecret => .ok ⟨clock, approvalThreshold, agentSecret⟩

/-- `validateNonceWindow` -/
def inNonceWindow (expiry nowSeconds : Nat) : Bool :=
  expiry ≤ 2 ^ 53 - 1 && nowSeconds < expiry && expiry ≤ nowSeconds + maxTransferAuthLifetimeSeconds

/-- The largest value of an `integer` column. -/
def maxInteger : Nat := 2 ^ 31 - 1

/-- The unique key of a nonce. -/
abbrev NonceKey := String × String

/-- What a signature authorizes once: agent, nonce and expiry. -/
structure Authorization where
  agent : String
  nonce : String
  expiry : Nat
  deriving DecidableEq

def TransferSignedPayload.authorization (payload : TransferSignedPayload) : Authorization :=
  ⟨payload.agent, payload.nonce, expirySeconds payload.expiry⟩

def Authorization.key (authorization : Authorization) : NonceKey :=
  (authorization.agent, authorization.nonce)

inductive Stage where
  | authenticated
  | checked (found : Checked)
  | consumed (found : Checked)
  deriving DecidableEq

structure Pending where
  request : TransferRequest
  stage : Stage
  deriving DecidableEq

/-- A call of `sendUSDC` with the secret of `talosId`, and the request it is made for. -/
structure Call where
  talosId : String
  agentSecret : String
  destination : String
  amount : String
  request : TransferRequest
  found : Checked
  deriving DecidableEq

def TransferRequest.call (request : TransferRequest) (found : Checked) : Call where
  talosId := request.talosId
  agentSecret := found.agentSecret
  destination := request.payload.destination
  amount := request.payload.amount
  request := request
  found := found

def Call.authorization (call : Call) : Authorization := call.request.payload.authorization

/-- `consumed` and `calls` are not stored: what was ever inserted and sent, newest first. -/
structure State where
  clock : Nat
  platform : Platform
  nonces : Table NonceKey Nat
  pending : Nat → Option Pending
  consumed : List Authorization
  calls : List Call

inductive Event where
  | tick (milliseconds : Nat)
  | administer (platform : Platform)
  | arrive (r : Nat) (request : TransferRequest)
  | check (r : Nat)
  /-- The insert. It may be committed although the request does not learn it. -/
  | consume (r : Nat) (acknowledged : Bool)
  | sendUSDC (r : Nat)
  /-- A statement fails, or the instance is lost. -/
  | fail (r : Nat)
  /-- `pruneExpiredNonces`, with the clock it has read. -/
  | prune (readAt : Nat)

def State.set (s : State) (r : Nat) (pending : Option Pending) : State :=
  { s with pending := Function.update s.pending r pending }

/-- `consumeTransferNonce` -/
def State.consume (s : State) (r : Nat) (request : TransferRequest) (found : Checked)
    (acknowledged : Bool) : State :=
  let authorization := request.payload.authorization
  if inNonceWindow authorization.expiry found.nowSeconds = false then s.set r none
  else if maxInteger < authorization.expiry then s.set r none
  else match s.nonces.insert authorization.key authorization.expiry with
    | none => s.set r none
    | some nonces =>
        let s := { s with nonces := nonces, consumed := authorization :: s.consumed }
        s.set r (if acknowledged then some ⟨request, .consumed found⟩ else none)

def pruned (nonces : Table NonceKey Nat) (readAt : Nat) : Table NonceKey Nat :=
  nonces.delete fun _ expiry => expiry + nonceRetentionSeconds < readAt / 1000

def step (hmac : String → String → String) (s : State) : Event → Option State
  | .tick milliseconds => some { s with clock := s.clock + milliseconds }
  | .administer platform => some { s with platform := platform }
  | .arrive r request =>
      if (s.pending r).isSome then none
      else match authenticate hmac s.platform request with
        | .error _ => some s
        | .ok () => some (s.set r (some ⟨request, .authenticated⟩))
  | .check r =>
      match s.pending r with
      | some ⟨request, .authenticated⟩ =>
          match Transfers.check s.platform s.clock request with
          | .error _ => some (s.set r none)
          | .ok found => some (s.set r (some ⟨request, .checked found⟩))
      | _ => none
  | .consume r acknowledged =>
      match s.pending r with
      | some ⟨request, .checked found⟩ => some (s.consume r request found acknowledged)
      | _ => none
  | .sendUSDC r =>
      match s.pending r with
      | some ⟨request, .consumed found⟩ =>
          some ({ s with calls := request.call found :: s.calls }.set r none)
      | _ => none
  | .fail r => if (s.pending r).isSome then some (s.set r none) else none
  | .prune readAt =>
      if readAt ≤ s.clock then some { s with nonces := pruned s.nonces readAt } else none

def machine (hmac : String → String → String) (clock : Nat) (platform : Platform) :
    Machine State Event where
  init := ⟨clock, platform, fun _ => none, fun _ => none, [], []⟩
  step := step hmac

/-! ### The canonical form -/

theorem canonicalizeTransferPayload_injective : Function.Injective canonicalizeTransferPayload := by
  intro payload payload' same
  have lists := congrArg String.toList same
  rw [canonicalizeTransferPayload, canonicalizeTransferPayload, String.toList_append,
    @String.toList_append _ (String.ofList (canonicalChars payload'))] at lists
  have chars : canonicalChars payload = canonicalChars payload' :=
    String.ofList_injective (String.toList_inj.mp (List.append_cancel_left lists))
  unfold canonicalChars at chars
  obtain ⟨agent, rest⟩ := jsonString_selfDelimiting (List.append_cancel_left chars)
  obtain ⟨destination, rest⟩ := jsonString_selfDelimiting (List.append_cancel_left rest)
  obtain ⟨asset, rest⟩ := jsonString_selfDelimiting (List.append_cancel_left rest)
  obtain ⟨amount, rest⟩ := jsonString_selfDelimiting (List.append_cancel_left rest)
  obtain ⟨nonce, rest⟩ := jsonString_selfDelimiting (List.append_cancel_left rest)
  obtain ⟨expiry, _⟩ := jsonString_selfDelimiting (List.append_cancel_left rest)
  cases payload
  cases payload'
  simp only [TransferSignedPayload.mk.injEq]
  exact ⟨agent, destination, asset, amount, nonce, expiry⟩

/-! ### The threshold -/

theorem cents_lt {amount : String} (canonical : canonicalTransferAmountSchema amount = true) :
    cents amount < 10 ^ 14 := by
  simp only [canonicalTransferAmountSchema, isCanonicalDecimal, Bool.and_eq_true,
    decide_eq_true_eq] at canonical
  obtain ⟨⟨⟨⟨⟨⟨-, short⟩, digits⟩, two⟩, digits'⟩, -⟩, -⟩ := canonical
  have all : (whole amount ++ fraction amount).all Char.isDigit = true := by
    rw [List.all_append, digits, digits', Bool.and_self]
  refine (ofDigitChars_lt all).trans_le (Nat.pow_le_pow_right (by decide) ?_)
  rw [List.length_append]
  omega

/-- Up to the largest amount, doubles compare hundredths as they are. -/
theorem number_lt {t a : Nat} (less : t < a) (small : a < 10 ^ 14) : number t < number a := by
  have errorT := abs_le.mp (toDouble_error (t / 100))
  have errorA := abs_le.mp (toDouble_error (a / 100))
  have step : (t : ℚ) + 1 ≤ a := by exact_mod_cast less
  have bound : (a : ℚ) ≤ 10 ^ 14 := by exact_mod_cast small.le
  have posT : (0 : ℚ) ≤ t / 100 := by positivity
  have posA : (0 : ℚ) ≤ a / 100 := by positivity
  rw [abs_of_nonneg posT] at errorT
  rw [abs_of_nonneg posA] at errorA
  unfold number
  linarith [errorT.2, errorA.1]

end Talos.Transfers
