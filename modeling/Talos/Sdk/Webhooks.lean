import Talos.Encoding.TextDecoder
import Talos.Encoding.Text
import Talos.Soroban.Contract
import Mathlib.Algebra.Order.Ring.Rat
import Mathlib.Algebra.Order.Monoid.Unbundled.WithTop

/-!
# Webhook verification in the SDK

`TalosWebhook.verify` (`packages/sdk/src/webhooks.ts`): the guard on the replay window, the
signature header, the tolerance, the signatures and the replay store. HMAC-SHA256 is a
parameter. A call reads the clock once and comes to the store later; an entry of the store
lives for its TTL. The log is left out, as is fault injection.
-/

namespace Talos.Sdk.Webhook

open Encoding
open Soroban (Map)

/-- A number of seconds, perhaps `Infinity`. -/
abbrev Seconds := WithTop ℚ

abbrev Hmac := (secret content : Utf16) → List UInt8

/-- One constructor for each `throw`, with what its message quotes. -/
inductive TalosWebhookError where
  | windowNotPositive
  | windowTooShort (replayWindowSeconds toleranceSeconds : Seconds)
  | missingSignature
  | malformedTimestamp (value : Utf16)
  | missingTimestamp
  | noSignatures
  | timestampTooOld
  | timestampTooNew
  | signatureMismatch
  | eventIdRequired
  | replayDetected
  | replayStoreError

inductive ErrorCode where
  | missingSignature
  | invalidHeader
  | malformedTimestamp
  | timestampTooOld
  | timestampTooNew
  | signatureMismatch
  | replayDetected
  | replayMisconfigured
  | replayStoreError
  deriving DecidableEq

def TalosWebhookError.code : TalosWebhookError → ErrorCode
  | windowNotPositive => .replayMisconfigured
  | windowTooShort .. => .replayMisconfigured
  | missingSignature => .missingSignature
  | malformedTimestamp _ => .malformedTimestamp
  | missingTimestamp => .invalidHeader
  | noSignatures => .invalidHeader
  | timestampTooOld => .timestampTooOld
  | timestampTooNew => .timestampTooNew
  | signatureMismatch => .signatureMismatch
  | eventIdRequired => .replayMisconfigured
  | replayDetected => .replayDetected
  | replayStoreError => .replayStoreError

inductive Payload where
  | text (s : Utf16)
  | bytes (b : List UInt8)

def payloadToString : Payload → Utf16
  | .text s => s
  | .bytes b => decodeAll b

structure VerifyOptions where
  payload : Payload
  signatureHeader : Utf16
  secret : List Utf16
  toleranceSeconds : Seconds
  replayWindowSeconds : Option Seconds
  eventId : Option Utf16

def defaultTolerance : Seconds := ((300 : ℚ) : Seconds)

structure ParsedSignature where
  timestamp : Nat
  versions : List Nat
  signatures : List (Nat × Utf16)
  deriving DecidableEq

/-! ### The signature header -/

def comma : UInt16 := 0x2C

def dot : UInt16 := 0x2E

def equals : UInt16 := 0x3D

def letterT : UInt16 := 0x74

def letterV : UInt16 := 0x76

structure HeaderState where
  timestamp : Option Nat
  versions : List Nat
  signatures : List (Nat × Utf16)
  deriving DecidableEq

def addVersion (versions : List Nat) (version : Nat) : List Nat :=
  if version ∈ versions then versions else versions ++ [version]

/-- A `key=value` of the header. -/
def readPair (state : HeaderState) (key value : Utf16) : Except TalosWebhookError HeaderState :=
  if value = [] then .ok state
  else if key = [letterT] then
    if value.all isDigit ∧ value.length ≤ 13 then
      .ok { state with timestamp := some (digitsValue value) }
    else .error (.malformedTimestamp value)
  else if key.head? = some letterV ∧ key.tail ≠ [] ∧ key.tail.all isDigit then
    let version := digitsValue key.tail
    .ok { state with
      versions := addVersion state.versions version
      signatures := state.signatures ++ [(version, value)] }
  else .ok state

/-- One part of the header; a part without a key is skipped. -/
def readPart (state : HeaderState) (part : Utf16) : Except TalosWebhookError HeaderState :=
  if equals ∉ part ∨ part.head? = some equals then .ok state
  else
    readPair state (trimSpace (part.takeWhile (· ≠ equals)))
      (trimSpace (part.dropWhile (· ≠ equals)).tail)

def readParts (state : HeaderState) : List Utf16 → Except TalosWebhookError HeaderState
  | [] => .ok state
  | part :: parts =>
      match readPart state part with
      | .ok state => readParts state parts
      | .error error => .error error

def parseSignatureHeader (header : Utf16) : Except TalosWebhookError ParsedSignature :=
  match readParts ⟨none, [], []⟩ (splitAll comma header) with
  | .error error => .error error
  | .ok ⟨none, _, _⟩ => .error .missingTimestamp
  | .ok ⟨some timestamp, versions, signatures⟩ =>
      if signatures = [] then .error .noSignatures else .ok ⟨timestamp, versions, signatures⟩

/-! ### Signatures -/

/-- Strict: an even number of hexadecimal digits. -/
def hexToBuf (text : Utf16) : Option (List UInt8) :=
  if text.length = 0 ∨ text.length % 2 ≠ 0 then none
  else if text.all isHexDigit then some (hexPairs text)
  else none

/-- The SDK's scheme and that of the platform. -/
def signedContentCandidates (version timestamp : Nat) (payloadStr : Utf16) : List Utf16 :=
  [decimal timestamp ++ dot :: payloadStr,
    decimal version ++ dot :: (decimal timestamp ++ dot :: payloadStr)]

def signatureMatches (hmac : Hmac) (secrets : List Utf16) (timestamp : Nat) (payloadStr : Utf16)
    (signature : Nat × Utf16) : Bool :=
  match hexToBuf signature.2 with
  | none => false
  | some sigBuf =>
      (signedContentCandidates signature.1 timestamp payloadStr).any fun content =>
        secrets.any fun s => s ≠ [] ∧ sigBuf = hmac s content

/-! ### Verification -/

def checkWindow (options : VerifyOptions) : Except TalosWebhookError Unit :=
  match options.replayWindowSeconds with
  | none => .ok ()
  | some window =>
      if window = ⊤ ∨ window < 0 ∨ window = 0 ∧ 0 < options.toleranceSeconds then
        .error .windowNotPositive
      else if 0 < options.toleranceSeconds ∧ window < options.toleranceSeconds then
        .error (.windowTooShort window options.toleranceSeconds)
      else .ok ()

/-- A difference of timestamps in seconds. -/
def seconds (n : Int) : Seconds := ((n : ℚ) : Seconds)

def checkTolerance (tolerance : Seconds) (timestamp : Nat) (now : Int) :
    Except TalosWebhookError Unit :=
  if 0 < tolerance then
    if tolerance < seconds (now - timestamp) then .error .timestampTooOld
    else if tolerance < seconds (timestamp - now) then .error .timestampTooNew
    else .ok ()
  else .ok ()

/-- Everything before the replay store; `now` is in seconds. -/
def verifyHeader (hmac : Hmac) (options : VerifyOptions) (now : Int) :
    Except TalosWebhookError ParsedSignature := do
  checkWindow options
  if options.signatureHeader = [] then .error .missingSignature
  else
    let parsed ← parseSignatureHeader options.signatureHeader
    checkTolerance options.toleranceSeconds parsed.timestamp now
    if parsed.signatures.any (signatureMatches hmac options.secret parsed.timestamp
        (payloadToString options.payload)) then .ok parsed
    else .error .signatureMismatch

/-! ### The replay store -/

/-- When the entry of an event id is gone, in milliseconds. -/
abbrev ReplayStore := Map Utf16 (WithTop ℚ)

def ReplayStore.has (store : ReplayStore) (id : Utf16) (now : Int) : Bool :=
  match store id with
  | some expiry => ((now : ℚ) : WithTop ℚ) < expiry
  | none => false

/-- The end of a TTL that starts at a time. -/
def expiryAt (now : Int) (ttlSeconds : Seconds) : WithTop ℚ :=
  ttlSeconds.map fun ttl => now + 1000 * ttl

def ReplayStore.add (store : ReplayStore) (id : Utf16) (ttlSeconds : Seconds) (now : Int) :
    ReplayStore :=
  store.set id (expiryAt now ttlSeconds)

/-- The times of a call in milliseconds: of the clock it reads and of its two requests to
the store, which may fail. -/
structure Times where
  now : Int
  hasAt : Int
  setAt : Int
  hasFails : Bool
  setFails : Bool

def ttl (options : VerifyOptions) : Seconds :=
  match options.replayWindowSeconds with
  | some window => window
  | none =>
      if 0 < options.toleranceSeconds then options.toleranceSeconds + ((60 : ℚ) : Seconds)
      else ((86400 : ℚ) : Seconds)

def checkReplay (options : VerifyOptions) (times : Times) (store : ReplayStore) :
    Except TalosWebhookError Unit × ReplayStore :=
  match options.eventId with
  | none => (.error .eventIdRequired, store)
  | some [] => (.error .eventIdRequired, store)
  | some id =>
      if times.hasFails then (.error .replayStoreError, store)
      else if store.has id times.hasAt then (.error .replayDetected, store)
      else if times.setFails then (.error .replayStoreError, store)
      else (.ok (), store.add id (ttl options) times.setAt)

/-- `TalosWebhook.verify` with the replay store, if there is one. -/
def verify (hmac : Hmac) (options : VerifyOptions) (times : Times) :
    Option ReplayStore → Except TalosWebhookError ParsedSignature × Option ReplayStore
  | none => (verifyHeader hmac options (times.now / 1000), none)
  | some store =>
      match verifyHeader hmac options (times.now / 1000) with
      | .error error => (.error error, some store)
      | .ok parsed =>
          let (checked, store) := checkReplay options times store
          (checked.map fun _ => parsed, some store)

end Talos.Sdk.Webhook
