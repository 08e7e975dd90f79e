import Talos.Database.Machine
import Talos.Soroban.Contract
import Mathlib.Algebra.GroupWithZero.Nat

/-!
# Rotation of a webhook's signing secret

`rotateWebhookSecret` encrypts the new secret, reads the stored one and writes both: the
one it read becomes the previous secret, with a grace expiry. `finalizeWebhookSecretRotation`
clears the previous secret. A delivery reads the subscription, then
`resolveSigningSecrets` picks the secrets it signs with. The machine interleaves the
statements of any number of rotations and deliveries of one webhook.

AES-256-GCM is taken at its word: a ciphertext is what it was made from, and decrypting
it under another key throws.
-/

namespace Talos.Webhooks.Rotation

open Database Soroban

abbrev RotationId := Nat
abbrev SigningId := Nat

/-- The result of `encryptSecret` under a key, with a random IV. -/
structure Ciphertext where
  key : Nat
  iv : Nat
  plaintext : String
  deriving DecidableEq

def encryptSecret (key : Nat) (plaintext : String) (iv : Nat) : Ciphertext := ⟨key, iv, plaintext⟩

/-- `none` throws. -/
def decryptSecret (key : Nat) (ciphertext : Ciphertext) : Option String :=
  if ciphertext.key = key then some ciphertext.plaintext else none

/-- The columns of `tls_webhook_subscriptions` that rotation reads or writes. -/
structure Subscription where
  talosId : String
  secretCiphertext : Ciphertext
  previousSecretCiphertext : Option Ciphertext
  previousSecretExpiresAt : Option Int
  secretRotatedAt : Option Int
  signatureVersion : Nat
  deriving DecidableEq

def minSecretRotationGraceSeconds : Int := 300
def maxSecretRotationGraceSeconds : Int := 2592000

/-- The overlap that is used when a rotation names none. -/
structure RotationConfig where
  defaultGraceSeconds : Int
  min_le : minSecretRotationGraceSeconds ≤ defaultGraceSeconds
  le_max : defaultGraceSeconds ≤ maxSecretRotationGraceSeconds

/-- `none` is a number that is absent or not finite, `some n` one with the floor `n`. -/
def clampGraceSeconds (config : RotationConfig) : Option Int → Int
  | none => config.defaultGraceSeconds
  | some n =>
      if n < minSecretRotationGraceSeconds then minSecretRotationGraceSeconds
      else if n > maxSecretRotationGraceSeconds then maxSecretRotationGraceSeconds
      else n

/-- The secrets to sign with: the current one, and the previous one in its grace window.
A previous secret that cannot be read is passed over. -/
def resolveSigningSecrets (key : Nat) (subscription : Subscription) (now : Int) :
    Option (List String) :=
  (decryptSecret key subscription.secretCiphertext).map fun current =>
    match subscription.previousSecretCiphertext, subscription.previousSecretExpiresAt with
    | some prevCipher, some expiresAt =>
        if expiresAt > now then current :: (decryptSecret key prevCipher).toList else [current]
    | _, _ => [current]

/-- The length of a string in UTF-16 code units. -/
def utf16Length (text : String) : Nat :=
  (text.toList.map fun c => if c.toNat < 0x10000 then 1 else 2).sum

/-- A rotation between its SELECT and its UPDATE, or before them. -/
structure RotationCall where
  talosId : String
  newCiphertext : Ciphertext
  now : Int
  previousSecretExpiresAt : Int
  existing : Option Ciphertext
  deriving DecidableEq

structure State where
  clock : Int
  subscription : Subscription
  rotations : Map RotationId RotationCall
  /-- The copies that deliveries have read and not signed with yet. -/
  deliveries : Map SigningId Subscription

inductive Event where
  | advance (now : Int)
  | rotateWebhookSecret (c : RotationId) (talosId plaintext : String) (graceSeconds : Option Int)
      (iv : Nat)
  | rotateSelect (c : RotationId)
  | rotateUpdate (c : RotationId)
  | finalizeWebhookSecretRotation (talosId : String)
  | deliverySelect (d : SigningId)
  | sign (d : SigningId)
  deriving DecidableEq

/-- `UPDATE … SET previousSecretCiphertext, previousSecretExpiresAt, secretCiphertext, …`. -/
def Subscription.rotated (subscription : Subscription) (call : RotationCall)
    (existing : Ciphertext) : Subscription :=
  { subscription with
    previousSecretCiphertext := some existing
    previousSecretExpiresAt := some call.previousSecretExpiresAt
    secretCiphertext := call.newCiphertext
    secretRotatedAt := some call.now
    signatureVersion := 1 }

def Subscription.finalized (subscription : Subscription) : Subscription :=
  { subscription with previousSecretCiphertext := none, previousSecretExpiresAt := none }

def step (config : RotationConfig) (key : Nat) (s : State) : Event → Option State
  | .advance now => if s.clock ≤ now then some { s with clock := now } else none
  | .rotateWebhookSecret c talosId plaintext graceSeconds iv =>
      if s.rotations c ≠ none then none
      else if utf16Length plaintext < 16 ∨ utf16Length plaintext > 256 then some s
      else some { s with
        rotations := s.rotations.set c
          { talosId := talosId
            newCiphertext := encryptSecret key plaintext iv
            now := s.clock
            previousSecretExpiresAt := s.clock + clampGraceSeconds config graceSeconds * 1000
            existing := none } }
  | .rotateSelect c =>
      match s.rotations c with
      | some call =>
          if call.existing ≠ none then none
          -- No such subscription of this agent: the call ends.
          else if call.talosId ≠ s.subscription.talosId then
            some { s with rotations := s.rotations.remove c }
          else some { s with
            rotations := s.rotations.set c
              { call with existing := some s.subscription.secretCiphertext } }
      | none => none
  | .rotateUpdate c =>
      match s.rotations c with
      | some call =>
          match call.existing with
          | some existing => some { s with
              subscription :=
                if call.talosId = s.subscription.talosId then s.subscription.rotated call existing
                else s.subscription
              rotations := s.rotations.remove c }
          | none => none
      | none => none
  | .finalizeWebhookSecretRotation talosId =>
      if talosId = s.subscription.talosId then
        some { s with subscription := s.subscription.finalized }
      else some s
  | .deliverySelect d =>
      if s.deliveries d ≠ none then none
      else some { s with deliveries := s.deliveries.set d s.subscription }
  | .sign d =>
      match s.deliveries d with
      | some _ => some { s with deliveries := s.deliveries.remove d }
      | none => none

/-- A subscription as it is created. -/
def newSubscription (key : Nat) (talosId secret : String) (iv : Nat) : Subscription :=
  { talosId := talosId
    secretCiphertext := encryptSecret key secret iv
    previousSecretCiphertext := none
    previousSecretExpiresAt := none
    secretRotatedAt := none
    signatureVersion := 1 }

def machine (config : RotationConfig) (key : Nat) (start : Int) (talosId secret : String)
    (iv : Nat) : Machine State Event where
  init := ⟨start, newSubscription key talosId secret iv, Map.empty, Map.empty⟩
  step := step config key

end Talos.Webhooks.Rotation
