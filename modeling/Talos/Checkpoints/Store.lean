import Talos.Database.Machine
import Talos.Encoding.Base64
import Mathlib.Algebra.Group.Int.Defs

/-!
# The checkpoint store

`CheckpointStore` (`prime-agent/src/talos_agent/checkpoint.py`). A sealed checkpoint is a row of
`checkpoint_envelopes`: its payload is a JSON object with the ciphertext and an HMAC of all the
other members, and the columns repeat some of them for lookups. What is random or cryptographic
is drawn outside: the keys, salts and nonces are arguments of the calls, and HMAC-SHA256, AES-GCM
and the wrapping of keys are functions of `Primitives`.

`State.sealed` is not in the source. It lists what has been sealed so far, oldest first.
-/

namespace Talos.Checkpoints

open Encoding

/-! ### Primitives -/

abbrev Bytes := List UInt8

/-- HMAC-SHA256 as hex text, AES-GCM of a text, the wrapping of keys under the store's master
password (`_wrap_key`, `_unwrap_key`), and JSON text of checkpoint data. -/
structure Primitives (Data : Type) where
  hmac : (key : Bytes) → (message : String) → String
  encrypt : (key nonce : Bytes) → (plaintext : String) → Bytes
  decrypt : (key nonce ciphertext : Bytes) → Option String
  decrypt_encrypt : ∀ key nonce text, decrypt key nonce (encrypt key nonce text) = some text
  wrapKey : (salt key : Bytes) → String
  unwrapKey : String → Option Bytes
  unwrap_wrap : ∀ salt key, unwrapKey (wrapKey salt key) = some key
  dumps : Data → String
  loads : String → Option Data
  loads_dumps : ∀ data, loads (dumps data) = some data

/-! ### Values of a payload -/

/-- A value `json.loads` gives. A float, a list or an object is kept as the text `str` gives,
and the text SQLite compares a TEXT column with, if it can be bound. -/
inductive Value where
  | null
  | bool (value : Bool)
  | int (value : Int)
  | str (value : String)
  | other (text : String) (bound : Option String)
  deriving DecidableEq, Repr

/-- The value in an f-string. -/
def Value.text : Value → String
  | null => "None"
  | bool true => "True"
  | bool false => "False"
  | int n => toString n
  | str s => s
  | other text _ => text

/-- The value as a parameter compared with a TEXT column: nothing if binding it raises, `none` for
NULL, which equals no text. -/
def Value.bind : Value → Option (Option String)
  | null => some none
  | bool b => some (some (if b then "1" else "0"))
  | int n => if -2 ^ 63 ≤ n ∧ n < 2 ^ 63 then some (some (toString n)) else none
  | str s => some (some s)
  | other _ bound => bound.map some

/-- `value == 1`. -/
def Value.isOne : Value → Bool
  | bool b => b
  | int n => n = 1
  | other text _ => text = "1.0"
  | _ => false

abbrev Object := List (String × Value)

/-! ### Errors -/

/-- What the calls raise, with what their messages show. -/
inductive Error where
  | valueError (message : String)
  /-- `CheckpointError` of `generate_key`. -/
  | activeKeyExists (agentId ns : String)
  /-- `KeyNotFoundError` of `rotate_key`, of `seal`, of `open` and of a payload's key. -/
  | noActiveKeyToRotate (agentId ns : String)
  | noActiveKey (agentId ns : String)
  | noEnvelope (nonce : String)
  | keyNotFound (keyId : Value)
  | masterKey
  | schema (version : Option Value)
  | identity (agentId : Value) (expected : String)
  | tamper (message : String)
  /-- `sqlite3.IntegrityError`. -/
  | integrity (column : String)
  /-- Python's own: a member that is missing, a value of the wrong type, a text that is no JSON. -/
  | keyError (member : String)
  | typeError (member : String)
  | decodeError
  deriving DecidableEq, Repr

/-! ### Rows -/

inductive KeyStatus where
  | active
  | retired
  deriving DecidableEq, Repr

structure KeyRow where
  keyId : String
  agentId : String
  ns : String
  keyHmac : String
  keyEnc : String
  status : KeyStatus
  deriving DecidableEq, Repr

/-- The payload is kept as the object that `json.loads` makes of it, `none` if it is not one. -/
structure EnvelopeRow where
  keyId : String
  agentId : String
  ns : String
  schemaVer : Int
  seq : Int
  ts : String
  nonce : String
  payload : Option Object
  deriving DecidableEq, Repr

/-- What one call of `seal` put into the table: its row, the keys it used and the data. -/
structure Sealed (Data : Type) where
  row : EnvelopeRow
  hmacKey : Bytes
  encKey : Bytes
  aad : String
  ctNonce : Bytes
  ct : Bytes
  data : Data

structure State (Data : Type) where
  keys : List KeyRow
  envelopes : List EnvelopeRow
  sealed : List (Sealed Data)

/-! ### Keys -/

variable {Data : Type}

def validateAgentId (agentId : String) : Except Error Unit :=
  if agentId = "" then .error (.valueError "agent_id must be a non-empty string")
  else if 128 < agentId.length then
    .error (.valueError "agent_id must be 128 characters or fewer")
  else .ok ()

/-- `_get_active_key_row`. -/
def getActiveKeyRow (keys : List KeyRow) (agentId ns : String) : Option KeyRow :=
  keys.find? fun row => row.agentId = agentId ∧ row.ns = ns ∧ row.status = .active

/-- What `generate_key` draws: the key id, the raw keys and a salt for each. -/
structure Draw where
  keyId : String
  hmacKey : Bytes
  encKey : Bytes
  hmacSalt : Bytes
  encSalt : Bytes
  deriving DecidableEq, Repr

def Draw.row (p : Primitives Data) (draw : Draw) (agentId ns : String) : KeyRow where
  keyId := draw.keyId
  agentId := agentId
  ns := ns
  keyHmac := p.wrapKey draw.hmacSalt draw.hmacKey
  keyEnc := p.wrapKey draw.encSalt draw.encKey
  status := .active

def generateKey (p : Primitives Data) (s : State Data) (agentId ns : String) (draw : Draw) :
    Except Error String × State Data :=
  match validateAgentId agentId with
  | .error e => (.error e, s)
  | .ok () =>
      match getActiveKeyRow s.keys agentId ns with
      | some _ => (.error (.activeKeyExists agentId ns), s)
      | none =>
          if s.keys.any (·.keyId = draw.keyId) then (.error (.integrity "key_id"), s)
          else (.ok draw.keyId, { s with keys := s.keys ++ [draw.row p agentId ns] })

/-- `UPDATE checkpoint_keys SET status='retired' … WHERE key_id=?`. -/
def retireKey (keys : List KeyRow) (keyId : String) : List KeyRow :=
  keys.map fun row => if row.keyId = keyId then { row with status := .retired } else row

/-- The old key is retired, and this is committed, before the new one is made. -/
def rotateKey (p : Primitives Data) (s : State Data) (agentId ns : String) (draw : Draw) :
    Except Error (String × String) × State Data :=
  match validateAgentId agentId with
  | .error e => (.error e, s)
  | .ok () =>
      match getActiveKeyRow s.keys agentId ns with
      | none => (.error (.noActiveKeyToRotate agentId ns), s)
      | some old =>
          let (made, s) :=
            generateKey p { s with keys := retireKey s.keys old.keyId } agentId ns draw
          (made.map (old.keyId, ·), s)

/-! ### Sealing -/

def envelopeVersion : Int := 1

/-- `_build_aad`, as text. -/
def buildAad (agentId ns schemaVersion seq ts nonce keyId ctB64 ctNonceB64 : Value) : String :=
  "\x00".intercalate
    ["v=" ++ toString envelopeVersion,
      "agent_id=" ++ agentId.text,
      "ns=" ++ ns.text,
      "schema=" ++ schemaVersion.text,
      "seq=" ++ seq.text,
      "ts=" ++ ts.text,
      "nonce=" ++ nonce.text,
      "key_id=" ++ keyId.text,
      "ct=" ++ ctB64.text,
      "ct_nonce=" ++ ctNonceB64.text]

/-- `_next_seq`. -/
def nextSeq (envelopes : List EnvelopeRow) (agentId ns : String) : Int :=
  ((envelopes.filter fun row => row.agentId = agentId ∧ row.ns = ns).map (·.seq)).max?.getD 0 + 1

/-- What `seal` draws: the time and the two nonces. -/
structure Stamp where
  ts : String
  nonce : String
  ctNonce : Bytes
  deriving DecidableEq, Repr

/-- The row, under the keys of `key`. -/
def sealRow (p : Primitives Data) (key : KeyRow) (hmacKey encKey : Bytes) (seq : Int)
    (data : Data) (schemaVersion : Int) (stamp : Stamp) : Sealed Data :=
  let ct := p.encrypt encKey stamp.ctNonce (p.dumps data)
  let ctB64 := b64encode ct
  let ctNonceB64 := b64encode stamp.ctNonce
  let aad := buildAad (.str key.agentId) (.str key.ns) (.int schemaVersion) (.int seq)
    (.str stamp.ts) (.str stamp.nonce) (.str key.keyId) (.str ctB64) (.str ctNonceB64)
  { row :=
      { keyId := key.keyId
        agentId := key.agentId
        ns := key.ns
        schemaVer := schemaVersion
        seq := seq
        ts := stamp.ts
        nonce := stamp.nonce
        payload := some
          [("v", .int envelopeVersion),
            ("agent_id", .str key.agentId),
            ("ns", .str key.ns),
            ("schema", .int schemaVersion),
            ("seq", .int seq),
            ("ts", .str stamp.ts),
            ("nonce", .str stamp.nonce),
            ("key_id", .str key.keyId),
            ("ct", .str ctB64),
            ("ct_nonce", .str ctNonceB64),
            ("hmac", .str (p.hmac hmacKey aad))] }
    hmacKey := hmacKey
    encKey := encKey
    aad := aad
    ctNonce := stamp.ctNonce
    ct := ct
    data := data }

/-- `seal`. The nonce column is unique. -/
def «seal» (p : Primitives Data) (s : State Data) (agentId : String) (data : Data) (ns : String)
    (schemaVersion : Int) (stamp : Stamp) : Except Error String × State Data :=
  match validateAgentId agentId with
  | .error e => (.error e, s)
  | .ok () =>
      match getActiveKeyRow s.keys agentId ns with
      | none => (.error (.noActiveKey agentId ns), s)
      | some key =>
          match p.unwrapKey key.keyHmac, p.unwrapKey key.keyEnc with
          | some hmacKey, some encKey =>
              let entry := sealRow p key hmacKey encKey (nextSeq s.envelopes agentId ns) data
                schemaVersion stamp
              if s.envelopes.any (·.nonce = stamp.nonce) then (.error (.integrity "nonce"), s)
              else (.ok stamp.nonce,
                { s with envelopes := s.envelopes ++ [entry.row], sealed := s.sealed ++ [entry] })
          | _, _ => (.error .masterKey, s)

/-! ### Opening -/

/-- `env[member]`. -/
def member (env : Object) (name : String) : Except Error Value :=
  match env.lookup name with
  | none => .error (.keyError name)
  | some value => .ok value

/-- The AAD of a payload. -/
def aadOf (env : Object) : Except Error String := do
  let agentId ← member env "agent_id"
  let ns ← member env "ns"
  let schemaVersion ← member env "schema"
  let seq ← member env "seq"
  let ts ← member env "ts"
  let nonce ← member env "nonce"
  let keyId ← member env "key_id"
  let ctB64 ← member env "ct"
  let ctNonceB64 ← member env "ct_nonce"
  return buildAad agentId ns schemaVersion seq ts nonce keyId ctB64 ctNonceB64

/-- The identity check, made when an agent is expected. -/
def checkIdentity (env : Object) : Option String → Except Error Unit
  | none => .ok ()
  | some expected => do
      let agentId ← member env "agent_id"
      if agentId = .str expected then .ok () else .error (.identity agentId expected)

/-- `SELECT key_hmac, key_enc FROM checkpoint_keys WHERE key_id=?`. -/
def findKey (keys : List KeyRow) (keyId : Value) : Except Error KeyRow :=
  match keyId.bind with
  | none => .error (.typeError "key_id")
  | some bound =>
      match keys.find? (some ·.keyId = bound) with
      | none => .error (.keyNotFound keyId)
      | some row => .ok row

/-- The row of the key that a payload names. -/
def keyRow (keys : List KeyRow) (env : Object) : Except Error KeyRow := do
  let keyId ← member env "key_id"
  findKey keys keyId

def unwrap (p : Primitives Data) (wrapped : String) : Except Error Bytes :=
  match p.unwrapKey wrapped with
  | none => .error .masterKey
  | some key => .ok key

/-- `_verify_hmac`. -/
def verifyHmac (p : Primitives Data) (hmacKey : Bytes) (aad : String) :
    Value → Except Error Unit
  | .str expected =>
      if p.hmac hmacKey aad = expected then .ok ()
      else .error (.tamper "Envelope HMAC verification failed")
  | _ => .error (.typeError "hmac")

/-- `base64.b64decode(env[member])`, `none` when it raises. -/
def bytesOf (env : Object) (name : String) : Option Bytes :=
  match env.lookup name with
  | some (.str text) => b64decode text
  | _ => none

def decryptCiphertext (p : Primitives Data) (encKey : Bytes) (env : Object) :
    Except Error String :=
  match bytesOf env "ct", bytesOf env "ct_nonce" with
  | some ct, some ctNonce =>
      match p.decrypt encKey ctNonce ct with
      | some plaintext => .ok plaintext
      | none => .error (.tamper "Ciphertext decryption failed")
  | _, _ => .error (.tamper "Ciphertext decryption failed")

/-- `_verify_and_decrypt`. -/
def verifyAndDecrypt (p : Primitives Data) (keys : List KeyRow) (env : Object)
    (expectedAgentId : Option String) : Except Error Data := do
  if (env.lookup "v").any (·.isOne) = false then throw (.schema (env.lookup "v"))
  checkIdentity env expectedAgentId
  let row ← keyRow keys env
  let hmacKey ← unwrap p row.keyHmac
  let encKey ← unwrap p row.keyEnc
  let aad ← aadOf env
  let expected ← member env "hmac"
  verifyHmac p hmacKey aad expected
  let plaintext ← decryptCiphertext p encKey env
  match p.loads plaintext with
  | none => throw .decodeError
  | some data => return data

def openPayload (p : Primitives Data) (keys : List KeyRow) (expectedAgentId : Option String) :
    Option Object → Except Error Data
  | none => .error .decodeError
  | some env => verifyAndDecrypt p keys env expectedAgentId

/-- `open`, on the rows of the table. -/
def «open» (p : Primitives Data) (keys : List KeyRow) (envelopes : List EnvelopeRow)
    (nonce : String) (expectedAgentId : Option String) : Except Error Data :=
  match envelopes.find? (·.nonce = nonce) with
  | none => .error (.noEnvelope nonce)
  | some row => openPayload p keys expectedAgentId row.payload

/-- `ORDER BY seq DESC LIMIT 1`: of rows with one number the index gives the newest. -/
def highest : List EnvelopeRow → Option EnvelopeRow
  | [] => none
  | row :: rest =>
      match highest rest with
      | none => some row
      | some best => if best.seq < row.seq then some row else some best

/-- The row of `open_latest`. -/
def latestRow (envelopes : List EnvelopeRow) (agentId ns : String) (schemaVersion : Option Int) :
    Option EnvelopeRow :=
  highest (envelopes.filter fun row =>
    row.agentId = agentId ∧ row.ns = ns ∧ schemaVersion.all (row.schemaVer = ·))

def openLatest (p : Primitives Data) (keys : List KeyRow) (envelopes : List EnvelopeRow)
    (agentId ns : String) (schemaVersion : Option Int) : Except Error (Option Data) :=
  match latestRow envelopes agentId ns schemaVersion with
  | none => .ok none
  | some row => (openPayload p keys (some agentId) row.payload).map some

/-! ### Histories -/

inductive Call (Data : Type) where
  | generateKey (agentId ns : String) (draw : Draw)
  | rotateKey (agentId ns : String) (draw : Draw)
  | «seal» (agentId : String) (data : Data) (ns : String) (schemaVersion : Int) (stamp : Stamp)

def call (p : Primitives Data) (s : State Data) : Call Data → State Data
  | .generateKey agentId ns draw => (generateKey p s agentId ns draw).2
  | .rotateKey agentId ns draw => (rotateKey p s agentId ns draw).2
  | .«seal» agentId data ns schemaVersion stamp =>
      («seal» p s agentId data ns schemaVersion stamp).2

/-- Every call is possible; one that raises may leave the state as it was. -/
def machine (p : Primitives Data) : Database.Machine (State Data) (Call Data) where
  init := ⟨[], [], []⟩
  step s c := some (call p s c)

end Talos.Checkpoints
