import Talos.Checkpoints.Store
import Talos.Soroban.Outcome

/-!
# Opening checkpoints from an edited table

Whoever can write `checkpoint_envelopes` but has no keys can put any values into its rows. The
HMAC leaves them the payloads that were sealed, and nothing compares the payload that is found
with what it was looked up by: `open` not with the nonce, `open_latest` not with the namespace
and not with the number of the envelope sealed last. So they give the right data exactly if the
row they find carries it (`opens_genuine_iff`).
-/

namespace Talos.Checkpoints

open Database Encoding
open Soroban (bind_eq_ok)

variable {Data : Type} {p : Primitives Data} {s s' : State Data} {table : List EnvelopeRow}
  {keys : List KeyRow} {env : Object} {expected : Option String} {data : Data}

/-! ### What the two calls should give -/

def SealedUnder (s : State Data) (nonce : String) (data : Data) : Prop :=
  ∃ entry ∈ s.sealed, entry.row.nonce = nonce ∧ entry.data = data

/-- The newest of what was sealed for an agent and a namespace. -/
def lastSealed (s : State Data) (agentId ns : String) : Option (Sealed Data) :=
  (s.sealed.filter fun entry => entry.row.agentId = agentId ∧ entry.row.ns = ns).getLast?

/-- `open` raises or returns the data sealed under the nonce. -/
def OpensRight (s : State Data) (nonce : String) (result : Except Error Data) : Prop :=
  ∀ data, result = .ok data → SealedUnder s nonce data

/-- `open_latest` raises, returns `None` if nothing was sealed, or the data sealed last. -/
def LatestRight (s : State Data) (agentId ns : String)
    (result : Except Error (Option Data)) : Prop :=
  (result = .ok none → lastSealed s agentId ns = none) ∧
    ∀ data, result = .ok (some data) →
      ∃ entry, lastSealed s agentId ns = some entry ∧ entry.data = data

/-! ### What an edit can do -/

/-- A tag that passes under the key was made by `seal` under it, for the same text. -/
def TagMade (p : Primitives Data) (s : State Data) (env : Object) (key : KeyRow) : Prop :=
  ∀ hmacKey ∈ p.unwrapKey key.keyHmac, ∀ aad ∈ (aadOf env).toOption,
    env.lookup "hmac" = some (.str (p.hmac hmacKey aad)) →
    ∃ entry ∈ s.sealed, entry.hmacKey = hmacKey ∧ entry.aad = aad

/-- And so was a ciphertext that decrypts. -/
def CiphertextMade (p : Primitives Data) (s : State Data) (env : Object) (key : KeyRow) : Prop :=
  ∀ encKey ∈ p.unwrapKey key.keyEnc, ∀ ct ∈ bytesOf env "ct", ∀ ctNonce ∈ bytesOf env "ct_nonce",
    p.decrypt encKey ctNonce ct ≠ none →
    ∃ entry ∈ s.sealed, entry.encKey = encKey ∧ entry.ctNonce = ctNonce ∧ entry.ct = ct

/-- HMAC and AES-GCM cannot be forged by whoever wrote the table. -/
def Unforged (p : Primitives Data) (s : State Data) (table : List EnvelopeRow) : Prop :=
  ∀ row ∈ table, ∀ env ∈ row.payload, ∀ key ∈ s.keys,
    TagMade p s env key ∧ CiphertextMade p s env key

/-- The payload is in order and holds what `entry` sealed: its version is known, its agent the
one expected if any is, what it authenticates and its tag are those of a sealed envelope under
the key it names, and its ciphertext is the entry's. -/
def Carries (p : Primitives Data) (s : State Data) (expected : Option String) (env : Object)
    (entry : Sealed Data) : Prop :=
  (env.lookup "v").any (·.isOne) = true ∧
  (∀ agentId ∈ expected, env.lookup "agent_id" = some (.str agentId)) ∧
  ∃ key ∈ (keyRow s.keys env).toOption,
    (∃ tagged ∈ s.sealed, p.unwrapKey key.keyHmac = some tagged.hmacKey ∧
      (aadOf env).toOption = some tagged.aad ∧
      env.lookup "hmac" = some (.str (p.hmac tagged.hmacKey tagged.aad))) ∧
    p.unwrapKey key.keyEnc = some entry.encKey ∧
    bytesOf env "ct" = some entry.ct ∧ bytesOf env "ct_nonce" = some entry.ctNonce

/-- The row under the nonce carries what was sealed under other nonces only. -/
def Substituted (p : Primitives Data) (s : State Data) (table : List EnvelopeRow)
    (nonce : String) (expected : Option String) : Prop :=
  ∃ row ∈ table.find? (·.nonce = nonce), ∃ env ∈ row.payload, ∃ entry ∈ s.sealed,
    Carries p s expected env entry ∧ ¬ SealedUnder s nonce entry.data

/-- There is no row for the agent and the namespace although something was sealed, or the row
with the highest number carries data other than what was sealed last. -/
def RolledBack (p : Primitives Data) (s : State Data) (table : List EnvelopeRow)
    (agentId ns : String) : Prop :=
  (latestRow table agentId ns none = none ∧ lastSealed s agentId ns ≠ none) ∨
    ∃ row ∈ latestRow table agentId ns none, ∃ env ∈ row.payload, ∃ entry ∈ s.sealed,
      Carries p s (some agentId) env entry ∧
        ∀ last ∈ lastSealed s agentId ns, last.data ≠ entry.data

section

variable [DecidableEq Data]

instance (nonce : String) : Decidable (SealedUnder s nonce data) :=
  inferInstanceAs (Decidable (∃ entry ∈ _, _))

instance (key : KeyRow) : Decidable (TagMade p s env key) :=
  inferInstanceAs (Decidable (∀ hmacKey ∈ _, _))

instance (key : KeyRow) : Decidable (CiphertextMade p s env key) :=
  inferInstanceAs (Decidable (∀ encKey ∈ _, _))

instance : Decidable (Unforged p s table) := inferInstanceAs (Decidable (∀ row ∈ _, _))

instance (entry : Sealed Data) : Decidable (Carries p s expected env entry) :=
  inferInstanceAs (Decidable (_ ∧ _))

instance (nonce : String) : Decidable (Substituted p s table nonce expected) :=
  inferInstanceAs (Decidable (∃ row ∈ _, _))

instance (agentId ns : String) : Decidable (RolledBack p s table agentId ns) :=
  inferInstanceAs (Decidable (_ ∨ _))

end

/-! ### Verification -/

theorem member_eq_ok {name : String} {value : Value} :
    member env name = .ok value ↔ env.lookup name = some value := by
  unfold member
  cases env.lookup name <;> simp

theorem checkIdentity_eq_ok {u : Unit} :
    checkIdentity env expected = .ok u ↔
      ∀ agentId ∈ expected, env.lookup "agent_id" = some (.str agentId) := by
  cases expected with
  | none => simp [checkIdentity]
  | some agentId =>
      simp only [checkIdentity, bind_eq_ok, member_eq_ok, Option.mem_some_iff, forall_eq']
      constructor
      · rintro ⟨found, lookup, same⟩
        split at same
        · next is => rw [lookup, is]
        · cases same
      · intro lookup
        exact ⟨_, lookup, if_pos rfl⟩

theorem unwrap_eq_ok {wrapped : String} {key : Bytes} :
    unwrap p wrapped = .ok key ↔ p.unwrapKey wrapped = some key := by
  unfold unwrap
  cases p.unwrapKey wrapped <;> simp

theorem verifyHmac_eq_ok {hmacKey : Bytes} {aad : String} {tag : Value} {u : Unit} :
    verifyHmac p hmacKey aad tag = .ok u ↔ tag = .str (p.hmac hmacKey aad) := by
  cases tag with
  | str text =>
      simp only [verifyHmac, Value.str.injEq]
      split
      · next same => simp [same]
      · next other =>
          constructor
          · rintro ⟨⟩
          · exact fun same => absurd same.symm other
  | null | bool | int | other => exact ⟨nofun, nofun⟩

theorem decryptCiphertext_eq_ok {encKey : Bytes} {text : String} :
    decryptCiphertext p encKey env = .ok text ↔
      ∃ ct ∈ bytesOf env "ct", ∃ ctNonce ∈ bytesOf env "ct_nonce",
        p.decrypt encKey ctNonce ct = some text := by
  unfold decryptCiphertext
  cases bytesOf env "ct" with
  | none => simp
  | some ct =>
      cases bytesOf env "ct_nonce" with
      | none => simp
      | some ctNonce =>
          simp only [Option.mem_some_iff, exists_eq_left']
          cases p.decrypt encKey ctNonce ct <;> simp

theorem mem_toOption {ε α : Type} {x : Except ε α} {a : α} : a ∈ x.toOption ↔ x = .ok a := by
  cases x <;> simp [Except.toOption, eq_comm]

theorem verifyAndDecrypt_eq_ok :
    verifyAndDecrypt p keys env expected = .ok data ↔
      (env.lookup "v").any (·.isOne) = true ∧
      (∀ agentId ∈ expected, env.lookup "agent_id" = some (.str agentId)) ∧
      ∃ key, keyRow keys env = .ok key ∧
      ∃ hmacKey ∈ p.unwrapKey key.keyHmac, ∃ encKey ∈ p.unwrapKey key.keyEnc,
      ∃ aad, aadOf env = .ok aad ∧ env.lookup "hmac" = some (.str (p.hmac hmacKey aad)) ∧
      ∃ text, decryptCiphertext p encKey env = .ok text ∧ p.loads text = some data := by
  unfold verifyAndDecrypt
  split
  · next unknown =>
      constructor
      · rintro ⟨⟩
      · rintro ⟨known, -⟩
        rw [unknown] at known
        cases known
  · next known =>
      simp only [bind_eq_ok, member_eq_ok, unwrap_eq_ok, verifyHmac_eq_ok, checkIdentity_eq_ok]
      constructor
      · rintro ⟨_, identity, key, named, hmacKey, unwrapped, encKey, unwrapped', aad, made, _, tag,
          _, rfl, text, decrypted, loaded⟩
        refine ⟨(Bool.not_eq_false _).mp known, identity, key, named, hmacKey, unwrapped,
          encKey, unwrapped', aad, made, tag, text, decrypted, ?_⟩
        split at loaded
        · cases loaded
        · next read =>
            cases loaded
            exact read
      · rintro ⟨-, identity, key, named, hmacKey, unwrapped, encKey, unwrapped', aad, made, tag,
          text, decrypted, loaded⟩
        refine ⟨(), identity, key, named, hmacKey, unwrapped, encKey, unwrapped', aad, made, _, tag,
          (), rfl, text, decrypted, ?_⟩
        rw [loaded]
        rfl

/-! ### The record of what was sealed -/

/-- The ciphertext of an entry is that of its data under its keys. -/
def Sealed.Made (p : Primitives Data) (entry : Sealed Data) : Prop :=
  entry.ct = p.encrypt entry.encKey entry.ctNonce (p.dumps entry.data)

theorem generateKey_sealed (agentId ns : String) (draw : Draw) :
    (generateKey p s agentId ns draw).2.sealed = s.sealed := by
  unfold generateKey
  split
  · rfl
  · split
    · rfl
    · split <;> rfl

theorem rotateKey_sealed (agentId ns : String) (draw : Draw) :
    (rotateKey p s agentId ns draw).2.sealed = s.sealed := by
  unfold rotateKey
  split
  · rfl
  · split
    · rfl
    · exact generateKey_sealed agentId ns draw

/-- `seal` adds an entry that it made, or nothing. -/
theorem seal_sealed (agentId : String) (data : Data) (ns : String) (schemaVersion : Int)
    (stamp : Stamp) : ∀ entry ∈ («seal» p s agentId data ns schemaVersion stamp).2.sealed,
      entry ∈ s.sealed ∨ entry.Made p := by
  intro entry mem
  unfold «seal» at mem
  split at mem
  · exact .inl mem
  · split at mem
    · exact .inl mem
    · split at mem
      · dsimp only at mem
        split at mem
        · exact .inl mem
        · rcases List.mem_append.mp mem with before | new
          · exact .inl before
          · rw [List.mem_singleton.mp new]
            exact .inr rfl
      · exact .inl mem

theorem sealed_made (reach : Reachable (machine p) s) : ∀ entry ∈ s.sealed, entry.Made p := by
  refine reach.invariant (I := fun s => ∀ entry ∈ s.sealed, entry.Made p)
    (List.forall_mem_nil _) ?_
  rintro s c s' made ⟨⟩ entry mem
  cases c with
  | generateKey agentId ns draw =>
      exact made entry (generateKey_sealed agentId ns draw ▸ mem)
  | rotateKey agentId ns draw => exact made entry (rotateKey_sealed agentId ns draw ▸ mem)
  | «seal» agentId data ns schemaVersion stamp =>
      exact (seal_sealed agentId data ns schemaVersion stamp entry mem).elim (made entry) id

/-! ### Opening a payload of the table -/

theorem findKey_mem {keyId : Value} {key : KeyRow} (found : findKey keys keyId = .ok key) :
    key ∈ keys := by
  unfold findKey at found
  split at found
  · cases found
  · split at found
    · cases found
    · next row of =>
        cases found
        exact List.mem_of_find?_eq_some of

theorem keyRow_mem {key : KeyRow} (found : keyRow keys env = .ok key) : key ∈ keys := by
  simp only [keyRow, bind_eq_ok] at found
  obtain ⟨_, _, found⟩ := found
  exact findKey_mem found

/-- What passes is what a sealed envelope says, and the data is that of the sealed ciphertext. -/
theorem openPayload_eq_ok (reach : Reachable (machine p) s) (unforged : Unforged p s table)
    {row : EnvelopeRow} (mem : row ∈ table) :
    openPayload p s.keys expected row.payload = .ok data ↔
      ∃ env ∈ row.payload, ∃ entry ∈ s.sealed,
        Carries p s expected env entry ∧ entry.data = data := by
  have made := sealed_made reach
  cases payload : row.payload with
  | none => simp [openPayload]
  | some env =>
      simp only [openPayload, verifyAndDecrypt_eq_ok, Option.mem_some_iff, exists_eq_left']
      constructor
      · rintro ⟨known, identity, key, named, hmacKey, unwrapped, encKey, unwrapped', aad, text, tag,
          plain, decrypted, loaded⟩
        have stored := keyRow_mem named
        obtain ⟨ct, hasCt, ctNonce, hasNonce, opened⟩ := decryptCiphertext_eq_ok.mp decrypted
        obtain ⟨tags, ciphertexts⟩ := unforged row mem env payload key stored
        obtain ⟨tagged, sealed', rfl, rfl⟩ :=
          tags hmacKey unwrapped aad (mem_toOption.mpr text) tag
        obtain ⟨entry, sealed, rfl, rfl, rfl⟩ :=
          ciphertexts encKey unwrapped' ct hasCt ctNonce hasNonce (by rw [opened]; exact nofun)
        refine ⟨entry, sealed, ⟨known, identity, key, mem_toOption.mpr named,
          ⟨tagged, sealed', unwrapped, mem_toOption.mpr text, tag⟩, unwrapped', hasCt, hasNonce⟩, ?_⟩
        rw [made entry sealed, p.decrypt_encrypt, Option.some_inj] at opened
        rw [← opened, p.loads_dumps, Option.some_inj] at loaded
        exact loaded
      · rintro ⟨entry, sealed, ⟨known, identity, key, named, ⟨tagged, sealed', unwrapped, text, tag⟩,
          unwrapped', hasCt, hasNonce⟩, rfl⟩
        refine ⟨known, identity, key, mem_toOption.mp named, tagged.hmacKey, unwrapped,
          entry.encKey, unwrapped', tagged.aad, mem_toOption.mp text, tag,
          p.dumps entry.data, decryptCiphertext_eq_ok.mpr ⟨_, hasCt, _, hasNonce, ?_⟩,
          p.loads_dumps _⟩
        rw [made entry sealed, p.decrypt_encrypt]

theorem open_eq_ok (reach : Reachable (machine p) s) (unforged : Unforged p s table)
    {nonce : String} :
    «open» p s.keys table nonce expected = .ok data ↔
      ∃ row ∈ table.find? (·.nonce = nonce), ∃ env ∈ row.payload, ∃ entry ∈ s.sealed,
        Carries p s expected env entry ∧ entry.data = data := by
  unfold «open»
  cases found : table.find? (·.nonce = nonce) with
  | none => simp
  | some row =>
      have mem := List.mem_of_find?_eq_some found
      simp only [openPayload_eq_ok reach unforged mem, Option.mem_some_iff, exists_eq_left']

theorem highest_mem {rows : List EnvelopeRow} {row : EnvelopeRow}
    (best : highest rows = some row) : row ∈ rows := by
  induction rows generalizing row with
  | nil => cases best
  | cons head rest ih =>
      unfold highest at best
      split at best
      · cases best
        exact List.mem_cons_self
      · next later found =>
          split at best
          · cases best
            exact List.mem_cons_self
          · cases best
            exact List.mem_cons_of_mem _ (ih found)

theorem latestRow_mem {agentId ns : String} {schemaVersion : Option Int} {row : EnvelopeRow}
    (best : latestRow table agentId ns schemaVersion = some row) : row ∈ table :=
  (List.mem_filter.mp (highest_mem best)).1

theorem openLatest_eq_none {agentId ns : String} :
    openLatest p keys table agentId ns none = .ok none ↔ latestRow table agentId ns none = none := by
  unfold openLatest
  cases latestRow table agentId ns none with
  | none => simp
  | some row =>
      dsimp only
      cases openPayload p keys (some agentId) row.payload <;> simp [Except.map]

theorem openLatest_eq_some (reach : Reachable (machine p) s) (unforged : Unforged p s table)
    {agentId ns : String} :
    openLatest p s.keys table agentId ns none = .ok (some data) ↔
      ∃ row ∈ latestRow table agentId ns none, ∃ env ∈ row.payload, ∃ entry ∈ s.sealed,
        Carries p s (some agentId) env entry ∧ entry.data = data := by
  unfold openLatest
  cases found : latestRow table agentId ns none with
  | none => simp
  | some row =>
      have opened : openPayload p s.keys (some agentId) row.payload = .ok data ↔ _ :=
        openPayload_eq_ok reach unforged (latestRow_mem found)
      simp only [Option.mem_some_iff, exists_eq_left', ← opened]
      cases openPayload p s.keys (some agentId) row.payload <;> simp [Except.map]

/-! ### Exactly when the store can be trusted -/

/-- For every history and every edit that makes no tags and no ciphertexts: `open` gives what
was sealed under the nonce exactly if the row it finds is not a substituted one, `open_latest`
what was sealed last exactly if the table is not rolled back. -/
theorem opens_genuine_iff (reach : Reachable (machine p) s) (unforged : Unforged p s table) :
    (∀ nonce expected, OpensRight s nonce («open» p s.keys table nonce expected) ↔
      ¬ Substituted p s table nonce expected) ∧
    ∀ agentId ns, LatestRight s agentId ns (openLatest p s.keys table agentId ns none) ↔
      ¬ RolledBack p s table agentId ns := by
  constructor
  · intro nonce expected
    constructor
    · rintro right ⟨row, found, env, payload, entry, sealed, carries, other⟩
      exact other (right entry.data ((open_eq_ok reach unforged).mpr
        ⟨row, found, env, payload, entry, sealed, carries, rfl⟩))
    · intro genuine data opened
      obtain ⟨row, found, env, payload, entry, sealed, carries, rfl⟩ :=
        (open_eq_ok reach unforged).mp opened
      by_contra other
      exact genuine ⟨row, found, env, payload, entry, sealed, carries, other⟩
  · intro agentId ns
    constructor
    · rintro right (⟨missing, something⟩ | ⟨row, found, env, payload, entry, sealed, carries, other⟩)
      · exact something (right.1 (openLatest_eq_none.mpr missing))
      · obtain ⟨last, is, same⟩ := right.2 entry.data ((openLatest_eq_some reach unforged).mpr
          ⟨row, found, env, payload, entry, sealed, carries, rfl⟩)
        exact other last is same
    · intro genuine
      constructor
      · intro none_
        by_contra something
        exact genuine (.inl ⟨openLatest_eq_none.mp none_, something⟩)
      · intro data opened
        obtain ⟨row, found, env, payload, entry, sealed, carries, rfl⟩ :=
          (openLatest_eq_some reach unforged).mp opened
        by_contra other
        exact genuine (.inr ⟨row, found, env, payload, entry, sealed, carries,
          fun last is same => other ⟨last, is, same⟩⟩)

/-! ### A store with two envelopes -/

/-- Three bytes for each character. -/
def wideBytes : List Char → Bytes
  | [] => []
  | c :: rest =>
      UInt8.ofNat (c.toNat / 65536) :: UInt8.ofNat (c.toNat / 256) :: UInt8.ofNat c.toNat ::
        wideBytes rest

def ofWideBytes : Bytes → List Char
  | a :: b :: c :: rest =>
      Char.ofNat (a.toNat * 65536 + b.toNat * 256 + c.toNat) :: ofWideBytes rest
  | _ => []

theorem ofWideBytes_wideBytes (text : List Char) : ofWideBytes (wideBytes text) = text := by
  induction text with
  | nil => rfl
  | cons c rest ih =>
      have small : c.toNat < 1114112 := by
        rcases c.valid with low | ⟨_, high⟩
        · exact Nat.lt_trans low (by decide)
        · exact high
      have parts : (UInt8.ofNat (c.toNat / 65536)).toNat * 65536 +
          (UInt8.ofNat (c.toNat / 256)).toNat * 256 + (UInt8.ofNat c.toNat).toNat = c.toNat := by
        simp only [UInt8.toNat_ofNat']
        omega
      rw [wideBytes, ofWideBytes, parts, Char.ofNat_toNat, ih]

/-- Tags and ciphertexts that show what they were made of. -/
def examplePrimitives : Primitives String where
  hmac key message := String.ofList (base64 key) ++ ":" ++ message
  encrypt key nonce text := key ++ nonce ++ wideBytes text.toList
  decrypt key nonce ct :=
    if (key ++ nonce).isPrefixOf ct then
      some (String.ofList (ofWideBytes (ct.drop (key ++ nonce).length)))
    else none
  decrypt_encrypt key nonce text := by
    rw [if_pos (by simp), List.drop_left, ofWideBytes_wideBytes, String.ofList_toList]
  wrapKey _ key := b64encode key
  unwrapKey := b64decode
  unwrap_wrap _ key := b64decode_b64encode key
  dumps := id
  loads := some
  loads_dumps _ := rfl

def exampleState : State String :=
  ((machine examplePrimitives).play
    [.generateKey "agent" "" ⟨"key", [1], [2], [], []⟩,
      .«seal» "agent" "first" "" 1 ⟨"t1", "n1", [3]⟩,
      .«seal» "agent" "second" "" 1 ⟨"t2", "n2", [4]⟩] ([], ⟨[], [], []⟩)).2

theorem exampleState_reachable : Reachable (machine examplePrimitives) exampleState :=
  ⟨_, Machine.play_run _ _⟩

theorem opens_genuine_iff_untouched :
    OpensRight exampleState "n1" («open» examplePrimitives exampleState.keys
      exampleState.envelopes "n1" none) ∧
    LatestRight exampleState "agent" "" (openLatest examplePrimitives exampleState.keys
      exampleState.envelopes "agent" "" none) := by
  have unforged : Unforged examplePrimitives exampleState exampleState.envelopes := by
    decide
  obtain ⟨opens, latest⟩ := opens_genuine_iff exampleState_reachable unforged
  exact ⟨(opens "n1" none).mpr (by decide), (latest "agent" "").mpr (by decide)⟩

/-- The payload of the first row replaced by that of the second. -/
def swappedTable : List EnvelopeRow :=
  exampleState.envelopes.map fun row =>
    if row.nonce = "n1" then
      { row with payload := (exampleState.envelopes.find? (·.nonce = "n2")).bind (·.payload) }
    else row

/-- The second row deleted. -/
def cutTable : List EnvelopeRow := exampleState.envelopes.filter (·.nonce = "n1")

/-- One edit makes `open` return the data of another nonce, one makes `open_latest` go back, and
without any row it returns `None`. -/
theorem not_genuine :
    Reachable (machine examplePrimitives) exampleState ∧
      (Unforged examplePrimitives exampleState swappedTable ∧
        ¬ OpensRight exampleState "n1"
          («open» examplePrimitives exampleState.keys swappedTable "n1" none)) ∧
      (Unforged examplePrimitives exampleState cutTable ∧
        ¬ LatestRight exampleState "agent" ""
          (openLatest examplePrimitives exampleState.keys cutTable "agent" "" none)) ∧
      Unforged examplePrimitives exampleState [] ∧
        ¬ LatestRight exampleState "agent" ""
          (openLatest examplePrimitives exampleState.keys [] "agent" "" none) := by
  refine ⟨exampleState_reachable, ⟨by decide, ?_⟩, ⟨by decide, ?_⟩,
    by decide, ?_⟩
  · intro right
    have other : SealedUnder exampleState "n1" "second" := right "second" (by decide)
    exact absurd other (by decide)
  · intro right
    obtain ⟨last, is, same⟩ := right.2 "first" (by decide)
    have newer : (lastSealed exampleState "agent" "").map (·.data) = some "second" := by
      decide
    rw [is, Option.map_some, same] at newer
    exact absurd newer (by decide)
  · intro right
    have nothing : (lastSealed exampleState "agent" "").isNone = false := by decide
    rw [right.1 (by decide)] at nothing
    cases nothing

end Talos.Checkpoints
