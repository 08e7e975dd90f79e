import Talos.Encoding.Decimal
import Talos.Encoding.Record
import Talos.Soroban.Outcome

/-!
# The contract event decoder

`decodeContractEvent` and `decodeContractEvents` of `packages/sdk/src/contract-events.ts`. The
decoder compares the tags of the values with the catalog. It compares neither the contract nor the
values themselves, so that it is exact except on events whose tags fit and whose contract or values
do not (`decodeContractEvent_exact_iff`).
-/

namespace Talos.Sdk.ContractEvents

open Talos.Encoding Talos.Soroban

inductive Value where
  | string (s : String)
  | number (n : Number)
  | bool (b : Bool)
  deriving DecidableEq, Repr

/-- `String(value)` -/
def Value.toText : Value → String
  | string s => s
  | number n => n.toText
  | bool true => "true"
  | bool false => "false"

structure ScVal where
  type : String
  value : Value
  deriving DecidableEq, Repr

structure CatalogFieldDescriptor where
  position : ℕ
  type : String
  name : String
  deriving DecidableEq, Repr

structure CatalogEventDescriptor where
  contract : String
  topics : List CatalogFieldDescriptor
  data : List CatalogFieldDescriptor
  deriving DecidableEq, Repr

inductive ContractEventFamily where
  | creation
  | update
  | governance
  | payment
  deriving DecidableEq, Repr

/-- The entries in the order of `Object.keys`. -/
abbrev EventCatalog := List (ContractEventFamily × List (String × CatalogEventDescriptor))

/-- `topics` and `data` are `none` where they are no arrays, an element where it is `null`. -/
structure RawContractEvent where
  contract : String
  topics : Option (List (Option ScVal))
  data : Option (List (Option ScVal))
  ledgerSequence : Number
  txIndexInLedger : Option Number
  eventIndexInTx : Option Number
  deriving DecidableEq, Repr

structure EventCursor where
  ledgerSequence : Number
  txIndexInLedger : Number
  eventIndexInTx : Number
  deriving DecidableEq, Repr

structure DecodedContractEvent where
  event : String
  family : ContractEventFamily
  contract : String
  cursor : EventCursor
  topics : Record Value
  data : Record Value
  deriving DecidableEq, Repr

inductive ContractEventError where
  | malformed (message : String)
  | unknown (symbol : String)
  | unsupportedVersion (version : Number)
  deriving DecidableEq, Repr

def ContractEventError.message : ContractEventError → String
  | malformed message => message
  | unknown symbol => s!"Unknown contract event symbol: {symbol}"
  | unsupportedVersion version => s!"Unsupported contract event version: {version.toText}"

/-- What the decoder throws; a property of `null` is a `TypeError`. -/
inductive Thrown where
  | event (error : ContractEventError)
  | typeError (message : String)
  deriving DecidableEq, Repr

def malformed {α : Type} (message : String) : Except Thrown α :=
  .error (.event (.malformed message))

/-! ### The catalog -/

def event : CatalogFieldDescriptor := ⟨0, "symbol", "event"⟩

def builtinEventCatalog : EventCatalog :=
  [(.creation,
    [("tls_crt", {
      contract := "talos_registry"
      topics := [event, ⟨1, "address", "creator"⟩]
      data := [⟨0, "u32", "talos_id"⟩, ⟨1, "string", "name"⟩, ⟨2, "string", "category"⟩] }),
     ("tls_crt2", {
      contract := "talos_registry"
      topics := [event, ⟨1, "address", "creator"⟩]
      data := [⟨0, "u32", "version"⟩, ⟨1, "u32", "talos_id"⟩, ⟨2, "string", "name"⟩,
        ⟨3, "string", "category"⟩] })]),
   (.update,
    [("pat_upd", {
      contract := "talos_registry"
      topics := [event, ⟨1, "u32", "talos_id"⟩]
      data := [⟨0, "address", "creator_addr"⟩, ⟨1, "u32", "creator_share"⟩,
        ⟨2, "u32", "investor_share"⟩] }),
     ("reg_upd", {
      contract := "talos_name_service"
      topics := [event]
      data := [⟨0, "address", "old_registry"⟩, ⟨1, "address", "new_registry"⟩] })]),
   (.governance,
    [("prop_crt", {
      contract := "talos_governance"
      topics := [event, ⟨1, "u32", "proposal_id"⟩]
      data := [⟨0, "u32", "talos_id"⟩, ⟨1, "address", "proposer"⟩] }),
     ("vote", {
      contract := "talos_governance"
      topics := [event, ⟨1, "u32", "proposal_id"⟩]
      data := [⟨0, "address", "voter"⟩, ⟨1, "symbol", "choice"⟩, ⟨2, "i128", "weight"⟩] }),
     ("prop_stat", {
      contract := "talos_governance"
      topics := [event, ⟨1, "u32", "proposal_id"⟩]
      data := [⟨0, "symbol", "status"⟩] })]),
   (.payment,
    [("ep_cmt", {
      contract := "talos_dividends"
      topics := [event, ⟨1, "u32", "talos_id"⟩]
      data := [⟨0, "u64", "epoch_id"⟩, ⟨1, "i128", "total"⟩, ⟨2, "u64", "expiry_secs"⟩] }),
     ("div_clm", {
      contract := "talos_dividends"
      topics := [event, ⟨1, "u64", "epoch_id"⟩, ⟨2, "address", "patron"⟩]
      data := [⟨0, "u32", "talos_id"⟩, ⟨1, "i128", "amount"⟩, ⟨2, "symbol", "role"⟩] })])]

/-- The symbols with their families; of two families with one symbol the later is kept. -/
def buildSymbolMap (catalog : EventCatalog) : Record ContractEventFamily :=
  .ofEntries (catalog.flatMap fun entries => entries.2.map fun entry => (entry.1, entries.1))

/-- The family and the entry of a symbol. -/
def findEntry (catalog : EventCatalog) (symbol : String) :
    Option (ContractEventFamily × CatalogEventDescriptor) := do
  let family ← (buildSymbolMap catalog).lookup symbol
  let entry ← ((catalog.lookup family).getD []).lookup symbol
  return (family, entry)

/-! ### The decoder -/

/-- The values of an array whose tags are those of the fields. -/
def checkTypes (name symbol : String) :
    ℕ → List CatalogFieldDescriptor → List (Option ScVal) → Except Thrown (List ScVal)
  | i, field :: fields, some v :: values =>
      if v.type ≠ field.type then
        malformed s!"Event {symbol}: {name}[{i}] expected type {field.type}, got {v.type}"
      else do
        let others ← checkTypes name symbol (i + 1) fields values
        return v :: others
  | _, _ :: _, none :: _ => .error (.typeError "Cannot read properties of null (reading 'type')")
  | _, _, _ => .ok []

/-- The topics or the data, with the words that their messages have. -/
def checkShape (name plural symbol : String) (fields : List CatalogFieldDescriptor)
    (values : List (Option ScVal)) : Except Thrown (List ScVal) :=
  if values.length ≠ fields.length then
    malformed s!"Event {symbol}: expected {fields.length} {plural}, got {values.length}"
  else checkTypes name symbol 0 fields values

def decodeFields (fields : List CatalogFieldDescriptor) (values : List ScVal) : Record Value :=
  .ofEntries ((fields.zip values).map fun p => (p.1.name, p.2.value))

/-- The arrays of the envelope, and the first topic. -/
def checkEnvelope (raw : RawContractEvent) :
    Except Thrown (ScVal × List (Option ScVal) × List (Option ScVal)) :=
  match raw.topics.getD [] with
  | [] => malformed "Event topics must be a non-empty array"
  | none :: _ => .error (.typeError "Cannot read properties of null (reading 'type')")
  | some first :: topics =>
      if first.type ≠ "symbol" then malformed s!"topics[0] must be a symbol, got {first.type}"
      else match raw.data with
        | none => malformed "Event data must be an array"
        | some data => .ok (first, some first :: topics, data)

/-- The version that is above the supported ones. -/
def unsupported (maxVersion : Number) (data : Record Value) : Option Number :=
  match data.lookup "version" with
  | some (.number version) => if version.gt maxVersion then some version else none
  | _ => none

def cursorOf (raw : RawContractEvent) : EventCursor :=
  ⟨raw.ledgerSequence, raw.txIndexInLedger.getD (.finite 0), raw.eventIndexInTx.getD (.finite 0)⟩

/-- The raw event is `none` where it is no object. -/
def decodeContractEvent (catalog : EventCatalog) (maxVersion : Number)
    (raw : Option RawContractEvent) : Except Thrown DecodedContractEvent :=
  match raw with
  | none => malformed "Raw event must be a non-null object"
  | some raw => do
      let (first, topics, data) ← checkEnvelope raw
      let symbol := first.value.toText
      match findEntry catalog symbol with
      | none => .error (.event (.unknown symbol))
      | some (family, entry) =>
          let topics ← checkShape "topic" "topics" symbol entry.topics topics
          let data ← checkShape "data" "data fields" symbol entry.data data
          let decodedTopics := decodeFields entry.topics topics
          let decodedData := decodeFields entry.data data
          match unsupported maxVersion decodedData with
          | some version => .error (.event (.unsupportedVersion version))
          | none => .ok ⟨symbol, family, raw.contract, cursorOf raw, decodedTopics, decodedData⟩

structure BatchDecodeResult where
  decoded : List DecodedContractEvent
  errors : List (ℕ × ContractEventError)
  deriving DecidableEq, Repr

/-- The error that is collected. -/
def Thrown.collected : Thrown → ContractEventError
  | event error => error
  | typeError message => .malformed message

/-- From the `i`-th event on. -/
def decodeFrom (catalog : EventCatalog) (maxVersion : Number) :
    ℕ → List (Option RawContractEvent) → BatchDecodeResult
  | _, [] => ⟨[], []⟩
  | i, raw :: rest =>
      let others := decodeFrom catalog maxVersion (i + 1) rest
      match decodeContractEvent catalog maxVersion raw with
      | .ok decoded => { others with decoded := decoded :: others.decoded }
      | .error thrown => { others with errors := (i, thrown.collected) :: others.errors }

def decodeContractEvents (catalog : EventCatalog) (maxVersion : Number)
    (rawEvents : List (Option RawContractEvent)) : BatchDecodeResult :=
  decodeFrom catalog maxVersion 0 rawEvents

/-! ### What the decoder accepts -/

/-- The catalog has this entry. -/
def Catalogued (symbol : String) (family : ContractEventFamily) (entry : CatalogEventDescriptor) :
    Prop :=
  ∃ entries, (family, entries) ∈ builtinEventCatalog ∧ (symbol, entry) ∈ entries

/-- The first topic is the symbol of an entry, and the tags are those of the entry. -/
structure Tagged (raw : RawContractEvent) (symbol : String) (family : ContractEventFamily)
    (entry : CatalogEventDescriptor) (topics data : List ScVal) : Prop where
  catalogued : Catalogued symbol family entry
  rawTopics : raw.topics = some (topics.map some)
  rawData : raw.data = some (data.map some)
  first : topics.head?.map (·.value) = some (.string symbol)
  topicTypes : topics.map (·.type) = entry.topics.map (·.type)
  dataTypes : data.map (·.type) = entry.data.map (·.type)

/-- No field `version` is above the supported versions. -/
def Supported (maxVersion : Number) (fields : List CatalogFieldDescriptor) (values : List ScVal) :
    Prop :=
  ∀ p ∈ fields.zip values, p.1.name = "version" →
    ∀ version, p.2.value = .number version → version.gt maxVersion = false

/-- A value of its declared type. -/
def ScVal.isLegal (v : ScVal) : Bool :=
  match v.value with
  | .number n =>
      v.type = "u32" ∧ n.inRange 0 (2 ^ 32 - 1) ∨ v.type = "u64" ∧ n.inRange 0 (2 ^ 64 - 1) ∨
        v.type = "i128" ∧ n.inRange (-2 ^ 127) (2 ^ 127 - 1)
  | .string _ => v.type ∉ ["u32", "u64", "i128"]
  | .bool _ => false

/-- The event of an entry, with legal values, from its contract. -/
def WellFormed (maxVersion : Number) (raw : RawContractEvent) : Prop :=
  ∃ symbol family entry topics data, Tagged raw symbol family entry topics data ∧
    Supported maxVersion entry.data data ∧ raw.contract = entry.contract ∧
    ∀ v ∈ topics ++ data, v.isLegal = true

/-- The fields in the order of the catalog. -/
def encodeFields (fields : List CatalogFieldDescriptor) (r : Record Value) : Option (List ScVal) :=
  fields.mapM fun field => (r.lookup field.name).map fun v => ⟨field.type, v⟩

def reencode (catalog : EventCatalog) (d : DecodedContractEvent) :
    Option (String × List ScVal × List ScVal) := do
  let entry ← ((catalog.lookup d.family).getD []).lookup d.event
  let topics ← encodeFields entry.topics d.topics
  let data ← encodeFields entry.data d.data
  return (d.contract, topics, data)

section

variable {raw : RawContractEvent} {maxVersion : Number} {name plural symbol : String} {i : ℕ}
  {fields : List CatalogFieldDescriptor} {values : List (Option ScVal)}
  {vs topics data : List ScVal} {family : ContractEventFamily} {entry : CatalogEventDescriptor}
  {d : DecodedContractEvent}

theorem checkTypes_eq_ok (length : values.length = fields.length) :
    checkTypes name symbol i fields values = .ok vs ↔
      values = vs.map some ∧ vs.map (·.type) = fields.map (·.type) := by
  induction fields generalizing i values vs with
  | nil =>
    obtain rfl := List.length_eq_zero_iff.mp length
    cases vs <;> simp [checkTypes]
  | cons field fields ih =>
    obtain ⟨v, values, rfl⟩ := List.exists_cons_of_length_eq_add_one length
    cases v with
    | none => cases vs <;> simp [checkTypes]
    | some v =>
      rw [checkTypes]
      split
      · next other =>
        refine iff_of_false nofun fun ⟨same, types⟩ => other ?_
        cases vs with
        | nil => cases same
        | cons w vs =>
          obtain rfl : v = w := Option.some.inj (List.cons.inj same).1
          exact (List.cons.inj types).1
      · next same =>
        have tag : v.type = field.type := not_not.mp same
        simp only [bind_eq_ok, ih (Nat.succ.inj length)]
        constructor
        · rintro ⟨others, ⟨rfl, types⟩, done⟩
          obtain rfl := Except.ok.inj done
          exact ⟨rfl, congrArg₂ List.cons tag types⟩
        · rintro ⟨same, types⟩
          cases vs with
          | nil => cases same
          | cons w vs =>
            obtain rfl : v = w := Option.some.inj (List.cons.inj same).1
            exact ⟨vs, ⟨(List.cons.inj same).2, (List.cons.inj types).2⟩, rfl⟩

theorem checkShape_eq_ok :
    checkShape name plural symbol fields values = .ok vs ↔
      values = vs.map some ∧ vs.map (·.type) = fields.map (·.type) := by
  unfold checkShape
  split
  · next other =>
    refine iff_of_false nofun fun ⟨same, types⟩ => other ?_
    have lengths := congrArg List.length types
    rw [List.length_map, List.length_map] at lengths
    rw [same, List.length_map, lengths]
  · next same => exact checkTypes_eq_ok (not_not.mp same)

theorem checkEnvelope_eq_ok {first : ScVal} {topics data : List (Option ScVal)} :
    checkEnvelope raw = .ok (first, topics, data) ↔
      first.type = "symbol" ∧ raw.topics = some topics ∧ topics.head? = some (some first) ∧
        raw.data = some data := by
  unfold checkEnvelope
  cases raw.topics with
  | none => simp [malformed]
  | some found =>
    cases found with
    | nil =>
      refine iff_of_false nofun fun ⟨_, same, head, _⟩ => ?_
      obtain rfl := Option.some.inj same
      cases head
    | cons v rest =>
      cases v with
      | none =>
        refine iff_of_false nofun fun ⟨_, same, head, _⟩ => ?_
        obtain rfl := Option.some.inj same
        cases head
      | some v =>
        cases raw.data with
        | none => by_cases tag : v.type = "symbol" <;> simp [malformed, tag]
        | some found =>
          by_cases tag : v.type = "symbol"
          · simp only [Option.getD_some, tag, ne_eq, not_true_eq_false, if_false, Except.ok.injEq,
              Prod.mk.injEq, Option.some.injEq]
            constructor
            · rintro ⟨rfl, rfl, rfl⟩
              exact ⟨tag, rfl, rfl, rfl⟩
            · rintro ⟨_, rfl, head, rfl⟩
              exact ⟨Option.some.inj (Option.some.inj head), rfl, rfl⟩
          · simp only [Option.getD_some, tag, ne_eq, not_false_eq_true, if_true, malformed]
            refine iff_of_false nofun fun ⟨type, same, head, _⟩ => tag ?_
            obtain rfl := Option.some.inj same
            rw [Option.some.inj (Option.some.inj head), type]

/-! ### The entries of the catalog -/

def listing : Record (ContractEventFamily × CatalogEventDescriptor) :=
  builtinEventCatalog.flatMap fun entries =>
    entries.2.map fun entry => (entry.1, entries.1, entry.2)

theorem mem_listing : (symbol, family, entry) ∈ listing ↔ Catalogued symbol family entry := by
  simp only [listing, Catalogued, List.mem_flatMap, List.mem_map, Prod.mk.injEq, Prod.exists]
  constructor
  · rintro ⟨_, entries, listed, _, _, mem, rfl, rfl, rfl⟩
    exact ⟨entries, listed, mem⟩
  · rintro ⟨entries, listed, mem⟩
    exact ⟨_, entries, listed, _, _, mem, rfl, rfl, rfl⟩

/-- What holds of every entry: its symbol finds it, the names of its fields differ, its first topic
is a symbol, and its symbol is no text of a number or of a truth value. -/
theorem listing_checked :
    ((buildSymbolMap builtinEventCatalog).map (·.1) = listing.map (·.1) ∧
      (listing.map (·.1)).Nodup) ∧
    ∀ p ∈ listing, findEntry builtinEventCatalog p.1 = listing.lookup p.1 ∧
      ((p.2.2.topics.map (·.name)).Nodup ∧ (p.2.2.data.map (·.name)).Nodup) ∧
      p.2.2.topics.head?.map (·.type) = some "symbol" ∧
      p.1.toList.any (!Number.isNumberChar ·) = true ∧
      p.1 ∉ ["Infinity", "-Infinity", "NaN", "true", "false"] := by
  decide +kernel

theorem findEntry_eq (symbol : String) :
    findEntry builtinEventCatalog symbol = listing.lookup symbol := by
  by_cases listed : symbol ∈ listing.map (·.1)
  · obtain ⟨p, mem, rfl⟩ := List.mem_map.mp listed
    exact (listing_checked.2 p mem).1
  · have keys : (buildSymbolMap builtinEventCatalog).map (·.1) = listing.map (·.1) :=
      listing_checked.1.1
    have absent {β : Type} (r : Record β) (same : r.map (·.1) = listing.map (·.1)) :
        r.lookup symbol = none := by
      refine List.lookup_eq_none_iff.mpr fun p mem => ?_
      have other : symbol ≠ p.1 := fun eq => listed (same ▸ List.mem_map.mpr ⟨p, mem, eq.symm⟩)
      simpa using other
    rw [absent _ rfl, findEntry, absent _ keys]
    rfl

theorem findEntry_iff :
    findEntry builtinEventCatalog symbol = some (family, entry) ↔
      Catalogued symbol family entry := by
  rw [findEntry_eq, Record.lookup_iff listing_checked.1.2, mem_listing]

/-- The names of the fields differ. -/
theorem Catalogued.names (catalogued : Catalogued symbol family entry) :
    (entry.topics.map (·.name)).Nodup ∧ (entry.data.map (·.name)).Nodup :=
  (listing_checked.2 _ (mem_listing.mpr catalogued)).2.1

/-- The first topic of an entry is a symbol. -/
theorem Catalogued.head (catalogued : Catalogued symbol family entry) :
    entry.topics.head?.map (·.type) = some "symbol" :=
  (listing_checked.2 _ (mem_listing.mpr catalogued)).2.2.1

/-- The text of a number or a truth value is no symbol. -/
theorem Catalogued.of_text {v : Value} (catalogued : Catalogued v.toText family entry) :
    v = .string v.toText := by
  obtain ⟨-, -, -, letters, words⟩ := listing_checked.2 _ (mem_listing.mpr catalogued)
  cases v with
  | string s => rfl
  | number n =>
    rcases n.toText_chars with chars | word
    · obtain ⟨c, mem, other⟩ := List.any_eq_true.mp letters
      rw [chars c mem] at other
      cases other
    · exact absurd (List.mem_append_left ["true", "false"] word) words
  | bool b =>
    have word : (Value.bool b).toText ∈ ["Infinity", "-Infinity", "NaN", "true", "false"] := by
      cases b <;> decide
    exact absurd word words

/-! ### Records and their fields -/

theorem names_of_zip (length : vs.length = fields.length) :
    ((fields.zip vs).map fun p => (p.1.name, p.2.value)).map (·.1) = fields.map (·.name) := by
  calc ((fields.zip vs).map fun p => (p.1.name, p.2.value)).map (·.1)
      = ((fields.zip vs).map Prod.fst).map (·.name) := by
        rw [List.map_map, List.map_map]
        rfl
    _ = fields.map (·.name) := by rw [List.map_fst_zip length.ge]

/-- What the fields of a record hold. -/
theorem lookup_decodeFields (names : (fields.map (·.name)).Nodup)
    (length : vs.length = fields.length) {key : String} {value : Value} :
    (decodeFields fields vs).lookup key = some value ↔
      ∃ p ∈ fields.zip vs, p.1.name = key ∧ p.2.value = value := by
  rw [← names_of_zip length] at names
  rw [decodeFields, Record.ofEntries_eq names, Record.lookup_iff names]
  simp only [List.mem_map, Prod.mk.injEq]

theorem mapM_of_zip {α β : Type} {f : α → Option β} {xs : List α} {ys : List β}
    (length : ys.length = xs.length) (all : ∀ p ∈ xs.zip ys, f p.1 = some p.2) :
    xs.mapM f = some ys := by
  induction xs generalizing ys with
  | nil =>
    obtain rfl := List.length_eq_zero_iff.mp length
    rfl
  | cons x xs ih =>
    obtain ⟨y, ys, rfl⟩ := List.exists_cons_of_length_eq_add_one length
    rw [List.zip_cons_cons, List.forall_mem_cons] at all
    rw [List.mapM_cons, all.1, ih (Nat.succ.inj length) all.2]
    rfl

theorem types_of_zip (types : vs.map (·.type) = fields.map (·.type)) :
    ∀ p ∈ fields.zip vs, p.2.type = p.1.type := by
  induction fields generalizing vs with
  | nil => simp
  | cons field fields ih =>
    cases vs with
    | nil => simp
    | cons v vs =>
      obtain ⟨tag, types⟩ := List.cons.inj types
      exact List.forall_mem_cons.mpr ⟨tag, ih types⟩

theorem length_of_types (types : vs.map (·.type) = fields.map (·.type)) :
    vs.length = fields.length := by
  simpa using congrArg List.length types

theorem encodeFields_decodeFields (names : (fields.map (·.name)).Nodup)
    (types : vs.map (·.type) = fields.map (·.type)) :
    encodeFields fields (decodeFields fields vs) = some vs := by
  have length := length_of_types types
  refine mapM_of_zip length fun p mem => ?_
  rw [(lookup_decodeFields names length).mpr ⟨p, mem, rfl, rfl⟩, Option.map_some,
    ← types_of_zip types p mem]

theorem unsupported_eq_none (names : (fields.map (·.name)).Nodup)
    (length : vs.length = fields.length) :
    unsupported maxVersion (decodeFields fields vs) = none ↔ Supported maxVersion fields vs := by
  constructor
  · intro none p mem name version value
    have found : (decodeFields fields vs).lookup "version" = some (.number version) :=
      (lookup_decodeFields names length).mpr ⟨p, mem, name, value⟩
    rw [unsupported, found] at none
    simpa using none
  · intro supported
    unfold unsupported
    split
    · next version found =>
      obtain ⟨p, mem, name, value⟩ := (lookup_decodeFields names length).mp found
      rw [supported p mem name version value]
      rfl
    · rfl

/-! ### The specification of the decoder -/

theorem decodeContractEvent_eq_ok :
    decodeContractEvent builtinEventCatalog maxVersion (some raw) = .ok d ↔
      ∃ symbol family entry topics data, Tagged raw symbol family entry topics data ∧
        Supported maxVersion entry.data data ∧
        d = ⟨symbol, family, raw.contract, cursorOf raw, decodeFields entry.topics topics,
          decodeFields entry.data data⟩ := by
  simp only [decodeContractEvent, bind_eq_ok, Prod.exists, checkEnvelope_eq_ok]
  constructor
  · rintro ⟨first, topics', data', ⟨_, isTopics, head, isData⟩, decoded⟩
    split at decoded
    · cases decoded
    · next family entry found =>
      simp only [bind_eq_ok, checkShape_eq_ok] at decoded
      obtain ⟨topics, ⟨rfl, topicTypes⟩, data, ⟨rfl, dataTypes⟩, decoded⟩ := decoded
      have catalogued := findEntry_iff.mp found
      split at decoded
      · cases decoded
      · next supported =>
        refine ⟨_, family, entry, topics, data, ⟨catalogued, isTopics, isData, ?_, topicTypes,
          dataTypes⟩, ?_, (Except.ok.inj decoded).symm⟩
        · rw [List.head?_map, Option.map_eq_some_iff] at head
          obtain ⟨_, head, same⟩ := head
          rw [head, Option.some.inj same, Option.map_some, ← catalogued.of_text]
        · exact (unsupported_eq_none catalogued.names.2 (length_of_types dataTypes)).mp supported
  · rintro ⟨symbol, family, entry, topics, data, tagged, supported, rfl⟩
    obtain ⟨first, isFirst, value⟩ := Option.map_eq_some_iff.mp tagged.first
    have tag : first.type = "symbol" := by
      have head := tagged.catalogued.head
      rw [← List.head?_map, ← tagged.topicTypes, List.head?_map, isFirst] at head
      exact Option.some.inj head
    refine ⟨first, _, _, ⟨tag, tagged.rawTopics, by rw [List.head?_map, isFirst]; rfl,
      tagged.rawData⟩, ?_⟩
    have text : first.value.toText = symbol := by
      rw [value]
      rfl
    have none := (unsupported_eq_none tagged.catalogued.names.2
      (length_of_types tagged.dataTypes)).mpr supported
    simp only [text, findEntry_iff.mpr tagged.catalogued, bind_eq_ok, checkShape_eq_ok]
    exact ⟨topics, ⟨rfl, tagged.topicTypes⟩, data, ⟨rfl, tagged.dataTypes⟩, by rw [none]⟩

theorem reencode_decoded (tagged : Tagged raw symbol family entry topics data)
    (cursor : EventCursor) : reencode builtinEventCatalog ⟨symbol, family, raw.contract, cursor,
      decodeFields entry.topics topics, decodeFields entry.data data⟩ =
        some (raw.contract, topics, data) := by
  have found := findEntry_iff.mpr tagged.catalogued
  simp only [findEntry, Option.bind_eq_bind, Option.bind_eq_some_iff, Option.pure_def,
    Option.some.injEq, Prod.mk.injEq] at found
  obtain ⟨_, _, _, found, rfl, rfl⟩ := found
  obtain ⟨topicNames, dataNames⟩ := tagged.catalogued.names
  simp only [reencode, found, Option.bind_eq_bind, Option.bind_some,
    encodeFields_decodeFields topicNames tagged.topicTypes,
    encodeFields_decodeFields dataNames tagged.dataTypes, Option.pure_def]

/-- The tags of an event fit one entry. -/
theorem Tagged.unique {symbol' : String} {family' : ContractEventFamily}
    {entry' : CatalogEventDescriptor} {topics' data' : List ScVal}
    (tagged : Tagged raw symbol family entry topics data)
    (tagged' : Tagged raw symbol' family' entry' topics' data') :
    entry' = entry ∧ topics' = topics ∧ data' = data := by
  have same : topics' = topics := List.map_injective_iff.mpr (Option.some_injective _)
    (Option.some.inj (tagged'.rawTopics.symm.trans tagged.rawTopics))
  have sameData : data' = data := List.map_injective_iff.mpr (Option.some_injective _)
    (Option.some.inj (tagged'.rawData.symm.trans tagged.rawData))
  have first := tagged'.first
  rw [same, tagged.first] at first
  obtain rfl : symbol = symbol' := by simpa using first
  have found := findEntry_iff.mpr tagged.catalogued
  rw [findEntry_iff.mpr tagged'.catalogued] at found
  exact ⟨(Prod.mk.inj (Option.some.inj found)).2, same, sameData⟩

/-! ### Exactness -/

/-- Only well-formed events are decoded, and all of them; the decoded fields give back the event. -/
structure Exact (maxVersion : Number) (raw : Option RawContractEvent) : Prop where
  accepted : (∃ d, decodeContractEvent builtinEventCatalog maxVersion raw = .ok d) ↔
    ∃ r, raw = some r ∧ WellFormed maxVersion r
  back : ∀ d r, raw = some r → decodeContractEvent builtinEventCatalog maxVersion raw = .ok d →
    ∃ topics data, reencode builtinEventCatalog d = some (r.contract, topics, data) ∧
      r.topics = some (topics.map some) ∧ r.data = some (data.map some)

/-- If the tags of the event are those of an entry, then it comes from the contract of the entry and
its values are legal. -/
def Genuine (maxVersion : Number) (raw : RawContractEvent) : Prop :=
  ∀ symbol family entry topics data, Tagged raw symbol family entry topics data →
    Supported maxVersion entry.data data →
      raw.contract = entry.contract ∧ ∀ v ∈ topics ++ data, v.isLegal = true

theorem WellFormed.decodes (wellFormed : WellFormed maxVersion raw) :
    ∃ d, decodeContractEvent builtinEventCatalog maxVersion (some raw) = .ok d := by
  obtain ⟨symbol, family, entry, topics, data, tagged, supported, -⟩ := wellFormed
  exact ⟨_, decodeContractEvent_eq_ok.mpr ⟨_, _, _, _, _, tagged, supported, rfl⟩⟩

/-- The parts of a batch: the decoded events in the order of the input, and one error for each of
the other indices. -/
structure Partitions (maxVersion : Number) (raws : List (Option RawContractEvent))
    (result : BatchDecodeResult) : Prop where
  decoded : result.decoded =
    raws.filterMap fun raw => (decodeContractEvent builtinEventCatalog maxVersion raw).toOption
  errors : ∀ i error, (i, error) ∈ result.errors ↔ ∃ raw thrown, raws[i]? = some raw ∧
    decodeContractEvent builtinEventCatalog maxVersion raw = .error thrown ∧
    error = thrown.collected
  once : (result.errors.map (·.1)).Pairwise (· < ·)

/-- The error of an event at its index. -/
def failure (maxVersion : Number) (p : Option RawContractEvent × ℕ) :
    Option (ℕ × ContractEventError) :=
  match decodeContractEvent builtinEventCatalog maxVersion p.1 with
  | .ok _ => none
  | .error thrown => some (p.2, thrown.collected)

theorem failure_eq_some {p : Option RawContractEvent × ℕ} {error : ContractEventError} :
    failure maxVersion p = some (i, error) ↔ p.2 = i ∧ ∃ thrown,
      decodeContractEvent builtinEventCatalog maxVersion p.1 = .error thrown ∧
      error = thrown.collected := by
  unfold failure
  cases decodeContractEvent builtinEventCatalog maxVersion p.1 with
  | ok d => simp
  | error thrown => simp [eq_comm]

theorem decodeFrom_eq (raws : List (Option RawContractEvent)) (i : ℕ) :
    decodeFrom builtinEventCatalog maxVersion i raws =
      ⟨raws.filterMap fun raw => (decodeContractEvent builtinEventCatalog maxVersion raw).toOption,
        (raws.zipIdx i).filterMap (failure maxVersion)⟩ := by
  induction raws generalizing i with
  | nil => rfl
  | cons raw rest ih =>
    rw [decodeFrom, ih, List.zipIdx_cons]
    cases now : decodeContractEvent builtinEventCatalog maxVersion raw with
    | ok d =>
      have none : failure maxVersion (raw, i) = none := by rw [failure, now]
      rw [List.filterMap_cons_some (b := d) (by rw [now]; rfl), List.filterMap_cons_none none]
    | error thrown =>
      have some : failure maxVersion (raw, i) = some (i, thrown.collected) := by rw [failure, now]
      rw [List.filterMap_cons_none (by rw [now]; rfl), List.filterMap_cons_some some]

theorem decodeContractEvents_partitions (raws : List (Option RawContractEvent)) :
    Partitions maxVersion raws (decodeContractEvents builtinEventCatalog maxVersion raws) := by
  rw [decodeContractEvents, decodeFrom_eq]
  refine ⟨rfl, fun i error => ?_, ?_⟩
  · simp only [List.mem_filterMap, failure_eq_some, Prod.exists, List.mk_mem_zipIdx_iff_getElem?]
    constructor
    · rintro ⟨raw, _, found, rfl, thrown, fails, collected⟩
      exact ⟨raw, thrown, found, fails, collected⟩
    · rintro ⟨raw, thrown, found, fails, collected⟩
      exact ⟨raw, i, found, rfl, thrown, fails, collected⟩
  · have increasing : (raws.zipIdx.map (·.2)).Pairwise (· < ·) := by
      rw [List.zipIdx_map_snd]
      exact List.pairwise_lt_range'
    rw [List.pairwise_map, List.pairwise_filterMap]
    rw [List.pairwise_map] at increasing
    refine increasing.imp fun {p q} less a isA b isB => ?_
    obtain ⟨same, -⟩ := failure_eq_some.mp isA
    obtain ⟨same', -⟩ := failure_eq_some.mp isB
    rwa [same, same'] at less

/-- The decoder is exact on an event unless its tags fit an entry from whose contract it does not
come or of whose types its values are not. A batch is always split into its parts. -/
theorem decodeContractEvent_exact_iff (maxVersion : Number) (raw : Option RawContractEvent)
    (raws : List (Option RawContractEvent)) :
    (Exact maxVersion raw ↔ ∀ r, raw = some r → Genuine maxVersion r) ∧
      Partitions maxVersion raws (decodeContractEvents builtinEventCatalog maxVersion raws) := by
  refine ⟨⟨fun exact r isRaw symbol family entry topics data tagged supported => ?_,
    fun genuine => ⟨⟨fun ⟨d, ok⟩ => ?_, fun ⟨r, isRaw, wellFormed⟩ => ?_⟩,
      fun d r isRaw ok => ?_⟩⟩, decodeContractEvents_partitions raws⟩
  · subst isRaw
    obtain ⟨_, same, wellFormed⟩ :=
      exact.accepted.mp ⟨_, decodeContractEvent_eq_ok.mpr ⟨_, _, _, _, _, tagged, supported, rfl⟩⟩
    obtain ⟨_, _, _, _, _, tagged', _, legal⟩ := Option.some.inj same ▸ wellFormed
    obtain ⟨rfl, rfl, rfl⟩ := tagged.unique tagged'
    exact legal
  · cases raw with
    | none => cases ok
    | some r =>
      obtain ⟨_, _, _, _, _, tagged, supported, -⟩ := decodeContractEvent_eq_ok.mp ok
      exact ⟨r, rfl, _, _, _, _, _, tagged, supported, genuine r rfl _ _ _ _ _ tagged supported⟩
  · exact isRaw ▸ wellFormed.decodes
  · subst isRaw
    obtain ⟨_, _, _, topics, data, tagged, _, rfl⟩ := decodeContractEvent_eq_ok.mp ok
    exact ⟨topics, data, reencode_decoded tagged _, tagged.rawTopics, tagged.rawData⟩

end

/-- A vote with a text as its weight, from a contract that has no votes. -/
def forgedVote : RawContractEvent where
  contract := "attacker"
  topics := some [some ⟨"symbol", .string "vote"⟩, some ⟨"u32", .number (.finite 7)⟩]
  data := some [some ⟨"address", .string "GVOTER"⟩, some ⟨"symbol", .string "Approve"⟩,
    some ⟨"i128", .string "many"⟩]
  ledgerSequence := .finite 100000
  txIndexInLedger := none
  eventIndexInTx := none

/-- The forged vote is decoded, and its weight is a text. -/
theorem forged_vote_decoded : ¬ Exact (.finite 1) (some forgedVote) ∧
    ((decodeContractEvent builtinEventCatalog (.finite 1) (some forgedVote)).toOption.bind
      fun d => d.data.lookup "weight") = some (.string "many") := by
  refine ⟨fun exact => ?_, by decide +kernel⟩
  have decodes :
      (decodeContractEvent builtinEventCatalog (.finite 1) (some forgedVote)).isOk = true := by
    decide +kernel
  cases decoded : decodeContractEvent builtinEventCatalog (.finite 1) (some forgedVote) with
  | error thrown =>
    rw [decoded] at decodes
    cases decodes
  | ok d =>
    obtain ⟨_, same, _, _, _, _, _, tagged, _, contract, _⟩ := exact.accepted.mp ⟨d, decoded⟩
    have others : ∀ p ∈ listing, p.2.2.contract ≠ "attacker" := by decide +kernel
    rw [← Option.some.inj same] at contract
    exact others _ (mem_listing.mpr tagged.catalogued) contract.symm

end Talos.Sdk.ContractEvents
