import Talos.Database.Machine
import Talos.Database.Table

/-!
# The contract-event indexer

A pass of `pollContractEventsOnce` asks the RPC node for one page of events from the
ledger after the stored cursor, inserts them one by one and moves the cursor;
`ingestEvents` does the same with events it is handed. Passes follow one another. What
the node answers, which inserts throw and whether the cursor can be saved is given by the
event; a pass that dies half way is one in which everything after that point fails.

How an event is decoded only fills in columns of its row.
-/

namespace Talos.ContractEvents

open Database Soroban

/-- An item of the node's `getEvents` answer; `body` stands for its topics and data. -/
structure SorobanRpcEventResponse where
  id : String
  ledger : Int
  contractId : String
  txHash : Option String
  body : String
  deriving DecidableEq

/-- What `normalizeRpcEvent` and `decodeContractEvent` make of an event. -/
structure Decoding where
  topic : String
  decodedPayload : Option String
  eventVersion : Option Nat
  deriving DecidableEq

/-- A row of `tls_contract_events`; its id is the key of the table. -/
structure ContractEventRow where
  contractId : String
  ledger : Int
  txHash : String
  body : String
  decoding : Decoding
  deriving DecidableEq

/-- `contractIds` are those of `getMonitoredContractIds`. -/
structure EventIndexerConfig where
  cursorId : String
  defaultStartLedger : Int
  batchLimit : Nat
  contractIds : List String

structure GetEventsResponse where
  events : List SorobanRpcEventResponse
  latestLedger : Option Int
  deriving DecidableEq

/-- The positions of the inserts that throw, and whether saving the cursor does. -/
structure Faults where
  inserts : List Nat
  saveCursor : Bool
  deriving DecidableEq

structure IngestEventsResult where
  processed : Nat
  stored : Nat
  skipped : Nat
  lastLedger : Int
  deriving DecidableEq

structure State where
  events : Table String ContractEventRow
  /-- `tls_event_cursor`: the last ledger by cursor id. -/
  cursors : Map String Int

/-- The variables of the loop of `ingestEvents`. -/
structure Progress where
  events : Table String ContractEventRow
  stored : Nat
  skipped : Nat
  maxLedgerSeen : Int

section Passes

variable (decode : SorobanRpcEventResponse → Decoding)

def eventRow (raw : SorobanRpcEventResponse) : ContractEventRow :=
  { contractId := raw.contractId
    ledger := raw.ledger
    txHash := raw.txHash.getD ""
    body := raw.body
    decoding := decode raw }

/-- `INSERT … ON CONFLICT DO NOTHING`. -/
def insertEvent (events : Table String ContractEventRow) (raw : SorobanRpcEventResponse) :
    Table String ContractEventRow :=
  (events.insert raw.id (eventRow decode raw)).getD events

/-- One round of the loop of `ingestEvents`, for the event at position `i`. -/
def ingestEvent (failing : List Nat) (progress : Progress)
    (entry : SorobanRpcEventResponse × Nat) : Progress :=
  let (raw, i) := entry
  let progress := { progress with maxLedgerSeen := max progress.maxLedgerSeen raw.ledger }
  if raw.id = "" then { progress with skipped := progress.skipped + 1 }
  else
    let skipped :=
      if (decode raw).decodedPayload.isSome then progress.skipped else progress.skipped + 1
    -- An insert that throws is logged, and the loop goes on.
    if i ∈ failing then { progress with skipped := skipped }
    else
      { progress with
        events := insertEvent decode progress.events raw
        stored := progress.stored + 1
        skipped := skipped }

def ingestAll (failing : List Nat) (events : Table String ContractEventRow)
    (page : List SorobanRpcEventResponse) : Progress :=
  page.zipIdx.foldl (ingestEvent decode failing) ⟨events, 0, 0, 0⟩

/-- The ledger the cursor is set to. -/
def targetLedger (newCursorLedger : Option Int) (maxLedgerSeen : Int) : Option Int :=
  newCursorLedger.or (if maxLedgerSeen > 0 then some maxLedgerSeen else none)

def ingestEvents (s : State) (page : List SorobanRpcEventResponse) (cursorId : String)
    (newCursorLedger : Option Int) (faults : Faults) : State × Option IngestEventsResult :=
  let progress := ingestAll decode faults.inserts s.events page
  let s := { s with events := progress.events }
  match targetLedger newCursorLedger progress.maxLedgerSeen with
  | none => (s, some ⟨page.length, progress.stored, progress.skipped, 0⟩)
  | some target =>
      if faults.saveCursor then (s, none)
      else ({ s with cursors := s.cursors.set cursorId target },
        some ⟨page.length, progress.stored, progress.skipped, target⟩)

/-- The ledger a poll asks for. -/
def startLedger (config : EventIndexerConfig) (s : State) : Int :=
  match s.cursors config.cursorId with
  | some currentCursor => currentCursor + 1
  | none => config.defaultStartLedger

/-- `Math.max` over the ledgers of a page, which is not empty. -/
def lastLedger (first : SorobanRpcEventResponse) (rest : List SorobanRpcEventResponse) : Int :=
  (rest.map (·.ledger)).foldl max first.ledger

/-- The node's latest ledger, if the poll goes by it. -/
def advancedTo (start : Int) (response : GetEventsResponse) : Option Int :=
  response.latestLedger.filter fun latestLedger => latestLedger ≠ 0 ∧ latestLedger ≥ start

def newCursor (start : Int) (response : GetEventsResponse) : Int :=
  match advancedTo start response, response.events with
  | some latestLedger, _ => latestLedger
  | none, first :: rest => lastLedger first rest
  | none, [] => start - 1

/-- A pass; without an answer of the node it ends. -/
def pollContractEventsOnce (config : EventIndexerConfig) (s : State)
    (answer : Option GetEventsResponse) (faults : Faults) : State × Option IngestEventsResult :=
  match answer with
  | none => (s, none)
  | some response =>
      let cursor := newCursor (startLedger config s) response
      ingestEvents decode s response.events config.cursorId
        (if cursor > 0 then some cursor else none) faults

inductive Event where
  | poll (answer : Option GetEventsResponse) (faults : Faults)
  | ingest (page : List SorobanRpcEventResponse) (cursorId : String)
      (newCursorLedger : Option Int) (faults : Faults)

def step (config : EventIndexerConfig) (s : State) : Event → Option State
  | .poll answer faults => some (pollContractEventsOnce decode config s answer faults).1
  | .ingest page cursorId newCursorLedger faults =>
      some (ingestEvents decode s page cursorId newCursorLedger faults).1

def machine (config : EventIndexerConfig) : Machine State Event where
  init := ⟨Map.empty, Map.empty⟩
  step := step decode config

end Passes

end Talos.ContractEvents
