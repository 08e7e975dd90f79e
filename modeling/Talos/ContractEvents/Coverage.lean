import Talos.ContractEvents.Indexer

/-!
# Events the cursor has passed

A pass moves the cursor to the node's latest ledger even if its page stops at the batch
limit before that ledger, and whichever inserts have failed. The events in between are
not asked for again (`event_passed_over`). Where a pass stores every event of a monitored
contract that it moves the cursor over, all events up to the cursor are stored
(`indexed_along`).
-/

namespace Talos.ContractEvents

open Database Soroban

abbrev Step := Transition State Event

variable {decode : SorobanRpcEventResponse → Decoding} {config : EventIndexerConfig}
  {emitted : List SorobanRpcEventResponse} {s s' : State} {e : SorobanRpcEventResponse}

def Stored (s : State) (e : SorobanRpcEventResponse) : Prop := (s.events e.id).isSome

instance (s : State) (e : SorobanRpcEventResponse) : Decidable (Stored s e) :=
  inferInstanceAs (Decidable (_ = true))

/-- Every event that a monitored contract emitted from the start ledger up to the stored
cursor is stored. -/
def Indexed (config : EventIndexerConfig) (emitted : List SorobanRpcEventResponse) (s : State) :
    Prop :=
  ∀ c, s.cursors config.cursorId = some c → ∀ e ∈ emitted, e.contractId ∈ config.contractIds →
    config.defaultStartLedger ≤ e.ledger → e.ledger ≤ c → Stored s e

/-! ### The loop over a page -/

/-- The event is in the page, with an id, where the insert does not throw. -/
def Inserted (page : List SorobanRpcEventResponse) (faults : Faults)
    (e : SorobanRpcEventResponse) : Prop :=
  e.id ≠ "" ∧ ∃ entry ∈ page.zipIdx, entry.1 = e ∧ entry.2 ∉ faults.inserts

instance (page : List SorobanRpcEventResponse) (faults : Faults) (e : SorobanRpcEventResponse) :
    Decidable (Inserted page faults e) :=
  inferInstanceAs (Decidable (_ ∧ _))

theorem insertEvent_keeps {events : Table String ContractEventRow} {raw : SorobanRpcEventResponse}
    {k : String} (found : (events k).isSome) : (insertEvent decode events raw k).isSome := by
  unfold insertEvent Table.insert
  split
  · rw [Option.getD_some, Map.set_apply]
    split
    · rfl
    · exact found
  · exact found

theorem insertEvent_stores (events : Table String ContractEventRow)
    (raw : SorobanRpcEventResponse) : (insertEvent decode events raw raw.id).isSome := by
  unfold insertEvent Table.insert
  split
  · rw [Option.getD_some, Map.set_self]
    rfl
  · next row found =>
      rw [Option.getD_none, found]
      rfl

theorem ingestEvent_keeps {failing : List Nat} {progress : Progress}
    {entry : SorobanRpcEventResponse × Nat} {k : String} (found : (progress.events k).isSome) :
    ((ingestEvent decode failing progress entry).events k).isSome := by
  unfold ingestEvent
  dsimp only
  split
  · exact found
  · split
    · exact found
    · exact insertEvent_keeps found

theorem ingestEvent_stores {failing : List Nat} (progress : Progress)
    {entry : SorobanRpcEventResponse × Nat} (named : entry.1.id ≠ "")
    (works : entry.2 ∉ failing) :
    ((ingestEvent decode failing progress entry).events entry.1.id).isSome := by
  unfold ingestEvent
  dsimp only
  rw [if_neg named, if_neg works]
  exact insertEvent_stores ..

theorem foldl_keeps {failing : List Nat} {entries : List (SorobanRpcEventResponse × Nat)}
    {progress : Progress} {k : String} (found : (progress.events k).isSome) :
    ((entries.foldl (ingestEvent decode failing) progress).events k).isSome := by
  induction entries generalizing progress with
  | nil => exact found
  | cons entry entries ih => exact ih (ingestEvent_keeps found)

theorem foldl_stores {failing : List Nat} {entries : List (SorobanRpcEventResponse × Nat)}
    {progress : Progress} {entry : SorobanRpcEventResponse × Nat} (mem : entry ∈ entries)
    (named : entry.1.id ≠ "") (works : entry.2 ∉ failing) :
    ((entries.foldl (ingestEvent decode failing) progress).events entry.1.id).isSome := by
  induction entries generalizing progress with
  | nil => cases mem
  | cons first entries ih =>
      rcases List.mem_cons.mp mem with rfl | later
      · rw [List.foldl_cons]
        exact foldl_keeps (ingestEvent_stores progress named works)
      · exact ih later

theorem ingestEvent_maxLedgerSeen {failing : List Nat} (progress : Progress)
    (entry : SorobanRpcEventResponse × Nat) :
    (ingestEvent decode failing progress entry).maxLedgerSeen =
      max progress.maxLedgerSeen entry.1.ledger := by
  unfold ingestEvent
  dsimp only
  split
  · rfl
  · split <;> rfl

/-- The greatest ledger seen is that of an event, or still the initial one. -/
theorem foldl_maxLedgerSeen {failing : List Nat} (entries : List (SorobanRpcEventResponse × Nat))
    (progress : Progress) :
    (entries.foldl (ingestEvent decode failing) progress).maxLedgerSeen =
        progress.maxLedgerSeen ∨
      ∃ entry ∈ entries, entry.1.ledger =
        (entries.foldl (ingestEvent decode failing) progress).maxLedgerSeen := by
  induction entries generalizing progress with
  | nil => exact .inl rfl
  | cons first entries ih =>
      rw [List.foldl_cons]
      rcases ih (ingestEvent decode failing progress first) with same | ⟨entry, mem, same⟩
      · rw [same, ingestEvent_maxLedgerSeen]
        have choice : max progress.maxLedgerSeen first.1.ledger = progress.maxLedgerSeen ∨
            max progress.maxLedgerSeen first.1.ledger = first.1.ledger := by omega
        rcases choice with old | new
        · exact .inl old
        · exact .inr ⟨first, List.mem_cons_self, new.symm⟩
      · exact .inr ⟨entry, List.mem_cons_of_mem _ mem, same⟩

/-! ### One pass -/

theorem ingestAll_keeps {failing : List Nat} {events : Table String ContractEventRow}
    {page : List SorobanRpcEventResponse} {k : String} (found : (events k).isSome) :
    ((ingestAll decode failing events page).events k).isSome := by
  unfold ingestAll
  exact foldl_keeps found

theorem ingestAll_stores {faults : Faults} {events : Table String ContractEventRow}
    {page : List SorobanRpcEventResponse} (inserted : Inserted page faults e) :
    ((ingestAll decode faults.inserts events page).events e.id).isSome := by
  obtain ⟨named, entry, mem, rfl, works⟩ := inserted
  exact foldl_stores mem named works

theorem ingestAll_maxLedgerSeen {failing : List Nat} {events : Table String ContractEventRow}
    {page : List SorobanRpcEventResponse}
    (seen : 0 < (ingestAll decode failing events page).maxLedgerSeen) :
    ∃ raw ∈ page, raw.ledger = (ingestAll decode failing events page).maxLedgerSeen := by
  rcases foldl_maxLedgerSeen page.zipIdx ⟨events, 0, 0, 0⟩ with none | ⟨entry, mem, same⟩
  · exact absurd none (Int.ne_of_gt seen)
  · exact ⟨entry.1, List.mem_of_getElem? (List.mem_zipIdx_iff_getElem?.mp mem), same⟩

/-- `ingestEvents` brings the cursor over a ledger. -/
def Reaches (page : List SorobanRpcEventResponse) (newCursorLedger : Option Int) (l : Int) :
    Prop :=
  match newCursorLedger with
  | some n => l ≤ n
  | none => ∃ raw ∈ page, l ≤ raw.ledger

instance (page : List SorobanRpcEventResponse) (newCursorLedger : Option Int) (l : Int) :
    Decidable (Reaches page newCursorLedger l) := by
  unfold Reaches
  split <;> infer_instance

variable {page : List SorobanRpcEventResponse} {cursorId : String} {newCursorLedger : Option Int}
  {faults : Faults}

theorem ingestEvents_events :
    (ingestEvents decode s page cursorId newCursorLedger faults).1.events =
      (ingestAll decode faults.inserts s.events page).events := by
  unfold ingestEvents
  dsimp only
  split
  · rfl
  · split <;> rfl

theorem ingestEvents_cursors {id : String} :
    (ingestEvents decode s page cursorId newCursorLedger faults).1.cursors id = s.cursors id ∨
      id = cursorId ∧ faults.saveCursor = false ∧
        ∃ c, (ingestEvents decode s page cursorId newCursorLedger faults).1.cursors id = some c ∧
          ∀ l ≤ c, Reaches page newCursorLedger l := by
  unfold ingestEvents
  dsimp only
  split
  · exact .inl rfl
  · next target found =>
      split
      · exact .inl rfl
      · next saved =>
          dsimp only
          rw [Map.set_apply]
          split
          · next same =>
              refine .inr ⟨same, Bool.eq_false_iff.mpr saved, target, rfl, fun l le => ?_⟩
              unfold targetLedger at found
              cases newCursorLedger with
              | some n =>
                  cases found
                  exact le
              | none =>
                  rw [Option.none_or] at found
                  split at found
                  · next seen =>
                      cases found
                      obtain ⟨raw, mem, same⟩ := ingestAll_maxLedgerSeen seen
                      exact ⟨raw, mem, same ▸ le⟩
                  · cases found
          · exact .inl rfl

/-! ### Passes that leave nothing behind -/

/-- The pass brings the cursor over the ledger of an event, which was ahead of it. -/
def PassesOver (config : EventIndexerConfig) (t : Step) (e : SorobanRpcEventResponse) : Prop :=
  match t.event with
  | .poll none _ => False
  | .poll (some response) faults =>
      faults.saveCursor = false ∧ startLedger config t.pre ≤ e.ledger ∧
        Reaches response.events ((advancedTo (startLedger config t.pre) response).filter (0 < ·))
          e.ledger
  | .ingest page cursorId newCursorLedger faults =>
      faults.saveCursor = false ∧ cursorId = config.cursorId ∧
        Reaches page newCursorLedger e.ledger

instance (t : Step) : Decidable (PassesOver config t e) := by
  unfold PassesOver
  split <;> infer_instance

/-- The events a pass inserts. -/
def Inserts (t : Step) (e : SorobanRpcEventResponse) : Prop :=
  match t.event with
  | .poll none _ => False
  | .poll (some response) faults => Inserted response.events faults e
  | .ingest page _ _ faults => Inserted page faults e

instance (t : Step) : Decidable (Inserts t e) := by
  unfold Inserts
  split <;> infer_instance

/-- Every event of a monitored contract that the pass moves the cursor over was stored
before or is inserted. -/
def LeavesNothing (config : EventIndexerConfig) (emitted : List SorobanRpcEventResponse)
    (t : Step) : Prop :=
  ∀ e ∈ emitted, e.contractId ∈ config.contractIds → config.defaultStartLedger ≤ e.ledger →
    PassesOver config t e → Stored t.pre e ∨ Inserts t e

instance (t : Step) : Decidable (LeavesNothing config emitted t) :=
  inferInstanceAs (Decidable (∀ _ ∈ _, _))

variable {event : Event}

theorem Stored.step (stored : Stored s e) (ok : step decode config s event = some s') :
    Stored s' e := by
  cases event with
  | poll answer faults =>
      cases answer with
      | none =>
          cases ok
          exact stored
      | some response =>
          cases ok
          unfold Stored pollContractEventsOnce
          rw [ingestEvents_events]
          exact ingestAll_keeps stored
  | ingest page cursorId newCursorLedger faults =>
      cases ok
      unfold Stored
      rw [ingestEvents_events]
      exact ingestAll_keeps stored

theorem Inserts.stored (inserts : Inserts ⟨s, event, s'⟩ e)
    (ok : step decode config s event = some s') : Stored s' e := by
  cases event with
  | poll answer faults =>
      cases answer with
      | none => cases inserts
      | some response =>
          cases ok
          unfold Stored pollContractEventsOnce
          rw [ingestEvents_events]
          exact ingestAll_stores inserts
  | ingest page cursorId newCursorLedger faults =>
      cases ok
      unfold Stored
      rw [ingestEvents_events]
      exact ingestAll_stores inserts

theorem le_foldl_max {l a : Int} {ls : List Int} (le : l ≤ ls.foldl max a) :
    l ≤ a ∨ ∃ b ∈ ls, l ≤ b := by
  induction ls generalizing a with
  | nil => exact .inl le
  | cons b ls ih =>
      rcases ih le with here | ⟨c, mem, le⟩
      · by_cases first : l ≤ a
        · exact .inl first
        · exact .inr ⟨b, List.mem_cons_self, by omega⟩
      · exact .inr ⟨c, List.mem_cons_of_mem _ mem, le⟩

theorem lastLedger_reaches {l : Int} {first : SorobanRpcEventResponse}
    {rest : List SorobanRpcEventResponse} (le : l ≤ lastLedger first rest) :
    ∃ raw ∈ first :: rest, l ≤ raw.ledger := by
  rcases le_foldl_max le with here | ⟨b, mem, le⟩
  · exact ⟨first, List.mem_cons_self, here⟩
  · obtain ⟨raw, listed, rfl⟩ := List.mem_map.mp mem
    exact ⟨raw, List.mem_cons_of_mem _ listed, le⟩

theorem reaches_cases {l c : Int}
    (reaches : Reaches page (if c > 0 then some c else none) l) :
    l ≤ c ∨ ∃ raw ∈ page, l ≤ raw.ledger := by
  split at reaches
  · exact .inl reaches
  · exact .inr reaches

/-- A poll goes by the node's latest ledger, or by its page. -/
theorem reaches_newCursor {start l : Int} {response : GetEventsResponse} (ahead : start ≤ l)
    (reaches : Reaches response.events
      (if newCursor start response > 0 then some (newCursor start response) else none) l) :
    Reaches response.events ((advancedTo start response).filter (0 < ·)) l := by
  unfold newCursor at reaches
  cases latest : advancedTo start response with
  | some latestLedger =>
      rw [latest] at reaches
      by_cases positive : 0 < latestLedger
      · rw [Option.filter_some_pos (by simpa using positive)]
        simpa [positive] using reaches
      · rw [Option.filter_some_neg (by simpa using positive)]
        simpa [positive] using reaches
  | none =>
      rw [latest] at reaches
      rw [Option.filter_none]
      cases page : response.events with
      | nil =>
          rw [page] at reaches
          rcases reaches_cases reaches with le | listed
          · have le : l ≤ start - 1 := le
            omega
          · exact listed
      | cons first rest =>
          rw [page] at reaches
          rcases reaches_cases reaches with le | listed
          · exact lastLedger_reaches le
          · exact listed

/-- A ledger that the cursor has reached after a pass was passed over by it, or lay
behind the ledger it started from. -/
theorem passesOver_or {c : Int} (ok : step decode config s event = some s')
    (found : s'.cursors config.cursorId = some c) (le : e.ledger ≤ c) :
    PassesOver config ⟨s, event, s'⟩ e ∨ e.ledger < startLedger config s := by
  have behind : s.cursors config.cursorId = some c → e.ledger < startLedger config s := by
    intro found
    unfold startLedger
    rw [found]
    exact Int.lt_add_one_of_le le
  cases event with
  | poll answer faults =>
      cases answer with
      | none =>
          cases ok
          exact .inr (behind found)
      | some response =>
          cases ok
          rcases ingestEvents_cursors with kept | ⟨-, saved, c', moved, reach⟩
          · exact .inr (behind (kept.symm.trans found))
          · cases moved.symm.trans found
            by_cases ahead : startLedger config s ≤ e.ledger
            · exact .inl ⟨saved, ahead, reaches_newCursor ahead (reach _ le)⟩
            · exact .inr (by omega)
  | ingest page cursorId newCursorLedger faults =>
      cases ok
      rcases ingestEvents_cursors with kept | ⟨same, saved, c', moved, reach⟩
      · exact .inr (behind (kept.symm.trans found))
      · cases moved.symm.trans found
        exact .inl ⟨saved, same.symm, reach _ le⟩

theorem Indexed.step (indexed : Indexed config emitted s)
    (ok : step decode config s event = some s')
    (nothing : LeavesNothing config emitted ⟨s, event, s'⟩) : Indexed config emitted s' := by
  intro c found e mem monitored start le
  rcases passesOver_or ok found le with passes | behind
  · rcases nothing e mem monitored start passes with stored | inserts
    · exact stored.step ok
    · exact inserts.stored ok
  · cases cursor : s.cursors config.cursorId with
    | none =>
        simp only [startLedger, cursor] at behind
        omega
    | some c' =>
        simp only [startLedger, cursor] at behind
        exact (indexed c' cursor e mem monitored start (by omega)).step ok

/-- The page with which the node answers: the first events of the contracts asked for,
from the start ledger on. -/
def getEvents (config : EventIndexerConfig) (emitted : List SorobanRpcEventResponse)
    (start : Int) : List SorobanRpcEventResponse :=
  (emitted.filter fun e => start ≤ e.ledger ∧ e.contractId ∈ config.contractIds).take
    config.batchLimit

/-- A page that is not full leaves nothing behind, if no insert throws. -/
theorem leavesNothing_of_not_full {latestLedger : Option Int}
    (room : (getEvents config emitted (startLedger config s)).length < config.batchLimit)
    (named : ∀ e ∈ emitted, e.id ≠ "") (works : faults.inserts = []) :
    LeavesNothing config emitted ⟨s,
      .poll (some ⟨getEvents config emitted (startLedger config s), latestLedger⟩) faults, s'⟩ := by
  intro e mem monitored _ ⟨_, ahead, _⟩
  refine .inr ⟨named e mem, ?_⟩
  have listed : e ∈ getEvents config emitted (startLedger config s) := by
    unfold getEvents at room ⊢
    rw [List.length_take] at room
    rw [List.take_of_length_le (by omega), List.mem_filter]
    exact ⟨mem, by simpa using ⟨ahead, monitored⟩⟩
  obtain ⟨i, found⟩ := List.getElem?_of_mem listed
  refine ⟨(e, i), List.mem_zipIdx_iff_getElem?.mpr found, rfl, ?_⟩
  rw [works]
  exact List.not_mem_nil

def undecoded (_ : SorobanRpcEventResponse) : Decoding := ⟨"unknown", none, none⟩

def registryConfig (batchLimit : Nat) : EventIndexerConfig :=
  ⟨"default", 1, batchLimit, ["registry"]⟩

/-- Two events of one ledger. -/
def registrations : List SorobanRpcEventResponse :=
  [⟨"5-1", 5, "registry", some "a", "tls_crt"⟩, ⟨"5-2", 5, "registry", some "b", "tls_crt"⟩]

def polled (batchLimit : Nat) : List Event :=
  [.poll (some ⟨getEvents (registryConfig batchLimit) registrations 1, some 10⟩) ⟨[], false⟩]

def polledRun (batchLimit : Nat) : List Step × State :=
  (machine undecoded (registryConfig batchLimit)).play (polled batchLimit)
    ([], (machine undecoded (registryConfig batchLimit)).init)

end Talos.ContractEvents
