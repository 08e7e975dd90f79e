import Talos.Checkpoints.Substitution
import Mathlib.Data.List.Pairwise

/-!
# Checkpoint stores on one database

Several connections call `generate_key`, `rotate_key` and `seal`, and every call is a sequence of
statements that the others may come between: what is read in one is written in a later one, and a
call may stop in between. Run without the others, the statements of a call do what the call does in
`Store` (`final_call`).

In a state without a fault (`Faultless`) a pair of agent and namespace has exactly one active key
once it has a key, and its numbers increase. Every envelope can be opened in any state.
-/

namespace Talos.Checkpoints

open Database Encoding

variable {Data : Type}

/-- The statement that a call is at. -/
inductive Progress (Data : Type) where
  /-- `generate_key` looks for an active key, -/
  | generating (agentId ns : String) (draw : Draw)
  /-- and inserts one. -/
  | inserting (agentId ns : String) (draw : Draw)
  /-- `rotate_key` looks for the active key, -/
  | rotating (agentId ns : String) (draw : Draw)
  /-- and retires it; then it generates. -/
  | retiring (agentId ns : String) (draw : Draw) (oldKeyId : String)
  /-- `seal` looks for the active key, -/
  | sealing (agentId : String) (data : Data) (ns : String) (schemaVersion : Int) (stamp : Stamp)
  /-- reads the highest number, -/
  | numbering (key : KeyRow) (hmacKey encKey : Bytes) (data : Data) (schemaVersion : Int)
      (stamp : Stamp)
  /-- and inserts the envelope. -/
  | storing (entry : Sealed Data)

/-- The database, and the calls of the connections. -/
structure Connections (Data : Type) where
  store : State Data
  progress : Nat → Option (Progress Data)

inductive Event (Data : Type) where
  | start (connection : Nat) (call : Call Data)
  | next (connection : Nat)
  | crash (connection : Nat)

namespace Connections

def set (s : Connections Data) (i : Nat) (progress : Option (Progress Data)) : Connections Data :=
  { s with progress := Function.update s.progress i progress }

/-- The first statement of a call, after its agent is checked. -/
def first : Call Data → Option (Progress Data)
  | .generateKey agentId ns draw =>
      (validateAgentId agentId).toOption.map fun _ => .generating agentId ns draw
  | .rotateKey agentId ns draw =>
      (validateAgentId agentId).toOption.map fun _ => .rotating agentId ns draw
  | .«seal» agentId data ns schemaVersion stamp =>
      (validateAgentId agentId).toOption.map fun _ =>
        .sealing agentId data ns schemaVersion stamp

/-- One statement, with its commit: the database after it, and what is next if the call goes on. -/
def statement (p : Primitives Data) (s : State Data) :
    Progress Data → State Data × Option (Progress Data)
  | .generating agentId ns draw =>
      match getActiveKeyRow s.keys agentId ns with
      | some _ => (s, none)
      | none => (s, some (.inserting agentId ns draw))
  | .inserting agentId ns draw =>
      if s.keys.any (·.keyId = draw.keyId) then (s, none)
      else ({ s with keys := s.keys ++ [draw.row p agentId ns] }, none)
  | .rotating agentId ns draw =>
      match getActiveKeyRow s.keys agentId ns with
      | none => (s, none)
      | some old => (s, some (.retiring agentId ns draw old.keyId))
  | .retiring agentId ns draw oldKeyId =>
      ({ s with keys := retireKey s.keys oldKeyId }, some (.generating agentId ns draw))
  | .sealing agentId data ns schemaVersion stamp =>
      match getActiveKeyRow s.keys agentId ns with
      | none => (s, none)
      | some key =>
          match p.unwrapKey key.keyHmac, p.unwrapKey key.keyEnc with
          | some hmacKey, some encKey =>
              (s, some (.numbering key hmacKey encKey data schemaVersion stamp))
          | _, _ => (s, none)
  | .numbering key hmacKey encKey data schemaVersion stamp =>
      (s, some (.storing (sealRow p key hmacKey encKey (nextSeq s.envelopes key.agentId key.ns)
        data schemaVersion stamp)))
  | .storing entry =>
      if s.envelopes.any (·.nonce = entry.row.nonce) then (s, none)
      else
        ({ s with envelopes := s.envelopes ++ [entry.row], sealed := s.sealed ++ [entry] }, none)

def step (p : Primitives Data) (s : Connections Data) : Event Data → Option (Connections Data)
  | .start i call => match s.progress i with
    | some _ => none
    | none => some (s.set i (first call))
  | .next i => match s.progress i with
    | none => none
    | some progress =>
        let (store, rest) := statement p s.store progress
        some ({ s with store := store }.set i rest)
  | .crash i => some (s.set i none)

end Connections

/-- The connections on a new database. -/
def connections (p : Primitives Data) : Machine (Connections Data) (Event Data) where
  init := ⟨⟨[], [], []⟩, fun _ => none⟩
  step := Connections.step p

/-! ### Faults -/

/-- Two active keys of one agent and namespace. -/
def Rivals (a b : KeyRow) : Prop :=
  a.agentId = b.agentId ∧ a.ns = b.ns ∧ a.status = .active ∧ b.status = .active

/-- Envelopes of one agent and namespace, the later with the higher number. -/
def Ordered (a b : EnvelopeRow) : Prop :=
  a.agentId = b.agentId → a.ns = b.ns → a.seq < b.seq

structure Faultless (s : State Data) : Prop where
  oneActive : s.keys.Pairwise fun a b => ¬ Rivals a b
  active : ∀ row ∈ s.keys, ∃ key ∈ s.keys,
    key.agentId = row.agentId ∧ key.ns = row.ns ∧ key.status = .active
  ordered : s.envelopes.Pairwise Ordered

/-- The condition on the statement that a connection is at. -/
def Timely (s : State Data) : Progress Data → Prop
  /- A key is inserted where none is active, if it is. -/
  | .inserting agentId ns draw =>
      s.keys.any (·.keyId = draw.keyId) = true ∨ getActiveKeyRow s.keys agentId ns = none
  /- The key to retire is retired already. -/
  | .retiring _ _ _ oldKeyId => ∀ row ∈ s.keys, row.keyId = oldKeyId → row.status = .retired
  /- The number that was read is still the next one, if the envelope is inserted. -/
  | .storing entry =>
      s.envelopes.any (·.nonce = entry.row.nonce) = true ∨
        entry.row.seq = nextSeq s.envelopes entry.row.agentId entry.row.ns
  | _ => True

/-- The condition on a step. -/
def TimelyStep : Transition (Connections Data) (Event Data) → Prop
  | ⟨s, .next i, _⟩ => ∀ progress ∈ s.progress i, Timely s.store progress
  | ⟨_, .start _ _, _⟩ | ⟨_, .crash _, _⟩ => True

instance (s : State Data) (progress : Progress Data) : Decidable (Timely s progress) :=
  match progress with
  | .inserting .. => inferInstanceAs (Decidable (_ ∨ _))
  | .retiring _ _ _ oldKeyId =>
      inferInstanceAs (Decidable (∀ row ∈ s.keys, row.keyId = oldKeyId → row.status = .retired))
  | .storing .. => inferInstanceAs (Decidable (_ ∨ _))
  | .generating .. | .rotating .. | .sealing .. | .numbering .. => .isTrue trivial

instance (r : Transition (Connections Data) (Event Data)) : Decidable (TimelyStep r) :=
  match r with
  | ⟨s, .next i, _⟩ =>
      inferInstanceAs (Decidable (∀ progress ∈ s.progress i, Timely s.store progress))
  | ⟨_, .start .., _⟩ | ⟨_, .crash .., _⟩ => .isTrue trivial

/-! ### Which statements cause a fault -/

variable {p : Primitives Data} {s : State Data} {agentId ns : String}

theorem getActiveKeyRow_eq_none {keys : List KeyRow} : getActiveKeyRow keys agentId ns = none ↔
    ∀ row ∈ keys, ¬ (row.agentId = agentId ∧ row.ns = ns ∧ row.status = .active) := by
  simp only [getActiveKeyRow, List.find?_eq_none, decide_eq_true_eq]

theorem getActiveKeyRow_eq_some {keys : List KeyRow} {row : KeyRow}
    (found : getActiveKeyRow keys agentId ns = some row) :
    row ∈ keys ∧ row.agentId = agentId ∧ row.ns = ns ∧ row.status = .active :=
  ⟨List.mem_of_find?_eq_some found, by simpa using List.find?_some found⟩

instance : Std.Symm fun a b : KeyRow => ¬ Rivals a b where
  symm _ _ not rivals := not ⟨rivals.1.symm, rivals.2.1.symm, rivals.2.2.2, rivals.2.2.1⟩

theorem faultless_insert (faultless : Faultless s) (draw : Draw) :
    Faultless { s with keys := s.keys ++ [draw.row p agentId ns] } ↔
      getActiveKeyRow s.keys agentId ns = none := by
  rw [getActiveKeyRow_eq_none]
  constructor
  · rintro after row mem ⟨rfl, rfl, active⟩
    exact (List.pairwise_append.mp after.oneActive).2.2 row mem _ List.mem_cons_self
      ⟨rfl, rfl, active, rfl⟩
  · intro none
    refine ⟨?_, ?_, faultless.ordered⟩
    · refine List.pairwise_append.mpr ⟨faultless.oneActive, List.pairwise_singleton _ _, ?_⟩
      rintro a mem b new ⟨sameAgent, sameNs, active, -⟩
      obtain rfl := List.mem_singleton.mp new
      exact none a mem ⟨sameAgent, sameNs, active⟩
    · intro row mem
      rcases List.mem_append.mp mem with old | new
      · obtain ⟨key, mem, same⟩ := faultless.active row old
        exact ⟨key, List.mem_append_left _ mem, same⟩
      · obtain rfl := List.mem_singleton.mp new
        exact ⟨_, mem, rfl, rfl, rfl⟩

/-- Retiring an active key leaves its agent and namespace without one. -/
theorem faultless_retire (faultless : Faultless s) (keyId : String) :
    Faultless { s with keys := retireKey s.keys keyId } ↔
      ∀ row ∈ s.keys, row.keyId = keyId → row.status = .retired := by
  constructor
  · rintro after row mem rfl
    by_contra notRetired
    have active : row.status = .active := by
      cases status : row.status with
      | active => rfl
      | retired => exact absurd status notRetired
    have listed : ({ row with status := .retired } : KeyRow) ∈ retireKey s.keys row.keyId :=
      List.mem_map.mpr ⟨row, mem, if_pos rfl⟩
    obtain ⟨key, left, sameAgent, sameNs, active'⟩ := after.active _ listed
    obtain ⟨other, before, rfl⟩ := List.mem_map.mp left
    split_ifs at active' sameAgent sameNs with same
    · have distinct : other ≠ row := by
        rintro rfl
        exact same rfl
      exact faultless.oneActive.forall before mem distinct ⟨sameAgent, sameNs, active', active⟩
  · intro retired
    have same : retireKey s.keys keyId = s.keys := by
      conv_rhs => rw [← List.map_id s.keys]
      refine List.map_congr_left fun row mem => ?_
      split_ifs with is
      · rw [id, ← retired row mem is]
      · rfl
    rwa [same]

theorem lt_nextSeq {envelopes : List EnvelopeRow} {row : EnvelopeRow} (mem : row ∈ envelopes) :
    row.seq < nextSeq envelopes row.agentId row.ns := by
  have listed : row.seq ∈ (envelopes.filter fun r => r.agentId = row.agentId ∧ r.ns = row.ns).map
      (·.seq) := List.mem_map_of_mem (List.mem_filter.mpr ⟨mem, by simp⟩)
  rw [nextSeq]
  cases most : ((envelopes.filter fun r => r.agentId = row.agentId ∧ r.ns = row.ns).map
      (·.seq)).max? with
  | none =>
      rw [List.max?_eq_none_iff] at most
      rw [most] at listed
      cases listed
  | some m => exact Int.lt_add_one_of_le ((List.max?_eq_some_iff.mp most).2 _ listed)

theorem nextSeq_le {envelopes : List EnvelopeRow} {k : Int} (pos : 1 ≤ k)
    (above : ∀ row ∈ envelopes, row.agentId = agentId → row.ns = ns → row.seq < k) :
    nextSeq envelopes agentId ns ≤ k := by
  rw [nextSeq]
  cases most : ((envelopes.filter fun r => r.agentId = agentId ∧ r.ns = ns).map (·.seq)).max? with
  | none => exact pos
  | some m =>
      obtain ⟨row, mem, rfl⟩ := List.mem_map.mp (List.max?_mem most)
      obtain ⟨mem, same⟩ := List.mem_filter.mp mem
      have same : row.agentId = agentId ∧ row.ns = ns := by simpa using same
      exact above row mem same.1 same.2

/-- An envelope that does not have the next number comes after one with its number. -/
theorem faultless_store (faultless : Faultless s) (row : EnvelopeRow) (pos : 1 ≤ row.seq)
    (most : row.seq ≤ nextSeq s.envelopes row.agentId row.ns) (more : List (Sealed Data)) :
    Faultless { s with envelopes := s.envelopes ++ [row], sealed := more } ↔
      row.seq = nextSeq s.envelopes row.agentId row.ns := by
  constructor
  · intro after
    refine le_antisymm most (nextSeq_le pos fun other mem sameAgent sameNs => ?_)
    exact (List.pairwise_append.mp after.ordered).2.2 other mem row List.mem_cons_self
      sameAgent sameNs
  · intro isNext
    refine ⟨faultless.oneActive, faultless.active, ?_⟩
    refine List.pairwise_append.mpr ⟨faultless.ordered, List.pairwise_singleton _ _, ?_⟩
    intro other mem new isNew sameAgent sameNs
    obtain rfl := List.mem_singleton.mp isNew
    rw [isNext, ← sameAgent, ← sameNs]
    exact lt_nextSeq mem

/-! ### What holds in every state -/

/-- The key is in the table, retired or not, and its two keys can be unwrapped. -/
def Known (p : Primitives Data) (keys : List KeyRow) (key : KeyRow) (hmacKey encKey : Bytes) :
    Prop :=
  (∃ row ∈ keys, row.keyId = key.keyId ∧ row.keyHmac = key.keyHmac ∧ row.keyEnc = key.keyEnc) ∧
    p.unwrapKey key.keyHmac = some hmacKey ∧ p.unwrapKey key.keyEnc = some encKey

/-- The entry was made with a key of the table. -/
def Origin (p : Primitives Data) (keys : List KeyRow) (entry : Sealed Data) : Prop :=
  ∃ key hmacKey encKey seq data schemaVersion stamp, Known p keys key hmacKey encKey ∧
    entry = sealRow p key hmacKey encKey seq data schemaVersion stamp

/-- What a call has in its hands. -/
def Held (p : Primitives Data) (s : State Data) : Progress Data → Prop
  | .numbering key hmacKey encKey _ _ _ => Known p s.keys key hmacKey encKey
  | .storing entry => Origin p s.keys entry ∧ 1 ≤ entry.row.seq ∧
      entry.row.seq ≤ nextSeq s.envelopes entry.row.agentId entry.row.ns
  | _ => True

structure SaneStore (p : Primitives Data) (s : State Data) : Prop where
  keyIds : (s.keys.map KeyRow.keyId).Nodup
  nonces : (s.envelopes.map EnvelopeRow.nonce).Nodup
  rows : s.envelopes = s.sealed.map (·.row)
  positive : ∀ row ∈ s.envelopes, 1 ≤ row.seq
  origins : ∀ entry ∈ s.sealed, Origin p s.keys entry

structure Sane (p : Primitives Data) (s : Connections Data) : Prop where
  store : SaneStore p s.store
  held : ∀ i progress, s.progress i = some progress → Held p s.store progress

/-- Keys are not lost and numbers do not go back. -/
structure Grows (s s' : State Data) : Prop where
  keys : ∀ row ∈ s.keys, ∃ row' ∈ s'.keys,
    row'.keyId = row.keyId ∧ row'.keyHmac = row.keyHmac ∧ row'.keyEnc = row.keyEnc
  numbers : ∀ agentId ns, nextSeq s.envelopes agentId ns ≤ nextSeq s'.envelopes agentId ns

variable {s' : State Data} {progress : Progress Data}

theorem grows_refl (s : State Data) : Grows s s :=
  ⟨fun row mem => ⟨row, mem, rfl, rfl, rfl⟩, fun _ _ => le_rfl⟩

theorem nextSeq_pos {envelopes : List EnvelopeRow} (positive : ∀ row ∈ envelopes, 1 ≤ row.seq)
    (agentId ns : String) : 1 ≤ nextSeq envelopes agentId ns := by
  rw [nextSeq]
  cases most : ((envelopes.filter fun r => r.agentId = agentId ∧ r.ns = ns).map (·.seq)).max? with
  | none => exact le_rfl
  | some m =>
      obtain ⟨row, mem, rfl⟩ := List.mem_map.mp (List.max?_mem most)
      have pos := positive row (List.mem_filter.mp mem).1
      exact pos.trans (Int.le_add_one le_rfl)

theorem grows_keys {keys : List KeyRow} (kept : ∀ row ∈ s.keys, ∃ row' ∈ keys,
    row'.keyId = row.keyId ∧ row'.keyHmac = row.keyHmac ∧ row'.keyEnc = row.keyEnc) :
    Grows s { s with keys := keys } :=
  ⟨kept, fun _ _ => le_rfl⟩

theorem grows_store (positive : ∀ row ∈ s.envelopes, 1 ≤ row.seq) {row : EnvelopeRow}
    (pos : 1 ≤ row.seq) (more : List (Sealed Data)) :
    Grows s { s with envelopes := s.envelopes ++ [row], sealed := more } where
  keys row mem := ⟨row, mem, rfl, rfl, rfl⟩
  numbers agentId ns := by
    refine nextSeq_le (nextSeq_pos ?_ _ _) fun other mem sameAgent sameNs => ?_
    · intro other mem
      rcases List.mem_append.mp mem with old | new
      · exact positive other old
      · rwa [List.mem_singleton.mp new]
    · rw [← sameAgent, ← sameNs]
      exact lt_nextSeq (List.mem_append_left _ mem)

theorem Known.grow {key : KeyRow} {hmacKey encKey : Bytes}
    (known : Known p s.keys key hmacKey encKey) (grows : Grows s s') :
    Known p s'.keys key hmacKey encKey := by
  obtain ⟨⟨row, mem, id, hmac, enc⟩, unwrapped⟩ := known
  obtain ⟨row', mem', id', hmac', enc'⟩ := grows.keys row mem
  exact ⟨⟨row', mem', id'.trans id, hmac'.trans hmac, enc'.trans enc⟩, unwrapped⟩

theorem Origin.grow {entry : Sealed Data} (origin : Origin p s.keys entry) (grows : Grows s s') :
    Origin p s'.keys entry := by
  obtain ⟨key, hmacKey, encKey, seq, data, schemaVersion, stamp, known, same⟩ := origin
  exact ⟨key, hmacKey, encKey, seq, data, schemaVersion, stamp, known.grow grows, same⟩

theorem Held.grow (held : Held p s progress) (grows : Grows s s') : Held p s' progress := by
  cases progress with
  | numbering => exact Known.grow held grows
  | storing entry =>
      exact ⟨held.1.grow grows, held.2.1, held.2.2.trans (grows.numbers _ _)⟩
  | generating | inserting | rotating | retiring | sealing => trivial

/-- A statement keeps the table in order, and the call has in its hands what is there. -/
theorem statement_sane (sane : SaneStore p s) (held : Held p s progress) :
    SaneStore p (Connections.statement p s progress).1 ∧
      Grows s (Connections.statement p s progress).1 ∧
      ∀ rest, (Connections.statement p s progress).2 = some rest →
        Held p (Connections.statement p s progress).1 rest := by
  have nothing : SaneStore p s ∧ Grows s s ∧
      ∀ rest : Progress Data, none = some rest → Held p s rest :=
    ⟨sane, grows_refl s, nofun⟩
  cases progress with
  | generating agentId ns draw =>
      rw [Connections.statement]
      cases getActiveKeyRow s.keys agentId ns with
      | some row => exact nothing
      | none =>
          refine ⟨sane, grows_refl s, ?_⟩
          rintro rest ⟨⟩
          trivial
  | inserting agentId ns draw =>
      rw [Connections.statement]
      by_cases taken : s.keys.any (·.keyId = draw.keyId) = true
      · rw [if_pos taken]
        exact nothing
      · rw [if_neg taken]
        have grows : Grows s { s with keys := s.keys ++ [draw.row p agentId ns] } :=
          grows_keys fun row mem => ⟨row, List.mem_append_left _ mem, rfl, rfl, rfl⟩
        refine ⟨⟨?_, sane.nonces, sane.rows, sane.positive, fun entry mem =>
          (sane.origins entry mem).grow grows⟩, grows, nofun⟩
        rw [List.map_append, List.map_singleton]
        refine sane.keyIds.append (List.nodup_singleton _)
          (List.disjoint_singleton.mpr fun mem => ?_)
        obtain ⟨row, mem, same⟩ := List.mem_map.mp mem
        exact taken (List.any_eq_true.mpr ⟨row, mem, decide_eq_true same⟩)
  | rotating agentId ns draw =>
      rw [Connections.statement]
      cases getActiveKeyRow s.keys agentId ns with
      | none => exact nothing
      | some row =>
          refine ⟨sane, grows_refl s, ?_⟩
          rintro rest ⟨⟩
          trivial
  | retiring agentId ns draw oldKeyId =>
      have grows : Grows s { s with keys := retireKey s.keys oldKeyId } := by
        refine grows_keys fun row mem => ⟨_, List.mem_map_of_mem mem, ?_⟩
        split_ifs <;> exact ⟨rfl, rfl, rfl⟩
      have ids : (retireKey s.keys oldKeyId).map KeyRow.keyId = s.keys.map KeyRow.keyId := by
        rw [retireKey, List.map_map]
        refine List.map_congr_left fun row _ => ?_
        rw [Function.comp_apply]
        split_ifs <;> rfl
      refine ⟨⟨ids ▸ sane.keyIds, sane.nonces, sane.rows, sane.positive, fun entry mem =>
        (sane.origins entry mem).grow grows⟩, grows, ?_⟩
      rintro rest ⟨⟩
      trivial
  | sealing agentId data ns schemaVersion stamp =>
      rw [Connections.statement]
      cases found : getActiveKeyRow s.keys agentId ns with
      | none => exact nothing
      | some key =>
          dsimp only
          split
          · next hmacKey encKey unwrapped unwrapped' =>
            refine ⟨sane, grows_refl s, ?_⟩
            rintro rest ⟨⟩
            exact ⟨⟨key, (getActiveKeyRow_eq_some found).1, rfl, rfl, rfl⟩, unwrapped, unwrapped'⟩
          · exact nothing
  | numbering key hmacKey encKey data schemaVersion stamp =>
      refine ⟨sane, grows_refl s, ?_⟩
      rintro rest ⟨⟩
      exact ⟨⟨key, hmacKey, encKey, _, data, schemaVersion, stamp, held, rfl⟩,
        nextSeq_pos sane.positive _ _, le_rfl⟩
  | storing entry =>
      obtain ⟨origin, pos, -⟩ := held
      rw [Connections.statement]
      by_cases taken : s.envelopes.any (·.nonce = entry.row.nonce) = true
      · rw [if_pos taken]
        exact nothing
      · rw [if_neg taken]
        have grows := grows_store sane.positive pos (s.sealed ++ [entry])
        refine ⟨⟨sane.keyIds, ?_, ?_, fun row mem => ?_, fun other mem => ?_⟩, grows, nofun⟩
        · rw [List.map_append, List.map_singleton]
          refine sane.nonces.append (List.nodup_singleton _)
            (List.disjoint_singleton.mpr fun mem => ?_)
          obtain ⟨row, mem, same⟩ := List.mem_map.mp mem
          exact taken (List.any_eq_true.mpr ⟨row, mem, decide_eq_true same⟩)
        · rw [sane.rows, List.map_append, List.map_singleton]
        · rcases List.mem_append.mp mem with old | new
          · exact sane.positive row old
          · rwa [List.mem_singleton.mp new]
        · rcases List.mem_append.mp mem with old | new
          · exact sane.origins other old
          · rwa [List.mem_singleton.mp new]

theorem held_set {s : Connections Data} {store : State Data} {i : Nat}
    {rest : Option (Progress Data)} (held : ∀ j progress, s.progress j = some progress →
      Held p store progress) (new : ∀ progress, rest = some progress → Held p store progress)
    (j : Nat) (progress : Progress Data)
    (at' : Function.update s.progress i rest j = some progress) : Held p store progress := by
  by_cases same : j = i
  · subst same
    rw [Function.update_self] at at'
    exact new progress at'
  · rw [Function.update_of_ne same] at at'
    exact held j progress at'

theorem held_first (store : State Data) (call : Call Data) (progress : Progress Data)
    (first : Connections.first call = some progress) : Held p store progress := by
  cases call with
  | generateKey | rotateKey | «seal» =>
      obtain ⟨-, -, rfl⟩ := Option.map_eq_some_iff.mp first
      trivial

theorem sane_step {s s' : Connections Data} {e : Event Data} (sane : Sane p s)
    (ok : (connections p).step s e = some s') : Sane p s' := by
  cases e with
  | start i call =>
      rw [connections] at ok
      simp only [Connections.step] at ok
      split at ok
      · cases ok
      · obtain rfl := Option.some.inj ok
        exact ⟨sane.store, held_set sane.held (held_first _ call)⟩
  | next i =>
      rw [connections] at ok
      simp only [Connections.step] at ok
      split at ok
      · cases ok
      · next progress at' =>
        obtain rfl := Option.some.inj ok
        obtain ⟨store, grows, held⟩ := statement_sane sane.store (sane.held i progress at')
        exact ⟨store, held_set (fun j other is => (sane.held j other is).grow grows) held⟩
  | crash i =>
      obtain rfl := Option.some.inj ok
      exact ⟨sane.store, held_set sane.held nofun⟩

theorem sane_init (p : Primitives Data) : Sane p (connections p).init where
  store := ⟨List.nodup_nil, List.nodup_nil, rfl, nofun, nofun⟩
  held _ _ is := nomatch is

/-! ### Opening -/

theorem find?_of_nodup {α β : Type} [DecidableEq β] {f : α → β} {l : List α} {a : α}
    (nodup : (l.map f).Nodup) (mem : a ∈ l) : l.find? (f · = f a) = some a := by
  cases found : l.find? (f · = f a) with
  | none =>
      have missing := List.find?_eq_none.mp found a mem
      simp at missing
  | some b =>
      have same : f b = f a := by simpa using List.find?_some found
      rw [List.inj_on_of_nodup_map nodup (List.mem_of_find?_eq_some found) mem same]

/-- A sealed envelope verifies and decrypts under any keys that have its own. -/
theorem verifyAndDecrypt_sealed {key : KeyRow} {hmacKey encKey : Bytes} {seq : Int} {data : Data}
    {schemaVersion : Int} {stamp : Stamp} {keys : List KeyRow}
    (ids : (keys.map KeyRow.keyId).Nodup) (known : Known p keys key hmacKey encKey) :
    openPayload p keys none
      (sealRow p key hmacKey encKey seq data schemaVersion stamp).row.payload = .ok data := by
  obtain ⟨⟨row, mem, id, hmac, enc⟩, unwrapped, unwrapped'⟩ := known
  have found : findKey keys (.str key.keyId) = .ok row := by
    have first := find?_of_nodup ids mem
    simp only [findKey, Value.bind, Option.some_inj, ← id, first]
  rw [← hmac] at unwrapped
  rw [← enc] at unwrapped'
  have read : b64decode (b64encode (p.encrypt encKey stamp.ctNonce (p.dumps data))) =
      some (p.encrypt encKey stamp.ctNonce (p.dumps data)) := b64decode_b64encode _
  have read' : b64decode (b64encode stamp.ctNonce) = some stamp.ctNonce := b64decode_b64encode _
  rw [sealRow, openPayload, verifyAndDecrypt_eq_ok]
  refine ⟨rfl, ?_, row, found, hmacKey, unwrapped, encKey, unwrapped', _, rfl, rfl, p.dumps data,
    decryptCiphertext_eq_ok.mpr ?_, p.loads_dumps data⟩
  · rintro agentId ⟨⟩
  · exact ⟨_, read, _, read', p.decrypt_encrypt _ _ _⟩

/-- Every stored envelope can be opened, and has the data that was sealed. -/
theorem open_stored (sane : SaneStore p s) {row : EnvelopeRow} (mem : row ∈ s.envelopes) :
    ∃ entry ∈ s.sealed, entry.row = row ∧
      «open» p s.keys s.envelopes row.nonce none = .ok entry.data := by
  rw [sane.rows] at mem
  obtain ⟨entry, listed, rfl⟩ := List.mem_map.mp mem
  refine ⟨entry, listed, rfl, ?_⟩
  obtain ⟨key, hmacKey, encKey, seq, data, schemaVersion, stamp, known, rfl⟩ :=
    sane.origins entry listed
  have found := find?_of_nodup sane.nonces (sane.rows ▸ mem)
  rw [«open», found]
  exact verifyAndDecrypt_sealed sane.keyIds known

/-! ### Calls of one connection -/

namespace Connections

/-- `n` statements of a call with no other between them. -/
def alone (p : Primitives Data) : Nat → State Data → Option (Progress Data) → State Data
  | 0, s, _ => s
  | _ + 1, s, none => s
  | n + 1, s, some progress => alone p n (statement p s progress).1 (statement p s progress).2

theorem alone_none (n : Nat) : alone p n s none = s := by
  cases n <;> rfl

theorem final_next (p : Primitives Data) (n : Nat) (s : Connections Data) :
    ((connections p).final (List.replicate n (.next 0)) s).store =
      alone p n s.store (s.progress 0) := by
  induction n generalizing s with
  | zero => rfl
  | succ n ih =>
      rw [List.replicate_succ]
      cases at' : s.progress 0 with
      | none =>
          have pass : (connections p).step s (.next 0) = none := by
            rw [connections]
            simp only [step, at']
          rw [Machine.final_pass pass, ih, at', alone_none, alone]
      | some progress =>
          have go : (connections p).step s (.next 0) =
              some ({ s with store := (statement p s.store progress).1 }.set 0
                (statement p s.store progress).2) := by
            rw [connections]
            simp only [step, at']
          rw [Machine.final_cons go, ih, alone]
          simp only [set, Function.update_self]

theorem alone_generating (p : Primitives Data) (s : State Data) {draw : Draw}
    (valid : validateAgentId agentId = .ok ()) (n : Nat) :
    alone p (n + 2) s (some (.generating agentId ns draw)) =
      (generateKey p s agentId ns draw).2 := by
  rw [alone, statement, generateKey, valid]
  cases getActiveKeyRow s.keys agentId ns with
  | some row => exact alone_none _
  | none =>
      dsimp only
      rw [alone, statement]
      split_ifs <;> exact alone_none _

theorem alone_call (p : Primitives Data) (s : State Data) (c : Call Data) :
    alone p 4 s (first c) = call p s c := by
  cases c with
  | generateKey agentId ns draw =>
      rw [call, first]
      cases valid : validateAgentId agentId with
      | error e =>
          rw [generateKey, valid]
          rfl
      | ok u => exact alone_generating p s valid 2
  | rotateKey agentId ns draw =>
      rw [call, first, rotateKey]
      cases valid : validateAgentId agentId with
      | error e => rfl
      | ok u =>
          dsimp only [Except.toOption, Option.map_some]
          rw [alone, statement]
          cases getActiveKeyRow s.keys agentId ns with
          | none => rfl
          | some old => exact alone_generating p _ valid 0
  | «seal» agentId data ns schemaVersion stamp =>
      rw [call, first, «seal»]
      cases valid : validateAgentId agentId with
      | error e => rfl
      | ok u =>
          dsimp only [Except.toOption, Option.map_some]
          rw [alone, statement]
          cases found : getActiveKeyRow s.keys agentId ns with
          | none => rfl
          | some key =>
              obtain ⟨-, rfl, rfl, -⟩ := getActiveKeyRow_eq_some found
              dsimp only
              cases p.unwrapKey key.keyHmac with
              | none => rfl
              | some hmacKey =>
                  cases p.unwrapKey key.keyEnc with
                  | none => rfl
                  | some encKey =>
                      dsimp only
                      rw [alone, statement, alone, statement]
                      split_ifs with taken unique unique
                      · rfl
                      · exact absurd taken unique
                      · exact absurd unique taken
                      · rfl

end Connections

theorem final_call (p : Primitives Data) (s : State Data) (c : Call Data) :
    ((connections p).final (.start 0 c :: List.replicate 4 (.next 0)) ⟨s, fun _ => none⟩).store =
      call p s c := by
  have started : (connections p).step ⟨s, fun _ => none⟩ (.start 0 c) =
      some (Connections.set ⟨s, fun _ => none⟩ 0 (Connections.first c)) := rfl
  rw [Machine.final_cons started, Connections.final_next]
  simp only [Connections.set, Function.update_self]
  exact Connections.alone_call p s c

/-! ### Runs -/

theorem faultless_statement (held : Held p s progress) (faultless : Faultless s) :
    Faultless (Connections.statement p s progress).1 ↔ Timely s progress := by
  cases progress with
  | generating | rotating =>
      rw [Connections.statement]
      split <;> exact iff_of_true faultless trivial
  | inserting agentId ns draw =>
      rw [Connections.statement, Timely]
      by_cases taken : s.keys.any (·.keyId = draw.keyId) = true
      · rw [if_pos taken]
        exact iff_of_true faultless (.inl taken)
      · rw [if_neg taken, faultless_insert faultless]
        exact ⟨.inr, fun timely => timely.resolve_left taken⟩
  | retiring agentId ns draw oldKeyId => exact faultless_retire faultless oldKeyId
  | sealing =>
      rw [Connections.statement]
      split
      · exact iff_of_true faultless trivial
      · split <;> exact iff_of_true faultless trivial
  | numbering => exact iff_of_true faultless trivial
  | storing entry =>
      obtain ⟨-, pos, most⟩ := held
      rw [Connections.statement, Timely]
      by_cases taken : s.envelopes.any (·.nonce = entry.row.nonce) = true
      · rw [if_pos taken]
        exact iff_of_true faultless (.inl taken)
      · rw [if_neg taken, faultless_store faultless entry.row pos most]
        exact ⟨.inr, fun timely => timely.resolve_left taken⟩

theorem faultless_step {s s' : Connections Data} {e : Event Data} (sane : Sane p s)
    (faultless : Faultless s.store) (ok : (connections p).step s e = some s') :
    Faultless s'.store ↔ TimelyStep ⟨s, e, s'⟩ := by
  cases e with
  | start i call =>
      rw [connections] at ok
      simp only [Connections.step] at ok
      split at ok
      · cases ok
      · obtain rfl := Option.some.inj ok
        exact iff_of_true faultless trivial
  | next i =>
      rw [connections] at ok
      simp only [Connections.step] at ok
      split at ok
      · cases ok
      · next progress at' =>
        obtain rfl := Option.some.inj ok
        refine (faultless_statement (sane.held i progress at') faultless).trans ?_
        constructor
        · intro timely other is
          obtain rfl := Option.some.inj (at'.symm.trans is)
          exact timely
        · intro timely
          exact timely progress at'
  | crash i =>
      obtain rfl := Option.some.inj ok
      exact iff_of_true faultless trivial

theorem faultless_iff {h : List (Transition (Connections Data) (Event Data))}
    {t : Connections Data} (run : Run (connections p) h t) :
    ((∀ r ∈ h, Faultless r.post.store) ↔ ∀ r ∈ h, TimelyStep r) ∧
      ∀ row ∈ t.store.envelopes, ∃ entry ∈ t.store.sealed, entry.row = row ∧
        «open» p t.store.keys t.store.envelopes row.nonce none = .ok entry.data := by
  have sane : Sane p t := run.invariant (sane_init p) sane_step
  refine ⟨?_, fun row mem => open_stored sane.store mem⟩
  exact run.states_iff (sane_init p) ⟨List.Pairwise.nil, nofun, List.Pairwise.nil⟩ sane_step
    faultless_step

/-! ### Three schedules -/

instance (a b : KeyRow) : Decidable (Rivals a b) := inferInstanceAs (Decidable (_ ∧ _ ∧ _ ∧ _))

instance (a b : EnvelopeRow) : Decidable (Ordered a b) := inferInstanceAs (Decidable (_ → _ → _))

def drawn (keyId : String) : Draw := ⟨keyId, [1], [2], [], []⟩

def sealBy (data nonce : String) : Call String := .«seal» "agent" data "" 1 ⟨"t", nonce, [3]⟩

/-- One connection makes a key and two seal, one after the other. -/
def inTurn : List (Event String) :=
  [.start 0 (.generateKey "agent" "" (drawn "k0")), .next 0, .next 0,
    .start 0 (sealBy "first" "n0"), .next 0, .next 0, .next 0,
    .start 1 (sealBy "second" "n1"), .next 1, .next 1, .next 1]

/-- The same, but both read the number before one stores its envelope. -/
def oneNumber : List (Event String) :=
  [.start 0 (.generateKey "agent" "" (drawn "k0")), .next 0, .next 0,
    .start 0 (sealBy "first" "n0"), .start 1 (sealBy "second" "n1"),
    .next 0, .next 0, .next 1, .next 1, .next 0, .next 1]

/-- Both look for an active key before one inserts its own. -/
def twoActive : List (Event String) :=
  [.start 0 (.generateKey "agent" "" (drawn "k0")),
    .start 1 (.generateKey "agent" "" (drawn "k1")), .next 0, .next 1, .next 0, .next 1]

/-- A rotation stops when the old key is retired. -/
def noActive : List (Event String) :=
  [.start 0 (.generateKey "agent" "" (drawn "k0")), .next 0, .next 0,
    .start 0 (.rotateKey "agent" "" (drawn "k1")), .next 0, .next 0, .crash 0]

abbrev played (events : List (Event String)) :
    List (Transition (Connections String) (Event String)) × Connections String :=
  (connections examplePrimitives).play events ([], (connections examplePrimitives).init)

theorem faultless_inTurn :
    (∀ r ∈ (played inTurn).1, Faultless r.post.store) ∧
      ∀ row ∈ (played inTurn).2.store.envelopes, ∃ entry ∈ (played inTurn).2.store.sealed,
        entry.row = row ∧ «open» examplePrimitives (played inTurn).2.store.keys
          (played inTurn).2.store.envelopes row.nonce none = .ok entry.data :=
  (faultless_iff (Machine.play_run _ inTurn)).imp_left fun timely =>
    timely.mpr (by decide)

theorem not_faultless :
    ¬ (∀ h t, Run (connections examplePrimitives) h t →
        t.store.keys.Pairwise fun a b => ¬ Rivals a b) ∧
      ¬ (∀ h t, Run (connections examplePrimitives) h t → ∀ row ∈ t.store.keys,
        ∃ key ∈ t.store.keys,
          key.agentId = row.agentId ∧ key.ns = row.ns ∧ key.status = .active) ∧
      ¬ ∀ h t, Run (connections examplePrimitives) h t → t.store.envelopes.Pairwise Ordered := by
  refine ⟨fun always => ?_, fun always => ?_, fun always => ?_⟩
  · exact absurd (always _ _ (Machine.play_run _ twoActive)) (by decide)
  · exact absurd (always _ _ (Machine.play_run _ noActive)) (by decide)
  · exact absurd (always _ _ (Machine.play_run _ oneNumber)) (by decide)

end Talos.Checkpoints
