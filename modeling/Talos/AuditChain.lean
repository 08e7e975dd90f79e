import Talos.Encoding.Json

/-!
# The audit log hash chain

`verifyChain` walks the audit rows of one agent and checks sequence numbers, links
and recomputed hashes; rows from before the chain are skipped. The hash of a row
covers the row's own entry and not the link to the row before it, so the root of an
accepted chain fixes its length and its last entry (`sameRoot_iff`) and nothing
else: every earlier entry can be replaced under the same root
(`determined_iff_length_le_one`).

SHA-256 is a parameter; what is proved about hashes assumes it injective.
-/

namespace Talos.AuditChain

open Encoding

def auditChainDomain : String := "talos.audit.v1"

/-- The `previousHash` of a first entry. -/
def genesisHash : String := "GENESIS"

structure AuditChainEntry where
  sequenceNumber : Int
  talosId : String
  method : String
  path : String
  statusCode : Int
  ipAddress : Option String
  createdAt : String
  deriving DecidableEq

/-- The members of the JSON object, in the order they are written. -/
def canonicalChars (e : AuditChainEntry) : List Char :=
  "\x7b\"sequenceNumber\":".toList ++ ((jsonInteger e.sequenceNumber ++ [',']) ++
  ("\"talosId\":".toList ++ (jsonString e.talosId ++
  (",\"method\":".toList ++ (jsonString e.method ++
  (",\"path\":".toList ++ (jsonString e.path ++
  (",\"statusCode\":".toList ++ ((jsonInteger e.statusCode ++ [',']) ++
  ("\"ipAddress\":".toList ++ (jsonNullable e.ipAddress ++
  (",\"createdAt\":".toList ++ (jsonString e.createdAt ++ "\x7d".toList)))))))))))))

def canonicalize (e : AuditChainEntry) : String := String.ofList (canonicalChars e)

def payload (e : AuditChainEntry) : String := auditChainDomain ++ ":" ++ canonicalize e

def computeEntryHash (sha256 : String → String) (e : AuditChainEntry) : String :=
  sha256 (payload e)

/-- One row as `verifyChain` receives it. -/
structure AuditRow where
  sequenceNumber : Option Int
  entryHash : Option String
  previousHash : Option String
  chainVersion : Option String
  talosId : String
  method : String
  path : String
  statusCode : Int
  ipAddress : Option String
  createdAt : Date
  deriving DecidableEq

/-- A nullable text that is null or empty, JavaScript's `!value`. -/
def falsy (s : Option String) : Bool := s.getD "" = ""

/-- Rows that predate the hash chain. -/
def AuditRow.isLegacy (row : AuditRow) : Bool :=
  row.sequenceNumber = none || falsy row.entryHash || falsy row.previousHash ||
    falsy row.chainVersion

/-- The entry whose hash is recomputed. -/
def AuditRow.entry (row : AuditRow) : Option AuditChainEntry :=
  row.sequenceNumber.map fun n =>
    { sequenceNumber := n
      talosId := row.talosId
      method := row.method
      path := row.path
      statusCode := row.statusCode
      ipAddress := row.ipAddress
      createdAt := row.createdAt.toISOString }

structure ChainVerificationResult where
  valid : Bool
  totalEntries : Nat
  verifiedEntries : Nat
  brokenAtSequence : Option Int
  chainVersion : Option String
  deriving DecidableEq

section

variable (sha256 : String → String)

/-- The loop of `verifyChain` over the rows still to check; `rows` are all of them. -/
def verifyFrom (rows : List AuditRow) :
    List AuditRow → Option String → Nat → Nat → ChainVerificationResult
  | [], _, _, verifiedCount =>
      { valid := true
        totalEntries := rows.length
        verifiedEntries := verifiedCount
        brokenAtSequence := none
        chainVersion := rows.getLast?.bind AuditRow.chainVersion }
  | row :: rest, previousEntryHash, chainIndex, verifiedCount =>
      let broken : ChainVerificationResult :=
        { valid := false
          totalEntries := rows.length
          verifiedEntries := verifiedCount
          brokenAtSequence := row.sequenceNumber
          chainVersion := row.chainVersion }
      if row.isLegacy then verifyFrom rows rest previousEntryHash chainIndex verifiedCount
      else if row.sequenceNumber ≠ some (chainIndex : Int) then broken
      else if row.previousHash ≠ some (previousEntryHash.getD genesisHash) then broken
      else if row.entry.map (computeEntryHash sha256) ≠ row.entryHash then broken
      else verifyFrom rows rest row.entryHash (chainIndex + 1) (verifiedCount + 1)

/-- The empty log and every full pass are the loop's last line. -/
def verifyChain (rows : List AuditRow) : ChainVerificationResult :=
  verifyFrom sha256 rows rows none 0 0

/-- What an accepted log without legacy rows is, from chain index `i` and the hash
of the row before. -/
def Linked : Option String → Nat → List AuditRow → Prop
  | _, _, [] => True
  | prev, i, row :: rest =>
      row.sequenceNumber = some (i : Int) ∧ row.previousHash = some (prev.getD genesisHash) ∧
        row.entry.map (computeEntryHash sha256) = row.entryHash ∧
        Linked row.entryHash (i + 1) rest

/-- An accepted log none of whose rows predates the chain. -/
def Accepted (rows : List AuditRow) : Prop :=
  (verifyChain sha256 rows).valid = true ∧ ∀ row ∈ rows, row.isLegacy = false

end

/-- The fields of a row the chain is to protect. -/
structure Content where
  sequenceNumber : Option Int
  talosId : String
  method : String
  path : String
  statusCode : Int
  ipAddress : Option String
  createdAt : Date
  deriving DecidableEq

def AuditRow.content (row : AuditRow) : Content :=
  { sequenceNumber := row.sequenceNumber
    talosId := row.talosId
    method := row.method
    path := row.path
    statusCode := row.statusCode
    ipAddress := row.ipAddress
    createdAt := row.createdAt }

/-- Both logs have a last row, and the two carry one entry hash. -/
def SameRoot (rows rows' : List AuditRow) : Prop :=
  ∃ last last', rows.getLast? = some last ∧ rows'.getLast? = some last' ∧
    last.entryHash = last'.entryHash

/-! ### What one hash covers -/

theorem canonicalize_injective : Function.Injective canonicalize := by
  intro d e same
  have chars : canonicalChars d = canonicalChars e := String.ofList_injective same
  unfold canonicalChars at chars
  obtain ⟨sequence, rest⟩ := jsonInteger_comma_selfDelimiting (List.append_cancel_left chars)
  obtain ⟨talos, rest⟩ := jsonString_selfDelimiting (List.append_cancel_left rest)
  obtain ⟨method, rest⟩ := jsonString_selfDelimiting (List.append_cancel_left rest)
  obtain ⟨path, rest⟩ := jsonString_selfDelimiting (List.append_cancel_left rest)
  obtain ⟨status, rest⟩ := jsonInteger_comma_selfDelimiting (List.append_cancel_left rest)
  obtain ⟨ip, rest⟩ := jsonNullable_selfDelimiting (List.append_cancel_left rest)
  obtain ⟨created, _⟩ := jsonString_selfDelimiting (List.append_cancel_left rest)
  cases d
  cases e
  simp only [AuditChainEntry.mk.injEq]
  exact ⟨sequence, talos, method, path, status, ip, created⟩

theorem payload_injective : Function.Injective payload := by
  intro d e same
  have lists := congrArg String.toList same
  rw [payload, payload, String.toList_append, @String.toList_append _ (canonicalize e)] at lists
  exact canonicalize_injective (String.toList_inj.mp (List.append_cancel_left lists))

section Hashes

variable {sha256 : String → String}

theorem computeEntryHash_injective (inj : Function.Injective sha256) :
    Function.Injective (computeEntryHash sha256) :=
  fun _ _ same => payload_injective (inj same)

theorem content_eq_of_entry {r r' : AuditRow} (same : r.entry = r'.entry)
    (numbered : r.sequenceNumber.isSome) : r.content = r'.content := by
  obtain ⟨n, number⟩ := Option.isSome_iff_exists.mp numbered
  cases number' : r'.sequenceNumber with
  | none => simp [AuditRow.entry, number, number'] at same
  | some n' =>
      simp only [AuditRow.entry, number, number', Option.map_some, Option.some.injEq,
        AuditChainEntry.mk.injEq] at same
      obtain ⟨sequence, talos, method, path, status, ip, created⟩ := same
      simp only [AuditRow.content, Content.mk.injEq, number, number', Option.some.injEq]
      exact ⟨sequence, talos, method, path, status, ip, toISOString_injective created⟩

theorem entry_eq_of_content {r r' : AuditRow} (same : r.content = r'.content) :
    r.entry = r'.entry := by
  simp only [AuditRow.content, Content.mk.injEq] at same
  obtain ⟨sequence, talos, method, path, status, ip, created⟩ := same
  simp only [AuditRow.entry, sequence, talos, method, path, status, ip, created]

/-! ### Accepted logs -/

theorem valid_verifyFrom_iff (rows : List AuditRow) (todo : List AuditRow)
    (current : ∀ row ∈ todo, row.isLegacy = false) (prev : Option String) (i count : Nat) :
    (verifyFrom sha256 rows todo prev i count).valid = true ↔ Linked sha256 prev i todo := by
  induction todo generalizing prev i count with
  | nil => exact ⟨fun _ => trivial, fun _ => rfl⟩
  | cons row rest ih =>
      have later := ih (fun r mem => current r (List.mem_cons_of_mem _ mem)) row.entryHash (i + 1)
        (count + 1)
      have chained := current row List.mem_cons_self
      simp only [verifyFrom, chained, Linked, ← later]
      split_ifs with number link hash <;> simp_all

theorem accepted_iff {rows : List AuditRow} :
    Accepted sha256 rows ↔
      Linked sha256 none 0 rows ∧ ∀ row ∈ rows, row.isLegacy = false := by
  constructor
  · rintro ⟨valid, current⟩
    exact ⟨(valid_verifyFrom_iff rows rows current none 0 0).mp valid, current⟩
  · rintro ⟨linked, current⟩
    exact ⟨(valid_verifyFrom_iff rows rows current none 0 0).mpr linked, current⟩

/-- The last row of a chain carries the hash of its entry and the number that
belongs to its place. -/
theorem Linked.last {prev : Option String} {i : Nat} {rows : List AuditRow}
    (linked : Linked sha256 prev i rows) {last : AuditRow} (isLast : rows.getLast? = some last) :
    last.sequenceNumber = some ((i + rows.length - 1 : Nat) : Int) ∧
      last.entry.map (computeEntryHash sha256) = last.entryHash := by
  induction rows generalizing prev i with
  | nil => cases isLast
  | cons row rest ih =>
      obtain ⟨number, -, hash, tail⟩ := linked
      cases rest with
      | nil =>
          cases isLast
          exact ⟨by simpa using number, hash⟩
      | cons next rest =>
          rw [List.getLast?_cons_cons] at isLast
          obtain ⟨number', hash'⟩ := ih tail isLast
          refine ⟨?_, hash'⟩
          rw [number']
          simp only [List.length_cons]
          congr 2
          omega

/-- What the root of an accepted log fixes: the content of its last row, no more
and no less. -/
theorem sameRoot_iff (inj : Function.Injective sha256) {rows rows' : List AuditRow}
    (accepted : Accepted sha256 rows) (accepted' : Accepted sha256 rows') :
    SameRoot rows rows' ↔
      ∃ last last', rows.getLast? = some last ∧ rows'.getLast? = some last' ∧
        last.content = last'.content := by
  have linked := (accepted_iff.mp accepted).1
  have linked' := (accepted_iff.mp accepted').1
  constructor
  · rintro ⟨last, last', isLast, isLast', same⟩
    obtain ⟨number, hash⟩ := linked.last isLast
    obtain ⟨-, hash'⟩ := linked'.last isLast'
    rw [← hash, ← hash'] at same
    have entries := Option.map_injective (computeEntryHash_injective inj) same
    exact ⟨last, last', isLast, isLast', content_eq_of_entry entries (by rw [number]; rfl)⟩
  · rintro ⟨last, last', isLast, isLast', same⟩
    obtain ⟨-, hash⟩ := linked.last isLast
    obtain ⟨-, hash'⟩ := linked'.last isLast'
    refine ⟨last, last', isLast, isLast', ?_⟩
    rw [← hash, ← hash', entry_eq_of_content same]

theorem length_eq_of_sameRoot (inj : Function.Injective sha256) {rows rows' : List AuditRow}
    (accepted : Accepted sha256 rows) (accepted' : Accepted sha256 rows')
    (root : SameRoot rows rows') : rows.length = rows'.length := by
  obtain ⟨last, last', isLast, isLast', same⟩ := (sameRoot_iff inj accepted accepted').mp root
  obtain ⟨number, -⟩ := (accepted_iff.mp accepted).1.last isLast
  obtain ⟨number', -⟩ := (accepted_iff.mp accepted').1.last isLast'
  have numbers : last.sequenceNumber = last'.sequenceNumber := congrArg Content.sequenceNumber same
  rw [number, number'] at numbers
  have positive := List.length_pos_iff.mpr (show rows ≠ [] by rintro rfl; cases isLast)
  have positive' := List.length_pos_iff.mpr (show rows' ≠ [] by rintro rfl; cases isLast')
  have places : 0 + rows.length - 1 = 0 + rows'.length - 1 :=
    Int.ofNat_inj.mp (Option.some.inj numbers)
  omega

/-! ### Replacing an entry under the root -/

/-- The log with another method in its first entry, the first row's hash recomputed
and the second row linked to it. -/
def forgeFirst (sha256 : String → String) (method : String) : List AuditRow → List AuditRow
  | first :: second :: rest =>
      let changed := { first with method := method }
      let hash := changed.entry.map (computeEntryHash sha256)
      { changed with entryHash := hash } :: { second with previousHash := hash } :: rest
  | rows => rows

theorem isLegacy_eq_false {row : AuditRow} :
    row.isLegacy = false ↔ row.sequenceNumber ≠ none ∧ falsy row.entryHash = false ∧
      falsy row.previousHash = false ∧ falsy row.chainVersion = false := by
  simp [AuditRow.isLegacy, and_assoc]

/-- No later row notices: the hash of the second row does not cover its link. -/
theorem forgeFirst_accepted {first second : AuditRow} {rest : List AuditRow} {method : String}
    (accepted : Accepted sha256 (first :: second :: rest))
    (hashed : falsy ({ first with method := method }.entry.map (computeEntryHash sha256)) = false) :
    Accepted sha256 (forgeFirst sha256 method (first :: second :: rest)) := by
  obtain ⟨⟨number, link, -, number', -, hash', tail⟩, current⟩ := accepted_iff.mp accepted
  obtain ⟨_, _, linked, version⟩ := isLegacy_eq_false.mp (current first List.mem_cons_self)
  obtain ⟨_, hashed', _, version'⟩ :=
    isLegacy_eq_false.mp (current second (List.mem_cons_of_mem _ List.mem_cons_self))
  refine accepted_iff.mpr ⟨⟨number, link, rfl, number', ?_, hash', tail⟩, ?_⟩
  · simp only [AuditRow.entry, number, Option.map_some, Option.getD_some]
  · intro row mem
    rcases List.mem_cons.mp mem with rfl | mem
    · exact isLegacy_eq_false.mpr ⟨by simp [number], hashed, linked, version⟩
    · rcases List.mem_cons.mp mem with rfl | mem
      · exact isLegacy_eq_false.mpr ⟨by simp [number'], hashed', hashed, version'⟩
      · exact current row (List.mem_cons_of_mem _ (List.mem_cons_of_mem _ mem))

theorem forgeFirst_sameRoot (first second : AuditRow) (rest : List AuditRow) (method : String) :
    SameRoot (first :: second :: rest) (forgeFirst sha256 method (first :: second :: rest)) := by
  cases rest with
  | nil => exact ⟨_, _, rfl, rfl, rfl⟩
  | cons third rest =>
      have isLast := List.getLast?_eq_some_getLast (List.cons_ne_nil third rest)
      let last := (third :: rest).getLast (List.cons_ne_nil third rest)
      refine ⟨last, last, ?_, ?_, rfl⟩
      · rw [List.getLast?_cons_cons, List.getLast?_cons_cons, isLast]
      · simp only [forgeFirst]
        rw [List.getLast?_cons_cons, List.getLast?_cons_cons, isLast]

/-- Of two methods at least one gives an entry whose hash is not the empty text. -/
theorem exists_forged_method (inj : Function.Injective sha256) (first : AuditRow)
    (numbered : first.sequenceNumber ≠ none) :
    ∃ method, method ≠ first.method ∧
      falsy ({ first with method := method }.entry.map (computeEntryHash sha256)) = false := by
  obtain ⟨n, number⟩ := Option.ne_none_iff_exists'.mp numbered
  have longer : ∀ t : String, t ≠ "" → first.method ++ t ≠ first.method := by
    intro t nonempty same
    have lists := congrArg String.toList same
    rw [String.toList_append] at lists
    exact nonempty (String.toList_inj.mp (List.append_right_eq_self.mp lists))
  by_cases empty : falsy ({ first with method := first.method ++ "a" }.entry.map
      (computeEntryHash sha256)) = false
  · exact ⟨_, longer "a" (by decide), empty⟩
  · refine ⟨first.method ++ "b", longer "b" (by decide), ?_⟩
    by_contra emptyToo
    simp only [falsy, AuditRow.entry, number, Option.map_some, Option.getD_some,
      decide_eq_false_iff_not, not_not] at empty emptyToo
    have entries := computeEntryHash_injective inj (empty.trans emptyToo.symm)
    have methods := congrArg String.toList (congrArg AuditChainEntry.method entries)
    rw [String.toList_append, String.toList_append] at methods
    exact absurd (List.append_cancel_left methods) (by decide)

/-- The root of an accepted log determines the log's contents exactly when the log
has at most one row. -/
theorem determined_iff_length_le_one (inj : Function.Injective sha256) {rows : List AuditRow}
    (accepted : Accepted sha256 rows) :
    (∀ rows', Accepted sha256 rows' → SameRoot rows rows' →
      rows.length = rows'.length ∧
        rows.map AuditRow.content = rows'.map AuditRow.content) ↔ rows.length ≤ 1 := by
  constructor
  · intro determined
    match rows with
    | [] => exact Nat.zero_le 1
    | [_] => exact Nat.le_refl 1
    | first :: second :: rest =>
        exfalso
        have chained := (accepted_iff.mp accepted).2 first List.mem_cons_self
        obtain ⟨method, differs, hashed⟩ :=
          exists_forged_method inj first (isLegacy_eq_false.mp chained).1
        obtain ⟨-, same⟩ := determined _ (forgeFirst_accepted accepted hashed)
          (forgeFirst_sameRoot first second rest method)
        have heads := (List.cons.inj same).1
        exact differs (congrArg Content.method heads).symm
  · intro short rows' accepted' root
    have lengths := length_eq_of_sameRoot inj accepted accepted' root
    obtain ⟨last, last', isLast, isLast', same⟩ := (sameRoot_iff inj accepted accepted').mp root
    refine ⟨lengths, ?_⟩
    match rows, rows' with
    | [], _ => cases isLast
    | [row], [row'] =>
        cases isLast
        cases isLast'
        exact congrArg (fun content => [content]) same
    | [_], [] => cases isLast'
    | [_], _ :: _ :: _ => exact absurd lengths (by simp)
    | _ :: _ :: _, _ => exact absurd short (by simp)

end Hashes

/-! ### A forged log -/

def signedAt : Date := ⟨2026, 0, 4, 9, 30, 0, 0, by decide⟩
def readAt : Date := ⟨2026, 0, 4, 9, 31, 0, 0, by decide⟩

def signRow (method hash : String) : AuditRow :=
  { sequenceNumber := some 0
    entryHash := some hash
    previousHash := some genesisHash
    chainVersion := some "1"
    talosId := "talos-1"
    method := method
    path := "/api/talos/talos-1/sign"
    statusCode := 200
    ipAddress := none
    createdAt := signedAt }

def readRow (previousHash hash : String) : AuditRow :=
  { sequenceNumber := some 1
    entryHash := some hash
    previousHash := some previousHash
    chainVersion := some "1"
    talosId := "talos-1"
    method := "GET"
    path := "/api/talos/talos-1"
    statusCode := 200
    ipAddress := none
    createdAt := readAt }

def signEntry (method : String) : AuditChainEntry :=
  ⟨0, "talos-1", method, "/api/talos/talos-1/sign", 200, none, signedAt.toISOString⟩

def readEntry : AuditChainEntry :=
  ⟨1, "talos-1", "GET", "/api/talos/talos-1", 200, none, readAt.toISOString⟩

def postHash : String := "007741da861f8c4e4950d149eb16a0ee00c487444c1c4b42403a96eff58ae24e"
def getHash : String := "55186054802a653a387811a4a4e844ec293709dfe6c486028acc173a275c4856"
def readHash : String := "025e10df03cd79ebd09632adb4d5065c4c959bd7d8904ff789a92901ca24c3c6"

/-- SHA-256 on the payloads of three entries, and an injective stand-in on every
other text. -/
def sampleSha256 (text : String) : String :=
  if text = payload (signEntry "POST") then postHash
  else if text = payload (signEntry "GET") then getHash
  else if text = payload readEntry then readHash
  else "#" ++ text

theorem sampleSha256_injective : Function.Injective sampleSha256 := by
  have other : ∀ hash text : String, hash.toList.head? ≠ some '#' → hash ≠ "#" ++ text := by
    intro hash text starts same
    have lists := congrArg String.toList same
    rw [String.toList_append] at lists
    exact starts (by rw [lists]; rfl)
  have append : ∀ p q : String, "#" ++ p = "#" ++ q → p = q := by
    intro p q same
    have lists := congrArg String.toList same
    rw [String.toList_append, String.toList_append] at lists
    exact String.toList_inj.mp (List.append_cancel_left lists)
  intro p q same
  unfold sampleSha256 at same
  split_ifs at same
  all_goals first
    | exact append p q same
    | exact absurd same (other _ _ (by decide))
    | exact absurd same.symm (other _ _ (by decide))
    | exact absurd same (by decide)
    | simp_all

theorem sample_hashes :
    computeEntryHash sampleSha256 (signEntry "POST") = postHash ∧
      computeEntryHash sampleSha256 (signEntry "GET") = getHash ∧
      computeEntryHash sampleSha256 readEntry = readHash := by
  have post : payload (signEntry "GET") ≠ payload (signEntry "POST") :=
    payload_injective.ne (by decide)
  have read : payload readEntry ≠ payload (signEntry "POST") := payload_injective.ne (by decide)
  have read' : payload readEntry ≠ payload (signEntry "GET") := payload_injective.ne (by decide)
  refine ⟨?_, ?_, ?_⟩
  · rw [computeEntryHash, sampleSha256, if_pos rfl]
  · rw [computeEntryHash, sampleSha256, if_neg post, if_pos rfl]
  · rw [computeEntryHash, sampleSha256, if_neg read, if_neg read', if_pos rfl]

theorem sample_texts : falsy (some genesisHash) = false ∧ falsy (some "1") = false ∧
    falsy (some readHash) = false := by decide

theorem signRow_accepted {method hash : String}
    (hashed : computeEntryHash sampleSha256 (signEntry method) = hash)
    (notEmpty : falsy (some hash) = false) : Accepted sampleSha256 [signRow method hash] := by
  refine accepted_iff.mpr ⟨⟨rfl, rfl, congrArg some hashed, trivial⟩, ?_⟩
  intro row mem
  rw [List.mem_singleton.mp mem]
  exact isLegacy_eq_false.mpr ⟨Option.some_ne_none _, notEmpty, sample_texts.1, sample_texts.2.1⟩

theorem sampleLog_accepted {method hash : String}
    (hashed : computeEntryHash sampleSha256 (signEntry method) = hash)
    (notEmpty : falsy (some hash) = false) :
    Accepted sampleSha256 [signRow method hash, readRow hash readHash] := by
  refine accepted_iff.mpr ⟨⟨rfl, rfl, congrArg some hashed, rfl, rfl,
    congrArg some sample_hashes.2.2, trivial⟩, ?_⟩
  intro row mem
  rcases List.mem_cons.mp mem with rfl | mem
  · exact isLegacy_eq_false.mpr
      ⟨Option.some_ne_none _, notEmpty, sample_texts.1, sample_texts.2.1⟩
  · rw [List.mem_singleton.mp mem]
    exact isLegacy_eq_false.mpr
      ⟨Option.some_ne_none _, sample_texts.2.2, notEmpty, sample_texts.2.1⟩

theorem determined_signRow :
    Accepted sampleSha256 [signRow "POST" postHash] ∧
      ((∀ rows', Accepted sampleSha256 rows' → SameRoot [signRow "POST" postHash] rows' →
        [signRow "POST" postHash].length = rows'.length ∧
          [signRow "POST" postHash].map AuditRow.content = rows'.map AuditRow.content) ↔
        [signRow "POST" postHash].length ≤ 1) :=
  have accepted := signRow_accepted sample_hashes.1 (by decide)
  ⟨accepted, determined_iff_length_le_one sampleSha256_injective accepted⟩

/-- A signing request turned into a read, under the root of the original log. -/
theorem forged_log_accepted :
    ∃ rows rows', Function.Injective sampleSha256 ∧ Accepted sampleSha256 rows ∧
      Accepted sampleSha256 rows' ∧ SameRoot rows rows' ∧
      rows.map AuditRow.content ≠ rows'.map AuditRow.content :=
  ⟨[signRow "POST" postHash, readRow postHash readHash],
    [signRow "GET" getHash, readRow getHash readHash], sampleSha256_injective,
    sampleLog_accepted sample_hashes.1 (by decide),
    sampleLog_accepted sample_hashes.2.1 (by decide), ⟨_, _, rfl, rfl, rfl⟩, by
      intro same
      exact absurd (congrArg Content.method (List.cons.inj same).1) (by decide)⟩

end Talos.AuditChain
