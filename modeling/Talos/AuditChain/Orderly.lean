import Talos.AuditChain.Writers
import Mathlib.Data.List.Sort

/-!
# When the audit log reads as untampered

A log is accepted in every order its timestamps allow exactly if every chained row was added
after all others in time and continues the newest of them. A writer adds such a row unless it
was overtaken, its clock is not ahead of the stored rows, or an unchained row hides the chain
from its read (`Hazard`); the first row added under a hazard breaks the log (`unbroken_iff`).
-/

namespace Talos.AuditChain

open Encoding Database

variable {sha256 : String → String} {log log' : Log} {event : Event} {rows : List AuditRow}
  {prev : Option String} {i : Nat}

/-! ### Linked rows -/

/-- The number of a row of a chain is its place. -/
theorem Linked.number (linked : Linked sha256 prev i rows) {j : Nat} {row : AuditRow}
    (at_ : rows[j]? = some row) : row.sequenceNumber = some ((i + j : Nat) : Int) := by
  induction rows generalizing prev i j with
  | nil => cases at_
  | cons head rest ih =>
      obtain ⟨number, -, -, tail⟩ := linked
      cases j with
      | zero =>
          cases at_
          exact number
      | succ j =>
          rw [ih tail at_]
          congr 2
          omega

theorem Linked.take (linked : Linked sha256 prev i rows) (limit : Nat) :
    Linked sha256 prev i (rows.take limit) := by
  induction rows generalizing prev i limit with
  | nil =>
      rw [List.take_nil]
      trivial
  | cons head rest ih =>
      cases limit with
      | zero => trivial
      | succ limit =>
          obtain ⟨number, link, hash, tail⟩ := linked
          exact ⟨number, link, hash, ih tail limit⟩

/-- The hash that the row after a chain has to carry. -/
def lastHash (prev : Option String) (rows : List AuditRow) : Option String :=
  (rows.getLast?.elim prev (·.entryHash))

theorem lastHash_cons (row : AuditRow) : lastHash prev (row :: rows) = lastHash row.entryHash rows := by
  cases rows with
  | nil => rfl
  | cons next rest => rw [lastHash, lastHash, List.getLast?_cons_cons, List.getLast?_cons]; rfl

theorem Linked.append (linked : Linked sha256 prev i rows) {row : AuditRow}
    (number : row.sequenceNumber = some ((i + rows.length : Nat) : Int))
    (link : row.previousHash = some ((lastHash prev rows).getD genesisHash))
    (hash : row.entry.map (computeEntryHash sha256) = row.entryHash) :
    Linked sha256 prev i (rows ++ [row]) := by
  induction rows generalizing prev i with
  | nil => exact ⟨number, link, hash, trivial⟩
  | cons head rest ih =>
      obtain ⟨number', link', hash', tail⟩ := linked
      refine ⟨number', link', hash', ih tail ?_ ?_⟩
      · rw [number, List.length_cons]
        congr 2
        omega
      · rw [link, lastHash_cons]

theorem chainedRow_hash (request : Request) (createdAt : Date) (latest : Option AuditRow) :
    (chainedRow sha256 request createdAt latest).entry.map (computeEntryHash sha256) =
      (chainedRow sha256 request createdAt latest).entryHash := rfl

/-! ### What holds in every run -/

/-- Rows are chained or have no number, and a row that was read is stored. -/
structure Sound (log : Log) : Prop where
  current : ∀ row ∈ log.chained, row.isLegacy = false
  plain : ∀ row ∈ log.rows, row.isChained = false → row.sequenceNumber = none
  seen : ∀ {w writer row}, log.writers w = some writer → writer.read = some (some row) →
    row ∈ log.rows

theorem isChained_chainedRow (request : Request) (createdAt : Date) (latest : Option AuditRow) :
    (chainedRow sha256 request createdAt latest).isChained = true := rfl

theorem chained_append_plain (request : Request) (createdAt : Date) :
    (log.rows ++ [plainRow request createdAt]).filter AuditRow.isChained = log.chained := by
  rw [List.filter_append]
  exact List.append_nil _

theorem chained_append_chained (request : Request) (createdAt : Date) (latest : Option AuditRow) :
    (log.rows ++ [chainedRow sha256 request createdAt latest]).filter AuditRow.isChained =
      log.chained ++ [chainedRow sha256 request createdAt latest] := by
  rw [List.filter_append]
  rfl

theorem Sound.isLegacy_chainedRow (sound : Sound log) (digest : ∀ text, sha256 text ≠ "")
    {latest : Option AuditRow} (stored : ∀ row ∈ latest, row ∈ log.rows) (request : Request)
    (createdAt : Date) : (chainedRow sha256 request createdAt latest).isLegacy = false := by
  have version : falsy (some auditChainVersion) = false := by decide
  refine isLegacy_eq_false.mpr ⟨Option.some_ne_none _, ?_, ?_, version⟩
  · exact decide_eq_false (digest _)
  · cases latest with
    | none => exact sample_texts.1
    | some row =>
        cases hash : row.entryHash with
        | none => simp [chainedRow, hash, falsy, genesisHash]
        | some text =>
            have chained : row ∈ log.chained :=
              List.mem_filter.mpr ⟨stored row rfl, by rw [AuditRow.isChained, hash]; rfl⟩
            have notEmpty := (isLegacy_eq_false.mp (sound.current row chained)).2.1
            rw [hash] at notEmpty
            simpa [chainedRow, hash] using notEmpty

/-- What a step does to the rows. -/
theorem step_rows (ok : step sha256 log event = some log') :
    log'.rows = log.rows ∨
      (∃ request createdAt, log'.rows = log.rows ++ [plainRow request createdAt]) ∨
      ∃ w acknowledged writer latest, event = .insert w acknowledged ∧
        log.writers w = some writer ∧ writer.read = some latest ∧
        log'.rows = log.rows ++ [chainedRow sha256 writer.request writer.createdAt latest] := by
  cases event with
  | start w request createdAt =>
      simp only [step] at ok
      split at ok
      · cases ok
      · cases ok
        exact .inl rfl
  | read w latest =>
      simp only [step] at ok
      split at ok
      · cases ok
      · split at ok
        · cases ok
          exact .inl rfl
        · cases ok
  | insert w acknowledged =>
      simp only [step] at ok
      split at ok
      · next request createdAt latest found =>
          cases ok
          exact .inr (.inr ⟨w, acknowledged, _, latest, rfl, found, rfl, rfl⟩)
      · cases ok
  | giveUp w =>
      simp only [step] at ok
      split at ok
      · cases ok
        exact .inl rfl
      · cases ok
  | plain request createdAt =>
      cases ok
      exact .inr (.inl ⟨request, createdAt, rfl⟩)

/-- The writers after a change to one of them. -/
theorem writers_set {w w' : Nat} {writer : Option Writer} {writer' : Writer}
    (found : (log.set w writer).writers w' = some writer') :
    writer = some writer' ∨ log.writers w' = some writer' := by
  by_cases same : w' = w
  · subst same
    exact .inl (by simpa [Log.set] using found)
  · exact .inr (by simpa [Log.set, same] using found)

/-- A row that a writer has read was stored then, and it had read it before or reads it now. -/
theorem step_seen (ok : step sha256 log event = some log') {w : Nat} {writer : Writer}
    {row : AuditRow} (found : log'.writers w = some writer) (read : writer.read = some (some row)) :
    row ∈ log.rows ∨ log.writers w = some writer := by
  cases event with
  | start w' request createdAt =>
      simp only [step] at ok
      split at ok
      · cases ok
      · cases ok
        rcases writers_set found with now | before
        · cases now
          cases read
        · exact .inr before
  | read w' latest =>
      simp only [step] at ok
      split at ok
      · cases ok
      · split at ok
        · next isLatest =>
            cases ok
            rcases writers_set found with now | before
            · cases now
              cases read
              exact .inl isLatest.1
            · exact .inr before
        · cases ok
  | insert w' acknowledged =>
      simp only [step] at ok
      split at ok
      · cases ok
        rcases writers_set found with now | before
        · split at now
          · cases now
          · cases now
            cases read
        · exact .inr before
      · cases ok
  | giveUp w' =>
      simp only [step] at ok
      split at ok
      · cases ok
        exact .inr ((writers_set found).resolve_left nofun)
      · cases ok
  | plain request createdAt =>
      cases ok
      exact .inr found

theorem rows_subset (ok : step sha256 log event = some log') : log.rows ⊆ log'.rows := by
  intro row mem
  rcases step_rows ok with same | ⟨_, _, more⟩ | ⟨_, _, _, _, _, _, _, more⟩
  · rw [same]
    exact mem
  · rw [more]
    exact List.mem_append_left _ mem
  · rw [more]
    exact List.mem_append_left _ mem

theorem Sound.step (sound : Sound log) (digest : ∀ text, sha256 text ≠ "")
    (ok : AuditChain.step sha256 log event = some log') : Sound log' where
  current := by
    rcases step_rows ok with same | ⟨_, _, more⟩ | ⟨w, _, writer, latest, _, found, read, more⟩
    · rw [Log.chained, same]
      exact sound.current
    · rw [Log.chained, more, chained_append_plain]
      exact sound.current
    · have stored : ∀ row ∈ latest, row ∈ log.rows := by
        rintro row rfl
        exact sound.seen found read
      rw [Log.chained, more, chained_append_chained]
      intro row mem
      rcases List.mem_append.mp mem with before | new
      · exact sound.current row before
      · rw [List.mem_singleton.mp new]
        exact sound.isLegacy_chainedRow digest stored _ _
  plain := by
    rcases step_rows ok with same | ⟨_, _, more⟩ | ⟨_, _, _, _, _, _, _, more⟩
    · rw [same]
      exact sound.plain
    · rw [more]
      intro row mem unchained
      rcases List.mem_append.mp mem with before | new
      · exact sound.plain row before unchained
      · rw [List.mem_singleton.mp new]
        rfl
    · rw [more]
      intro row mem unchained
      rcases List.mem_append.mp mem with before | new
      · exact sound.plain row before unchained
      · rw [List.mem_singleton.mp new, isChained_chainedRow] at unchained
        cases unchained
  seen found read := by
    rcases step_seen ok found read with now | before
    · exact rows_subset ok now
    · exact rows_subset ok (sound.seen before read)

theorem sound_init : Sound (machine sha256).init where
  current := List.forall_mem_nil _
  plain := List.forall_mem_nil _
  seen found := nomatch found

theorem sound_of_run (digest : ∀ text, sha256 text ≠ "") {h : List (Transition Log Event)}
    (run : Run (machine sha256) h log) : Sound log :=
  run.invariant sound_init fun sound ok => sound.step digest ok

/-! ### Orderly logs -/

/-- The chained rows are linked in the order they were added, and later in time one by one. -/
structure Orderly (sha256 : String → String) (log : Log) : Prop where
  linked : Linked sha256 none 0 log.chained
  later : log.chained.Pairwise fun a b => rank a.createdAt < rank b.createdAt

theorem valid_iff_linked (current : ∀ row ∈ rows, row.isLegacy = false) :
    (verifyChain sha256 rows).valid = true ↔ Linked sha256 none 0 rows :=
  valid_verifyFrom_iff rows rows current none 0 0

/-- Rows of different times stand in the order of time. -/
theorem Orderly.index_lt (orderly : Orderly sha256 log) {j k : Nat} {a b : AuditRow}
    (atJ : log.chained[j]? = some a) (atK : log.chained[k]? = some b)
    (le : rank a.createdAt ≤ rank b.createdAt) (ne : j ≠ k) : j < k := by
  obtain ⟨ltJ, rfl⟩ := List.getElem?_eq_some_iff.mp atJ
  obtain ⟨ltK, rfl⟩ := List.getElem?_eq_some_iff.mp atK
  by_contra notLt
  have after := List.pairwise_iff_getElem.mp orderly.later k j ltK ltJ (by omega)
  omega

theorem Orderly.eq_of_rank (orderly : Orderly sha256 log) {a b : AuditRow} (memA : a ∈ log.chained)
    (memB : b ∈ log.chained) (le : rank a.createdAt ≤ rank b.createdAt)
    (ge : rank b.createdAt ≤ rank a.createdAt) : a = b := by
  obtain ⟨j, atJ⟩ := List.mem_iff_getElem?.mp memA
  obtain ⟨k, atK⟩ := List.mem_iff_getElem?.mp memB
  by_cases same : j = k
  · subst same
    exact Option.some_inj.mp (atJ.symm.trans atK)
  · have before := orderly.index_lt atJ atK le same
    have after := orderly.index_lt atK atJ ge (Ne.symm same)
    omega

/-- Rows with different times have one order. -/
theorem Orderly.accepts (orderly : Orderly sha256 log) (sound : Sound log) :
    Accepts sha256 log := by
  intro rows perm sorted limit
  have notLater : log.chained.Pairwise fun a b => rank a.createdAt ≤ rank b.createdAt :=
    orderly.later.imp fun lt => lt.le
  have same : rows = log.chained := by
    refine perm.eq_of_pairwise ?_ sorted notLater
    intro a b inRows inChained le ge
    exact orderly.eq_of_rank (perm.mem_iff.mp inRows) inChained le ge
  subst same
  exact (valid_iff_linked fun row mem => sound.current row (List.mem_of_mem_take mem)).mpr
    (orderly.linked.take limit)

/-! ### Adding a row -/

section

variable {writer : Writer} {latest : Option AuditRow}

/-- Without a hazard the row read is the newest chained one. -/
theorem Orderly.reads_newest (orderly : Orderly sha256 log)
    (stored : ∀ row ∈ latest, row ∈ log.rows)
    (current : ∀ row ∈ log.chained, ∃ seen ∈ latest, seen.isChained = true ∧
      rank row.createdAt ≤ rank seen.createdAt)
    {newest : AuditRow} (last : log.chained.getLast? = some newest) : latest = some newest := by
  have mem : newest ∈ log.chained := List.mem_of_getLast? last
  obtain ⟨seen, is, chained, le⟩ := current newest mem
  have memSeen : seen ∈ log.chained := List.mem_filter.mpr ⟨stored seen is, chained⟩
  obtain ⟨j, atJ⟩ := List.mem_iff_getElem?.mp memSeen
  rw [List.getLast?_eq_getElem?] at last
  by_cases same : log.chained.length - 1 = j
  · rw [same, atJ] at last
    rw [is, ← last]
  · have before := orderly.index_lt last atJ le same
    obtain ⟨lt, -⟩ := List.getElem?_eq_some_iff.mp atJ
    omega

/-- So the row that is added continues the chain. -/
theorem Orderly.append (orderly : Orderly sha256 log) (sound : Sound log)
    (stored : ∀ row ∈ latest, row ∈ log.rows)
    (current : ∀ row ∈ log.chained, ∃ seen ∈ latest, seen.isChained = true ∧
      rank row.createdAt ≤ rank seen.createdAt) (request : Request) (createdAt : Date) :
    Linked sha256 none 0 (log.chained ++ [chainedRow sha256 request createdAt latest]) := by
  refine orderly.linked.append ?_ ?_ (chainedRow_hash request createdAt latest)
  · cases last : log.chained.getLast? with
    | none =>
        have empty := List.getLast?_eq_none_iff.mp last
        have unnumbered : latest.bind (·.sequenceNumber) = none := by
          cases is : latest with
          | none => rfl
          | some row =>
              refine sound.plain row (stored row is) ?_
              by_contra chained
              have mem : row ∈ log.chained :=
                List.mem_filter.mpr ⟨stored row is, Bool.of_not_eq_false chained⟩
              rw [empty] at mem
              cases mem
        simp [chainedRow, unnumbered, empty]
    | some newest =>
        have number := (orderly.linked.last last).1
        have nonempty : log.chained.length ≠ 0 := by
          rw [List.length_eq_zero_iff.ne]
          rintro empty
          rw [empty] at last
          cases last
        simp only [chainedRow, orderly.reads_newest stored current last, Option.bind_some, number,
          Option.getD_some]
        congr 1
        omega
  · rw [lastHash]
    cases last : log.chained.getLast? with
    | none =>
        have empty := List.getLast?_eq_none_iff.mp last
        have unhashed : latest.bind (·.entryHash) = none := by
          cases is : latest with
          | none => rfl
          | some row =>
              by_contra hashed
              have mem : row ∈ log.chained :=
                List.mem_filter.mpr ⟨stored row is, Option.isSome_iff_ne_none.mpr hashed⟩
              rw [empty] at mem
              cases mem
        simp [chainedRow, unhashed]
    | some newest =>
        simp only [chainedRow, orderly.reads_newest stored current last, Option.bind_some,
          Option.elim_some]

end

theorem Orderly.step (orderly : Orderly sha256 log) (sound : Sound log)
    (ok : AuditChain.step sha256 log event = some log') (safe : ¬ Hazard log event) :
    Orderly sha256 log' := by
  rcases step_rows ok with same | ⟨_, _, more⟩ | ⟨w, _, writer, latest, rfl, found, read, more⟩
  · constructor
    · rw [Log.chained, same]
      exact orderly.linked
    · rw [Log.chained, same]
      exact orderly.later
  · constructor
    · rw [Log.chained, more, chained_append_plain]
      exact orderly.linked
    · rw [Log.chained, more, chained_append_plain]
      exact orderly.later
  · have stored : ∀ row ∈ latest, row ∈ log.rows := by
      rintro row rfl
      exact sound.seen found read
    have ahead : ∀ row ∈ log.chained, rank row.createdAt < rank writer.createdAt := by
      intro row mem
      by_contra late
      exact safe ⟨writer, found, latest, read, row, mem, .inl (not_lt.mp late)⟩
    have current : ∀ row ∈ log.chained, ∃ seen ∈ latest, seen.isChained = true ∧
        rank row.createdAt ≤ rank seen.createdAt := by
      intro row mem
      by_contra stale
      refine safe ⟨writer, found, latest, read, row, mem, .inr fun seen is => ?_⟩
      by_cases chained : seen.isChained = true
      · exact .inr (not_le.mp fun le => stale ⟨seen, is, chained, le⟩)
      · exact .inl (Bool.eq_false_of_not_eq_true chained)
    constructor
    · rw [Log.chained, more, chained_append_chained]
      exact orderly.append sound stored current _ _
    · rw [Log.chained, more, chained_append_chained]
      refine List.pairwise_append.mpr ⟨orderly.later, List.pairwise_singleton _ _, ?_⟩
      intro row mem new isNew
      rw [List.mem_singleton.mp isNew]
      exact ahead row mem

/-- A row that goes between the rows of a chain breaks it: the next one is not in its place. -/
theorem not_linked_between {before after : List AuditRow} {new next : AuditRow}
    (linked : Linked sha256 prev i (before ++ next :: after))
    (between : Linked sha256 prev i (before ++ new :: next :: after)) : False := by
  have place : (before ++ next :: after)[before.length]? = some next := by simp
  have place' : (before ++ new :: next :: after)[before.length + 1]? = some next := by simp
  have number := linked.number place
  rw [between.number place', Option.some_inj] at number
  omega

/-- A row that was read when a newer chained row, or any if it is unchained, is stored now does
not give the next number. -/
theorem Orderly.number_ne (orderly : Orderly sha256 log) (sound : Sound log)
    {latest : Option AuditRow} (stored : ∀ row ∈ latest, row ∈ log.rows) {row : AuditRow}
    (mem : row ∈ log.chained)
    (stale : ∀ seen ∈ latest, seen.isChained = false ∨ rank seen.createdAt < rank row.createdAt) :
    (latest.bind (·.sequenceNumber)).getD (-1) + 1 ≠ (log.chained.length : Int) := by
  obtain ⟨k, atK⟩ := List.mem_iff_getElem?.mp mem
  obtain ⟨lt, -⟩ := List.getElem?_eq_some_iff.mp atK
  cases is : latest with
  | none =>
      simp only [Option.bind_none, Option.getD_none]
      omega
  | some seen =>
      rw [Option.bind_some]
      rcases stale seen is with unchained | older
      · rw [sound.plain seen (stored seen is) unchained, Option.getD_none]
        omega
      · by_cases chained : seen.isChained = true
        · have memSeen : seen ∈ log.chained := List.mem_filter.mpr ⟨stored seen is, chained⟩
          obtain ⟨j, atJ⟩ := List.mem_iff_getElem?.mp memSeen
          have ne : j ≠ k := by
            rintro rfl
            rw [Option.some_inj.mp (atJ.symm.trans atK)] at older
            omega
          have before := orderly.index_lt atJ atK older.le ne
          rw [orderly.linked.number atJ, Option.getD_some]
          omega
        · rw [sound.plain seen (stored seen is) (Bool.eq_false_of_not_eq_true chained),
            Option.getD_none]
          omega

/-- Where a time belongs among rows in the order of time. -/
theorem exists_place (sorted : rows.Pairwise fun a b => rank a.createdAt < rank b.createdAt)
    (time : Int) : ∃ before after, rows = before ++ after ∧
      (∀ row ∈ before, rank row.createdAt < time) ∧ ∀ row ∈ after, time ≤ rank row.createdAt := by
  induction rows with
  | nil => exact ⟨[], [], rfl, List.forall_mem_nil _, List.forall_mem_nil _⟩
  | cons head rest ih =>
      obtain ⟨first, sorted⟩ := List.pairwise_cons.mp sorted
      by_cases early : rank head.createdAt < time
      · obtain ⟨before, after, rfl, below, above⟩ := ih sorted
        exact ⟨head :: before, after, rfl, List.forall_mem_cons.mpr ⟨early, below⟩, above⟩
      · refine ⟨[], head :: rest, rfl, List.forall_mem_nil _, List.forall_mem_cons.mpr ⟨?_, ?_⟩⟩
        · exact not_lt.mp early
        · intro row mem
          exact (not_lt.mp early).trans (first row mem).le

/-- A row added under a hazard is not accepted where its time puts it. -/
theorem Orderly.broken (orderly : Orderly sha256 log) (sound : Sound log)
    (digest : ∀ text, sha256 text ≠ "") (ok : AuditChain.step sha256 log event = some log')
    (hazard : Hazard log event) : ¬ Accepts sha256 log' := by
  have sound' := sound.step digest ok
  intro accepts
  cases event with
  | start | read | giveUp | plain => exact hazard
  | insert w acknowledged =>
      obtain ⟨⟨request, createdAt, attempt⟩, found, latest, rfl, row, mem, hazard⟩ := hazard
      have stored : ∀ row ∈ latest, row ∈ log.rows := by
        rintro row rfl
        exact sound.seen found rfl
      simp only [AuditChain.step, Option.mem_def.mp found] at ok
      cases ok
      set new := chainedRow sha256 request createdAt latest with isNew
      have chained : (log.rows ++ [new]).filter AuditRow.isChained = log.chained ++ [new] :=
        chained_append_chained request createdAt latest
      obtain ⟨before, after, split, below, above⟩ :=
        exists_place orderly.later (rank createdAt)
      -- the new row where its time puts it, in front of rows of the same time
      have perm : (before ++ new :: after).Perm (log.chained ++ [new]) := by
        rw [split, List.append_assoc]
        exact (@List.perm_append_comm _ [new] after).append_left before
      have sorted : (before ++ new :: after).Pairwise
          fun a b => rank a.createdAt ≤ rank b.createdAt := by
        have parts := orderly.later
        rw [split, List.pairwise_append] at parts
        refine List.pairwise_append.mpr ⟨parts.1.imp fun lt => lt.le,
          List.pairwise_cons.mpr ⟨above, parts.2.1.imp fun lt => lt.le⟩, ?_⟩
        intro a memA b memB
        rcases List.mem_cons.mp memB with rfl | memB
        · exact (below a memA).le
        · exact (parts.2.2 a memA b memB).le
      have valid := accepts (before ++ new :: after) (by rw [Log.chained]; exact chained ▸ perm)
        sorted (before ++ new :: after).length
      rw [List.take_length] at valid
      have linked := (valid_iff_linked fun row mem => sound'.current row
        (by rw [Log.chained]; exact chained ▸ perm.mem_iff.mp mem)).mp valid
      cases after with
      | cons next after => exact not_linked_between (split ▸ orderly.linked) linked
      | nil =>
          rw [List.append_nil] at split
          have stale := hazard.resolve_left (not_le.mpr (below row (split ▸ mem)))
          have place : (before ++ [new])[before.length]? = some new := by simp
          have number := linked.number place
          refine orderly.number_ne sound stored mem stale ?_
          rw [isNew, chainedRow, Option.some_inj] at number
          rw [number, split, Nat.zero_add]

/-! ### Exactly the logs without hazards -/

/-- For every run: the log is accepted after each step exactly if no row was added under a hazard. -/
theorem unbroken_iff (digest : ∀ text, sha256 text ≠ "") {h : List (Transition Log Event)}
    (run : Run (machine sha256) h log) :
    (∀ r ∈ h, Accepts sha256 r.post) ↔ ∀ r ∈ h, ¬ Hazard r.pre r.event := by
  have orderly_of_safe : ∀ {h : List (Transition Log Event)} {log : Log},
      Run (machine sha256) h log → (∀ r ∈ h, ¬ Hazard r.pre r.event) → Orderly sha256 log := by
    intro h log run safe
    induction run with
    | refl => exact ⟨trivial, List.Pairwise.nil⟩
    | step run ok ih =>
        have before := ih fun r mem => safe r (List.mem_cons_of_mem _ mem)
        exact before.step (sound_of_run digest run) ok (safe _ List.mem_cons_self)
  induction run with
  | refl => exact ⟨fun _ => List.forall_mem_nil _, fun _ => List.forall_mem_nil _⟩
  | step run ok ih =>
      have sound := sound_of_run digest run
      rw [List.forall_mem_cons, List.forall_mem_cons]
      constructor
      · rintro ⟨accepts, earlier⟩
        have safe := ih.mp earlier
        exact ⟨fun hazard => (orderly_of_safe run safe).broken sound digest ok hazard accepts, safe⟩
      · rintro ⟨safe, earlier⟩
        have orderly := (orderly_of_safe run earlier).step sound ok safe
        exact ⟨orderly.accepts (sound.step digest ok), ih.mpr earlier⟩

/-! ### Two writers, an unchained row, one time -/

def exampleSha256 (text : String) : String := "#" ++ text

theorem exampleSha256_ne (text : String) : exampleSha256 text ≠ "" := by
  intro empty
  have lists := congrArg String.toList empty
  rw [exampleSha256, String.toList_append] at lists
  cases lists

def exampleRequest : Request := ⟨"talos", "GET", "/api/talos/talos/sign", 200, none⟩

def exampleDate (second : Nat) : Date :=
  { signedAt with second := ⟨second % 60, Nat.mod_lt second (by decide)⟩ }

def played (events : List Event) : List (Transition Log Event) × Log :=
  (machine exampleSha256).play events ([], ⟨[], fun _ => none⟩)

/-- The row that the next writer reads. -/
def newest (events : List Event) : Option AuditRow := (played events).2.rows.getLast?

/-- One call after the other, the second row not acknowledged at first. -/
def inTurn : List Event :=
  let first : List Event := [.start 1 exampleRequest (exampleDate 1), .read 1 none, .insert 1 true]
  first ++ [.start 2 exampleRequest (exampleDate 2), .read 2 (newest first), .insert 2 false,
    .giveUp 2]

/-- Two calls that read the empty log. -/
def overlapping : List Event :=
  [.start 1 exampleRequest (exampleDate 1), .start 2 exampleRequest (exampleDate 2), .read 1 none,
    .read 2 none, .insert 1 true, .insert 2 true]

/-- A row of the job handler between two calls. -/
def hidden : List Event :=
  let first : List Event := [.start 1 exampleRequest (exampleDate 1), .read 1 none, .insert 1 true,
    .plain exampleRequest (exampleDate 2)]
  first ++ [.start 2 exampleRequest (exampleDate 3), .read 2 (newest first), .insert 2 true]

/-- Two calls of one millisecond, one after the other. -/
def sameTime : List Event :=
  let first : List Event := [.start 1 exampleRequest (exampleDate 1), .read 1 none, .insert 1 true]
  first ++ [.start 2 exampleRequest (exampleDate 1), .read 2 (newest first), .insert 2 true]

theorem unbroken_iff_inTurn :
    (played inTurn).2.chained.length = 2 ∧ ∀ r ∈ (played inTurn).1, Accepts exampleSha256 r.post :=
  ⟨by decide +kernel, (unbroken_iff exampleSha256_ne (Machine.play_run _ inTurn)).mpr
    (by decide +kernel)⟩

/-- Each hazard makes a log read as tampered. -/
theorem untampered_rejected :
    (Reachable (machine exampleSha256) (played overlapping).2 ∧
      ¬ Accepts exampleSha256 (played overlapping).2) ∧
    (Reachable (machine exampleSha256) (played hidden).2 ∧
      ¬ Accepts exampleSha256 (played hidden).2) ∧
    Reachable (machine exampleSha256) (played sameTime).2 ∧
      ¬ Accepts exampleSha256 (played sameTime).2 := by
  refine ⟨⟨⟨_, Machine.play_run _ overlapping⟩, ?_⟩, ⟨⟨_, Machine.play_run _ hidden⟩, ?_⟩,
    ⟨_, Machine.play_run _ sameTime⟩, ?_⟩
  · intro accepts
    exact absurd (accepts _ (.refl _) (by decide +kernel) 2) (by decide +kernel)
  · intro accepts
    exact absurd (accepts _ (.refl _) (by decide +kernel) 2) (by decide +kernel)
  · intro accepts
    exact absurd (accepts _ (List.reverse_perm _) (by decide +kernel) 2) (by decide +kernel)

end Talos.AuditChain
