import Talos.NameService.Bijection
import Talos.Paging
import Mathlib.Data.List.Range

/-!
# Paged reverse lookup

`names_page` lists the names by the id of their Talos. A page ends when it is full or when a window
of ids has been scanned. Only a page that filled up within its window has a next cursor: the listing
ends at the first window that is scanned to its end, whatever names follow it.
-/

namespace Talos.NameService

open Talos.Soroban Talos.Paging

variable {s : Storage} {start limit cursor a b c id : Nat} {name : Bytes}

def maxReversePageSize : Nat := 50

def maxReverseScanWindow : Nat := 500

structure NamesPage where
  items : List (Nat × Bytes)
  nextStart : Nat
deriving DecidableEq, Repr

/-- The variables of the scan. -/
structure Scan where
  cursor : Nat
  collected : Nat
  items : List (Nat × Bytes)

/-- `start_id + MAX_REVERSE_SCAN_WINDOW`, the first id that is not scanned. -/
def scanEnd (start : Nat) : Nat := saturatingAddU32 start maxReverseScanWindow

/-- Look the id under the cursor up and move on. -/
def Scan.visit (s : Storage) (scan : Scan) : Scan :=
  let visited := match s.talosName scan.cursor with
    | some name => { scan with
        items := scan.items ++ [(scan.cursor, name)]
        collected := scan.collected + 1 }
    | none => scan
  { visited with cursor := saturatingAddU32 scan.cursor 1 }

theorem visit_cursor (s : Storage) (scan : Scan) :
    (scan.visit s).cursor = saturatingAddU32 scan.cursor 1 := rfl

theorem saturatingAddU32_of_lt_scanEnd (more : cursor < scanEnd start) :
    saturatingAddU32 cursor 1 = cursor + 1 := by
  simp only [scanEnd, saturatingAddU32] at more ⊢
  omega

/-- The `while` loop of `names_page`. -/
def Scan.run (s : Storage) (start limit : Nat) (scan : Scan) : Scan :=
  if scan.cursor < scanEnd start ∧ scan.collected < limit then
    if (scan.visit s).cursor = 0 then scan.visit s
    else Scan.run s start limit (scan.visit s)
  else scan
termination_by scanEnd start - scan.cursor
decreasing_by
  rename_i more _
  rw [visit_cursor, saturatingAddU32_of_lt_scanEnd more.1]
  omega

def clampLimit (limit : Nat) : Nat := min (max limit 1) maxReversePageSize

def namesPage (s : Storage) (startId limit : Nat) : NamesPage :=
  let effectiveStart := if startId = 0 then 1 else startId
  let effectiveLimit := clampLimit limit
  let scan := Scan.run s effectiveStart effectiveLimit ⟨effectiveStart, 0, []⟩
  let nextStart :=
    if scan.cursor < scanEnd effectiveStart ∧ scan.collected = effectiveLimit then scan.cursor
    else 0
  ⟨scan.items, nextStart⟩

/-- The listing as a client pages through it: the cursor `0` is the end. -/
def listing (s : Storage) (limit startId : Nat) : Page Nat (Nat × Bytes) :=
  let page := namesPage s startId limit
  ⟨page.items, if page.nextStart = 0 then none else some page.nextStart⟩

/-! ### The names between two ids -/

/-- The named ids from `a` on and below `b`, in ascending order. -/
def named (s : Storage) (a b : Nat) : List (Nat × Bytes) :=
  (List.range' a (b - a)).filterMap fun id => (s.talosName id).map (Prod.mk id)

theorem mem_named : (id, name) ∈ named s a b ↔ a ≤ id ∧ id < b ∧ s.talosName id = some name := by
  simp only [named, List.mem_filterMap, List.mem_range'_1, Option.map_eq_some_iff, Prod.mk.injEq]
  constructor
  · rintro ⟨i, within, n, entry, rfl, rfl⟩
    exact ⟨within.1, by omega, entry⟩
  · rintro ⟨low, high, entry⟩
    exact ⟨id, ⟨low, by omega⟩, name, entry, rfl, rfl⟩

theorem named_self : named s a a = [] := by
  rw [named, Nat.sub_self]
  rfl

theorem named_append (ab : a ≤ b) (bc : b ≤ c) : named s a b ++ named s b c = named s a c := by
  have split : List.range' a (c - a) = List.range' a (b - a) ++ List.range' b (c - b) := by
    have := List.range'_append_1 (s := a) (m := b - a) (n := c - b)
    rw [Nat.add_sub_cancel' ab] at this
    rw [this]
    congr 1
    omega
  rw [named, named, named, split, List.filterMap_append]

theorem named_ascending : (named s a b).Pairwise fun one two => one.1 < two.1 := by
  rw [named, List.pairwise_filterMap]
  refine List.Pairwise.imp ?_ (List.pairwise_lt_range' (s := a) (n := b - a))
  intro i j before one oneEntry two twoEntry
  obtain ⟨n, _, rfl⟩ := Option.map_eq_some_iff.mp oneEntry
  obtain ⟨m, _, rfl⟩ := Option.map_eq_some_iff.mp twoEntry
  exact before

/-! ### One page -/

/-- A visit adds what the id under the cursor is named. -/
theorem visit_items (s : Storage) (scan : Scan) :
    (scan.visit s).items = scan.items ++ named s scan.cursor (scan.cursor + 1) ∧
    (scan.visit s).collected =
      scan.collected + (named s scan.cursor (scan.cursor + 1)).length := by
  have single : named s scan.cursor (scan.cursor + 1) =
      ((s.talosName scan.cursor).map (Prod.mk scan.cursor)).toList := by
    rw [named, Nat.add_sub_cancel_left, List.range'_one, List.filterMap_cons, List.filterMap_nil]
    cases s.talosName scan.cursor with
    | none => rfl
    | some name => rfl
  rw [single]
  unfold Scan.visit
  cases s.talosName scan.cursor with
  | none => exact ⟨(List.append_nil _).symm, rfl⟩
  | some name => exact ⟨rfl, rfl⟩

/-- What the loop makes of the scan `before` it. -/
structure Scanned (s : Storage) (start limit : Nat) (before after : Scan) : Prop where
  low : before.cursor ≤ after.cursor
  high : after.cursor ≤ scanEnd start
  items : after.items = before.items ++ named s before.cursor after.cursor
  collected : after.collected =
    before.collected + (named s before.cursor after.cursor).length
  atMost : after.collected ≤ limit
  stopped : after.cursor = scanEnd start ∨ after.collected = limit
  unfilled : before.cursor < after.cursor →
    before.collected + (named s before.cursor (after.cursor - 1)).length < limit

theorem run_scanned (s : Storage) (limit : Nat) (scan : Scan) (within : scan.cursor ≤ scanEnd start)
    (room : scan.collected ≤ limit) : Scanned s start limit scan (Scan.run s start limit scan) := by
  fun_induction Scan.run s start limit scan with
  | case1 scan more wrapped =>
    rw [visit_cursor, saturatingAddU32_of_lt_scanEnd more.1] at wrapped
    cases wrapped
  | case2 scan more _ ih =>
    obtain ⟨items, collected⟩ := visit_items s scan
    have moved : (scan.visit s).cursor = scan.cursor + 1 := by
      rw [visit_cursor, saturatingAddU32_of_lt_scanEnd more.1]
    have single : (named s scan.cursor (scan.cursor + 1)).length ≤ 1 := by
      rw [named, Nat.add_sub_cancel_left, List.range'_one]
      exact List.length_filterMap_le _ _
    have rest := ih (by omega) (by omega)
    have low := rest.low
    rw [moved] at low
    have joined := named_append (s := s) (Nat.le_succ scan.cursor) low
    refine ⟨by omega, rest.high, ?_, ?_, rest.atMost, rest.stopped, ?_⟩
    · rw [rest.items, items, moved, List.append_assoc, joined]
    · rw [rest.collected, collected, moved, ← joined, List.length_append, Nat.add_assoc]
    · intro _
      rcases Nat.eq_or_lt_of_le low with arrived | beyond
      · rw [← arrived, Nat.add_sub_cancel, named_self]
        exact more.2
      · have unfilled := rest.unfilled (moved ▸ beyond)
        rw [moved, collected] at unfilled
        rw [← named_append (Nat.le_succ scan.cursor) (Nat.le_sub_one_of_lt beyond),
          List.length_append, ← Nat.add_assoc]
        exact unfilled
  | case3 scan done =>
    refine ⟨Nat.le_refl _, within, ?_, ?_, room, ?_, fun moved => absurd moved (Nat.lt_irrefl _)⟩
    · rw [named_self, List.append_nil]
    · rw [named_self]
      rfl
    · omega

theorem le_scanEnd (start : Nat) (inRange : start ≤ u32Max) : start ≤ scanEnd start := by
  rw [scanEnd, saturatingAddU32, maxReverseScanWindow]
  omega

theorem scanEnd_le (start : Nat) : scanEnd start ≤ u32Max := Nat.min_le_right _ _

theorem clampLimit_pos (limit : Nat) : 0 < clampLimit limit := by
  rw [clampLimit, maxReversePageSize]
  omega

/-- A page with a next cursor is full and holds the names below it. The last page holds those of
its window, and the window without its last id has fewer of them than fill a page. -/
theorem listing_spec (s : Storage) (limit : Nat) (positive : start ≠ 0) (inRange : start ≤ u32Max) :
    (∀ c, (listing s limit start).next = some c →
      start < c ∧ c < scanEnd start ∧ (listing s limit start).items = named s start c ∧
        (listing s limit start).items.length = clampLimit limit) ∧
    ((listing s limit start).next = none →
      (listing s limit start).items = named s start (scanEnd start) ∧
      (named s start (scanEnd start - 1)).length < clampLimit limit) := by
  have scanned := run_scanned s (clampLimit limit) ⟨start, 0, []⟩
    (le_scanEnd start inRange) (Nat.zero_le _)
  have limited := clampLimit_pos limit
  have bounded := scanEnd_le start
  simp only [listing, namesPage, if_neg positive]
  generalize Scan.run s start (clampLimit limit) ⟨start, 0, []⟩ = scan at scanned ⊢
  obtain ⟨low, high, items, collected, _, stopped, unfilled⟩ := scanned
  rw [Nat.zero_add] at collected
  by_cases full : scan.cursor < scanEnd start ∧ scan.collected = clampLimit limit
  · have moved : start < scan.cursor := by
      apply Nat.lt_of_le_of_ne low
      intro stayed
      rw [← stayed, named_self, List.length_nil] at collected
      omega
    rw [if_pos full, if_neg (by omega)]
    constructor
    · rintro c ⟨⟩
      exact ⟨moved, full.1, items, by rw [items, List.nil_append, ← collected, full.2]⟩
    · exact nofun
  · have finished : scan.cursor = scanEnd start := by omega
    rw [if_neg full, if_pos rfl]
    refine ⟨nofun, fun _ => ⟨finished ▸ items, ?_⟩⟩
    rcases Nat.eq_or_lt_of_le low with stayed | moved
    · rw [named, ← finished, ← stayed, Nat.sub_eq_zero_of_le (Nat.sub_le _ _)]
      exact limited
    · rw [← finished, ← Nat.zero_add (List.length _)]
      exact unfilled moved

/-! ### The pages together -/

/-- The pages together hold the names below the end of the last window, which is the first one that
does not fill its page. -/
theorem follows_listing {rows : List (Nat × Bytes)} {last : Nat}
    (follows : Follows (listing s limit) start rows last) (positive : start ≠ 0)
    (inRange : start ≤ u32Max) :
    start ≤ last ∧ last ≤ u32Max ∧ rows = named s start (scanEnd last) ∧
      (named s last (scanEnd last - 1)).length < clampLimit limit := by
  induction follows with
  | last none =>
    obtain ⟨items, unfilled⟩ := (listing_spec s limit positive inRange).2 none
    exact ⟨Nat.le_refl _, inRange, items, unfilled⟩
  | @next start c last rows some rest ih =>
    obtain ⟨forward, within, items, _⟩ := (listing_spec s limit positive inRange).1 c some
    have inRange' : c ≤ u32Max := Nat.le_of_lt (Nat.lt_of_lt_of_le within (scanEnd_le start))
    obtain ⟨behind, bounded, others, unfilled⟩ := ih (by omega) inRange'
    refine ⟨by omega, bounded, ?_, unfilled⟩
    rw [items, others]
    exact named_append (by omega) (Nat.le_trans behind (le_scanEnd last bounded))

theorem one_le_u32Max : 1 ≤ u32Max := by
  rw [u32Max]
  omega

/-- The pages come to an end. -/
theorem exists_follows_listing (s : Storage) (limit : Nat) :
    ∃ rows last, Follows (listing s limit) 1 rows last := by
  refine exists_follows (fun c => c ≠ 0 ∧ c ≤ u32Max) (fun c => u32Max - c) ?_
    ⟨Nat.one_ne_zero, one_le_u32Max⟩
  rintro c c' ⟨positive, inRange⟩ next
  obtain ⟨forward, within, _⟩ := (listing_spec s limit positive inRange).1 c' next
  have := scanEnd_le c
  omega

/-- Whoever pages through the listing from 1 on reads, in ascending order, every name below the end
of the first window that does not fill its page: all of them exactly if no name follows there. -/
theorem paging_reads_scanned (s : Storage) (limit : Nat) :
    ∃ rows last, Follows (listing s limit) 1 rows last ∧
      (∀ rows' last', Follows (listing s limit) 1 rows' last' → rows' = rows ∧ last' = last) ∧
      1 ≤ last ∧ (named s last (scanEnd last - 1)).length < clampLimit limit ∧
      rows.Pairwise (fun one two => one.1 < two.1) ∧
      (∀ id name, (id, name) ∈ rows ↔
        1 ≤ id ∧ id < scanEnd last ∧ s.talosName id = some name) ∧
      ((∀ id name, 1 ≤ id → id < u32Max → s.talosName id = some name → (id, name) ∈ rows) ↔
        ∀ id, scanEnd last ≤ id → id < u32Max → s.talosName id = none) := by
  obtain ⟨rows, last, follows⟩ := exists_follows_listing s limit
  have ⟨positive, bounded, joined, unfilled⟩ :=
    follows_listing follows Nat.one_ne_zero one_le_u32Max
  have mem_rows (id : Nat) (name : Bytes) :
      (id, name) ∈ rows ↔ 1 ≤ id ∧ id < scanEnd last ∧ s.talosName id = some name := by
    rw [joined]
    exact mem_named
  have ascending : rows.Pairwise fun one two => one.1 < two.1 := by
    rw [joined]
    exact named_ascending
  refine ⟨rows, last, follows, fun _ _ other => follows.unique other, positive, unfilled, ascending,
    mem_rows, ?_⟩
  constructor
  · intro complete id beyond within
    by_contra entry
    obtain ⟨name, entry⟩ := Option.ne_none_iff_exists'.mp entry
    have low : 1 ≤ id := Nat.le_trans positive (Nat.le_trans (le_scanEnd last bounded) beyond)
    have scanned := ((mem_rows id name).mp (complete id name low within entry)).2.1
    omega
  · intro nothing id name low within entry
    apply (mem_rows id name).mpr
    refine ⟨low, ?_, entry⟩
    by_contra beyond
    rw [nothing id (Nat.not_lt.mp beyond) within] at entry
    cases entry

/-- Talos 501 alone has a name. -/
def sparse : Storage :=
  contract.submitAll
    [(openEnv, .initializeContract ⟨7⟩ ⟨0⟩ 0),
      (openEnv, .registerName ⟨1⟩ 501 [118, 101, 103, 97])] contract.init

theorem sparse_talosName : sparse.talosName = Map.set Map.empty 501 [118, 101, 103, 97] := rfl

/-- The first window holds no name, so the first page is empty and has no next cursor. -/
theorem follows_sparse : Follows (listing sparse 50) 1 [] 1 := by
  have unnamed : ∀ c, c ≤ scanEnd 1 → named sparse 1 c = [] := by
    intro c within
    rw [List.eq_nil_iff_forall_not_mem]
    rintro ⟨id, name⟩ mem
    obtain ⟨_, below, entry⟩ := mem_named.mp mem
    rw [sparse_talosName, Map.set_eq_some] at entry
    have window : scanEnd 1 = 501 := by decide
    rcases entry with ⟨rfl, _⟩ | ⟨_, unset⟩
    · omega
    · cases unset
  have spec := listing_spec sparse 50 Nat.one_ne_zero one_le_u32Max
  cases next : (listing sparse 50 1).next with
  | none =>
    have items := (spec.2 next).1
    rw [unnamed _ (Nat.le_refl _)] at items
    exact items ▸ .last next
  | some c =>
    obtain ⟨_, within, items, full⟩ := spec.1 c next
    rw [items, unnamed c (Nat.le_of_lt within)] at full
    cases full

/-- Whoever pages through the listing never reads the one name there is. -/
theorem paging_misses_sparse :
    Reachable contract sparse ∧ sparse.talosName 501 = some [118, 101, 103, 97] ∧ 501 < u32Max ∧
    (∃ rows last, Follows (listing sparse 50) 1 rows last) ∧
    ∀ rows last, Follows (listing sparse 50) 1 rows last → (501, [118, 101, 103, 97]) ∉ rows := by
  refine ⟨Reachable.init.submitAll _, ?_, by decide, ⟨[], 1, follows_sparse⟩, ?_⟩
  · rw [sparse_talosName, Map.set_self]
  · intro rows last follows mem
    obtain ⟨rfl, _⟩ := follows_sparse.unique follows
    cases mem

end Talos.NameService
