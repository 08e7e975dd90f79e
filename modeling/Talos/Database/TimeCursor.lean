import Talos.Paging
import Mathlib.Data.List.Sort
import Mathlib.Order.Lattice

/-!
# Listings under a time cursor

A listing ordered by a time column, newest first, whose cursor is the time of the last row of a page
and excludes that time. The column need not be unique, and the cursor is a `Date`, which drops what
the column holds below the millisecond. Rows that share the millisecond of the last row of a page
but come after it are in no page; nothing else is lost, and nothing comes twice.
-/

namespace Talos.Database

open Talos.Paging

variable {R : Type} {time : R → Int} {rows : List R} {limit : Nat} {cursor : Option Int}

/-- A column's time, in microseconds, as a `Date`. -/
def toDate (micros : Int) : Int := micros / 1000

/-- An `ORDER BY time DESC` of the database: rows of the same time come in any order. -/
structure NewestFirst (R : Type) (time : R → Int) where
  sort : List R → List R
  perm : ∀ rows, (sort rows).Perm rows
  ordered : ∀ rows, (sort rows).Pairwise fun a b => time b ≤ time a

instance : Inhabited (NewestFirst R time) where
  default :=
    { sort := List.insertionSort fun a b => time b ≤ time a
      perm := List.perm_insertionSort _
      ordered := fun rows => by
        have : Std.Total fun a b : R => time b ≤ time a :=
          ⟨fun a b => Int.le_total (time b) (time a)⟩
        have : IsTrans R fun a b => time b ≤ time a := ⟨fun _ _ _ ab bc => Int.le_trans bc ab⟩
        exact List.pairwise_insertionSort _ rows }

/-- `time < cursor`, if there is a cursor. -/
def before (time : R → Int) (cursor : Option Int) (row : R) : Bool :=
  cursor.all fun date => time row < date * 1000

/-- The page of a cursor. One row more than fits is read, to see whether another page follows. -/
def timePage (rows : List R) (limit : Nat) (order : NewestFirst R time) (cursor : Option Int) :
    Page (Option Int) R :=
  let read := (order.sort (rows.filter (before time cursor))).take (limit + 1)
  let hasMore := read.length > limit
  let page := if hasMore then read.take limit else read
  let nextCursor := if hasMore then page.getLast?.map fun row => toDate (time row) else none
  ⟨page, nextCursor.map some⟩

/-- The pages of a fixed table. Each query orders rows of the same time in its own way. -/
def timePages (rows : List R) (limit : Nat) (order : Option Int → NewestFirst R time)
    (cursor : Option Int) : Page (Option Int) R := timePage rows limit (order cursor) cursor

/-- The times of the rows as dates, newest first. -/
def dates (time : R → Int) (rows : List R) : List Int :=
  (rows.map fun row => toDate (time row)).insertionSort (· ≥ ·)

/-- The rows on the two sides of every page boundary differ in their millisecond. -/
def BoundariesApart (limit : Nat) (dates : List Int) : Prop :=
  ∀ k last first, dates[(k + 1) * limit - 1]? = some last → dates[(k + 1) * limit]? = some first →
    first < last

/-- Following the cursors from the first page on visits each of the rows once. -/
def VisitsOnce (page : Option Int → Page (Option Int) R) (rows : List R) : Prop :=
  ∃ visited last, Follows page none visited last ∧ visited.Perm rows

/-! ### Dates -/

theorem lt_toDate {a b : Int} : a < toDate b * 1000 ↔ toDate a < toDate b := by
  simp only [toDate]
  omega

theorem toDate_mono {a b : Int} (le : a ≤ b) : toDate a ≤ toDate b := by
  simp only [toDate]
  omega

/-- Any order of the database shows the same dates. -/
theorem dates_eq {sorted : List R} (perm : sorted.Perm rows)
    (ordered : sorted.Pairwise fun a b => time b ≤ time a) :
    dates time rows = sorted.map fun row => toDate (time row) := by
  refine List.Perm.eq_of_pairwise' (r := fun a b : Int => a ≥ b) ?_ ?_ ?_
  · exact List.pairwise_insertionSort _ _
  · rw [List.pairwise_map]
    exact ordered.imp toDate_mono
  · exact (List.perm_insertionSort _ _).trans (perm.map _).symm

/-- The first boundary, and those of the rows behind it. -/
theorem boundariesApart_iff (positive : 0 < limit) {dates : List Int} :
    BoundariesApart limit dates ↔
      (∀ last first, dates[limit - 1]? = some last → dates[limit]? = some first → first < last) ∧
      BoundariesApart limit (dates.drop limit) := by
  have shift (k : Nat) : limit + (k + 1) * limit = (k + 1 + 1) * limit := by
    rw [Nat.add_mul (k + 1) 1, Nat.one_mul, Nat.add_comm]
  have shift' (k : Nat) : limit + ((k + 1) * limit - 1) = (k + 1 + 1) * limit - 1 := by
    have : 0 < (k + 1) * limit := Nat.mul_pos (Nat.succ_pos k) positive
    rw [← shift]
    omega
  simp only [BoundariesApart, List.getElem?_drop, shift, shift']
  constructor
  · intro apart
    refine ⟨?_, fun k => apart (k + 1)⟩
    have first := apart 0
    rwa [Nat.zero_add, Nat.one_mul] at first
  · rintro ⟨first, rest⟩ k
    cases k with
    | zero =>
      rw [Nat.zero_add, Nat.one_mul]
      exact first
    | succ k => exact rest k

theorem boundariesApart_of_short {dates : List Int} (short : dates.length ≤ limit) :
    BoundariesApart limit dates := by
  intro k last first _ behind
  obtain ⟨inside, _⟩ := List.getElem?_eq_some_iff.mp behind
  have : limit ≤ (k + 1) * limit := Nat.le_mul_of_pos_left limit (Nat.succ_pos k)
  omega

/-! ### One page -/

/-- The rows that the page of a cursor and the pages after it are about. -/
def remaining (time : R → Int) (rows : List R) (cursor : Option Int) : List R :=
  rows.filter (before time cursor)

theorem timePage_of_fits (order : NewestFirst R time)
    (fits : (order.sort (remaining time rows cursor)).length ≤ limit) :
    timePage rows limit order cursor = ⟨order.sort (remaining time rows cursor), none⟩ := by
  have whole : (order.sort (remaining time rows cursor)).take (limit + 1) =
      order.sort (remaining time rows cursor) :=
    List.take_of_length_le (Nat.le_succ_of_le fits)
  rw [remaining] at fits whole
  simp only [timePage, whole, gt_iff_lt, Nat.not_lt.mpr fits, if_false, Option.map_none, remaining]

theorem timePage_of_more (order : NewestFirst R time) {last : R} (positive : 0 < limit)
    (more : limit < (order.sort (remaining time rows cursor)).length)
    (atEnd : (order.sort (remaining time rows cursor))[limit - 1]? = some last) :
    timePage rows limit order cursor =
      ⟨(order.sort (remaining time rows cursor)).take limit, some (some (toDate (time last)))⟩ := by
  rw [remaining] at more atEnd
  have long :
      limit < ((order.sort (rows.filter (before time cursor))).take (limit + 1)).length := by
    rw [List.length_take]
    omega
  have page : ((order.sort (rows.filter (before time cursor))).take (limit + 1)).take limit =
      (order.sort (rows.filter (before time cursor))).take limit := by
    rw [List.take_take, Nat.min_eq_left (Nat.le_succ limit)]
  have final :
      ((order.sort (rows.filter (before time cursor))).take limit).getLast? = some last := by
    rw [List.getLast?_take, if_neg (Nat.ne_of_gt positive), atEnd, Option.some_or]
  simp only [timePage, gt_iff_lt, long, if_true, page, final, Option.map_some, remaining]

/-- The rows behind a cursor that points at one of the remaining rows. -/
theorem remaining_next {row : R} (mem : row ∈ remaining time rows cursor) :
    remaining time rows (some (toDate (time row))) =
      (remaining time rows cursor).filter (before time (some (toDate (time row)))) := by
  have bound := (List.mem_filter.mp mem).2
  rw [remaining, remaining, List.filter_filter]
  apply List.filter_congr
  intro other _
  cases cursor with
  | none => rw [show before time none other = true from rfl, Bool.and_true]
  | some date =>
    simp only [before, Option.all_some, decide_eq_true_eq] at bound ⊢
    rw [Bool.eq_iff_iff, Bool.and_eq_true, decide_eq_true_eq, decide_eq_true_eq]
    have le : toDate (time row) * 1000 ≤ time row := by
      rw [toDate]
      omega
    omega

/-- A page either holds all the remaining rows, or is full and points at its last row. -/
theorem timePage_cases (rows : List R) (cursor : Option Int) (order : NewestFirst R time)
    (positive : 0 < limit) :
    (order.sort (remaining time rows cursor)).length ≤ limit ∧
      timePage rows limit order cursor = ⟨order.sort (remaining time rows cursor), none⟩ ∨
    ∃ last ∈ remaining time rows cursor,
      limit < (order.sort (remaining time rows cursor)).length ∧
      (order.sort (remaining time rows cursor))[limit - 1]? = some last ∧
      timePage rows limit order cursor =
        ⟨(order.sort (remaining time rows cursor)).take limit,
          some (some (toDate (time last)))⟩ := by
  by_cases fits : (order.sort (remaining time rows cursor)).length ≤ limit
  · exact Or.inl ⟨fits, timePage_of_fits order fits⟩
  · have more := Nat.not_le.mp fits
    have inside : limit - 1 < (order.sort (remaining time rows cursor)).length := by omega
    have atEnd := List.getElem?_eq_getElem inside
    refine Or.inr ⟨_, ?_, more, atEnd, timePage_of_more order positive more atEnd⟩
    exact (order.perm _).mem_iff.mp (List.getElem_mem inside)

/-! ### All pages -/

variable {order : Option Int → NewestFirst R time}

/-- Only the remaining rows are visited. -/
theorem mem_remaining_of_follows {visited : List R} {last : Option Int} (positive : 0 < limit)
    (follows : Follows (timePages rows limit order) cursor visited last) :
    ∀ row ∈ visited, row ∈ remaining time rows cursor := by
  induction follows with
  | @last cursor _ =>
    intro row mem
    rcases timePage_cases rows cursor (order cursor) positive with
      ⟨_, page⟩ | ⟨_, _, _, _, page⟩
    · rw [timePages, page] at mem
      exact ((order cursor).perm _).mem_iff.mp mem
    · rw [timePages, page] at mem
      exact ((order cursor).perm _).mem_iff.mp (List.mem_of_mem_take mem)
  | @next cursor c _ others some _ ih =>
    intro row mem
    rcases timePage_cases rows cursor (order cursor) positive with
      ⟨_, page⟩ | ⟨last, remains, _, _, page⟩
    · rw [timePages, page] at some
      cases some
    · rw [timePages, page] at some mem
      cases some
      rcases List.mem_append.mp mem with mem | mem
      · exact ((order cursor).perm _).mem_iff.mp (List.mem_of_mem_take mem)
      · have behind := ih row mem
        rw [remaining_next remains] at behind
        exact (List.mem_filter.mp behind).1

/-- The last row of a full page is the oldest of it. -/
theorem last_le_of_mem_take {sorted : List R} {last row : R}
    (ordered : sorted.Pairwise fun a b => time b ≤ time a)
    (atEnd : sorted[limit - 1]? = some last) (mem : row ∈ sorted.take limit) :
    time last ≤ time row := by
  obtain ⟨inside, rfl⟩ := List.getElem?_eq_some_iff.mp atEnd
  obtain ⟨i, small, rfl⟩ := List.mem_iff_getElem.mp mem
  rw [List.length_take] at small
  rw [List.getElem_take]
  rcases Nat.lt_or_ge i (limit - 1) with earlier | same
  · exact List.pairwise_iff_getElem.mp ordered i (limit - 1) _ inside earlier
  · have : i = limit - 1 := by omega
    subst this
    exact Int.le_refl _

/-- The rows of a full page are not behind the cursor that it returns. -/
theorem filter_eq_drop {sorted : List R} {last : R}
    (ordered : sorted.Pairwise fun a b => time b ≤ time a)
    (atEnd : sorted[limit - 1]? = some last) :
    sorted.filter (before time (some (toDate (time last)))) =
      (sorted.drop limit).filter (before time (some (toDate (time last)))) := by
  have taken : (sorted.take limit).filter (before time (some (toDate (time last)))) = [] := by
    rw [List.filter_eq_nil_iff]
    intro row mem
    rw [before, Option.all_some, decide_eq_true_eq, lt_toDate, Int.not_lt]
    exact toDate_mono (last_le_of_mem_take ordered atEnd mem)
  calc sorted.filter (before time (some (toDate (time last))))
      = (sorted.take limit ++ sorted.drop limit).filter
          (before time (some (toDate (time last)))) := by rw [List.take_append_drop]
    _ = (sorted.drop limit).filter (before time (some (toDate (time last)))) := by
        rw [List.filter_append, taken, List.nil_append]

/-- All rows behind a full page are behind the cursor that it returns exactly if the first one is.
-/
theorem drop_before_iff {sorted : List R} {date : Int}
    (ordered : sorted.Pairwise fun a b => time b ≤ time a) (more : limit < sorted.length) :
    (∀ row ∈ sorted.drop limit, before time (some date) row = true) ↔
      before time (some date) sorted[limit] = true := by
  have head := List.drop_eq_getElem_cons more
  constructor
  · intro all
    exact all _ (head ▸ List.mem_cons_self ..)
  · intro first row mem
    rw [head] at mem
    simp only [before, Option.all_some, decide_eq_true_eq] at first ⊢
    rcases List.mem_cons.mp mem with rfl | later
    · exact first
    · have behind := ordered.sublist (List.drop_sublist limit sorted)
      rw [head] at behind
      exact Int.lt_of_le_of_lt (List.rel_of_pairwise_cons behind later) first

/-- The first boundary of sorted rows is apart exactly if all rows behind it are behind the
cursor. -/
theorem first_apart_iff {sorted : List R} {last : R}
    (ordered : sorted.Pairwise fun a b => time b ≤ time a) (more : limit < sorted.length)
    (atEnd : sorted[limit - 1]? = some last) :
    (∀ row ∈ sorted.drop limit, before time (some (toDate (time last))) row = true) ↔
      ∀ a b, (sorted.map fun row => toDate (time row))[limit - 1]? = some a →
        (sorted.map fun row => toDate (time row))[limit]? = some b → b < a := by
  rw [drop_before_iff ordered more, List.getElem?_map, List.getElem?_map, atEnd,
    List.getElem?_eq_getElem more, before, Option.all_some, decide_eq_true_eq, lt_toDate]
  constructor
  · rintro apart a b ⟨⟩ ⟨⟩
    exact apart
  · intro apart
    exact apart _ _ rfl rfl

/-- From a cursor on, the pages visit each of the remaining rows once exactly if the boundaries of
their pages are apart. -/
theorem visits_iff (positive : 0 < limit) (cursor : Option Int) :
    (∃ visited last, Follows (timePages rows limit order) cursor visited
        last ∧ visited.Perm (remaining time rows cursor)) ↔
      BoundariesApart limit (dates time (remaining time rows cursor)) := by
  induction h : (remaining time rows cursor).length using Nat.strongRecOn generalizing cursor with
  | ind n ih =>
    have perm := (order cursor).perm (remaining time rows cursor)
    have ordered := (order cursor).ordered (remaining time rows cursor)
    rw [dates_eq perm ordered]
    rcases timePage_cases rows cursor (order cursor) positive with
      ⟨fits, page⟩ | ⟨last, remains, more, atEnd, page⟩
    · have final : Follows (timePages rows limit order) cursor
          (timePages rows limit order cursor).items cursor := .last (by rw [timePages, page])
      rw [timePages, page] at final
      constructor
      · exact fun _ => boundariesApart_of_short (by rw [List.length_map]; exact fits)
      · exact fun _ => ⟨_, _, final, perm⟩
    · generalize (order cursor).sort (remaining time rows cursor) = sorted at *
      have next : (timePages rows limit order cursor).next = some (some (toDate (time last))) := by
        rw [timePages, page]
      have items : (timePages rows limit order cursor).items = sorted.take limit := by
        rw [timePages, page]
      -- the rows behind the cursor, in the order of this query
      have behind : (remaining time rows (some (toDate (time last)))).Perm
          ((sorted.drop limit).filter (before time (some (toDate (time last))))) := by
        rw [remaining_next remains, ← filter_eq_drop ordered atEnd]
        exact (perm.filter _).symm
      have fewer : (remaining time rows (some (toDate (time last)))).length < n := by
        have := behind.length_eq
        have := List.length_filter_le (before time (some (toDate (time last)))) (sorted.drop limit)
        have := perm.length_eq
        rw [List.length_drop] at *
        omega
      have later := ih _ fewer (some (toDate (time last))) rfl
      rw [boundariesApart_iff positive, ← first_apart_iff ordered more atEnd, ← List.map_drop]
      constructor
      · rintro ⟨visited, final, follows, visits⟩
        obtain ⟨rest, onward, rfl⟩ := (follows_iff_of_next next).mp follows
        rw [items] at visits
        have restVisits : rest.Perm (sorted.drop limit) := by
          rw [← List.perm_append_left_iff (sorted.take limit), List.take_append_drop]
          exact visits.trans perm.symm
        have apart : ∀ row ∈ sorted.drop limit,
            before time (some (toDate (time last))) row = true := by
          intro row mem
          have visited := mem_remaining_of_follows positive onward row (restVisits.mem_iff.mpr mem)
          exact (List.mem_filter.mp visited).2
        rw [List.filter_eq_self.mpr apart] at behind
        refine ⟨apart, ?_⟩
        rw [← dates_eq behind.symm (ordered.sublist (List.drop_sublist limit sorted))]
        exact later.mp ⟨rest, final, onward, restVisits.trans behind.symm⟩
      · rintro ⟨apart, others⟩
        rw [List.filter_eq_self.mpr apart] at behind
        rw [← dates_eq behind.symm (ordered.sublist (List.drop_sublist limit sorted))] at others
        obtain ⟨rest, final, follows, visits⟩ := later.mpr others
        refine ⟨_, final, .next next follows, ?_⟩
        rw [items]
        have joined := (visits.trans behind).append_left (sorted.take limit)
        rw [List.take_append_drop] at joined
        exact joined.trans perm

/-- The pages visit every row once exactly if no two rows on the two sides of a page boundary share
their millisecond, whatever order the database gives rows of the same time. -/
theorem visitsOnce_iff (positive : 0 < limit) :
    VisitsOnce (timePages rows limit order) rows ↔
      BoundariesApart limit (dates time rows) := by
  have all : remaining time rows none = rows := List.filter_eq_self.mpr fun _ _ => rfl
  have visits := @visits_iff R time rows limit order positive none
  rwa [all] at visits

end Talos.Database
