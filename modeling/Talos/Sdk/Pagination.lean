import Mathlib.Algebra.Order.Floor.Ring
import Mathlib.Data.Rat.Floor

/-!
# The pagination iterator

`AsyncPaginationIterator` of `packages/sdk/src/pagination.ts`. Calls of `next` follow the cursors of
the pages. They yield the pages up to an empty one, where the iterator stops even if there is
another cursor, or up to the limit (`next_yields_pages`).
-/

namespace Talos.Sdk.Pagination

structure CursorPage (α : Type) where
  data : List α
  nextCursor : Option String

/-- The cursor of the next page; an empty one counts as none. -/
def CursorPage.next {α : Type} (page : CursorPage α) : Option String :=
  page.nextCursor.filter (· ≠ "")

/-- A positive number, or `none` for `Infinity` (and `NaN`, which passes the check too). -/
structure MaxPages where
  pages : Option ℚ
  pos : ∀ n ∈ pages, 0 < n

/-- `currentPage >= maxPages` -/
def MaxPages.reached (maxPages : MaxPages) (currentPage : ℕ) : Bool :=
  maxPages.pages.any fun n : ℚ => n ≤ (currentPage : ℚ)

/-- What a call of `next` settles with. -/
inductive Outcome (α ε : Type) where
  | value (item : α)
  | done
  | limitExceeded
  | aborted
  /-- The error of a fetch. -/
  | failed (error : ε)
  deriving DecidableEq, Repr

/-- `exhausted` is written and never read. -/
structure State (α : Type) where
  cursor : Option String
  currentPage : ℕ
  currentItems : List α
  itemIndex : ℕ
  exhausted : Bool
  fetchedFirstPage : Bool
  /-- The signal of the caller. -/
  aborted : Bool
  /-- The cursors asked for, newest first. -/
  fetches : List (Option String)
  deriving DecidableEq, Repr

def State.init {α : Type} : State α := ⟨none, 0, [], 0, false, false, false, []⟩

section

variable {α ε : Type} (fetcher : Option String → Except ε (CursorPage α)) (maxPages : MaxPages)

/-- The outcome is that of the call, if the page cannot be fetched. -/
def fetchNextPage (s : State α) : Option (Outcome α ε) × State α :=
  if maxPages.reached s.currentPage then (some .limitExceeded, s)
  else if s.aborted then (some .aborted, s)
  else
    let s := { s with fetches := s.cursor :: s.fetches }
    match fetcher s.cursor with
    | .ok page => (none, { s with
        currentItems := page.data
        cursor := page.nextCursor
        itemIndex := 0
        currentPage := s.currentPage + 1
        fetchedFirstPage := true })
    | .error error => (some (.failed error), s)

/-- The current item, and the index moves on. There is one whenever this is called. -/
def takeItem (s : State α) : Outcome α ε × State α :=
  match s.currentItems[s.itemIndex]? with
  | some item => (.value item, { s with itemIndex := s.itemIndex + 1 })
  | none => (.done, s)

/-- Fetches a page; if it is empty, we're done. -/
def advance (s : State α) (rest : State α → Outcome α ε × State α) : Outcome α ε × State α :=
  match fetchNextPage fetcher maxPages s with
  | (some outcome, s) => (outcome, s)
  | (none, s) => if s.currentItems = [] then (.done, s) else rest s

def nextItem (s : State α) : Outcome α ε × State α :=
  if s.currentItems.length ≤ s.itemIndex then
    if (s.cursor.filter (· ≠ "")).isNone then (.done, s)
    else advance fetcher maxPages s takeItem
  else takeItem s

def next (s : State α) : Outcome α ε × State α :=
  if s.aborted then (.aborted, s)
  else if !s.fetchedFirstPage then advance fetcher maxPages s (nextItem fetcher maxPages)
  else nextItem fetcher maxPages s

/-- `return` -/
def State.stop (s : State α) : State α := { s with exhausted := true, currentItems := [] }

/-- So many calls of `next`, one after the other. -/
def calls : ℕ → State α → List (Outcome α ε) × State α
  | 0, s => ([], s)
  | n + 1, s =>
      let first := next fetcher maxPages s
      let others := calls n first.2
      (first.1 :: others.1, others.2)

/-- The pages from a cursor on, to one without a next cursor. -/
inductive Chain : Option String → List (CursorPage α) → Prop where
  | last {c page} (fetched : fetcher c = .ok page) (ends : page.next = none) : Chain c [page]
  | more {c page c' rest} (fetched : fetcher c = .ok page) (goesOn : page.next = some c')
      (others : Chain (some c') rest) : Chain c (page :: rest)

/-- Where the iterator is: the pages that are left to be fetched. -/
inductive Reading (s : State α) : List (CursorPage α) → Prop where
  | unread {left} (chain : Chain fetcher none left) (live : s.aborted = false)
      (first : s.fetchedFirstPage = false) (cursor : s.cursor = none) : Reading s left
  | between {left c} (chain : Chain fetcher (some c) left) (live : s.aborted = false)
      (first : s.fetchedFirstPage = true) (cursor : s.cursor = some c) (truthy : c ≠ "") :
      Reading s left
  | last (live : s.aborted = false) (first : s.fetchedFirstPage = true)
      (cursor : s.cursor.filter (· ≠ "") = none) : Reading s []

end

section

variable {α ε : Type} {fetcher : Option String → Except ε (CursorPage α)} {maxPages : MaxPages}
  {s : State α} {page : CursorPage α} {left rest pages : List (CursorPage α)} {item : α}
  {items : List α}

/-- The page has been fetched. -/
def State.fetched (s : State α) (page : CursorPage α) : State α :=
  { s with
    fetches := s.cursor :: s.fetches
    currentItems := page.data
    cursor := page.nextCursor
    itemIndex := 0
    currentPage := s.currentPage + 1
    fetchedFirstPage := true }

theorem Reading.live (reading : Reading fetcher s left) : s.aborted = false := by
  cases reading <;> assumption

/-- A page that is left is the next one to be fetched. -/
theorem Reading.chain_of_cons (reading : Reading fetcher s (page :: rest)) :
    ∃ c, Chain fetcher c (page :: rest) ∧ s.cursor = c := by
  cases reading with
  | unread chain _ _ cursor => exact ⟨_, chain, cursor⟩
  | between chain _ _ cursor => exact ⟨_, chain, cursor⟩

theorem Reading.withIndex (reading : Reading fetcher s left) (i : ℕ) :
    Reading fetcher { s with itemIndex := i } left := by
  cases reading with
  | unread chain live first cursor => exact .unread chain live first cursor
  | between chain live first cursor truthy => exact .between chain live first cursor truthy
  | last live first cursor => exact .last live first cursor

theorem reading_fetched {c : Option String} (chain : Chain fetcher c (page :: rest))
    (live : s.aborted = false) : Reading fetcher (s.fetched page) rest := by
  cases chain with
  | last _ ends => exact .last live rfl ends
  | more _ goesOn others =>
    obtain ⟨same, truthy⟩ := Option.filter_eq_some_iff.mp goesOn
    exact .between others live rfl same (of_decide_eq_true truthy)

theorem fetchNextPage_eq {c : Option String} (chain : Chain fetcher c (page :: rest))
    (cursor : s.cursor = c) (live : s.aborted = false) :
    fetchNextPage fetcher maxPages s =
      if maxPages.reached s.currentPage then (some .limitExceeded, s)
      else (none, s.fetched page) := by
  have found : fetcher s.cursor = .ok page := by
    rw [cursor]
    cases chain <;> assumption
  unfold fetchNextPage
  refine if_congr Iff.rfl rfl ?_
  rw [if_neg (by rw [live]; exact Bool.false_ne_true)]
  simp only [found]
  rfl

theorem next_of_live (live : s.aborted = false) : next fetcher maxPages s =
    if !s.fetchedFirstPage then advance fetcher maxPages s (nextItem fetcher maxPages)
    else nextItem fetcher maxPages s :=
  if_neg (by rw [live]; exact Bool.false_ne_true)

theorem next_of_first (live : s.aborted = false) (first : s.fetchedFirstPage = true) :
    next fetcher maxPages s = nextItem fetcher maxPages s :=
  (next_of_live live).trans (if_neg (by rw [first]; exact Bool.false_ne_true))

theorem advance_eq {c : Option String} (chain : Chain fetcher c (page :: rest))
    (cursor : s.cursor = c) (live : s.aborted = false)
    (go : State α → Outcome α ε × State α) :
    advance fetcher maxPages s go =
      if maxPages.reached s.currentPage then (.limitExceeded, s)
      else if page.data = [] then (.done, s.fetched page) else go (s.fetched page) := by
  rw [advance, fetchNextPage_eq chain cursor live]
  cases maxPages.reached s.currentPage <;> rfl

/-- An item of the page is left. -/
theorem next_of_drop (live : s.aborted = false) (first : s.fetchedFirstPage = true)
    (drop : s.currentItems.drop s.itemIndex = item :: items) :
    next fetcher maxPages s = (.value item, { s with itemIndex := s.itemIndex + 1 }) ∧
      s.currentItems.drop (s.itemIndex + 1) = items := by
  have here : s.currentItems[s.itemIndex]? = some item := by
    rw [← List.head?_drop, drop]
    rfl
  have inside : ¬ s.currentItems.length ≤ s.itemIndex := by
    intro le
    rw [List.getElem?_eq_none le] at here
    cases here
  constructor
  · rw [next_of_first live first, nextItem, if_neg inside, takeItem, here]
  · rw [← List.tail_drop, drop]
    rfl

/-- The page is done, and there is another one. -/
theorem next_of_page (reading : Reading fetcher s (page :: rest))
    (done : s.fetchedFirstPage = true → s.currentItems.length ≤ s.itemIndex) :
    next fetcher maxPages s =
      if maxPages.reached s.currentPage then (.limitExceeded, s)
      else if page.data = [] then (.done, s.fetched page) else takeItem (s.fetched page) := by
  cases reading with
  | unread chain live first cursor =>
    rw [next_of_live live, first, Bool.not_false, if_pos rfl, advance_eq chain cursor live]
    refine if_congr Iff.rfl rfl ?_
    split
    · rfl
    · next nonempty =>
      have inside : ¬ page.data.length ≤ 0 := by
        rwa [Nat.le_zero, List.length_eq_zero_iff]
      exact if_neg inside
  | between chain live first cursor truthy =>
    have more : ¬ (s.cursor.filter (· ≠ "")).isNone = true := by
      rw [cursor, Option.filter_some_pos (by simpa using truthy)]
      exact Bool.false_ne_true
    rw [next_of_first live first, nextItem, if_pos (done first), if_neg more,
      advance_eq chain cursor live]

/-- There is no other page. -/
theorem next_of_last (reading : Reading fetcher s [])
    (done : s.currentItems.length ≤ s.itemIndex) : next fetcher maxPages s = (.done, s) := by
  cases reading with
  | unread chain => cases chain
  | between chain => cases chain
  | last live first cursor =>
    rw [next_of_first live first, nextItem, if_pos done, cursor]
    rfl

/-! ### Calls one after the other -/

/-- The pages that may be fetched once `currentPage` have been. -/
def MaxPages.allowed (maxPages : MaxPages) (currentPage : ℕ) (pages : List (CursorPage α)) :
    List (CursorPage α) :=
  match maxPages.pages with
  | some n => pages.take (⌈n⌉₊ - currentPage)
  | none => pages

theorem allowed_cons (n : ℕ) (page : CursorPage α) (rest : List (CursorPage α)) :
    maxPages.allowed n (page :: rest) =
      if maxPages.reached n then [] else page :: maxPages.allowed (n + 1) rest := by
  unfold MaxPages.allowed MaxPages.reached
  cases maxPages.pages with
  | none => rfl
  | some m =>
    rw [Option.any_some]
    by_cases reached : m ≤ (n : ℚ)
    · have none : ⌈m⌉₊ - n = 0 := Nat.sub_eq_zero_of_le (Nat.ceil_le.mpr reached)
      simp only [reached, decide_true, if_true, none, List.take_zero]
    · have more : ⌈m⌉₊ - n = ⌈m⌉₊ - (n + 1) + 1 := by
        have := mt Nat.ceil_le.mp reached
        omega
      simp only [reached, decide_false, Bool.false_eq_true, if_false, more, List.take_succ_cons]

/-- The calls yield the items that are left of a page. -/
theorem calls_of_drop (live : s.aborted = false) (first : s.fetchedFirstPage = true)
    (drop : s.currentItems.drop s.itemIndex = items) (k : ℕ) :
    calls fetcher maxPages (items.length + k) s =
      let s' := { s with itemIndex := s.itemIndex + items.length }
      (items.map .value ++ (calls fetcher maxPages k s').1, (calls fetcher maxPages k s').2) := by
  induction items generalizing s with
  | nil =>
    rw [List.length_nil, Nat.zero_add]
    rfl
  | cons item items ih =>
    obtain ⟨now, later⟩ : next fetcher maxPages s = _ ∧ _ := next_of_drop live first drop
    have others := ih (s := { s with itemIndex := s.itemIndex + 1 }) live first later
    have sum : s.itemIndex + 1 + items.length = s.itemIndex + (items.length + 1) := by omega
    simp only [sum] at others
    simp only [List.length_cons, Nat.add_right_comm, calls, now, others, List.map_cons,
      List.cons_append]

/-- What the calls find in the pages that are allowed, up to an empty one. -/
def itemsOf (allowed : List (CursorPage α)) : List α :=
  (allowed.takeWhile fun page => page.data ≠ []).flatMap (·.data)

/-- The outcome after that. -/
def ending (allowed pages : List (CursorPage α)) : Outcome α ε :=
  if allowed.length < pages.length ∧ ∀ page ∈ allowed, page.data ≠ [] then .limitExceeded
  else .done

theorem itemsOf_cons (nonempty : page.data ≠ []) (allowed : List (CursorPage α)) :
    itemsOf (page :: allowed) = page.data ++ itemsOf allowed := by
  rw [itemsOf, List.takeWhile_cons_of_pos (by simp [nonempty]), List.flatMap_cons, itemsOf]

theorem itemsOf_cons_of_empty (empty : page.data = []) (allowed : List (CursorPage α)) :
    itemsOf (page :: allowed) = [] := by
  rw [itemsOf, List.takeWhile_cons_of_neg (by simp [empty])]
  rfl

theorem ending_cons (nonempty : page.data ≠ []) (allowed pages : List (CursorPage α)) :
    (ending (page :: allowed) (page :: pages) : Outcome α ε) = ending allowed pages := by
  simp only [ending, List.length_cons, Nat.add_lt_add_iff_right, List.forall_mem_cons, nonempty,
    ne_eq, not_false_eq_true, true_and]

/-- The first item of a page that has just been fetched. -/
theorem takeItem_fetched (data : page.data = item :: items) :
    (takeItem (s.fetched page) : Outcome α ε × State α) =
      (.value item, { s.fetched page with itemIndex := 1 }) := by
  have here : (s.fetched page).currentItems[(s.fetched page).itemIndex]? = some item := by
    rw [State.fetched, data]
    rfl
  rw [takeItem, here]
  rfl

/-- The calls from a page on. -/
theorem calls_of_reading (reading : Reading fetcher s left)
    (done : s.fetchedFirstPage = true → s.currentItems.length ≤ s.itemIndex) :
    (calls fetcher maxPages ((itemsOf (maxPages.allowed s.currentPage left)).length + 1) s).1 =
      (itemsOf (maxPages.allowed s.currentPage left)).map .value ++
        [ending (maxPages.allowed s.currentPage left) left] := by
  induction left generalizing s with
  | nil =>
    have nothing : maxPages.allowed s.currentPage ([] : List (CursorPage α)) = [] := by
      unfold MaxPages.allowed
      cases maxPages.pages <;> simp
    have first : s.fetchedFirstPage = true := by
      cases reading with
      | unread chain => cases chain
      | between chain => cases chain
      | last _ first _ => exact first
    rw [nothing]
    simp only [itemsOf, List.takeWhile_nil, List.flatMap_nil, List.length_nil, calls,
      next_of_last reading (done first)]
    rfl
  | cons page rest ih =>
    have first : next fetcher maxPages s = _ := next_of_page reading done
    rw [allowed_cons]
    split
    · next reached =>
      rw [if_pos reached] at first
      simp only [itemsOf, List.takeWhile_nil, List.flatMap_nil, List.length_nil, calls, first]
      rfl
    · next within =>
      rw [if_neg within] at first
      cases data : page.data with
      | nil =>
        rw [if_pos data] at first
        rw [itemsOf_cons_of_empty data]
        simp only [List.length_nil, calls, first]
        simp [ending, data]
      | cons item items =>
        have nonempty : page.data ≠ [] := by
          rw [data]
          exact List.cons_ne_nil _ _
        rw [if_neg nonempty, takeItem_fetched data] at first
        have drop : page.data.drop 1 = items := by
          rw [data]
          rfl
        have reading' : Reading fetcher (s.fetched page) rest := by
          obtain ⟨_, chain, _⟩ := reading.chain_of_cons
          exact reading_fetched chain reading.live
        have spent : page.data.length ≤ 1 + items.length := by
          rw [data, List.length_cons, Nat.add_comm]
        have others := ih (reading'.withIndex (1 + items.length)) fun _ => spent
        rw [itemsOf_cons nonempty, ending_cons nonempty, data, List.cons_append, List.length_cons,
          List.length_append, Nat.add_assoc items.length, calls, first,
          calls_of_drop (s := { s.fetched page with itemIndex := 1 }) reading.live rfl drop]
        simp only [List.map_cons, List.map_append, List.cons_append, List.append_assoc]
        exact congrArg (fun o => .value item :: (items.map .value ++ o)) others

/-! ### After the last page -/

/-- No page is left to be fetched, and no item of the last one. -/
structure Exhausted (fetcher : Option String → Except ε (CursorPage α)) (s : State α) : Prop where
  reading : Reading fetcher s []
  spent : s.currentItems.length ≤ s.itemIndex

theorem Exhausted.calls_eq (exhausted : Exhausted fetcher s) (k : ℕ) :
    calls fetcher maxPages k s = (List.replicate k .done, s) := by
  induction k with
  | zero => rfl
  | succ k ih =>
    simp only [calls, next_of_last exhausted.reading exhausted.spent, ih, List.replicate_succ]

theorem Reading.stop (reading : Reading fetcher s []) : Exhausted fetcher s.stop := by
  refine ⟨?_, Nat.zero_le _⟩
  cases reading with
  | unread chain => cases chain
  | between chain => cases chain
  | last live first cursor => exact .last live first cursor

/-- Where the iterator is among so many pages. -/
def Within (fetcher : Option String → Except ε (CursorPage α)) (n : ℕ) (s : State α) : Prop :=
  ∃ left, Reading fetcher s left ∧ s.fetches.length + left.length = n

theorem Within.fetched {n : ℕ} (reading : Reading fetcher s (page :: rest))
    (count : s.fetches.length + (page :: rest).length = n) :
    Within fetcher n (s.fetched page) := by
  obtain ⟨_, chain, _⟩ := reading.chain_of_cons
  refine ⟨rest, reading_fetched chain reading.live, ?_⟩
  rw [← count]
  exact Nat.add_right_comm ..

/-- A call of `next` moves along the chain, and is done when there are no items. -/
theorem Within.next {n : ℕ} (within : Within fetcher n s) :
    Within fetcher n (next fetcher maxPages s).2 ∧
      ((next fetcher maxPages s).1 = .done →
        (next fetcher maxPages s).2.currentItems.length ≤
          (next fetcher maxPages s).2.itemIndex) := by
  obtain ⟨left, reading, count⟩ := within
  by_cases done : s.fetchedFirstPage = true → s.currentItems.length ≤ s.itemIndex
  · cases left with
    | nil =>
      have spent : s.currentItems.length ≤ s.itemIndex := by
        cases reading with
        | unread chain => cases chain
        | between chain => cases chain
        | last _ first _ => exact done first
      rw [next_of_last reading spent]
      exact ⟨⟨[], reading, count⟩, fun _ => spent⟩
    | cons page rest =>
      rw [next_of_page reading done]
      split
      · exact ⟨⟨_, reading, count⟩, by simp⟩
      · cases data : page.data with
        | nil =>
          rw [if_pos rfl]
          exact ⟨.fetched reading count, fun _ => by simp [State.fetched, data]⟩
        | cons item items =>
          rw [if_neg (List.cons_ne_nil _ _), takeItem_fetched data]
          obtain ⟨left, reading', count'⟩ := Within.fetched reading count
          exact ⟨⟨left, reading'.withIndex 1, count'⟩, by simp⟩
  · obtain ⟨first, inside⟩ := Classical.not_imp.mp done
    cases drop : s.currentItems.drop s.itemIndex with
    | nil => exact absurd (List.drop_eq_nil_iff.mp drop) inside
    | cons item items =>
      obtain ⟨now, _⟩ : Pagination.next fetcher maxPages s = _ ∧ _ :=
        next_of_drop reading.live first drop
      rw [now]
      exact ⟨⟨left, reading.withIndex _, count⟩, by simp⟩

theorem Within.calls {n : ℕ} (within : Within fetcher n s) (j : ℕ) :
    Within fetcher n (calls fetcher maxPages j s).2 := by
  induction j generalizing s with
  | zero => exact within
  | succ j ih => exact ih within.next.1

/-- The last page has been fetched. -/
theorem Within.reading {n : ℕ} (within : Within fetcher n s) (all : n ≤ s.fetches.length) :
    Reading fetcher s [] := by
  obtain ⟨left, reading, count⟩ := within
  have none : left = [] := List.eq_nil_of_length_eq_zero (by omega)
  exact none ▸ reading

/-- The calls of `next` yield the data of the pages that are allowed, in order and up to an empty
page, and then end. Once the last page of the chain has been fetched, a call that is done and
`return` are followed by calls that are done and fetch nothing. -/
theorem next_yields_pages (chain : Chain fetcher none pages) :
    (calls fetcher maxPages ((itemsOf (maxPages.allowed 0 pages)).length + 1) .init).1 =
        (itemsOf (maxPages.allowed 0 pages)).map .value ++
          [ending (maxPages.allowed 0 pages) pages] ∧
      ∀ j k, let s := (calls fetcher maxPages j .init).2
        (pages.length ≤ s.fetches.length →
          calls fetcher maxPages k s.stop = (List.replicate k .done, s.stop)) ∧
        let call := next fetcher maxPages s
        (pages.length ≤ call.2.fetches.length → call.1 = .done →
          calls fetcher maxPages k call.2 = (List.replicate k .done, call.2)) := by
  have reading : Reading fetcher State.init pages := .unread chain rfl rfl rfl
  refine ⟨calls_of_reading reading fun first => absurd first Bool.false_ne_true, fun j k => ?_⟩
  have within : Within fetcher pages.length (calls fetcher maxPages j .init).2 :=
    Within.calls ⟨pages, reading, Nat.zero_add _⟩ j
  obtain ⟨within', spent⟩ : Within fetcher _ (next fetcher maxPages _).2 ∧ _ := within.next
  exact ⟨fun all => (within.reading all).stop.calls_eq k,
    fun all done => Exhausted.calls_eq ⟨within'.reading all, spent done⟩ k⟩

end

/-- Two pages; the first has the items given. -/
def twoPages (items : List ℕ) : Option String → Except String (CursorPage ℕ)
  | none => .ok ⟨items, some "b"⟩
  | some "b" => .ok ⟨[3], none⟩
  | some _ => .error "no such page"

/-- The default of `maxPages`. -/
def MaxPages.hundred : MaxPages := ⟨some 100, by simp⟩

theorem chain_twoPages (items : List ℕ) :
    Chain (twoPages items) none [⟨items, some "b"⟩, ⟨[3], none⟩] :=
  .more (by rfl) (by rfl) (.last (by rfl) (by rfl))

theorem next_yields_two_pages :
    (calls (twoPages [1, 2]) .hundred 4 .init).1 = [.value 1, .value 2, .value 3, .done] ∧
      ∀ k, let s := (calls (twoPages [1, 2]) .hundred 3 .init).2
        calls (twoPages [1, 2]) .hundred k s.stop = (List.replicate k .done, s.stop) := by
  obtain ⟨outcomes, after⟩ : (calls (twoPages [1, 2]) .hundred _ .init).1 = _ ∧ _ :=
    next_yields_pages (chain_twoPages [1, 2])
  have items : itemsOf (MaxPages.hundred.allowed 0 [⟨[1, 2], some "b"⟩, ⟨[3], none⟩]) =
      [1, 2, 3] := by
    decide
  rw [items] at outcomes
  exact ⟨outcomes.trans (by decide), fun k => (after 3 k).1 (by decide)⟩

/-- An empty page ends the iteration though the chain goes on, and the call after it fetches. -/
theorem empty_page_ends :
    Chain (twoPages []) none [⟨[], some "b"⟩, ⟨[3], none⟩] ∧
      (calls (twoPages []) .hundred 2 .init).1 = [.done, .value 3] :=
  ⟨chain_twoPages [], by decide⟩

end Talos.Sdk.Pagination
