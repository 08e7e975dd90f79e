import Mathlib.Logic.Basic

/-!
# Reading a listing page by page

A paged listing answers a cursor with some rows and, unless the page is the last one, the cursor of
the next page. A client reads the first page and follows the cursors until there is none.
-/

namespace Talos.Paging

variable {C R : Type}

structure Page (C R : Type) where
  items : List R
  next : Option C

/-- Reading the pages from a cursor on yields the rows and ends at the page of the cursor `last`. -/
inductive Follows (page : C → Page C R) : (start : C) → List R → (last : C) → Prop where
  | last {c : C} (none : (page c).next = none) : Follows page c (page c).items c
  | next {c c' last : C} {rows : List R} (some : (page c).next = some c')
      (rest : Follows page c' rows last) : Follows page c ((page c).items ++ rows) last

variable {page : C → Page C R} {start last last' : C} {rows rows' : List R}

/-- Following the cursors is deterministic. -/
theorem Follows.unique (one : Follows page start rows last) (two : Follows page start rows' last') :
    rows' = rows ∧ last' = last := by
  induction one generalizing rows' with
  | last none =>
    cases two with
    | last _ => exact ⟨rfl, rfl⟩
    | next some _ => exact absurd (none.symm.trans some) nofun
  | next some _ ih =>
    cases two with
    | last none => exact absurd (none.symm.trans some) nofun
    | next some' rest' =>
      obtain rfl := Option.some.inj (some.symm.trans some')
      obtain ⟨rfl, rfl⟩ := ih rest'
      exact ⟨rfl, rfl⟩

theorem follows_iff_of_next {c : C} (some : (page start).next = some c) :
    Follows page start rows last ↔
      ∃ rest, Follows page c rest last ∧ rows = (page start).items ++ rest := by
  constructor
  · intro follows
    cases follows with
    | last none => exact absurd (none.symm.trans some) nofun
    | next some' rest =>
      obtain rfl := Option.some.inj (some.symm.trans some')
      exact ⟨_, rest, rfl⟩
  · rintro ⟨rest, follows, rfl⟩
    exact .next some follows

/-- Cursors of a kind that only move forward are followed to an end. -/
theorem exists_follows (Valid : C → Prop) (ahead : C → Nat)
    (forward : ∀ c c', Valid c → (page c).next = some c' → Valid c' ∧ ahead c' < ahead c)
    (valid : Valid start) : ∃ rows last, Follows page start rows last := by
  induction h : ahead start using Nat.strongRecOn generalizing start with
  | ind n ih =>
    cases next : (page start).next with
    | none => exact ⟨_, _, .last next⟩
    | some c =>
      obtain ⟨valid', closer⟩ := forward start c valid next
      obtain ⟨rows, last, rest⟩ := ih (ahead c) (h ▸ closer) valid' rfl
      exact ⟨_, _, .next next rest⟩

end Talos.Paging
