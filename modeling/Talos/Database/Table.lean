import Talos.Soroban.Contract
import Mathlib.Data.List.Nodup
import Mathlib.Order.Defs.LinearOrder

/-!
# Tables and statements

A table is a map from its unique key to its rows. The statements are the ones an
application sends, each of them atomic: insert under a unique key, update and
delete of the rows that meet a condition. A condition sees the key, so a statement
about one row is one whose condition names its key.
-/

namespace Talos.Database

open Soroban (Map)

variable {K R : Type}

abbrev Table (K R : Type) := Map K R

namespace Table

/-- `UPDATE … SET … WHERE p`. -/
def update (t : Table K R) (p : K → R → Bool) (f : R → R) : Table K R :=
  fun k => (t k).map fun r => if p k r then f r else r

/-- `DELETE … WHERE p`. -/
def delete (t : Table K R) (p : K → R → Bool) : Table K R :=
  fun k => (t k).filter fun r => !p k r

/-- `INSERT`, refused when the unique key is taken. -/
def insert [DecidableEq K] (t : Table K R) (k : K) (r : R) : Option (Table K R) :=
  match t k with
  | none => some (t.set k r)
  | some _ => none

theorem update_eq_some {t : Table K R} {p : K → R → Bool} {f : R → R} {k : K} {r : R} :
    t.update p f k = some r ↔
      ∃ r₀, t k = some r₀ ∧ r = if p k r₀ then f r₀ else r₀ := by
  rw [update, Option.map_eq_some_iff]
  exact exists_congr fun r₀ => and_congr_right fun _ => eq_comm

theorem update_eq_none {t : Table K R} {p : K → R → Bool} {f : R → R} {k : K} :
    t.update p f k = none ↔ t k = none := Option.map_eq_none_iff

theorem update_of_some {t : Table K R} {p : K → R → Bool} {f : R → R} {k : K} {r : R}
    (found : t k = some r) : t.update p f k = some (if p k r then f r else r) := by
  rw [update, found, Option.map_some]

/-- One row's view of an UPDATE: it is picked, or it stays. -/
theorem update_cases (t : Table K R) (p : K → R → Bool) (f : R → R) (k : K) :
    t.update p f k = t k ∨ ∃ r, t k = some r ∧ p k r = true ∧ t.update p f k = some (f r) := by
  cases found : t k with
  | none => exact .inl (update_eq_none.mpr found)
  | some r =>
      cases hit : p k r with
      | true => exact .inr ⟨r, rfl, hit, by rw [update_of_some found, if_pos hit]⟩
      | false =>
          exact .inl (by rw [update_of_some found, hit, if_neg Bool.false_ne_true])

/-- A row the condition does not pick stays as it is. -/
theorem update_of_not {t : Table K R} {p : K → R → Bool} {f : R → R} {k : K}
    (skipped : ∀ r, t k = some r → p k r = false) : t.update p f k = t k := by
  cases found : t k with
  | none => exact update_eq_none.mpr found
  | some r => rw [update_of_some found, skipped r found, if_neg Bool.false_ne_true]

theorem delete_eq_some {t : Table K R} {p : K → R → Bool} {k : K} {r : R} :
    t.delete p k = some r ↔ t k = some r ∧ p k r = false := by
  simp [delete, Option.filter_eq_some_iff]

theorem delete_of_hit {t : Table K R} {p : K → R → Bool} {k : K} {r : R}
    (found : t k = some r) (hit : p k r = true) : t.delete p k = none := by
  simp [delete, found, hit]

theorem insert_eq_some [DecidableEq K] {t t' : Table K R} {k : K} {r : R} :
    t.insert k r = some t' ↔ t k = none ∧ t' = t.set k r := by
  unfold insert
  cases t k <;> simp [eq_comm]

end Table

end Talos.Database

/-!
## Listed tables

A table as the list of its rows under a unique key. `Table` answers questions about
one key; a query whose condition ranges over all rows, or that orders and limits
them, is about the list.
-/

namespace Talos.Database

/-- The rows of a table, no two of them with one key. -/
structure Rows (R K : Type) (key : R → K) where
  list : List R
  unique : (list.map key).Nodup

namespace Rows

variable {R K : Type} {key : R → K}

def empty : Rows R K key := ⟨[], List.nodup_nil⟩

/-- `SELECT … WHERE p`. -/
def select (t : Rows R K key) (p : R → Bool) : List R := t.list.filter p

/-- `SELECT … WHERE key = k`. -/
def find [DecidableEq K] (t : Rows R K key) (k : K) : Option R :=
  t.list.find? fun r => key r = k

/-- `UPDATE … SET … WHERE p`, of columns other than the key. -/
def update (t : Rows R K key) (p : R → Bool) (f : R → R) (keeps : ∀ r, key (f r) = key r) :
    Rows R K key where
  list := t.list.map fun r => if p r then f r else r
  unique := by
    have same : (key ∘ fun r => if p r then f r else r) = key := by
      funext r
      simp only [Function.comp_apply]
      split
      · exact keeps r
      · rfl
    rw [List.map_map, same]
    exact t.unique

/-- `INSERT`, refused when the key is taken. -/
def insert [DecidableEq K] (t : Rows R K key) (r : R) : Option (Rows R K key) :=
  if fresh : key r ∉ t.list.map key then
    some ⟨t.list ++ [r], by
      rw [List.map_append, List.map_singleton]
      exact t.unique.append (List.nodup_singleton _) (List.disjoint_singleton.mpr fresh)⟩
  else none

theorem eq_of_key {t : Rows R K key} {r r' : R} (mem : r ∈ t.list) (mem' : r' ∈ t.list)
    (same : key r = key r') : r = r' :=
  List.inj_on_of_nodup_map t.unique mem mem' same

theorem mem_select {t : Rows R K key} {p : R → Bool} {r : R} :
    r ∈ t.select p ↔ r ∈ t.list ∧ p r = true := List.mem_filter

variable [DecidableEq K]

theorem mem_of_find {t : Rows R K key} {k : K} {r : R} (found : t.find k = some r) :
    r ∈ t.list := List.mem_of_find?_eq_some found

theorem key_of_find {t : Rows R K key} {k : K} {r : R} (found : t.find k = some r) :
    key r = k := by
  have hit := List.find?_some found
  exact of_decide_eq_true hit

theorem find_eq_none {t : Rows R K key} {k : K} : t.find k = none ↔ k ∉ t.list.map key := by
  simp [find]

theorem find_of_mem {t : Rows R K key} {r : R} (mem : r ∈ t.list) : t.find (key r) = some r := by
  cases found : t.find (key r) with
  | none => exact absurd (List.mem_map_of_mem mem) (find_eq_none.mp found)
  | some r' => rw [eq_of_key mem (mem_of_find found) (key_of_find found).symm]

theorem find_update {t : Rows R K key} {p : R → Bool} {f : R → R}
    {keeps : ∀ r, key (f r) = key r} {k : K} :
    (t.update p f keeps).find k = (t.find k).map fun r => if p r then f r else r := by
  have same : ∀ r, key (if p r then f r else r) = key r := by
    intro r
    split
    · exact keeps r
    · rfl
  simp only [find, update, List.find?_map, Function.comp_def, same]

/-- One key's view of an UPDATE: its row is picked, or it stays. -/
theorem find_update_cases (t : Rows R K key) (p : R → Bool) (f : R → R)
    (keeps : ∀ r, key (f r) = key r) (k : K) :
    (t.update p f keeps).find k = t.find k ∨
      ∃ r, t.find k = some r ∧ p r = true ∧ (t.update p f keeps).find k = some (f r) := by
  rw [find_update]
  cases t.find k with
  | none => exact .inl rfl
  | some r =>
      cases hit : p r with
      | true => exact .inr ⟨r, rfl, hit, by rw [Option.map_some, if_pos hit]⟩
      | false => exact .inl (by rw [Option.map_some, hit, if_neg Bool.false_ne_true])

/-- An UPDATE of the row with one key. -/
theorem find_update_key {t : Rows R K key} {f : R → R} (keeps : ∀ r, key (f r) = key r)
    (k k' : K) :
    (t.update (fun r => key r = k) f keeps).find k' =
      if k' = k then (t.find k').map f else t.find k' := by
  rw [find_update]
  cases found : t.find k' with
  | none => split <;> rfl
  | some r =>
      have same : key r = k' := key_of_find found
      by_cases hit : k' = k
      · rw [if_pos hit, Option.map_some, Option.map_some, if_pos (decide_eq_true (same.trans hit))]
      · rw [if_neg hit, Option.map_some,
          if_neg fun other => hit (same.symm.trans (of_decide_eq_true other))]

theorem insert_eq_some {t t' : Rows R K key} {r : R} :
    t.insert r = some t' ↔ t.find (key r) = none ∧ t'.list = t.list ++ [r] := by
  unfold insert
  split
  · next fresh =>
      rw [Option.some_inj, find_eq_none]
      constructor
      · rintro rfl
        exact ⟨fresh, rfl⟩
      · rintro ⟨-, same⟩
        cases t'
        cases same
        rfl
  · next taken =>
      constructor
      · intro absent
        cases absent
      · rintro ⟨absent, -⟩
        exact absurd (find_eq_none.mp absent) taken

theorem find_insert {t t' : Rows R K key} {r : R} (ok : t.insert r = some t') (k : K) :
    t'.find k = if key r = k then some r else t.find k := by
  obtain ⟨absent, rows⟩ := insert_eq_some.mp ok
  split
  · next same =>
      subst same
      exact find_of_mem (by rw [rows]; exact List.mem_append_right _ List.mem_cons_self)
  · next other => simp [find, rows, other]

/-- One row's view of an INSERT: it is new, or it stays. -/
theorem find_insert_cases {t t' : Rows R K key} {r : R} (ok : t.insert r = some t') (k : K) :
    t'.find k = t.find k ∨ k = key r ∧ t.find k = none ∧ t'.find k = some r := by
  rw [find_insert ok]
  split
  · next same =>
      obtain ⟨absent, -⟩ := insert_eq_some.mp ok
      cases same
      exact .inr ⟨rfl, absent, rfl⟩
  · exact .inl rfl

end Rows

end Talos.Database

/-!
## Conditions over nullable columns

SQL evaluates a condition to true, false or unknown, and a WHERE clause keeps the rows for which it
is true. A comparison with NULL is unknown. Databases have a switch for `=` between two NULLs, so
this one case is a parameter.
-/

namespace Talos.Database

/-- A truth value of SQL; `none` is unknown. -/
abbrev Truth := Option Bool

namespace Truth

/-- A WHERE clause keeps the row. -/
abbrev Holds (t : Truth) : Prop := t = some true

def and : Truth → Truth → Truth
  | some false, _ | _, some false => some false
  | some true, some true => some true
  | none, _ | _, none => none

def or : Truth → Truth → Truth
  | some true, _ | _, some true => some true
  | some false, some false => some false
  | none, _ | _, none => none

variable {a b : Truth}

@[simp] theorem and_holds : (a.and b).Holds ↔ a.Holds ∧ b.Holds := by
  rcases a with _ | _ | _ <;> rcases b with _ | _ | _ <;> decide

@[simp] theorem or_holds : (a.or b).Holds ↔ a.Holds ∨ b.Holds := by
  rcases a with _ | _ | _ <;> rcases b with _ | _ | _ <;> decide

end Truth

/-- What `NULL = NULL` is. The standard says unknown. -/
inductive NullEquality where
  | unknown
  | equal
  deriving DecidableEq, Repr

def NullEquality.both : NullEquality → Truth
  | .unknown => none
  | .equal => some true

variable {α : Type}

/-- `a = b` -/
def sqlEq [DecidableEq α] (nulls : NullEquality) : Option α → Option α → Truth
  | some a, some b => some (a = b)
  | none, none => nulls.both
  | some _, none | none, some _ => none

/-- `a < b` -/
def sqlLt [LT α] [DecidableLT α] : Option α → Option α → Truth
  | some a, some b => some (a < b)
  | none, _ | _, none => none

variable {nulls : NullEquality}

@[simp] theorem sqlEq_some [DecidableEq α] {a : Option α} {b : α} :
    (sqlEq nulls a (some b)).Holds ↔ a = some b := by
  cases a with
  | none => simp [sqlEq]
  | some a => simp [sqlEq]

/-- Nothing equals NULL, unless NULL does. -/
@[simp] theorem sqlEq_none [DecidableEq α] {a : Option α} :
    (sqlEq nulls a none).Holds ↔ nulls = .equal ∧ a = none := by
  cases a with
  | none => cases nulls <;> simp [sqlEq, NullEquality.both]
  | some a => simp [sqlEq]

@[simp] theorem sqlLt_holds [LT α] [DecidableLT α] {a b : Option α} :
    (sqlLt a b).Holds ↔ ∃ x ∈ a, ∃ y ∈ b, x < y := by
  cases a with
  | none => simp [sqlLt]
  | some a =>
      cases b with
      | none => simp [sqlLt]
      | some b => simp [sqlLt]

end Talos.Database
