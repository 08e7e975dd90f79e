import Mathlib.Data.List.Nodup

/-!
# Records keyed by names

An object or a `Map` that is filled one name after the other: a name that is there already keeps
its place and gets the new value. When the names differ, the record is the list of its entries
(`ofEntries_eq`).
-/

namespace Talos.Encoding

variable {α : Type}

/-- The entries, in the order in which their names were first set. -/
abbrev Record (α : Type) := List (String × α)

namespace Record

def set (r : Record α) (name : String) (v : α) : Record α :=
  if (r.map (·.1)).contains name then
    r.map fun entry => if entry.1 = name then (name, v) else entry
  else r ++ [(name, v)]

def ofEntries (entries : List (String × α)) : Record α :=
  entries.foldl (fun r entry => r.set entry.1 entry.2) []

theorem foldl_set (r : Record α) {entries : List (String × α)}
    (differ : ((r ++ entries).map (·.1)).Nodup) :
    entries.foldl (fun r entry => r.set entry.1 entry.2) r = r ++ entries := by
  induction entries generalizing r with
  | nil => exact (List.append_nil r).symm
  | cons entry rest ih =>
    have fresh : (r.map (·.1)).contains entry.1 = false := by
      rw [List.map_append, List.map_cons] at differ
      have apart := (List.nodup_append'.mp differ).2.2
      rw [Bool.eq_false_iff, Ne, List.contains_iff_mem]
      exact fun mem => apart mem List.mem_cons_self
    have added : r.set entry.1 entry.2 = r ++ [entry] := by
      rw [set, fresh, if_neg Bool.false_ne_true]
    rw [List.foldl_cons, added, ih (r ++ [entry]) (by simpa using differ), List.append_assoc]
    rfl

theorem ofEntries_eq {entries : List (String × α)} (differ : (entries.map (·.1)).Nodup) :
    ofEntries entries = entries := foldl_set [] differ

theorem lookup_iff {r : Record α} (differ : (r.map (·.1)).Nodup) {name : String} {v : α} :
    r.lookup name = some v ↔ (name, v) ∈ r := by
  induction r with
  | nil => simp
  | cons entry rest ih =>
    obtain ⟨fresh, distinct⟩ := List.nodup_cons.mp differ
    obtain ⟨first, w⟩ := entry
    by_cases same : name = first
    · subst same
      have absent : (name, v) ∉ rest := fun mem => fresh (List.mem_map.mpr ⟨_, mem, rfl⟩)
      simp [absent, eq_comm]
    · have other : (name == first) = false := beq_eq_false_iff_ne.mpr same
      simp only [List.lookup_cons, other, ih distinct, List.mem_cons, Prod.mk.injEq, same,
        false_and, false_or]

end Record

end Talos.Encoding
