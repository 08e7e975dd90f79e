import Talos.Soroban.Contract
import Mathlib.Algebra.BigOperators.Group.Finset.Basic
import Mathlib.Algebra.Order.BigOperators.Group.Finset
import Mathlib.Algebra.Order.Ring.Int

/-!
# Sums over storage maps

Contracts keep running totals next to a family of separately keyed records. A
total is right when it is the sum of a measure over the keys that have a record;
this file has the rules by which such sums follow the writes, and the bound of a
sum of weights by what their keys allow.
-/

namespace Talos.Soroban.Map

variable {K V M : Type} [DecidableEq K] [AddCommMonoid M] {m : Map K V} {keys : Finset K}

/-- The keys of a map, all of them. -/
def Keys (m : Map K V) (keys : Finset K) : Prop := ∀ k, k ∈ keys ↔ m k ≠ none

omit [DecidableEq K] in
theorem Keys.empty : Keys (.empty : Map K V) ∅ := by
  intro k
  simp

omit [DecidableEq K] in
theorem Keys.eq_empty (hk : Keys m keys) (none : keys.card = 0) (k : K) : m k = .none := by
  rw [Finset.card_eq_zero] at none
  by_contra some
  have mem := (hk k).mpr some
  rw [none] at mem
  exact Finset.notMem_empty k mem

theorem Keys.set (hk : Keys m keys) (k : K) (v : V) : Keys (m.set k v) (insert k keys) := by
  intro k'
  rw [Finset.mem_insert, set_apply]
  split
  · next same => simp [same]
  · next ne => simp only [ne, false_or, hk k']

/-- The sum of a measure of the records over some keys. -/
def sumOver (measure : V → M) (m : Map K V) (keys : Finset K) : M :=
  ∑ k ∈ keys, ((m k).map measure).getD 0

omit [DecidableEq K] in
@[simp] theorem sumOver_empty (measure : V → M) (m : Map K V) : sumOver measure m ∅ = 0 :=
  Finset.sum_empty

/-- A record under a new key adds its measure. -/
theorem sumOver_set (measure : V → M) {k : K} (v : V) (fresh : k ∉ keys) :
    sumOver measure (m.set k v) (insert k keys) = sumOver measure m keys + measure v := by
  have others : ∀ k' ∈ keys, ((m.set k v k').map measure).getD 0 = ((m k').map measure).getD 0 := by
    intro k' mem
    have ne : k' ≠ k := by
      rintro rfl
      exact fresh mem
    rw [set_of_ne m v ne]
  calc sumOver measure (m.set k v) (insert k keys)
      = ((m.set k v k).map measure).getD 0 + ∑ k' ∈ keys, ((m.set k v k').map measure).getD 0 :=
        Finset.sum_insert fresh
    _ = measure v + sumOver measure m keys := by
        rw [set_self, Finset.sum_congr rfl others]
        rfl
    _ = sumOver measure m keys + measure v := add_comm ..

/-- A record that is replaced takes its measure with it. -/
theorem sumOver_replace (measure : V → M) {k : K} {v : V} (found : m k = some v) (v' : V)
    (mem : k ∈ keys) :
    sumOver measure (m.set k v') keys + measure v = sumOver measure m keys + measure v' := by
  have others : ∀ k' ∈ keys.erase k,
      ((m.set k v' k').map measure).getD 0 = ((m k').map measure).getD 0 := by
    intro k' mem'
    rw [set_of_ne m v' (Finset.ne_of_mem_erase mem')]
  let rest := ∑ k' ∈ keys.erase k, ((m k').map measure).getD 0
  have after : sumOver measure (m.set k v') keys = measure v' + rest := by
    rw [sumOver, ← Finset.add_sum_erase keys _ mem, set_self, Finset.sum_congr rfl others]
    rfl
  have before : sumOver measure m keys = measure v + rest := by
    rw [sumOver, ← Finset.add_sum_erase keys _ mem, found]
    rfl
  calc sumOver measure (m.set k v') keys + measure v
      = measure v + (rest + measure v') := by rw [after, add_comm (measure v'), add_comm]
    _ = sumOver measure m keys + measure v' := by rw [before, add_assoc]

omit [DecidableEq K] in
theorem sumOver_nonneg {measure : V → Int} (nonneg : ∀ k v, m k = some v → 0 ≤ measure v)
    (keys : Finset K) : 0 ≤ sumOver measure m keys := by
  apply Finset.sum_nonneg
  intro k _
  cases found : m k with
  | none => exact Int.le_refl 0
  | some v => exact nonneg k v found

end Talos.Soroban.Map

namespace Talos.Soroban

/-- Weights of distinct keys, each within a bound of its key, add up to no more
than the bounds of all keys. -/
theorem sum_le_sum_bounds {K : Type} [DecidableEq K] {f : K → Int} :
    ∀ {l : List (K × Int)} {keys : Finset K}, (l.map Prod.fst).Nodup →
      (∀ k w, (k, w) ∈ l → k ∈ keys ∧ w ≤ f k) → (∀ k ∈ keys, 0 ≤ f k) →
      (l.map Prod.snd).sum ≤ ∑ k ∈ keys, f k := by
  intro l
  induction l with
  | nil => exact fun _ _ nonneg => Finset.sum_nonneg nonneg
  | cons entry rest ih =>
    obtain ⟨k, w⟩ := entry
    intro keys nodup within nonneg
    obtain ⟨first, nodup'⟩ := List.nodup_cons.mp nodup
    obtain ⟨mem, le⟩ := within k w List.mem_cons_self
    have rest_le : (rest.map Prod.snd).sum ≤ ∑ k ∈ keys.erase k, f k := by
      refine ih nodup' ?_ fun k' mem => nonneg k' (Finset.mem_of_mem_erase mem)
      intro k' w' mem'
      obtain ⟨inside, le'⟩ := within k' w' (List.mem_cons_of_mem _ mem')
      have ne : k' ≠ k := by
        rintro rfl
        exact first (List.mem_map.mpr ⟨(k', w'), mem', rfl⟩)
      exact ⟨Finset.mem_erase.mpr ⟨ne, inside⟩, le'⟩
    calc (((k, w) :: rest).map Prod.snd).sum = w + (rest.map Prod.snd).sum := by simp
      _ ≤ f k + ∑ k ∈ keys.erase k, f k := Int.add_le_add le rest_le
      _ = ∑ k ∈ keys, f k := Finset.add_sum_erase _ _ mem

end Talos.Soroban

/-!
## Mutually inverse maps

A store that keeps a relation in both directions writes two maps. `Inverse` says
that each is the other read backwards; it survives binding a free key to a value
as long as the key the value was bound to is released first.
-/

namespace Talos.Soroban.Map

variable {K V : Type} {f : Map K V} {g : Map V K} {k k' : K} {v v' : V}

def Inverse (f : Map K V) (g : Map V K) : Prop := ∀ k v, f k = some v ↔ g v = some k

theorem Inverse.empty : Inverse (Map.empty : Map K V) (Map.empty : Map V K) := by
  intro k v
  simp

/-- No two keys share a value. -/
theorem Inverse.key_unique (inv : Inverse f g) (h : f k = some v) (h' : f k' = some v) :
    k = k' :=
  Option.some.inj (((inv k v).mp h).symm.trans ((inv k' v).mp h'))

variable [DecidableEq K] [DecidableEq V]

/-- Bind a free key to an unbound value. -/
theorem Inverse.bind (inv : Inverse f g) (free : f k = none) (unbound : g v = none) :
    Inverse (f.set k v) (g.set v k) := by
  intro k' v'
  rw [set_apply, set_apply]
  by_cases sameKey : k' = k
  · by_cases sameValue : v' = v
    · simp [sameKey, sameValue]
    · -- The key was free, so no other value points at it.
      have other : g v' ≠ some k := by
        intro bound
        rw [(inv k v').mpr bound] at free
        cases free
      simp [sameKey, sameValue, other, Ne.symm sameValue]
  · by_cases sameValue : v' = v
    · have other : f k' ≠ some v := by
        intro bound
        rw [(inv k' v).mp bound] at unbound
        cases unbound
      simp [sameKey, sameValue, other, Ne.symm sameKey]
    · simp [sameKey, sameValue, inv k' v']

/-- Release the key of a value. -/
theorem Inverse.release (inv : Inverse f g) (bound : g v = some k) :
    Inverse (f.remove k) (g.remove v) := by
  have forward := (inv k v).mpr bound
  intro k' v'
  rw [remove_apply, remove_apply]
  by_cases sameKey : k' = k
  · by_cases sameValue : v' = v
    · simp [sameKey, sameValue]
    · have other : g v' ≠ some k := by
        intro bound'
        rw [(inv k v').mpr bound'] at forward
        exact sameValue (Option.some.inj forward)
      simp [sameKey, sameValue, other]
  · by_cases sameValue : v' = v
    · have other : f k' ≠ some v := fun bound' => sameKey (inv.key_unique bound' forward)
      simp [sameKey, sameValue, other]
    · simp [sameKey, sameValue, inv k' v']

/-- Rebind a bound value to a free key, releasing its old key. -/
theorem Inverse.rebind (inv : Inverse f g) {old : K} (free : f k = none)
    (bound : g v = some old) : Inverse ((f.remove old).set k v) (g.set v k) := by
  have released : (f.remove old) k = none := by
    rw [remove_apply, free, ite_self]
  have rebound := (inv.release bound).bind released (remove_self g v)
  have overwrite : (g.remove v).set v k = g.set v k := by
    rw [remove, set, set, Function.update_idem]
  rwa [overwrite] at rebound

end Talos.Soroban.Map

/-!
## Append-only logs

A log kept as a length and a map from indices to records. `Chained` says that
exactly the indices below the length are stored and that each record joins the
one before it; appending a record that joins the newest one keeps both.
-/

namespace Talos.Soroban

variable {V : Type} {joins : V → V → Prop} {len : Nat} {records : Map Nat V} {v : V}

/-- The newest record of a log. -/
def newest (len : Nat) (records : Map Nat V) : Option V :=
  match len with
  | 0 => none
  | last + 1 => records last

structure Chained (joins : V → V → Prop) (len : Nat) (records : Map Nat V) : Prop where
  stored : ∀ i, (records i).isSome ↔ i < len
  linked : ∀ i a b, records i = some a → records (i + 1) = some b → joins a b

theorem Chained.empty : Chained joins 0 .empty where
  stored i := by simp
  linked i a b found := nomatch found

@[simp] theorem newest_append (len : Nat) (records : Map Nat V) (v : V) :
    newest (len + 1) (records.set len v) = some v :=
  Map.set_self ..

theorem Chained.append (log : Chained joins len records)
    (joined : ∀ r, newest len records = some r → joins r v) :
    Chained joins (len + 1) (records.set len v) where
  stored i := by
    by_cases last : i = len
    · simp [last]
    · rw [Map.set_of_ne _ _ last, log.stored i]
      omega
  linked i a b := by
    intro older newer
    have bound : i + 1 ≤ len := by
      by_contra beyond
      have unset : records (i + 1) = none := by
        rw [← Option.not_isSome_iff_eq_none, log.stored]
        omega
      rw [Map.set_of_ne _ _ (by omega), unset] at newer
      cases newer
    rw [Map.set_of_ne _ _ (by omega)] at older
    by_cases last : i + 1 = len
    · -- the new record joins the newest one
      subst last
      obtain rfl : v = b := by simpa using newer
      exact joined a older
    · rw [Map.set_of_ne _ _ last] at newer
      exact log.linked i a b older newer

end Talos.Soroban
