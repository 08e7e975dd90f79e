import Mathlib.Order.Lattice
import Mathlib.Data.List.Basic
import Mathlib.Algebra.BigOperators.Group.Finset.Basic
import Mathlib.Tactic.Abel

/-!
# Timelines

A value that changes over time, as the list of its changes, newest first. Two
changes at one time are one change. `Stored` relates a timeline to an indexed
store that keeps the oldest change at index 0, and `valueAt_of_last` is what a
search in such a store has to find.
-/

namespace Talos.Soroban

/-- The value `value` from `time` on. -/
structure Change (T V : Type) where
  time : T
  value : V
deriving DecidableEq, Repr

/-- Changes, newest first. -/
abbrev Timeline (T V : Type) := List (Change T V)

namespace Timeline

variable {T V : Type} [LinearOrder T] {l : Timeline T V} {t x : T} {v : V} {c : Change T V}

/-- The value in force at a time, `none` before the first change. -/
def valueAt (l : Timeline T V) (x : T) : Option V :=
  (l.find? fun c => decide (c.time ≤ x)).map (·.value)

/-- A change at `t`, replacing the newest one when that is of the same time. -/
def record : Timeline T V → T → V → Timeline T V
  | [], t, v => [⟨t, v⟩]
  | c :: rest, t, v => if c.time = t then ⟨t, v⟩ :: rest else ⟨t, v⟩ :: c :: rest

/-- Times strictly decrease along the list and none is after `now`. -/
structure Ordered (l : Timeline T V) (now : T) : Prop where
  sorted : l.Pairwise fun newer older => older.time < newer.time
  past : ∀ c ∈ l, c.time ≤ now

theorem Ordered.nil (now : T) : Ordered ([] : Timeline T V) now :=
  ⟨.nil, fun _ mem => nomatch mem⟩

theorem Ordered.mono {now : T} (ordered : Ordered l now) (le : now ≤ t) : Ordered l t :=
  ⟨ordered.sorted, fun c mem => le_trans (ordered.past c mem) le⟩

@[simp] theorem valueAt_nil (x : T) : valueAt ([] : Timeline T V) x = none := rfl

theorem valueAt_cons_of_le (le : c.time ≤ x) : valueAt (c :: l) x = some c.value := by
  simp [valueAt, le]

theorem valueAt_cons_of_lt (lt : x < c.time) : valueAt (c :: l) x = valueAt l x := by
  simp [valueAt, lt]

theorem valueAt_ne_none (mem : c ∈ l) (le : c.time ≤ x) : valueAt l x ≠ none := by
  rw [valueAt, ne_eq, Option.map_eq_none_iff, List.find?_eq_none]
  intro none
  exact none c mem (by simp [le])

theorem exists_of_valueAt_ne_none (some : valueAt l x ≠ none) : ∃ c ∈ l, c.time ≤ x := by
  by_contra none
  apply some
  rw [valueAt, Option.map_eq_none_iff, List.find?_eq_none]
  intro c mem
  rw [decide_eq_true_eq]
  exact fun le => none ⟨c, mem, le⟩

theorem Ordered.record {now : T} (ordered : Ordered l now) (le : now ≤ t) (v : V) :
    Ordered (record l t v) t := by
  cases l with
  | nil => exact ⟨List.pairwise_singleton .., by simp [Timeline.record]⟩
  | cons c rest =>
    obtain ⟨older, sorted⟩ := List.pairwise_cons.mp ordered.sorted
    have newest : c.time ≤ t := le_trans (ordered.past c List.mem_cons_self) le
    rw [Timeline.record]
    split
    · next same =>
      have below : ∀ d ∈ rest, d.time < t := fun d mem => same ▸ older d mem
      refine ⟨List.pairwise_cons.mpr ⟨below, sorted⟩, ?_⟩
      intro d mem
      rcases List.mem_cons.mp mem with rfl | mem
      · exact le_refl t
      · exact le_of_lt (below d mem)
    · next ne =>
      have newest' : c.time < t := lt_of_le_of_ne newest ne
      have below : ∀ d ∈ c :: rest, d.time < t := by
        intro d mem
        rcases List.mem_cons.mp mem with rfl | mem
        · exact newest'
        · exact lt_trans (older d mem) newest'
      refine ⟨List.pairwise_cons.mpr ⟨below, ordered.sorted⟩, ?_⟩
      intro d mem
      rcases List.mem_cons.mp mem with rfl | mem
      · exact le_refl t
      · exact le_of_lt (below d mem)

/-- From its time on, the new value is in force. -/
theorem valueAt_record_of_le (le : t ≤ x) (v : V) : valueAt (record l t v) x = some v := by
  cases l with
  | nil => exact valueAt_cons_of_le le
  | cons c rest =>
    rw [record]
    split
    · exact valueAt_cons_of_le le
    · exact valueAt_cons_of_le le

/-- Before its time, nothing changes. -/
theorem valueAt_record_of_lt (lt : x < t) (v : V) : valueAt (record l t v) x = valueAt l x := by
  cases l with
  | nil => exact valueAt_cons_of_lt lt
  | cons c rest =>
    rw [record]
    split
    · next same =>
      have skipped : x < c.time := same ▸ lt
      rw [valueAt_cons_of_lt (c := ⟨t, v⟩) lt, valueAt_cons_of_lt skipped]
    · exact valueAt_cons_of_lt lt

/-! ### Indexed stores -/

/-- The store keeps the changes of the timeline, the oldest at index 0. -/
def Stored (get : Nat → Option (Change T V)) : Timeline T V → Prop
  | [] => True
  | c :: rest => get rest.length = some c ∧ Stored get rest

omit [LinearOrder T] in
theorem Stored.get_mem {get : Nat → Option (Change T V)} (stored : Stored get l) {i : Nat}
    (lt : i < l.length) : ∃ c ∈ l, get i = some c := by
  induction l with
  | nil => cases lt
  | cons c rest ih =>
    rcases Nat.lt_succ_iff_lt_or_eq.mp lt with lt | rfl
    · obtain ⟨d, mem, found⟩ := ih stored.2 lt
      exact ⟨d, List.mem_cons_of_mem _ mem, found⟩
    · exact ⟨c, List.mem_cons_self, stored.1⟩

omit [LinearOrder T] in
theorem Stored.exists_index {get : Nat → Option (Change T V)} (stored : Stored get l)
    (mem : c ∈ l) : ∃ i < l.length, get i = some c := by
  induction l with
  | nil => cases mem
  | cons d rest ih =>
    rcases List.mem_cons.mp mem with rfl | mem
    · exact ⟨rest.length, Nat.lt_succ_self _, stored.1⟩
    · obtain ⟨i, lt, found⟩ := ih stored.2 mem
      exact ⟨i, Nat.lt_succ_of_lt lt, found⟩

omit [LinearOrder T] in
/-- Writes past the changes of a timeline do not matter to it. -/
theorem Stored.congr {get get' : Nat → Option (Change T V)} (stored : Stored get l)
    (same : ∀ i < l.length, get' i = get i) : Stored get' l := by
  induction l with
  | nil => trivial
  | cons c rest ih =>
    refine ⟨?_, ih stored.2 fun i lt => same i (Nat.lt_succ_of_lt lt)⟩
    rw [same rest.length (Nat.lt_succ_self _)]
    exact stored.1

/-- Recording writes one index: the last one, or the next after it. -/
theorem Stored.record {get get' : Nat → Option (Change T V)} (stored : Stored get l)
    (written : get' ((record l t v).length - 1) = some ⟨t, v⟩)
    (same : ∀ i < (record l t v).length - 1, get' i = get i) : Stored get' (record l t v) := by
  cases l with
  | nil => exact ⟨written, trivial⟩
  | cons c rest =>
    rw [Timeline.record] at written same ⊢
    split at written
    · next now =>
      rw [if_pos now] at same ⊢
      exact ⟨written, stored.2.congr same⟩
    · next later =>
      rw [if_neg later] at same ⊢
      exact ⟨written, stored.congr same⟩

/-- Indices follow the order of time. -/
theorem Stored.lt_of_lt {get : Nat → Option (Change T V)} {now : T} (stored : Stored get l)
    (ordered : Ordered l now) {i j : Nat} {a b : Change T V} (lt : i < j) (bound : j < l.length)
    (fi : get i = some a) (fj : get j = some b) : a.time < b.time := by
  induction l with
  | nil => cases bound
  | cons c rest ih =>
    obtain ⟨older, sorted⟩ := List.pairwise_cons.mp ordered.sorted
    have ordered' : Ordered rest now :=
      ⟨sorted, fun d mem => ordered.past d (List.mem_cons_of_mem _ mem)⟩
    rcases Nat.lt_succ_iff_lt_or_eq.mp bound with bound | rfl
    · exact ih stored.2 ordered' bound
    · obtain rfl := Option.some.inj (fj.symm.trans stored.1)
      obtain ⟨d, mem, found⟩ := stored.2.get_mem lt
      obtain rfl := Option.some.inj (fi.symm.trans found)
      exact older _ mem

/-- The change at index 0 is the oldest. -/
theorem Ordered.oldest_le {get : Nat → Option (Change T V)} {now : T} (ordered : Ordered l now)
    (stored : Stored get l) (oldest : get 0 = some c) : ∀ d ∈ l, c.time ≤ d.time := by
  induction l with
  | nil => exact fun d mem => nomatch mem
  | cons e rest ih =>
    obtain ⟨older, sorted⟩ := List.pairwise_cons.mp ordered.sorted
    intro d mem
    rcases List.mem_cons.mp mem with rfl | mem
    · cases rest with
      | nil =>
        obtain rfl := Option.some.inj (oldest.symm.trans stored.1)
        exact le_refl _
      | cons f rest =>
        obtain ⟨g, mem, found⟩ := stored.2.get_mem (Nat.zero_lt_succ _)
        obtain rfl := Option.some.inj (oldest.symm.trans found)
        exact le_of_lt (older _ mem)
    · exact ih ⟨sorted, fun d mem => ordered.past d (List.mem_cons_of_mem _ mem)⟩ stored.2 d mem

/-- The value in force is at the last index whose time is not after `x`. -/
theorem Stored.valueAt_of_last {get : Nat → Option (Change T V)} (stored : Stored get l) {i : Nat}
    (bound : i < l.length) (found : get i = some c) (le : c.time ≤ x)
    (later : ∀ j d, i < j → j < l.length → get j = some d → x < d.time) :
    valueAt l x = some c.value := by
  induction l with
  | nil => cases bound
  | cons d rest ih =>
    rcases Nat.lt_succ_iff_lt_or_eq.mp bound with bound' | rfl
    · rw [valueAt_cons_of_lt (later rest.length d bound' (Nat.lt_succ_self _) stored.1)]
      exact ih stored.2 bound' fun j d lt bound => later j d lt (Nat.lt_succ_of_lt bound)
    · obtain rfl := Option.some.inj (found.symm.trans stored.1)
      exact valueAt_cons_of_le le

/-- No value is in force when the oldest change is after `x`. -/
theorem Stored.valueAt_eq_none {get : Nat → Option (Change T V)} {now : T}
    (stored : Stored get l) (ordered : Ordered l now) (oldest : get 0 = some c) (lt : x < c.time) :
    valueAt l x = none := by
  rw [valueAt, Option.map_eq_none_iff, List.find?_eq_none]
  intro d mem
  have after : c.time ≤ d.time := ordered.oldest_le stored oldest d mem
  simpa using lt_of_lt_of_le lt after

end Timeline

end Talos.Soroban

/-!
## Totals of timelines

A family of timelines next to one for their total. When every change of a member
records in the total what it adds to the latest value, the total is the sum of the
members at every time, in the past as well.
-/

namespace Talos.Soroban.Timeline

variable {K T V : Type} [LinearOrder T] [AddCommGroup V] {l total : Timeline T V}
  {lines : K → Timeline T V} {keys : Finset K} {now t x : T} {v : V}

/-- The value in force at a time, `0` before the first change. -/
def amountAt (l : Timeline T V) (x : T) : V := (l.valueAt x).getD 0

/-- The value in force after the last change. -/
def latest (l : Timeline T V) : V := (l.head?.map (·.value)).getD 0

theorem Ordered.amountAt_eq_latest (ordered : Ordered l now) (le : now ≤ x) :
    l.amountAt x = l.latest := by
  cases l with
  | nil => rfl
  | cons c rest =>
    have past : c.time ≤ x := le_trans (ordered.past c List.mem_cons_self) le
    rw [amountAt, valueAt_cons_of_le past]
    rfl

theorem amountAt_record_of_le (le : t ≤ x) : (l.record t v).amountAt x = v := by
  rw [amountAt, valueAt_record_of_le le, Option.getD_some]

theorem amountAt_record_of_lt (lt : x < t) : (l.record t v).amountAt x = l.amountAt x := by
  rw [amountAt, valueAt_record_of_lt lt, amountAt]

/-- At every time the total is the sum of the timelines, all but those of `keys`
being empty. -/
structure Totals (lines : K → Timeline T V) (total : Timeline T V) (keys : Finset K) : Prop where
  outside : ∀ k ∉ keys, lines k = []
  sum : ∀ x, total.amountAt x = ∑ k ∈ keys, (lines k).amountAt x

theorem Totals.empty : Totals (fun _ : K => ([] : Timeline T V)) [] ∅ :=
  ⟨fun _ _ => rfl, fun _ => Finset.sum_empty.symm⟩

variable [DecidableEq K]

theorem Totals.insert (totals : Totals lines total keys) (k : K) :
    Totals lines total (insert k keys) where
  outside k' out := totals.outside k' fun mem => out (Finset.mem_insert_of_mem mem)
  sum x := by
    rw [totals.sum x]
    by_cases mem : k ∈ keys
    · rw [Finset.insert_eq_of_mem mem]
    · rw [Finset.sum_insert mem, totals.outside k mem]
      exact (zero_add _).symm

/-- Recording `v` for one key, and the difference it makes in the total. -/
theorem Totals.record (totals : Totals lines total keys) (k : K) (v : V)
    (ordered : Ordered (lines k) now) (totalOrdered : Ordered total now) (le : now ≤ t) :
    Totals (Function.update lines k ((lines k).record t v))
      (total.record t (total.latest + (v - (lines k).latest))) (Insert.insert k keys) where
  outside k' out := by
    obtain ⟨ne, out⟩ := not_or.mp fun mem => out (Finset.mem_insert.mpr mem)
    rw [Function.update_of_ne ne]
    exact totals.outside k' out
  sum x := by
    have before := (totals.insert k).sum x
    have mem : k ∈ Insert.insert k keys := Finset.mem_insert_self k keys
    have others : ∀ k' ∈ (Insert.insert k keys).erase k,
        (Function.update lines k ((lines k).record t v) k').amountAt x =
          (lines k').amountAt x := by
      intro k' mem'
      rw [Function.update_of_ne (Finset.ne_of_mem_erase mem')]
    rw [← Finset.add_sum_erase _ _ mem] at before ⊢
    rw [Finset.sum_congr rfl others, Function.update_self]
    rcases lt_or_ge x t with past | due
    · rw [amountAt_record_of_lt past, amountAt_record_of_lt past, before]
    · have late : now ≤ x := le_trans le due
      rw [amountAt_record_of_le due, amountAt_record_of_le due,
        ← ordered.amountAt_eq_latest late, ← totalOrdered.amountAt_eq_latest late, before]
      abel

end Talos.Soroban.Timeline
