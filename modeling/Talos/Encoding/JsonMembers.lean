import Talos.Encoding.JsonText
import Talos.Encoding.Text

/-!
# The members of JSON objects

A `rewrite` does the same to the member list of every object in a value, innermost first: an array
as the second argument of `JSON.stringify` selects members by name, in its own order, and sorting
the members forgets their order.
-/

namespace Talos.Encoding

namespace Json

mutual

/-- What an object becomes, at every depth. -/
def rewrite (f : Members → Members) : Json → Json
  | array items => array (rewriteItems f items)
  | object members => object (f (rewriteMembers f members))
  | null => null
  | bool b => bool b
  | number n => number n
  | string s => string s

def rewriteItems (f : Members → Members) : List Json → List Json
  | [] => []
  | v :: rest => v.rewrite f :: rewriteItems f rest

def rewriteMembers (f : Members → Members) : Members → Members
  | [] => []
  | (k, v) :: rest => (k, v.rewrite f) :: rewriteMembers f rest

end

mutual

/-- A property of the members of every object, at every depth. -/
def All (P : Members → Prop) : Json → Prop
  | array items => AllItems P items
  | object members => P members ∧ AllMembers P members
  | null | bool _ | number _ | string _ => True

def AllItems (P : Members → Prop) : List Json → Prop
  | [] => True
  | v :: rest => v.All P ∧ AllItems P rest

def AllMembers (P : Members → Prop) : Members → Prop
  | [] => True
  | (_, v) :: rest => v.All P ∧ AllMembers P rest

end

variable {f g : Members → Members} {P : Members → Prop} {v : Json} {members : Members}
  {k : Utf16}

theorem rewriteItems_eq (items : List Json) : rewriteItems f items = items.map (rewrite f) := by
  induction items with
  | nil => rfl
  | cons v rest ih => rw [rewriteItems, ih, List.map_cons]

theorem rewriteMembers_eq (members : Members) :
    rewriteMembers f members = members.map fun m => (m.1, m.2.rewrite f) := by
  induction members with
  | nil => rfl
  | cons m rest ih => rw [rewriteMembers, ih, List.map_cons]

theorem allItems_iff (items : List Json) : AllItems P items ↔ ∀ v ∈ items, v.All P := by
  induction items with
  | nil => exact iff_of_true trivial nofun
  | cons v rest ih => rw [AllItems, ih, List.forall_mem_cons]

theorem allMembers_iff (members : Members) : AllMembers P members ↔ ∀ m ∈ members, m.2.All P := by
  induction members with
  | nil => exact iff_of_true trivial nofun
  | cons m rest ih => rw [AllMembers, ih, List.forall_mem_cons]

theorem rewrite_array (items : List Json) :
    (array items).rewrite f = array (items.map (rewrite f)) := by
  rw [rewrite, rewriteItems_eq]

theorem rewrite_object (members : Members) :
    (object members).rewrite f = object (f (rewriteMembers f members)) := by
  rw [rewrite]

theorem all_array (items : List Json) : (array items).All P ↔ ∀ v ∈ items, v.All P := by
  rw [All, allItems_iff]

theorem all_object (members : Members) :
    (object members).All P ↔ P members ∧ ∀ m ∈ members, m.2.All P := by
  rw [All, allMembers_iff]

@[simp] theorem keys_rewriteMembers (members : Members) :
    (rewriteMembers f members).map Prod.fst = members.map Prod.fst := by
  rw [rewriteMembers_eq, List.map_map]
  rfl

/-- Where every object keeps its members, nothing changes. -/
theorem rewrite_eq_self (all : v.All fun members => f members = members) : v.rewrite f = v := by
  induction v using induct with
  | null | bool | number | string => rfl
  | array items ih =>
    rw [all_array] at all
    rw [rewrite_array, List.map_congr_left (g := id) fun v mem => ih v mem (all v mem),
      List.map_id]
  | object members ih =>
    rw [all_object] at all
    have same : rewriteMembers f members = members := by
      have each : ∀ m ∈ members, (m.1, m.2.rewrite f) = id m := fun m mem =>
        Prod.ext rfl (ih m mem (all.2 m mem))
      rw [rewriteMembers_eq, List.map_congr_left each, List.map_id]
    rw [rewrite_object, same, all.1]

/-! ### Members by name -/

/-- The members in the order of their names. -/
def sortMembers (members : Members) : Members :=
  members.insertionSort fun m m' => ordinalLE m.1 m'.1

def sorted (v : Json) : Json := v.rewrite sortMembers

/-- What every object inherits and `JSON.stringify` can find: `Object.prototype` under
`__proto__`, of which nothing but its own empty `__proto__` is written. -/
def inherited (k : Utf16) : Option Json :=
  if k = [95, 95, 112, 114, 111, 116, 111, 95, 95] then some (object [(k, null)]) else none

def pick (names : List Utf16) (members : Members) : Members :=
  names.filterMap fun k => ((members.lookup k).or (inherited k)).map fun v => (k, v)

/-- The members with the given names, at every depth. -/
def select (names : List Utf16) (v : Json) : Json := v.rewrite (pick names)

/-- No two members of an object have the same name. -/
def Valid (v : Json) : Prop := v.All fun members => (members.map Prod.fst).Nodup

/-- There is no object in the value. -/
def Flat (v : Json) : Prop := v.All fun _ => False

theorem perm_sortMembers (members : Members) : (sortMembers members).Perm members :=
  List.perm_insertionSort _ _

theorem keys_sortMembers (members : Members) :
    (sortMembers members).map Prod.fst = (members.map Prod.fst).insertionSort ordinalLE :=
  List.map_insertionSort _ _ _ _ fun _ _ _ _ => Iff.rfl

theorem rewriteMembers_sortMembers (members : Members) :
    rewriteMembers f (sortMembers members) = sortMembers (rewriteMembers f members) := by
  rw [rewriteMembers_eq, rewriteMembers_eq]
  exact List.map_insertionSort _ _ _ _ fun _ _ _ _ => Iff.rfl

theorem lookup_eq_some (nodup : (members.map Prod.fst).Nodup) :
    members.lookup k = some v ↔ (k, v) ∈ members := by
  induction members with
  | nil => exact iff_of_false nofun nofun
  | cons m rest ih =>
    obtain ⟨new, nodup⟩ := List.nodup_cons.mp nodup
    rw [List.lookup_cons, List.mem_cons]
    by_cases here : k = m.1
    · have absent : (k, v) ∉ rest := fun mem => new (here ▸ List.mem_map_of_mem mem)
      rw [here, beq_self_eq_true, ← here, or_iff_left absent, Prod.ext_iff]
      exact ⟨fun same => ⟨here, (Option.some.inj same).symm⟩, fun same => congrArg some same.2.symm⟩
    · have other : (k, v) ≠ m := fun same => here (congrArg Prod.fst same)
      rw [beq_false_of_ne here, or_iff_right other]
      exact ih nodup

/-- The order of the members does not matter. -/
theorem pick_perm {names : List Utf16} {members' : Members} (perm : members.Perm members')
    (nodup : (members.map Prod.fst).Nodup) : pick names members = pick names members' := by
  have lookups : ∀ k, members.lookup k = members'.lookup k := by
    intro k
    refine Option.ext fun v => ?_
    rw [lookup_eq_some nodup, lookup_eq_some ((perm.map Prod.fst).nodup_iff.mp nodup),
      perm.mem_iff]
  simp only [pick, lookups]

/-- All members are picked. -/
theorem pick_keys (nodup : (members.map Prod.fst).Nodup) :
    pick (members.map Prod.fst) members = members := by
  have each : ∀ m ∈ members,
      ((members.lookup m.1).or (inherited m.1)).map (fun v => (m.1, v)) = some m := by
    intro m mem
    rw [(lookup_eq_some nodup).mpr mem]
    rfl
  rw [pick, List.filterMap_map]
  exact (List.filterMap_congr each).trans List.filterMap_some

theorem select_sorted {names : List Utf16} (valid : v.Valid) :
    v.sorted.select names = v.select names := by
  induction v using induct with
  | null | bool | number | string => rfl
  | array items ih =>
    rw [Valid, all_array] at valid
    simp only [sorted, select, rewrite_array, List.map_map]
    exact congrArg array (List.map_congr_left fun v mem => ih v mem (valid v mem))
  | object members ih =>
    rw [Valid, all_object] at valid
    have inner : rewriteMembers (pick names) (rewriteMembers sortMembers members) =
        rewriteMembers (pick names) members := by
      simp only [rewriteMembers_eq, List.map_map]
      exact List.map_congr_left fun m mem => Prod.ext rfl (ih m mem (valid.2 m mem))
    have nodup : ((rewriteMembers (pick names) members).map Prod.fst).Nodup := by
      rw [keys_rewriteMembers]
      exact valid.1
    rw [sorted, rewrite_object, select, rewrite_object, rewriteMembers_sortMembers, inner,
      ← pick_perm (perm_sortMembers _).symm nodup, select, rewrite]

/-! ### Values without objects -/

theorem all_mono {Q : Members → Prop} (all : v.All P) (imp : ∀ members, P members → Q members) :
    v.All Q := by
  induction v using induct with
  | null | bool | number | string => trivial
  | array items ih =>
    rw [all_array] at all ⊢
    exact fun v mem => ih v mem (all v mem)
  | object members ih =>
    rw [all_object] at all ⊢
    exact ⟨imp _ all.1, fun m mem => ih m mem (all.2 m mem)⟩

theorem Flat.rewrite_eq (flat : v.Flat) : v.rewrite f = v :=
  rewrite_eq_self (all_mono flat fun _ => False.elim)

theorem flat_rewrite : (v.rewrite f).Flat ↔ v.Flat := by
  induction v using induct with
  | null | bool | number | string => exact Iff.rfl
  | array items ih =>
    simp only [Flat, rewrite_array, all_array, List.forall_mem_map]
    exact forall₂_congr ih
  | object members ih => exact iff_of_false And.left And.left

theorem rewriteMembers_eq_self (flat : ∀ m ∈ members, m.2.Flat) :
    rewriteMembers f members = members := by
  have each : ∀ m ∈ members, (m.1, m.2.rewrite f) = id m := fun m mem =>
    Prod.ext rfl (flat m mem).rewrite_eq
  rw [rewriteMembers_eq, List.map_congr_left each, List.map_id]

/-! ### A member more in every object -/

def extend (k : Utf16) (v : Json) : Json := v.rewrite ((k, null) :: ·)

/-- No object has a member of the name. -/
def Without (k : Utf16) (v : Json) : Prop := v.All fun members => k ∉ members.map Prod.fst

theorem without_sorted : v.sorted.Without k ↔ v.Without k := by
  induction v using induct with
  | null | bool | number | string => exact Iff.rfl
  | array items ih =>
    simp only [Without, sorted, rewrite_array, all_array, List.forall_mem_map]
    exact forall₂_congr ih
  | object members ih =>
    simp only [Without, sorted, rewrite_object, all_object]
    rw [((perm_sortMembers _).map Prod.fst).mem_iff, keys_rewriteMembers]
    refine and_congr_right fun _ => ?_
    simp only [(perm_sortMembers _).mem_iff, rewriteMembers_eq, List.forall_mem_map]
    exact forall₂_congr ih

theorem flat_of_without_extend (without : (v.extend k).Without k) : v.Flat := by
  induction v using induct with
  | null | bool | number | string => trivial
  | array items ih =>
    simp only [Without, extend, rewrite_array, all_array,
      List.forall_mem_map] at without
    rw [Flat, all_array]
    exact fun v mem => ih v mem (without v mem)
  | object members ih => exact absurd List.mem_cons_self without.1

theorem pick_cons {names : List Utf16} (other : k ∉ names) :
    pick names ((k, v) :: members) = pick names members := by
  refine List.filterMap_congr fun name mem => ?_
  have ne : name ≠ k := fun same => other (same ▸ mem)
  rw [List.lookup_cons, beq_false_of_ne ne]

/-- A name that is not among those selected is not looked at. -/
theorem select_extend {names : List Utf16} (other : k ∉ names) :
    (v.extend k).select names = v.select names := by
  induction v using induct with
  | null | bool | number | string => rfl
  | array items ih =>
    simp only [extend, select, rewrite_array, List.map_map]
    exact congrArg array (List.map_congr_left ih)
  | object members ih =>
    have inner : rewriteMembers (pick names) (rewriteMembers ((k, null) :: ·) members) =
        rewriteMembers (pick names) members := by
      simp only [rewriteMembers_eq, List.map_map]
      exact List.map_congr_left fun m mem => Prod.ext rfl (ih m mem)
    rw [extend, rewrite_object, select, rewrite_object, rewriteMembers, inner, pick_cons other,
      select, rewrite_object]

theorem valid_extend (valid : v.Valid) (without : v.Without k) : (v.extend k).Valid := by
  induction v using induct with
  | null | bool | number | string => trivial
  | array items ih =>
    simp only [Valid, Without, extend, rewrite_array, all_array,
      List.forall_mem_map] at valid without ⊢
    exact fun v mem => ih v mem (valid v mem) (without v mem)
  | object members ih =>
    simp only [Valid, Without, extend, rewrite_object, all_object, List.map_cons,
      List.nodup_cons, keys_rewriteMembers] at valid without ⊢
    refine ⟨⟨without.1, valid.1⟩, List.forall_mem_cons.mpr ⟨trivial, ?_⟩⟩
    rw [rewriteMembers_eq, List.forall_mem_map]
    exact fun m mem => ih m mem (valid.2 m mem) (without.2 m mem)

theorem exists_bound {α : Type} {l : List α} {p : α → ℕ → Prop}
    (each : ∀ a ∈ l, ∃ n, ∀ N ≥ n, p a N) : ∃ n, ∀ N ≥ n, ∀ a ∈ l, p a N := by
  induction l with
  | nil => exact ⟨0, fun _ _ => nofun⟩
  | cons a l ih =>
    obtain ⟨n, first⟩ := each a List.mem_cons_self
    obtain ⟨n', rest⟩ := ih fun a mem => each a (List.mem_cons_of_mem _ mem)
    refine ⟨max n n', fun N le => List.forall_mem_cons.mpr ⟨first N ?_, rest N ?_⟩⟩
    · exact (le_max_left _ _).trans le
    · exact (le_max_right _ _).trans le

/-- A name that is long enough is new. -/
theorem exists_without (v : Json) : ∃ n, ∀ N ≥ n, v.Without (List.replicate N 0) := by
  induction v using induct with
  | null | bool | number | string => exact ⟨0, fun _ _ => trivial⟩
  | array items ih =>
    simp only [Without, all_array]
    exact exists_bound ih
  | object members ih =>
    simp only [Without, all_object]
    have shorter : ∀ m ∈ members, ∃ n, ∀ N ≥ n, List.replicate N 0 ≠ m.1 := by
      refine fun m _ => ⟨m.1.length + 1, fun N le same => ?_⟩
      have := congrArg List.length same
      rw [List.length_replicate] at this
      omega
    obtain ⟨n, inner⟩ := exists_bound ih
    obtain ⟨n', here⟩ := exists_bound shorter
    refine ⟨max n n', fun N le => ⟨fun mem => ?_, inner N ((le_max_left _ _).trans le)⟩⟩
    obtain ⟨m, mem, same⟩ := List.mem_map.mp mem
    exact here N ((le_max_right _ _).trans le) m mem same.symm

end Json

end Talos.Encoding
