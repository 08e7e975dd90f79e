import Talos.Registry.Effects

/-!
# Identity of Talos records

`create_talos` takes its id from a counter that `initialize` resets. Without a
creation before `initialize` the counter bounds every id handed out, so ids are
never reused and a record stays the one its creation wrote. With one, the next
creation overwrites record 1.
-/

namespace Talos.Registry

open Talos.Soroban

abbrev Invocation := Entry Remote Storage Call Value

/-- The id an accepted creation returned. -/
def createdId (r : Invocation) : Option Nat :=
  match r.call, r.result with
  | .createTalos _, .id id => some id
  | _, _ => none

def createdIds (h : List Invocation) : List Nat := h.filterMap createdId

/-- `initialize` was accepted only where no Talos had been created yet. -/
def InitializedFirst (h : List Invocation) : Prop :=
  ∀ r ∈ h, ∀ wallet, r.call = .initializeContract wallet → r.pre.nextTalosId = none

/-- The record of the id is still the one written by the creation `r`: same id,
same creator, same creation time. -/
def RecordOf (r : Invocation) (s : Storage) : Prop :=
  ∀ a id, r.call = .createTalos a → r.result = .id id → ∃ t, s.talos id = some t ∧ t.id = id ∧
    t.creator = a.patron.creatorAddr ∧ t.createdAt = r.env.timestamp

section Run

variable {e : Env Remote} {s s' : Storage} {c : Call} {v : Value} {h : List Invocation}

/-! ### CreatorOf -/

/-- The two places a creator is stored agree. -/
def CreatorsAgree (s : Storage) : Prop := ∀ id, s.creatorOf id = (s.talos id).map (·.creator)

theorem CreatorsAgree.step (agree : CreatorsAgree s) (ok : exec e s c = .ok (v, s')) :
    CreatorsAgree s' := by
  intro id
  have before := agree id
  cases exec_effect ok with
  | create talos isOpen hid creator createdAt room =>
    simp only [Map.set_apply]
    split
    · rfl
    · exact before
  | @edit _ talosId t t' edits isOpen found same =>
    simp only [Map.set_apply]
    split
    · next eq =>
      subst eq
      rw [Option.map_some, same.creator]
      exact before.trans (congrArg _ found)
    · exact before
  | _ => exact before

theorem CreatorsAgree.of_reachable (reach : Reachable contract s) : CreatorsAgree s :=
  reach.invariant (fun _ => rfl) fun agree ok => agree.step ok

/-! ### The counter -/

/-- Every id handed out so far is below the counter. -/
def CounterAhead (h : List Invocation) (s : Storage) : Prop :=
  ∀ id ∈ createdIds h, ∃ next, s.nextTalosId = some next ∧ id < next

theorem createdIds_cons_none {r : Invocation} (none : createdId r = none) :
    createdIds (r :: h) = createdIds h := by
  simp [createdIds, none]

/-- An accepted call hands out the id at the counter, resets the counter, or
does neither. -/
theorem counter_cases (ok : exec e s c = .ok (v, s')) :
    (createdId ⟨s, e, c, v⟩ = some (nextTalosId s) ∧ s'.nextTalosId = some (nextTalosId s + 1)) ∨
    (createdId ⟨s, e, c, v⟩ = none ∧ ∃ wallet, c = .initializeContract wallet) ∨
    (createdId ⟨s, e, c, v⟩ = none ∧ s'.nextTalosId = s.nextTalosId) := by
  cases exec_effect ok with
  | create talos isOpen hid creator createdAt room => exact .inl ⟨rfl, rfl⟩
  | @edit _ talosId t t' edits isOpen found same =>
    refine .inr (.inr ⟨?_, rfl⟩)
    cases c <;> rfl
  | initializeContract schema unset => exact .inr (.inl ⟨rfl, _, rfl⟩)
  | migrated version config schema call _ =>
    refine .inr (.inr ⟨?_, rfl⟩)
    rcases call with rfl | ⟨_, rfl⟩
    · rfl
    · rfl
  | _ => exact .inr (.inr ⟨rfl, rfl⟩)

theorem CounterAhead.step (ahead : CounterAhead h s) (ok : exec e s c = .ok (v, s'))
    (first : ∀ wallet, c = .initializeContract wallet → s.nextTalosId = none) :
    CounterAhead (⟨s, e, c, v⟩ :: h) s' := by
  rcases counter_cases ok with ⟨created, next⟩ | ⟨notCreated, wallet, rfl⟩ | ⟨notCreated, next⟩
  · intro id mem
    rw [createdIds, List.filterMap_cons_some created] at mem
    refine ⟨_, next, ?_⟩
    rcases List.mem_cons.mp mem with rfl | old
    · exact Nat.lt_succ_self _
    · obtain ⟨n, counter, below⟩ := ahead id old
      rw [nextTalosId, counter]
      exact Nat.lt_succ_of_lt below
  · intro id mem
    rw [createdIds_cons_none notCreated] at mem
    -- Nothing was created before, so there is no id to bound.
    obtain ⟨n, counter, _⟩ := ahead id mem
    rw [first wallet rfl] at counter
    cases counter
  · rw [CounterAhead, createdIds_cons_none notCreated, next]
    exact ahead

theorem InitializedFirst.tail {r : Invocation} (first : InitializedFirst (r :: h)) :
    InitializedFirst h := fun r' mem => first r' (List.mem_cons_of_mem _ mem)

theorem CounterAhead.of_run (run : Run contract h s) (first : InitializedFirst h) :
    CounterAhead h s := by
  induction run with
  | refl => exact fun id mem => nomatch mem
  | step _ ok ih =>
    exact (ih first.tail).step ok fun wallet call => first _ (List.mem_cons_self ..) wallet call

theorem createdIds_nodup (run : Run contract h s) (first : InitializedFirst h) :
    (createdIds h).Nodup := by
  induction run with
  | refl => exact List.nodup_nil
  | @step h t t' e c v steps ok ih =>
    have old := ih first.tail
    rcases counter_cases ok with ⟨created, _⟩ | ⟨notCreated, _⟩ | ⟨notCreated, _⟩
    · rw [createdIds, List.filterMap_cons_some created, List.nodup_cons]
      refine ⟨?_, old⟩
      intro again
      obtain ⟨n, counter, below⟩ := CounterAhead.of_run steps first.tail _ again
      rw [nextTalosId, counter] at below
      exact absurd below (Nat.lt_irrefl _)
    · rw [createdIds_cons_none notCreated]
      exact old
    · rw [createdIds_cons_none notCreated]
      exact old

/-! ### Permanence -/

/-- A call keeps the record of a creation, unless it creates under the same id. -/
theorem RecordOf.step {r : Invocation} (record : RecordOf r s) (ok : exec e s c = .ok (v, s'))
    (other : createdId r ≠ createdId ⟨s, e, c, v⟩ ∨ createdId ⟨s, e, c, v⟩ = none) :
    RecordOf r s' := by
  intro a id call result
  obtain ⟨t, found, hid, creator, createdAt⟩ := record a id call result
  have created : createdId r = some id := by
    simp [createdId, call, result]
  cases exec_effect ok with
  | create talos isOpen _ _ _ room =>
    have ne : id ≠ nextTalosId s := by
      rintro rfl
      rcases other with other | other
      · exact other created
      · cases other
    exact ⟨t, (Map.set_of_ne _ _ ne).trans found, hid, creator, createdAt⟩
  | @edit _ talosId t₁ t₂ edits isOpen found' same =>
    simp only [Map.set_apply]
    split
    · next eq =>
      subst eq
      obtain rfl := Option.some.inj (found.symm.trans found')
      exact ⟨t₂, rfl, same.id.trans hid, same.creator.trans creator,
        same.createdAt.trans createdAt⟩
    · exact ⟨t, found, hid, creator, createdAt⟩
  | _ => exact ⟨t, found, hid, creator, createdAt⟩

theorem RecordOf.created (ok : exec e s c = .ok (v, s')) : RecordOf ⟨s, e, c, v⟩ s' := by
  rintro a id rfl rfl
  cases exec_effect ok with
  | create talos isOpen hid creator createdAt room =>
    exact ⟨talos, Map.set_self .., hid, creator, createdAt⟩

theorem recordOf_of_run (run : Run contract h s) (first : InitializedFirst h) :
    ∀ r ∈ h, RecordOf r s := by
  have nodup := createdIds_nodup run first
  induction run with
  | refl => exact fun r mem => nomatch mem
  | @step h t t' e c v steps ok ih =>
    intro r mem
    rcases List.mem_cons.mp mem with rfl | old
    · exact .created ok
    · have kept := ih first.tail (List.Nodup.sublist
        (List.Sublist.filterMap _ (List.sublist_cons_self _ _)) nodup) r old
      apply kept.step ok
      by_cases none : createdId ⟨t, e, c, v⟩ = none
      · exact .inr none
      · left
        intro same
        obtain ⟨id, created⟩ := Option.ne_none_iff_exists'.mp none
        rw [createdIds, List.filterMap_cons_some created, List.nodup_cons] at nodup
        exact nodup.1 (List.mem_filterMap.mpr ⟨r, old, same.trans created⟩)

end Run

/-! ### Uniqueness and permanence -/

/-- In every run in which `initialize` came before any creation, ids are
distinct, the two stored creators agree, and every record stays the one its
creation wrote. -/
theorem ids_unique_and_permanent {h : List Invocation} {s : Storage} (run : Run contract h s)
    (first : InitializedFirst h) :
    (createdIds h).Nodup ∧ (∀ id, s.creatorOf id = (s.talos id).map (·.creator)) ∧
      ∀ r ∈ h, RecordOf r s :=
  ⟨createdIds_nodup run first, CreatorsAgree.of_reachable ⟨h, run⟩, recordOf_of_run run first⟩

/-- Everyone signs at time 0. -/
def openEnv : Env Remote := ⟨0, 0, fun _ => true, ⟨[]⟩⟩

/-- A creation by `creator`, who holds all shares. -/
def createBy (creator : Address) : Call :=
  .createTalos ⟨[97], [], [], ⟨100, 0, 0, creator, creator, creator⟩, ⟨0, 0, 0⟩, ⟨0, 0, [84]⟩, ⟨0⟩⟩

def initializeThenCreate : List (Env Remote × Call) :=
  [(openEnv, .initializeContract ⟨0⟩), (openEnv, createBy ⟨1⟩), (openEnv, createBy ⟨2⟩)]

theorem ids_unique_and_permanent_initializeThenCreate :
    let run := contract.play initializeThenCreate ([], contract.init)
    createdIds run.1 = [2, 1] ∧ ∀ r ∈ run.1, RecordOf r run.2 := by
  intro run
  have steps : Run contract run.1 run.2 := Contract.play_steps .refl initializeThenCreate
  have first : InitializedFirst run.1 := by
    intro r mem wallet call
    have entries : run.1.map (fun r => (r.call, r.pre.nextTalosId)) =
      [(createBy ⟨2⟩, some 2), (createBy ⟨1⟩, some 1), (.initializeContract ⟨0⟩, none)] := by decide
    have entry := List.mem_map_of_mem (f := fun r => (r.call, r.pre.nextTalosId)) mem
    rw [entries, call] at entry
    have atStart : wallet = ⟨0⟩ ∧ r.pre.nextTalosId = none := by simpa [createBy] using entry
    exact atStart.2
  exact ⟨by decide, (ids_unique_and_permanent steps first).2.2⟩

/-- A creation before `initialize`, then another after it: both return id 1, and
the creator of record 1 changes hands. -/
theorem initialize_reissues_id :
    let early := contract.play [(openEnv, createBy ⟨1⟩)] ([], contract.init)
    let late := contract.play [(openEnv, createBy ⟨1⟩), (openEnv, .initializeContract ⟨0⟩),
      (openEnv, createBy ⟨2⟩)] ([], contract.init)
    Run contract late.1 late.2 ∧ createdIds late.1 = [1, 1] ∧ ¬ (createdIds late.1).Nodup ∧
      early.2.creatorOf 1 = some ⟨1⟩ ∧ late.2.creatorOf 1 = some ⟨2⟩ :=
  ⟨Contract.play_steps .refl _, by decide, by decide, by decide, by decide⟩

end Talos.Registry
