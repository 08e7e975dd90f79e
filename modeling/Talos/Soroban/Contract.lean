import Talos.Soroban.Outcome
import Mathlib.Logic.Function.Basic

/-!
# Persistent storage and runs of a contract

A `Contract` is an initial storage and an entry-point dispatcher. Its runs are
the inductive `Steps`: lists of accepted invocations, newest first, each kept
with the storage it was accepted in. A rejected invocation is rolled back and
leaves no entry. An accepted entry records everything the invocation read, so
conditions on a run (chronological order, a guard every call met) and facts
about a run (which ids were returned) are statements about this list.
-/

namespace Talos.Soroban

/-! ### Storage maps -/

/-- One family of persistent keys: an absent key reads as `none`. -/
abbrev Map (K V : Type) := K → Option V

namespace Map

variable {K V : Type} [DecidableEq K]

def empty : Map K V := fun _ => none

def set (m : Map K V) (k : K) (v : V) : Map K V := Function.update m k (some v)

def remove (m : Map K V) (k : K) : Map K V := Function.update m k none

omit [DecidableEq K] in
@[simp] theorem empty_apply (k : K) : (empty : Map K V) k = none := rfl

@[simp] theorem set_self (m : Map K V) (k : K) (v : V) : m.set k v k = some v :=
  Function.update_self ..

theorem set_of_ne (m : Map K V) {k k' : K} (v : V) (h : k' ≠ k) : m.set k v k' = m k' :=
  Function.update_of_ne h ..

theorem set_apply (m : Map K V) (k k' : K) (v : V) :
    m.set k v k' = if k' = k then some v else m k' :=
  Function.update_apply ..

@[simp] theorem remove_self (m : Map K V) (k : K) : m.remove k k = none :=
  Function.update_self ..

theorem remove_of_ne (m : Map K V) {k k' : K} (h : k' ≠ k) : m.remove k k' = m k' :=
  Function.update_of_ne h ..

theorem remove_apply (m : Map K V) (k k' : K) :
    m.remove k k' = if k' = k then none else m k' :=
  Function.update_apply ..

theorem set_eq_some {m : Map K V} {k k' : K} {v w : V} :
    m.set k v k' = some w ↔ k' = k ∧ v = w ∨ k' ≠ k ∧ m k' = some w := by
  rw [set_apply]
  split <;> simp [*]

theorem remove_eq_some {m : Map K V} {k k' : K} {w : V} :
    m.remove k k' = some w ↔ k' ≠ k ∧ m k' = some w := by
  rw [remove_apply]
  split <;> simp [*]

theorem remove_eq_self {m : Map K V} {k : K} (h : m k = none) : m.remove k = m := by
  rw [remove, ← h]
  exact Function.update_eq_self k m

/-- Writing back the value just read changes nothing: the TTL-refresh idiom. -/
theorem set_eq_self {m : Map K V} {k : K} {v : V} (h : m k = some v) : m.set k v = m := by
  rw [set, ← h]
  exact Function.update_eq_self k m

/-- `if let Some(v) = get(k) { set(k, v) }`. -/
def refresh (m : Map K V) (k : K) : Map K V :=
  match m k with
  | some v => m.set k v
  | none => m

/-- The entries of a family of pair keys with a given first component. -/
def slice {A B : Type} (m : Map (A × B) V) (a : A) : Map B V := fun b => m (a, b)

theorem slice_set_self {A B : Type} [DecidableEq A] [DecidableEq B] (m : Map (A × B) V) (a : A)
    (b : B) (v : V) : (m.set (a, b) v).slice a = (m.slice a).set b v := by
  funext b'
  rw [slice, set_apply, set_apply]
  simp only [Prod.mk.injEq, true_and, slice]

theorem slice_set_of_ne {A B : Type} [DecidableEq A] [DecidableEq B] (m : Map (A × B) V)
    {a a' : A} (b : B) (v : V) (ne : a' ≠ a) : (m.set (a, b) v).slice a' = m.slice a' := by
  funext b'
  exact set_of_ne m v fun same => ne (congrArg Prod.fst same)

@[simp] theorem refresh_eq_self (m : Map K V) (k : K) : m.refresh k = m := by
  unfold refresh
  split
  · next v found => exact set_eq_self found
  · rfl

end Map

/-! ### Contracts and their runs -/

/-- A contract: its storage at deployment and the effect of each entry point. -/
structure Contract (R σ C ρ E : Type) where
  init : σ
  exec : Env R → σ → C → Outcome E (ρ × σ)

/-- An accepted invocation, with the storage it was accepted in. -/
structure Entry (R σ C ρ : Type) where
  pre : σ
  env : Env R
  call : C
  result : ρ

variable {R σ C ρ E : Type} {m : Contract R σ C ρ E}

/-- Dispatch to an entry point that returns nothing; `unit` stands for its value. -/
def silent (unit : ρ) (r : Outcome E σ) : Outcome E (ρ × σ) := do
  let s ← r
  .ok (unit, s)

/-- Dispatch to an entry point that returns a value. -/
def returning {α : Type} (value : α → ρ) (r : Outcome E (α × σ)) : Outcome E (ρ × σ) := do
  let (a, s) ← r
  .ok (value a, s)

@[simp] theorem silent_eq_ok {unit v : ρ} {r : Outcome E σ} {s : σ} :
    silent unit r = .ok (v, s) ↔ r = .ok s ∧ v = unit := by
  cases r <;> simp [silent, eq_comm, and_comm]

@[simp] theorem returning_eq_ok {α : Type} {value : α → ρ} {r : Outcome E (α × σ)} {v : ρ}
    {s : σ} : returning value r = .ok (v, s) ↔ ∃ a, r = .ok (a, s) ∧ v = value a := by
  rcases r with t | ⟨a, s'⟩ <;> simp [returning, eq_comm, and_comm]

theorem silent_accepted {unit : ρ} {r : Outcome E σ} (notRejected : ∀ t, r ≠ .error t) :
    ∃ v s, silent unit r = .ok (v, s) := by
  cases r with
  | ok s => exact ⟨unit, s, rfl⟩
  | error t => exact absurd rfl (notRejected t)

/-- `Steps m s h t`: from storage `s`, the accepted invocations `h` (newest
first) lead to storage `t`. -/
inductive Steps (m : Contract R σ C ρ E) (s : σ) : List (Entry R σ C ρ) → σ → Prop where
  | refl : Steps m s [] s
  | step {h : List (Entry R σ C ρ)} {t t' : σ} {e : Env R} {c : C} {v : ρ} :
      Steps m s h t → m.exec e t c = .ok (v, t') → Steps m s (⟨t, e, c, v⟩ :: h) t'

/-- A run of the deployed contract. -/
abbrev Run (m : Contract R σ C ρ E) := Steps m m.init

/-- The storages the deployed contract can reach. -/
def Reachable (m : Contract R σ C ρ E) (s : σ) : Prop := ∃ h, Run m h s

/-- Ledgers close in order: no invocation precedes an older one in time or
sequence number. -/
def Chronological (h : List (Entry R σ C ρ)) : Prop :=
  h.Pairwise fun newer older =>
    older.env.timestamp ≤ newer.env.timestamp ∧ older.env.sequence ≤ newer.env.sequence

instance (h : List (Entry R σ C ρ)) : Decidable (Chronological h) :=
  inferInstanceAs (Decidable (h.Pairwise _))

/-- Ledger numbers do not decrease. -/
def LedgersInOrder (h : List (Entry R σ C ρ)) : Prop :=
  h.Pairwise fun newer older => older.env.sequence ≤ newer.env.sequence

/-- Close times do not decrease. -/
def TimesInOrder (h : List (Entry R σ C ρ)) : Prop :=
  h.Pairwise fun newer older => older.env.timestamp ≤ newer.env.timestamp

instance (h : List (Entry R σ C ρ)) : Decidable (LedgersInOrder h) :=
  inferInstanceAs (Decidable (h.Pairwise _))

instance (h : List (Entry R σ C ρ)) : Decidable (TimesInOrder h) :=
  inferInstanceAs (Decidable (h.Pairwise _))

theorem ledgersInOrder_of_chronological {h : List (Entry R σ C ρ)} (chronological : Chronological h) :
    LedgersInOrder h :=
  chronological.imp And.right

theorem Steps.single {s t : σ} {e : Env R} {c : C} {v : ρ} (h : m.exec e s c = .ok (v, t)) :
    Steps m s [⟨s, e, c, v⟩] t :=
  .step .refl h

theorem Steps.trans {s t u : σ} {h h' : List (Entry R σ C ρ)} (first : Steps m s h t)
    (second : Steps m t h' u) : Steps m s (h' ++ h) u := by
  induction second with
  | refl => exact first
  | step _ ok ih => exact .step ih ok

/-- A property of the storage that every accepted invocation keeps holds along
every run from a storage that has it. -/
theorem Steps.invariant {I : σ → Prop} {s t : σ} {h : List (Entry R σ C ρ)}
    (steps : Steps m s h t) (start : I s)
    (keep : ∀ {e s c v s'}, I s → m.exec e s c = .ok (v, s') → I s') : I t := by
  induction steps with
  | refl => exact start
  | step _ ok ih => exact keep ih ok

/-- A run passes through the storage of each of its entries. -/
theorem Steps.split {s t : σ} {later earlier : List (Entry R σ C ρ)} {r : Entry R σ C ρ}
    (steps : Steps m s (later ++ r :: earlier) t) : ∃ s', Steps m s earlier r.pre ∧
      m.exec r.env r.pre r.call = .ok (r.result, s') ∧ Steps m s' later t := by
  induction later generalizing t with
  | nil =>
    cases steps with
    | step steps ok => exact ⟨t, steps, ok, .refl⟩
  | cons q later ih =>
    cases steps with
    | step steps ok =>
      obtain ⟨s', before, accepted, after⟩ := ih steps
      exact ⟨s', before, accepted, .step after ok⟩

theorem Steps.accepted {s t : σ} {h : List (Entry R σ C ρ)} (steps : Steps m s h t)
    {r : Entry R σ C ρ} (mem : r ∈ h) :
    ∃ h' s', Steps m s h' r.pre ∧ m.exec r.env r.pre r.call = .ok (r.result, s') := by
  obtain ⟨later, earlier, rfl⟩ := List.append_of_mem mem
  obtain ⟨s', before, accepted, -⟩ := steps.split
  exact ⟨earlier, s', before, accepted⟩

theorem Reachable.init : Reachable m m.init := ⟨[], .refl⟩

theorem Reachable.step {s s' : σ} {e : Env R} {c : C} {v : ρ} (reach : Reachable m s)
    (ok : m.exec e s c = .ok (v, s')) : Reachable m s' :=
  reach.elim fun _ run => ⟨_, .step run ok⟩

theorem Reachable.steps {s t : σ} {h : List (Entry R σ C ρ)} (reach : Reachable m s)
    (steps : Steps m s h t) : Reachable m t :=
  reach.elim fun _ run => ⟨_, run.trans steps⟩

theorem Reachable.invariant {I : σ → Prop} {s : σ} (reach : Reachable m s) (start : I m.init)
    (keep : ∀ {e s c v s'}, I s → m.exec e s c = .ok (v, s') → I s') : I s :=
  reach.elim fun _ run => run.invariant start keep

/-! ### Submitting calls -/

/-- What the ledger keeps of an invocation: its effect when accepted, nothing
when rejected. -/
def Contract.submit (m : Contract R σ C ρ E) (e : Env R) (c : C) (s : σ) : σ :=
  match m.exec e s c with
  | .ok (_, s') => s'
  | .error _ => s

/-- Submit invocations one after the other, oldest first. -/
def Contract.submitAll (m : Contract R σ C ρ E) : List (Env R × C) → σ → σ
  | [], s => s
  | (e, c) :: rest, s => m.submitAll rest (m.submit e c s)

theorem Contract.submit_of_ok {e : Env R} {c : C} {s s' : σ} {v : ρ}
    (h : m.exec e s c = .ok (v, s')) : m.submit e c s = s' := by
  simp [submit, h]

theorem Contract.submit_of_error {e : Env R} {c : C} {s : σ} {t : Trap E}
    (h : m.exec e s c = .error t) : m.submit e c s = s := by
  simp [submit, h]

theorem Contract.submit_steps (e : Env R) (c : C) (s : σ) : ∃ h, Steps m s h (m.submit e c s) := by
  cases h : m.exec e s c with
  | error t => exact ⟨[], by rw [submit_of_error h]; exact .refl⟩
  | ok p => exact ⟨_, by rw [submit_of_ok h]; exact .single h⟩

theorem Contract.submitAll_steps (txs : List (Env R × C)) (s : σ) :
    ∃ h, Steps m s h (m.submitAll txs s) := by
  induction txs generalizing s with
  | nil => exact ⟨[], .refl⟩
  | cons tx rest ih =>
    obtain ⟨h, first⟩ := m.submit_steps tx.1 tx.2 s
    obtain ⟨h', later⟩ := ih (m.submit tx.1 tx.2 s)
    exact ⟨h' ++ h, first.trans later⟩

/-- Submit invocations to a run, oldest first, and keep its history. -/
def Contract.play (m : Contract R σ C ρ E) :
    List (Env R × C) → List (Entry R σ C ρ) × σ → List (Entry R σ C ρ) × σ
  | [], run => run
  | (e, c) :: rest, (h, s) =>
    match m.exec e s c with
    | .ok (v, s') => m.play rest (⟨s, e, c, v⟩ :: h, s')
    | .error _ => m.play rest (h, s)

/-- So a concrete run is exhibited by computing `play`. -/
theorem Contract.play_steps {s t : σ} {h : List (Entry R σ C ρ)} (steps : Steps m s h t)
    (txs : List (Env R × C)) : Steps m s (m.play txs (h, t)).1 (m.play txs (h, t)).2 := by
  induction txs generalizing h t with
  | nil => exact steps
  | cons tx rest ih =>
    simp only [play]
    split
    · next ok => exact ih (.step steps ok)
    · exact ih steps

/-- A list of submitted calls leads to a reachable storage, so a concrete run is
exhibited by computing `submitAll`. -/
theorem Reachable.submitAll (txs : List (Env R × C)) {s : σ} (reach : Reachable m s) :
    Reachable m (m.submitAll txs s) :=
  (m.submitAll_steps txs s).elim fun _ steps => reach.steps steps

end Talos.Soroban
