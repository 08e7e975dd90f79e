import Mathlib.Data.List.Count
import Mathlib.Logic.Function.Basic

/-!
# Keys that are claimed before they are used

A row per key says whether a request has claimed it, has failed, or has finished with an
answer. A request claims a key that is free or failed, may use it once, and then releases it
as failed, unless it was used, or settles it; a request that is lost keeps its key. Then a
key has one holder and one use, and its answer never changes (`Step.exclusive`,
`Step.settled`).
-/

namespace Talos.Database

inductive Claim (B : Type) where
  | pending
  | failed
  | completed (answer : B)

/-- Of a request that holds a key: the key, and whether it is still to be used. -/
abbrev Holding (K : Type) := K × Bool

@[ext] structure Custody (K R B : Type) where
  status : K → Option (Claim B)
  holder : R → Option (Holding K)
  uses : K → Nat

namespace Custody

variable {K R B : Type} {c c' : Custody K R B}

/-- A key that may be claimed. -/
def Free (c : Custody K R B) (k : K) : Prop := c.status k = none ∨ c.status k = some .failed

/-- A key that is held is pending. -/
def Held (c : Custody K R B) : Prop :=
  ∀ {r k unused}, c.holder r = some (k, unused) → c.status k = some .pending

/-- A held key is pending and has one holder; a key that can be used was not. -/
structure Exclusive (c : Custody K R B) : Prop where
  held : c.Held
  one : ∀ {r r' k unused unused'}, c.holder r = some (k, unused) →
    c.holder r' = some (k, unused') → r = r'
  free : ∀ {k}, c.Free k → c.uses k = 0
  unused : ∀ {r k}, c.holder r = some (k, true) → c.uses k = 0
  most : ∀ k, c.uses k ≤ 1

theorem Exclusive.not_free (ex : Exclusive c) {r : R} {k : K} {unused : Bool}
    (held : c.holder r = some (k, unused)) : ¬ c.Free k := by
  have pending := ex.held held
  rintro (absent | failed)
  · cases pending.symm.trans absent
  · cases pending.symm.trans failed

variable [DecidableEq K] [DecidableEq R]

inductive Step (c : Custody K R B) : Custody K R B → Prop where
  | claim {r : R} {k : K} : c.Free k →
      Step c
        { c with
          status := Function.update c.status k (some .pending)
          holder := Function.update c.holder r (some (k, true)) }
  | use {r : R} {k : K} : c.holder r = some (k, true) →
      Step c
        { c with
          holder := Function.update c.holder r (some (k, false))
          uses := Function.update c.uses k (c.uses k + 1) }
  /-- A key that the request is not going to use. -/
  | skip {r : R} {k : K} {unused : Bool} : c.holder r = some (k, unused) →
      Step c { c with holder := Function.update c.holder r (some (k, false)) }
  | lose {r : R} : Step c { c with holder := Function.update c.holder r none }
  | release {r : R} {k : K} : c.holder r = some (k, true) →
      Step c
        { c with
          status := Function.update c.status k (some .failed)
          holder := Function.update c.holder r none }
  | settle {r : R} {k : K} {unused : Bool} {answer : B} : c.holder r = some (k, unused) →
      Step c
        { c with
          status := Function.update c.status k (some (.completed answer))
          holder := Function.update c.holder r none }

omit [DecidableEq K] in
/-- The holders after one of them is set. -/
theorem update_holder {r r' : R} {h : Option (Holding K)} {k : K} {unused : Bool}
    (held : Function.update c.holder r h r' = some (k, unused)) :
    r' = r ∧ h = some (k, unused) ∨ r' ≠ r ∧ c.holder r' = some (k, unused) := by
  by_cases same : r' = r
  · subst same
    rw [Function.update_self] at held
    exact .inl ⟨rfl, held⟩
  · rw [Function.update_of_ne same] at held
    exact .inr ⟨same, held⟩

omit [DecidableEq R] in
/-- The free keys after the status of one is set. -/
theorem update_free {k k' : K} {status : Claim B} {holder : R → Option (Holding K)}
    {uses : K → Nat}
    (free : Free ⟨Function.update c.status k (some status), holder, uses⟩ k') :
    k' = k ∧ status = .failed ∨ k' ≠ k ∧ c.Free k' := by
  by_cases same : k' = k
  · subst same
    unfold Free at free
    dsimp only at free
    rw [Function.update_self] at free
    rcases free with absent | failed
    · cases absent
    · exact .inl ⟨rfl, Option.some.inj failed⟩
  · unfold Free at free
    dsimp only at free
    rw [Function.update_of_ne same] at free
    exact .inr ⟨same, free⟩

theorem Exclusive.claim (ex : Exclusive c) {r : R} {k : K} (free : c.Free k) :
    Exclusive
      { c with
        status := Function.update c.status k (some .pending)
        holder := Function.update c.holder r (some (k, true)) } where
  held := by
    intro r' k' unused held
    by_cases same : k' = k
    · subst same
      exact Function.update_self k' _ _
    · refine (Function.update_of_ne same _ _).trans ?_
      rcases update_holder held with ⟨_, own⟩ | ⟨_, before⟩
      · cases own
        exact absurd rfl same
      · exact ex.held before
  one := by
    intro r' r'' k' _ _ held held'
    rcases update_holder held with ⟨rfl, own⟩ | ⟨_, before⟩
    · rcases update_holder held' with ⟨rfl, _⟩ | ⟨_, before'⟩
      · rfl
      · cases own
        exact absurd free (ex.not_free before')
    · rcases update_holder held' with ⟨rfl, own⟩ | ⟨_, before'⟩
      · cases own
        exact absurd free (ex.not_free before)
      · exact ex.one before before'
  free := by
    intro k' free'
    rcases update_free free' with ⟨_, failed⟩ | ⟨_, before⟩
    · cases failed
    · exact ex.free before
  unused := by
    intro r' k' held
    rcases update_holder held with ⟨_, own⟩ | ⟨_, before⟩
    · cases own
      exact ex.free free
    · exact ex.unused before
  most := ex.most

theorem Exclusive.use (ex : Exclusive c) {r : R} {k : K} (fresh : c.holder r = some (k, true)) :
    Exclusive
      { c with
        holder := Function.update c.holder r (some (k, false))
        uses := Function.update c.uses k (c.uses k + 1) } where
  held := by
    intro r' k' unused held
    rcases update_holder held with ⟨_, own⟩ | ⟨_, before⟩
    · cases own
      exact ex.held fresh
    · exact ex.held before
  one := by
    intro r' r'' k' _ _ held held'
    rcases update_holder held with ⟨rfl, own⟩ | ⟨_, before⟩
    · rcases update_holder held' with ⟨rfl, _⟩ | ⟨_, before'⟩
      · rfl
      · cases own
        exact ex.one fresh before'
    · rcases update_holder held' with ⟨rfl, own⟩ | ⟨_, before'⟩
      · cases own
        exact ex.one before fresh
      · exact ex.one before before'
  free := by
    intro k' free
    have other : k' ≠ k := fun same => ex.not_free fresh (same ▸ free)
    exact (Function.update_of_ne other _ _).trans (ex.free free)
  unused := by
    intro r' k' held
    rcases update_holder held with ⟨_, own⟩ | ⟨ne, before⟩
    · cases own
    · have other : k' ≠ k := fun same => ne (ex.one (same ▸ before) fresh)
      exact (Function.update_of_ne other _ _).trans (ex.unused before)
  most := by
    intro k'
    change Function.update c.uses k (c.uses k + 1) k' ≤ 1
    by_cases same : k' = k
    · subst same
      have once : Function.update c.uses k' (c.uses k' + 1) k' = 1 := by
        rw [Function.update_self, ex.unused fresh]
      exact Nat.le_of_eq once
    · rw [Function.update_of_ne same]
      exact ex.most k'

omit [DecidableEq K] in
theorem Exclusive.skip (ex : Exclusive c) {r : R} {k : K} {unused : Bool}
    (holds : c.holder r = some (k, unused)) :
    Exclusive { c with holder := Function.update c.holder r (some (k, false)) } where
  held := by
    intro r' k' _ held
    rcases update_holder held with ⟨_, own⟩ | ⟨_, before⟩
    · cases own
      exact ex.held holds
    · exact ex.held before
  one := by
    intro r' r'' k' _ _ held held'
    rcases update_holder held with ⟨rfl, own⟩ | ⟨_, before⟩
    · rcases update_holder held' with ⟨rfl, _⟩ | ⟨_, before'⟩
      · rfl
      · cases own
        exact ex.one holds before'
    · rcases update_holder held' with ⟨rfl, own⟩ | ⟨_, before'⟩
      · cases own
        exact ex.one before holds
      · exact ex.one before before'
  free := ex.free
  unused := by
    intro r' k' held
    rcases update_holder held with ⟨_, own⟩ | ⟨_, before⟩
    · cases own
    · exact ex.unused before
  most := ex.most

omit [DecidableEq K] in
theorem Exclusive.lose (ex : Exclusive c) (r : R) :
    Exclusive { c with holder := Function.update c.holder r none } where
  held := by
    intro r' k' _ held
    rcases update_holder held with ⟨_, own⟩ | ⟨_, before⟩
    · cases own
    · exact ex.held before
  one := by
    intro r' r'' k' _ _ held held'
    rcases update_holder held with ⟨_, own⟩ | ⟨_, before⟩
    · cases own
    · rcases update_holder held' with ⟨_, own⟩ | ⟨_, before'⟩
      · cases own
      · exact ex.one before before'
  free := ex.free
  unused := by
    intro r' k' held
    rcases update_holder held with ⟨_, own⟩ | ⟨_, before⟩
    · cases own
    · exact ex.unused before
  most := ex.most

/-- A holder gives up its key, which is free afterwards only if it was not used. -/
theorem Exclusive.drop (ex : Exclusive c) {r : R} {k : K} {unused : Bool} {status : Claim B}
    (holds : c.holder r = some (k, unused)) (settled : status = .failed → c.uses k = 0) :
    Exclusive
      { c with
        status := Function.update c.status k (some status)
        holder := Function.update c.holder r none } where
  held := by
    intro r' k' _ held
    rcases update_holder held with ⟨_, own⟩ | ⟨ne, before⟩
    · cases own
    · have other : k' ≠ k := fun same => ne (ex.one (same ▸ before) holds)
      exact (Function.update_of_ne other _ _).trans (ex.held before)
  one := (ex.lose r).one
  free := by
    intro k' free
    rcases update_free free with ⟨rfl, failed⟩ | ⟨_, before⟩
    · exact settled failed
    · exact ex.free before
  unused := (ex.lose r).unused
  most := ex.most

theorem Step.exclusive (step : Step c c') (ex : Exclusive c) : Exclusive c' := by
  cases step with
  | claim free => exact ex.claim free
  | use fresh => exact ex.use fresh
  | skip holds => exact ex.skip holds
  | lose => exact ex.lose _
  | release fresh => exact ex.drop fresh fun _ => ex.unused fresh
  | settle holds => exact ex.drop holds fun failed => nomatch failed

/-- An answer does not change. -/
theorem Step.settled (step : Step c c') (ex : Exclusive c) {k : K} {answer : B}
    (done : c.status k = some (.completed answer)) : c'.status k = some (.completed answer) := by
  have ne_of_held : ∀ {r : R} {k' : K} {unused : Bool}, c.holder r = some (k', unused) →
      k ≠ k' := by
    rintro r k' unused holds rfl
    cases (ex.held holds).symm.trans done
  cases step with
  | @claim _ k' free =>
      have other : k ≠ k' := by
        rintro rfl
        rcases free with absent | failed
        · cases absent.symm.trans done
        · cases failed.symm.trans done
      exact (Function.update_of_ne other _ _).trans done
  | use | skip | lose => exact done
  | release holds | settle holds =>
      exact (Function.update_of_ne (ne_of_held holds) _ _).trans done

/-- The custody of keys without their uses. -/
def forget (c : Custody K R B) : Custody K R B := { c with uses := fun _ => 0 }

omit [DecidableEq K] [DecidableEq R] in
theorem Exclusive.forget (ex : Exclusive c) : Exclusive c.forget where
  held := ex.held
  one := ex.one
  free := fun _ => rfl
  unused := fun _ => rfl
  most := fun _ => Nat.zero_le 1

theorem Step.forget (step : Step c c') : Step c.forget c'.forget := by
  cases step with
  | claim free => exact .claim (c := c.forget) free
  | use fresh => exact .skip (c := c.forget) fresh
  | skip holds => exact .skip (c := c.forget) holds
  | lose => exact .lose (c := c.forget)
  | release fresh => exact .release (c := c.forget) fresh
  | settle holds => exact .settle (c := c.forget) holds

/-- The uses of keys that a list records. -/
def usesOf (keys : List K) : K → Nat := fun k => keys.count k

theorem usesOf_cons (k : K) (keys : List K) :
    usesOf (k :: keys) = Function.update (usesOf keys) k (usesOf keys k + 1) := by
  funext k'
  by_cases same : k' = k
  · subst same
    rw [Function.update_self]
    exact List.count_cons_self
  · rw [Function.update_of_ne same]
    exact List.count_cons_of_ne fun equal => same equal.symm

/-! ### Custody of the keys of a table -/

section View

variable {Row Req : Type} (asClaim : Row → Claim B) (holding : Req → Option (Holding K))
  (rows : K → Option Row) (requests : R → Option Req) (keys : List K)

/-- The rows of a table say what became of their keys, the requests in flight what they hold,
and a list which keys were used. -/
def view : Custody K R B where
  status := Option.map asClaim ∘ rows
  holder := (Option.bind · holding) ∘ requests
  uses := usesOf keys

theorem view_request (r : R) (request : Option Req) :
    view asClaim holding rows (Function.update requests r request) keys =
      { view asClaim holding rows requests keys with
        holder := Function.update (view asClaim holding rows requests keys).holder r
          (request.bind holding) } :=
  Custody.ext rfl (Function.comp_update (Option.bind · holding) requests r request) rfl

omit [DecidableEq R] in
theorem view_row (k : K) (row : Option Row) :
    view asClaim holding (Function.update rows k row) requests keys =
      { view asClaim holding rows requests keys with
        status := Function.update (view asClaim holding rows requests keys).status k
          (row.map asClaim) } :=
  Custody.ext (Function.comp_update (Option.map asClaim) rows k row) rfl rfl

omit [DecidableEq R] in
theorem view_use (k : K) :
    view asClaim holding rows requests (k :: keys) =
      { view asClaim holding rows requests keys with
        uses := Function.update (view asClaim holding rows requests keys).uses k
          ((view asClaim holding rows requests keys).uses k + 1) } :=
  Custody.ext rfl rfl (usesOf_cons k keys)

variable {asClaim holding rows requests keys}

omit [DecidableEq R] in
theorem view_holder {r : R} {request : Req} {k : K} {unused : Bool}
    (here : requests r = some request) (held : holding request = some (k, unused)) :
    (view asClaim holding rows requests keys).holder r = some (k, unused) := by
  change (requests r).bind holding = _
  rw [here, Option.bind_some, held]

omit [DecidableEq R] in
theorem view_status {k : K} {row : Row} (found : rows k = some row) :
    (view asClaim holding rows requests keys).status k = some (asClaim row) :=
  congrArg (Option.map asClaim) found

omit [DecidableEq R] in
theorem Held.stored (held : Held (view asClaim holding rows requests keys)) {r : R}
    {request : Req} {k : K} {unused : Bool} (here : requests r = some request)
    (holds : holding request = some (k, unused)) :
    ∃ row, rows k = some row ∧ asClaim row = .pending :=
  Option.map_eq_some_iff.mp (held (view_holder here holds))

omit [DecidableEq R] in
theorem view_empty : Exclusive (view asClaim holding (fun _ => none) (fun _ : R => none) []) where
  held := fun absent => nomatch absent
  one := fun absent => nomatch absent
  free := fun _ => rfl
  unused := fun absent => nomatch absent
  most := fun _ => Nat.zero_le 1

end View

/-! ### Answers -/

/-- The answers that were given, newest first, are those that their keys were settled with. -/
def Answered (c : Custody K R B) (answers : List (K × B)) : Prop :=
  ∀ a ∈ answers, c.status a.1 = some (.completed a.2)

/-- The keys are exclusive, and the answers that were given, and those that the requests are
about to give, are those that their keys were settled with. -/
structure Kept (c : Custody K R B) (answers : List (K × B)) (promised : R → Option (K × B)) :
    Prop where
  exclusive : Exclusive c
  answered : Answered c answers
  promised : ∀ {r a}, promised r = some a → c.status a.1 = some (.completed a.2)

/-- An answer is given that its key was settled with, if one is given. -/
def Gives (c : Custody K R B) (answers answers' : List (K × B)) : Prop :=
  answers' = answers ∨ ∃ a, answers' = a :: answers ∧ c.status a.1 = some (.completed a.2)

/-- A request gets an answer to give that its key was settled with, or none. -/
def Promises (c : Custody K R B) (promised promised' : R → Option (K × B)) : Prop :=
  promised' = promised ∨ ∃ r answer, promised' = Function.update promised r answer ∧
    ∀ a, answer = some a → c.status a.1 = some (.completed a.2)

theorem Kept.step {answers answers' : List (K × B)} {promised promised' : R → Option (K × B)}
    (kept : Kept c answers promised) (moved : c' = c ∨ Step c c')
    (gives : Gives c answers answers') (promises : Promises c' promised promised') :
    Kept c' answers' promised' := by
  have settled : ∀ {k answer}, c.status k = some (.completed answer) →
      c'.status k = some (.completed answer) := by
    intro k answer done
    rcases moved with rfl | step
    · exact done
    · exact step.settled kept.exclusive done
  refine ⟨?_, ?_, ?_⟩
  · rcases moved with rfl | step
    · exact kept.exclusive
    · exact step.exclusive kept.exclusive
  · intro answer mem
    rcases gives with rfl | ⟨a, rfl, done⟩
    · exact settled (kept.answered answer mem)
    · rcases List.mem_cons.mp mem with rfl | before
      · exact settled done
      · exact settled (kept.answered answer before)
  · intro r a waiting
    rcases promises with rfl | ⟨r', answer, rfl, new⟩
    · exact settled (kept.promised waiting)
    · by_cases own : r = r'
      · subst own
        rw [Function.update_self] at waiting
        exact new a waiting
      · rw [Function.update_of_ne own] at waiting
        exact settled (kept.promised waiting)

/-- The first answer that was given for a key. -/
def firstAnswer (answers : List (K × B)) (k : K) : Option B :=
  ((answers.filter fun a => a.1 = k).getLast?).map Prod.snd

omit [DecidableEq R] in
theorem Answered.first {answers : List (K × B)} (given : Answered c answers) {k : K} {answer : B}
    (mem : (k, answer) ∈ answers) : firstAnswer answers k = some answer := by
  have here : (k, answer) ∈ answers.filter fun a => a.1 = k :=
    List.mem_filter.mpr ⟨mem, decide_eq_true rfl⟩
  obtain ⟨first, last⟩ := Option.isSome_iff_exists.mp
    (List.getLast?_isSome.mpr (List.ne_nil_of_mem here))
  obtain ⟨firstMem, own⟩ := List.mem_filter.mp (List.mem_of_getLast? last)
  have settled := given first firstMem
  rw [of_decide_eq_true own, given _ mem] at settled
  cases settled
  rw [firstAnswer, last, Option.map_some]

end Custody

end Talos.Database
