import Talos.Idempotency.Model

/-!
# Effects of reservation statements

`Effect` lists what each statement does to the state it is executed in; requests and
rows after a step are traced back to the state before it.
-/

namespace Talos.Idempotency

open Database Soroban

/-! ### What a step does -/

inductive Effect (s : State) : Event → State → Prop where
  | advance (now : Int) (later : s.clock ≤ now) : Effect s (.advance now) { s with clock := now }
  | reserve (r : RequestId) (key payloadHash : String) (ttlMs : Int)
      (fresh : s.requests r = none) :
      Effect s (.reserve r key payloadHash ttlMs) (s.setRequest r
        ⟨⟨key, payloadHash, s.clock, s.clock + ttlMs⟩, .selecting, false⟩)
  | select (r : RequestId) (q : Request) (found : s.requests r = some q)
      (stage : q.stage = .selecting) :
      Effect s (.select r) (s.setRequest r (q.at (afterSelect q.call (s.rows q.call.key))))
  | inserted (r : RequestId) (q : Request) (found : s.requests r = some q)
      (stage : q.stage = .inserting) (free : s.rows q.call.key = none) :
      Effect s (.insert r) { s.setRequest r (q.at (.returned .ok)) with
        rows := s.rows.set q.call.key (reservation r q.call) }
  | refused (r : RequestId) (q : Request) (found : s.requests r = some q)
      (stage : q.stage = .inserting) :
      Effect s (.insert r) (s.setRequest r (q.at .failed))
  | delete (r : RequestId) (q : Request) (found : s.requests r = some q)
      (stage : q.stage = .deleting) :
      Effect s (.delete r) { s.setRequest r (q.at .inserting) with
        rows := deleteRow s.rows q.call.key }
  | complete (r : RequestId) (result : String) (q : Request) (found : s.requests r = some q) :
      Effect s (.complete r result) { s with rows := completeRow s.rows q.call.key result }
  | release (r : RequestId) (q : Request) (found : s.requests r = some q) :
      Effect s (.release r) { s.setRequest r { q with released := true } with
        rows := releaseRow s.rows q.call.key }
  | purgeExpired (now : Int) (past : now ≤ s.clock) :
      Effect s (.purgeExpired now) { s with rows := purgeRows s.rows now }

theorem step_effect {s s' : State} {e : Event} (ok : step s e = some s') : Effect s e s' := by
  cases e with
  | advance now =>
      simp only [step, Option.ite_none_right_eq_some, Option.some.injEq] at ok
      obtain ⟨later, rfl⟩ := ok
      exact .advance now later
  | reserve r key payloadHash ttlMs =>
      simp only [step] at ok
      split at ok
      · cases ok
      · next fresh =>
          cases ok
          exact .reserve r key payloadHash ttlMs fresh
  | select r =>
      simp only [step] at ok
      split at ok
      · next q found =>
          simp only [Option.ite_none_right_eq_some, Option.some.injEq] at ok
          obtain ⟨stage, rfl⟩ := ok
          exact .select r q found stage
      · cases ok
  | insert r =>
      simp only [step] at ok
      split at ok
      · next q found =>
          rw [Option.ite_none_right_eq_some] at ok
          obtain ⟨stage, ok⟩ := ok
          split at ok
          · next rows inserted =>
              cases ok
              obtain ⟨free, rfl⟩ := Table.insert_eq_some.mp inserted
              exact .inserted r q found stage free
          · cases ok
            exact .refused r q found stage
      · cases ok
  | delete r =>
      simp only [step] at ok
      split at ok
      · next q found =>
          simp only [Option.ite_none_right_eq_some, Option.some.injEq] at ok
          obtain ⟨stage, rfl⟩ := ok
          exact .delete r q found stage
      · cases ok
  | complete r result =>
      simp only [step] at ok
      split at ok
      · next q found =>
          cases ok
          exact .complete r result q found
      · cases ok
  | release r =>
      simp only [step] at ok
      split at ok
      · next q found =>
          cases ok
          exact .release r q found
      · cases ok
  | purgeExpired now =>
      simp only [step, Option.ite_none_right_eq_some, Option.some.injEq] at ok
      obtain ⟨past, rfl⟩ := ok
      exact .purgeExpired now past

theorem completeRow_eq_some {rows : Table String ReservationRow} {key result k : String}
    {row : ReservationRow} :
    completeRow rows key result k = some row ↔ ∃ row₀, rows k = some row₀ ∧
      row = if k = key ∧ row₀.status = .reserved then
        { row₀ with status := .completed, result := some result } else row₀ := by
  simp only [completeRow, Table.update_eq_some, decide_eq_true_eq]

theorem completeRow_of_ne {rows : Table String ReservationRow} {key result k : String}
    (ne : k ≠ key) : completeRow rows key result k = rows k :=
  Table.update_of_not fun _ _ => decide_eq_false fun both => ne both.1

theorem releaseRow_eq_some {rows : Table String ReservationRow} {key k : String}
    {row : ReservationRow} :
    releaseRow rows key k = some row ↔ rows k = some row ∧ ¬(k = key ∧ row.status = .reserved) := by
  simp only [releaseRow, Table.delete_eq_some, decide_eq_false_iff_not]

theorem releaseRow_eq_none {rows : Table String ReservationRow} {key : String}
    {row : ReservationRow} (found : rows key = some row) (reserved : row.status = .reserved) :
    releaseRow rows key key = none :=
  Table.delete_of_hit found (decide_eq_true ⟨rfl, reserved⟩)

theorem deleteRow_eq_some {rows : Table String ReservationRow} {key k : String}
    {row : ReservationRow} : deleteRow rows key k = some row ↔ rows k = some row ∧ k ≠ key := by
  simp only [deleteRow, Table.delete_eq_some, decide_eq_false_iff_not, ne_eq]

theorem purgeRows_eq_some {rows : Table String ReservationRow} {now : Int} {k : String}
    {row : ReservationRow} :
    purgeRows rows now k = some row ↔ rows k = some row ∧ ¬ row.expiresAt < now := by
  simp only [purgeRows, Table.delete_eq_some, decide_eq_false_iff_not]

@[simp] theorem setRequest_requests (s : State) (r : RequestId) (q : Request) :
    (s.setRequest r q).requests = s.requests.set r q := rfl

theorem setRequest_eq_some {s : State} {r r' : RequestId} {q q' : Request}
    (found : (s.setRequest r q).requests r' = some q') :
    r' = r ∧ q' = q ∨ r' ≠ r ∧ s.requests r' = some q' := by
  by_cases same : r' = r
  · rw [setRequest_requests, same, Map.set_self] at found
    exact .inl ⟨same, (Option.some.inj found).symm⟩
  · rw [setRequest_requests, Map.set_of_ne _ _ same] at found
    exact .inr ⟨same, found⟩

/-- What a step leaves of the request it was before the step. -/
structure Request.Continues (q q' : Request) : Prop where
  call : q'.call = q.call
  returned : ∀ answer, q.stage = .returned answer → q'.stage = .returned answer
  released : q.released = true → q'.released = true

theorem Request.Continues.refl (q : Request) : q.Continues q := ⟨rfl, fun _ => id, id⟩

theorem Request.Continues.at {q : Request} {stage : Stage}
    (open_ : ∀ answer, q.stage ≠ .returned answer) : q.Continues (q.at stage) :=
  ⟨rfl, fun answer isOver => absurd isOver (open_ answer), id⟩

/-- A request known after a step either began with it or was there before. -/
theorem Effect.request {s s' : State} {e : Event} (effect : Effect s e s') {r : RequestId}
    {q' : Request} (found' : s'.requests r = some q') :
    (s.requests r = none ∧ q'.call.now = s.clock ∧ q'.stage = .selecting) ∨
      ∃ q, s.requests r = some q ∧ q.Continues q' := by
  cases effect with
  | advance | complete | purgeExpired => exact .inr ⟨q', found', .refl q'⟩
  | reserve r₀ key payloadHash ttlMs fresh =>
      rcases setRequest_eq_some found' with ⟨rfl, rfl⟩ | ⟨-, found⟩
      · exact .inl ⟨fresh, rfl, rfl⟩
      · exact .inr ⟨q', found, .refl q'⟩
  | select r₀ q found₀ stage
  | inserted r₀ q found₀ stage
  | refused r₀ q found₀ stage
  | delete r₀ q found₀ stage =>
      rcases setRequest_eq_some found' with ⟨rfl, rfl⟩ | ⟨-, found⟩
      · exact .inr ⟨q, found₀, .at fun answer isOver => by simp [stage] at isOver⟩
      · exact .inr ⟨q', found, .refl q'⟩
  | release r₀ q found₀ =>
      rcases setRequest_eq_some found' with ⟨rfl, rfl⟩ | ⟨-, found⟩
      · exact .inr ⟨q, found₀, rfl, fun _ => id, fun _ => rfl⟩
      · exact .inr ⟨q', found, .refl q'⟩

theorem setRequest_continues {s : State} {r r' : RequestId} {q q₀ q' : Request}
    (found₀ : s.requests r = some q₀) (continues : q₀.Continues q)
    (found : s.requests r' = some q') :
    ∃ q'', (s.setRequest r q).requests r' = some q'' ∧ q'.Continues q'' := by
  by_cases same : r' = r
  · rw [same, found₀] at found
    cases found
    exact ⟨q, by rw [same, setRequest_requests, Map.set_self], continues⟩
  · exact ⟨q', by rw [setRequest_requests, Map.set_of_ne _ _ same, found], .refl q'⟩

/-- A request known before a step is known after it. -/
theorem Effect.continues {s s' : State} {e : Event} (effect : Effect s e s') {r : RequestId}
    {q : Request} (found : s.requests r = some q) :
    ∃ q', s'.requests r = some q' ∧ q.Continues q' := by
  cases effect with
  | advance | complete | purgeExpired => exact ⟨q, found, .refl q⟩
  | reserve r₀ key payloadHash ttlMs fresh =>
      have other : r ≠ r₀ := by
        rintro rfl
        rw [fresh] at found
        cases found
      exact ⟨q, by rw [setRequest_requests, Map.set_of_ne _ _ other, found], .refl q⟩
  | select r₀ q₀ found₀ stage
  | inserted r₀ q₀ found₀ stage
  | refused r₀ q₀ found₀ stage
  | delete r₀ q₀ found₀ stage =>
      exact setRequest_continues found₀ (.at fun answer isOver => by simp [stage] at isOver) found
  | release r₀ q₀ found₀ =>
      exact setRequest_continues found₀ ⟨rfl, fun _ => id, fun _ => rfl⟩ found

theorem afterSelect_ne_ok (call : ReserveCall) (existing : Option ReservationRow) :
    afterSelect call existing ≠ .returned .ok := by
  cases existing with
  | none => exact Stage.noConfusion
  | some row =>
      simp only [afterSelect]
      split_ifs
      · exact Stage.noConfusion
      · simp
      · cases row.status <;> simp

theorem afterSelect_eq_replay {call : ReserveCall} {existing : Option ReservationRow}
    {result : Option String} (replay : afterSelect call existing = .returned (.replay result)) :
    ∃ row, existing = some row ∧ row.status = .completed ∧
      row.payloadHash = call.payloadHash ∧ row.result = result := by
  cases existing with
  | none => cases replay
  | some row =>
      simp only [afterSelect] at replay
      split_ifs at replay with expired mismatch
      · simp at replay
      · cases status : row.status with
        | reserved => simp [status] at replay
        | completed => exact ⟨row, rfl, status, not_not.mp mismatch, by simpa [status] using replay⟩

/-- An answer `ok` comes from the INSERT of this step or was given before it. -/
theorem Effect.answered {s s' : State} {e : Event} (effect : Effect s e s') {r : RequestId}
    {q' : Request} (found' : s'.requests r = some q') (ok : q'.stage = .returned .ok) :
    e = .insert r ∨ ∃ q, s.requests r = some q ∧ q.Continues q' ∧ q.stage = .returned .ok := by
  cases effect with
  | advance | complete | purgeExpired => exact .inr ⟨q', found', .refl q', ok⟩
  | inserted r₀ q found stage =>
      rcases setRequest_eq_some found' with ⟨rfl, rfl⟩ | ⟨-, found⟩
      · exact .inl rfl
      · exact .inr ⟨q', found, .refl q', ok⟩
  | select r₀ q found stage =>
      rcases setRequest_eq_some found' with ⟨rfl, rfl⟩ | ⟨-, found⟩
      · exact absurd ok (afterSelect_ne_ok _ _)
      · exact .inr ⟨q', found, .refl q', ok⟩
  | reserve | refused | delete =>
      rcases setRequest_eq_some found' with ⟨rfl, rfl⟩ | ⟨-, found⟩
      · cases ok
      · exact .inr ⟨q', found, .refl q', ok⟩
  | release r₀ q found =>
      rcases setRequest_eq_some found' with ⟨rfl, rfl⟩ | ⟨-, found⟩
      · exact .inr ⟨q, found, ⟨rfl, fun _ => id, fun _ => rfl⟩, ok⟩
      · exact .inr ⟨q', found, .refl q', ok⟩

/-- Where a row of the table after a step comes from. -/
inductive RowOrigin (s : State) (e : Event) (k : String) (row' : ReservationRow) : Prop where
  | stays (found : s.rows k = some row')
  | completed (r : RequestId) (result : String) (q : Request) (event : e = .complete r result)
      (caller : s.requests r = some q) (key : k = q.call.key) (row : ReservationRow)
      (found : s.rows k = some row)
      (shape : row' = { row with status := .completed, result := some result })
  | inserted (r : RequestId) (q : Request) (event : e = .insert r)
      (caller : s.requests r = some q) (key : k = q.call.key) (shape : row' = reservation r q.call)

theorem Effect.row {s s' : State} {e : Event} (effect : Effect s e s') {k : String}
    {row' : ReservationRow} (found' : s'.rows k = some row') : RowOrigin s e k row' := by
  cases effect with
  | advance | reserve | select | refused => exact .stays found'
  | inserted r q found stage free =>
      simp only [Map.set_apply] at found'
      split at found'
      · next same =>
          cases found'
          exact .inserted r q rfl found same rfl
      · exact .stays found'
  | delete r q found stage => exact .stays (deleteRow_eq_some.mp found').1
  | complete r result q found =>
      obtain ⟨row, stored, shape⟩ := completeRow_eq_some.mp found'
      split at shape
      · next hit => exact .completed r result q rfl found hit.1 row stored shape
      · exact .stays (shape ▸ stored)
  | release r q found => exact .stays (releaseRow_eq_some.mp found').1
  | purgeExpired now past => exact .stays (purgeRows_eq_some.mp found').1

theorem Effect.clock_le {s s' : State} {e : Event} (effect : Effect s e s') :
    s.clock ≤ s'.clock := by
  cases effect with
  | advance now later => exact later
  | _ => exact Int.le_refl _

/-- No request reads a clock that is ahead. -/
theorem now_le_clock {start : Int} {s : State} (reach : Reachable (machine start) s)
    {r : RequestId} {q : Request} (found : s.requests r = some q) : q.call.now ≤ s.clock := by
  have all : ∀ r q, s.requests r = some q → q.call.now ≤ s.clock := by
    refine reach.invariant (I := fun s => ∀ r q, s.requests r = some q → q.call.now ≤ s.clock)
      (fun _ _ absent => nomatch absent) ?_
    intro s e s' all ok r q found
    have effect := step_effect ok
    rcases effect.request found with ⟨-, now, -⟩ | ⟨q₀, found₀, kept⟩
    · exact now ▸ effect.clock_le
    · exact kept.call ▸ Int.le_trans (all r q₀ found₀) effect.clock_le
  exact all r q found

end Talos.Idempotency
