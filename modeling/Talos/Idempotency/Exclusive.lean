import Talos.Idempotency.Effects

/-!
# Exclusivity of a reservation

A request holds its key from the INSERT that answers `ok` until its row is
released or its TTL has passed. `reserve` deletes an expired row by key alone, so
two requests that both read the expired row can both be answered `ok`: the DELETE
of the second one removes the reservation the first has just made
(`both_hold`). Where every such DELETE meets a row that is itself expired, a key
has one holder (`exclusive_along`).
-/

namespace Talos.Idempotency

open Database Soroban

abbrev Step := Transition State Event

/-- The INSERT by which `reserve` of request `r` answers `ok`. -/
def Acquires (t : Step) (r : RequestId) (call : ReserveCall) : Prop :=
  t.event = .insert r ∧ ∃ q, t.post.requests r = some q ∧ q.call = call ∧
    q.stage = .returned .ok

/-- Some call of `release` removes the reservation of `r` under `key`. -/
def Releases (t : Step) (r : RequestId) (key : String) : Prop :=
  ∃ r', t.event = .release r' ∧ ∃ row, t.pre.rows key = some row ∧ row.id = r ∧
    t.post.rows key = none

/-- After the run `h` to `s`, request `r` was answered `ok`, has not been released
and is within its TTL. -/
def Holds (h : List Step) (s : State) (r : RequestId) (call : ReserveCall) : Prop :=
  (∃ t ∈ h, Acquires t r call) ∧ (∀ t ∈ h, ¬ Releases t r call.key) ∧ s.clock ≤ call.expiresAt

/-- The request whose expired branch deletes in this event. -/
def Event.deleter : Event → Option RequestId
  | .delete r => some r
  | _ => none

/-- The DELETE of the expired branch of `reserve`, if this step is one, meets no row
but an expired one. -/
def DeletesOnlyExpired (t : Step) : Prop :=
  ∀ r ∈ t.event.deleter, ∀ q ∈ t.pre.requests r, ∀ row ∈ t.pre.rows q.call.key,
    row.expiresAt < q.call.now

instance (t : Step) : Decidable (DeletesOnlyExpired t) := inferInstanceAs (Decidable (∀ _ ∈ _, _))

/-- The table holds the reservation of `r`, completed or not. -/
def Stored (s : State) (r : RequestId) (call : ReserveCall) : Prop :=
  ∃ row, s.rows call.key = some row ∧ row.id = r ∧ row.expiresAt = call.expiresAt

/-! ### From the answer on -/

theorem Acquires.stored {t : Step} {r : RequestId} {call : ReserveCall}
    (acquires : Acquires t r call) (ok : step t.pre t.event = some t.post) :
    t.pre.rows call.key = none ∧ Stored t.post r call := by
  obtain ⟨event, q, found, rfl, answer⟩ := acquires
  have effect := step_effect ok
  rw [event] at effect
  generalize t.post = s' at effect found
  cases effect with
  | inserted _ q₀ found₀ stage free =>
      rw [setRequest_requests, Map.set_self] at found
      cases found
      exact ⟨free, _, Map.set_self .., rfl, rfl⟩
  | refused _ q₀ found₀ stage =>
      rw [setRequest_requests, Map.set_self] at found
      cases found
      cases answer

/-- One step leaves a stored reservation, releases it, or comes after its TTL. -/
theorem Stored.step {start : Int} {s s' : State} {e : Event} {r : RequestId}
    {call : ReserveCall} (stored : Stored s r call) (reach : Reachable (machine start) s)
    (ok : step s e = some s') (guard : DeletesOnlyExpired ⟨s, e, s'⟩) :
    Stored s' r call ∨ Releases ⟨s, e, s'⟩ r call.key ∨ call.expiresAt < s.clock := by
  obtain ⟨row, found, id, expires⟩ := stored
  have effect := step_effect ok
  cases effect with
  | advance | reserve | select | refused => exact .inl ⟨row, found, id, expires⟩
  | inserted r₀ q found₀ stage free =>
      have other : call.key ≠ q.call.key := by
        intro same
        rw [same, free] at found
        cases found
      exact .inl ⟨row, (Map.set_of_ne _ _ other).trans found, id, expires⟩
  | delete r₀ q found₀ stage =>
      by_cases same : call.key = q.call.key
      · have expired := guard r₀ rfl q found₀ row (same ▸ found)
        have now := now_le_clock reach found₀
        exact .inr (.inr (by omega))
      · exact .inl ⟨row, deleteRow_eq_some.mpr ⟨found, same⟩, id, expires⟩
  | complete r₀ result q found₀ =>
      refine .inl ⟨_, completeRow_eq_some.mpr ⟨row, found, rfl⟩, ?_⟩
      split
      · exact ⟨id, expires⟩
      · exact ⟨id, expires⟩
  | release r₀ q found₀ =>
      by_cases hit : call.key = q.call.key ∧ row.status = .reserved
      · have removed := releaseRow_eq_none found hit.2
        exact .inr (.inl ⟨r₀, rfl, row, found, id, hit.1 ▸ removed⟩)
      · exact .inl ⟨row, releaseRow_eq_some.mpr ⟨found, hit⟩, id, expires⟩
  | purgeExpired now past =>
      by_cases expired : row.expiresAt < now
      · exact .inr (.inr (by omega))
      · exact .inl ⟨row, purgeRows_eq_some.mpr ⟨found, expired⟩, id, expires⟩

/-- A stretch of a run leaves a stored reservation, releases it, or ends after its
TTL. -/
theorem Stored.steps {start : Int} {s t : State} {h : List Step} {r : RequestId}
    {call : ReserveCall} (stored : Stored s r call) (reach : Reachable (machine start) s)
    (steps : Steps (machine start) s h t) (each : ∀ t ∈ h, DeletesOnlyExpired t) :
    Stored t r call ∨ (∃ u ∈ h, Releases u r call.key) ∨ call.expiresAt < t.clock := by
  have both : Reachable (machine start) t ∧
      (Stored t r call ∨ (∃ u ∈ h, Releases u r call.key) ∨ call.expiresAt < t.clock) := by
    refine steps.history (I := fun h t => Reachable (machine start) t ∧
      (Stored t r call ∨ (∃ u ∈ h, Releases u r call.key) ∨ call.expiresAt < t.clock))
      each ⟨reach, .inl stored⟩ ?_
    rintro h t e t' ⟨reach, now⟩ ok guard
    have later := (step_effect ok).clock_le
    refine ⟨reach.step ok, ?_⟩
    rcases now with stored | ⟨u, mem, released⟩ | expired
    · rcases stored.step reach ok guard with stays | released | expired
      · exact .inl stays
      · exact .inr (.inl ⟨_, List.mem_cons_self, released⟩)
      · exact .inr (.inr (by omega))
    · exact .inr (.inl ⟨u, List.mem_cons_of_mem _ mem, released⟩)
    · exact .inr (.inr (by omega))
  exact both.2

theorem Holds.stored {start : Int} {s : State} {h : List Step} {r : RequestId}
    {call : ReserveCall} (holds : Holds h s r call) (run : Run (machine start) h s)
    (each : ∀ t ∈ h, DeletesOnlyExpired t) : Stored s r call := by
  obtain ⟨⟨t, mem, acquires⟩, unreleased, current⟩ := holds
  obtain ⟨later, earlier, rfl⟩ := List.append_of_mem mem
  obtain ⟨before, ok, after⟩ := run.split
  have reach : Reachable (machine start) t.post := ⟨_, .step before ok⟩
  have fromHere := (acquires.stored ok).2.steps reach after
    fun u mem => each u (List.mem_append_left _ mem)
  rcases fromHere with stored | ⟨u, mem, released⟩ | expired
  · exact stored
  · exact absurd released (unreleased u (List.mem_append_left _ mem))
  · omega

/-- In a run whose expired-branch DELETEs only meet expired rows, two answers `ok`
for one key have a release of the first reservation or the end of its TTL between
them, and at no time do two requests hold one key. -/
theorem exclusive_along {start : Int} {h : List Step} {s : State}
    (run : Run (machine start) h s) (each : ∀ t ∈ h, DeletesOnlyExpired t) :
    (∀ later between earlier t t' r r' call call',
      h = later ++ t' :: (between ++ t :: earlier) → Acquires t r call → Acquires t' r' call' →
      call.key = call'.key →
      (∃ u ∈ between, Releases u r call.key) ∨ call.expiresAt < t'.pre.clock) ∧
    ∀ r r' call call', Holds h s r call → Holds h s r' call' → call.key = call'.key → r = r' := by
  constructor
  · intro later between earlier t t' r r' call call' shape acquires acquires' same
    subst shape
    obtain ⟨before, ok', -⟩ := run.split
    obtain ⟨first, ok, after⟩ := before.split
    have reach : Reachable (machine start) t.post := ⟨_, .step first ok⟩
    have fromHere := (acquires.stored ok).2.steps reach after fun u mem =>
      each u (List.mem_append_right _ (List.mem_cons_of_mem _ (List.mem_append_left _ mem)))
    rcases fromHere with ⟨row, found, -⟩ | released | expired
    · rw [same, (acquires'.stored ok').1] at found
      cases found
    · exact .inl released
    · exact .inr expired
  · intro r r' call call' holds holds' same
    obtain ⟨row, found, id, -⟩ := holds.stored run each
    obtain ⟨row', found', id', -⟩ := holds'.stored run each
    rw [same, found'] at found
    cases found
    exact id.symm.trans id'

/-- A reservation taken over after it expired, one request at a time. -/
def succession : List Event :=
  [.reserve 0 "pay" "h" 5, .select 0, .insert 0, .advance 6,
    .reserve 1 "pay" "h" 100, .select 1, .delete 1, .insert 1]

theorem exclusive_succession :
    let run := (machine 0).play succession ([], (machine 0).init)
    Run (machine 0) run.1 run.2 ∧ (∀ t ∈ run.1, DeletesOnlyExpired t) ∧
      ∀ r r' call call', Holds run.1 run.2 r call → Holds run.1 run.2 r' call' →
        call.key = call'.key → r = r' :=
  have guards : ∀ t ∈ ((machine 0).play succession ([], (machine 0).init)).1,
      DeletesOnlyExpired t := by decide
  ⟨Machine.play_run .., guards, (exclusive_along (Machine.play_run ..) guards).2⟩

/-! ### Two requests at an expired row -/

/-- Request 0 left its row to expire. Requests 1 and 2 both read it; then each
deletes and inserts. -/
def takeover : List Event :=
  [.reserve 0 "pay" "h" 5, .select 0, .insert 0, .advance 6,
    .reserve 1 "pay" "h" 100, .reserve 2 "pay" "h" 100, .select 1, .select 2,
    .delete 1, .insert 1, .delete 2, .insert 2]

theorem both_hold :
    ∃ h s call, Run (machine 0) h s ∧ Holds h s 1 call ∧ Holds h s 2 call := by
  let run := (machine 0).play takeover ([], (machine 0).init)
  have unreleased : ∀ r, ∀ t ∈ run.1, ¬ Releases t r "pay" := by
    rintro r t mem ⟨r', event, -⟩
    rcases Machine.mem_play mem with absent | listed
    · cases absent
    · rw [event] at listed
      exact absurd listed (by simp [takeover])
  refine ⟨run.1, run.2, ⟨"pay", "h", 6, 106⟩, Machine.play_run .., ⟨?_, unreleased 1, by decide⟩,
    ⟨?_, unreleased 2, by decide⟩⟩
  · exact ⟨_, List.mem_of_getElem? (i := 2) rfl, rfl, _, rfl, rfl, rfl⟩
  · exact ⟨_, List.mem_of_getElem? (i := 0) rfl, rfl, _, rfl, rfl, rfl⟩

end Talos.Idempotency
