import Talos.Idempotency.Exclusive

/-!
# A request and its own reservation

`complete` and `release` name a reservation by its key. A request that calls them
after its TTL may meet the row of another request (`late_complete`). Where every
such call comes from a request that was answered `ok`, has not released and is
within its TTL, and expired-branch DELETEs meet expired rows only, each call meets
its own row, and a replayed response comes from a request with the same payload
(`own_reservation_along`).
-/

namespace Talos.Idempotency

open Database Soroban

/-- The request that calls `complete` or `release` in this event. -/
def Event.settler : Event → Option RequestId
  | .complete r _ => some r
  | .release r => some r
  | _ => none

/-- A call of `complete` or `release`, if this step is one, is made while the
caller's reservation lasts. -/
def SettlesInTime (t : Step) : Prop :=
  ∀ r ∈ t.event.settler, ∀ q ∈ t.pre.requests r,
    q.stage = .returned .ok ∧ q.released = false ∧ t.pre.clock ≤ q.call.expiresAt

instance (t : Step) : Decidable (SettlesInTime t) := inferInstanceAs (Decidable (∀ _ ∈ _, _))

/-- What the response stored in a row goes back to. -/
def Produced (h : List Step) (payloadHash : String) (result : Option String) : Prop :=
  ∃ u ∈ h, ∃ r q response, u.event = .complete r response ∧ u.pre.requests r = some q ∧
    q.call.payloadHash = payloadHash ∧ result = some response

structure Ledger (h : List Step) (s : State) : Prop where
  /-- A row belongs to the request that inserted it. -/
  inserted : ∀ k row, s.rows k = some row → ∃ q, s.requests row.id = some q ∧
    q.call.key = k ∧ q.call.payloadHash = row.payloadHash
  /-- A reservation that lasts is in the table. -/
  lasting : ∀ r q, s.requests r = some q → q.stage = .returned .ok → q.released = false →
    s.clock ≤ q.call.expiresAt → Stored s r q.call
  produced : ∀ k row, s.rows k = some row → row.status = .completed →
    Produced h row.payloadHash row.result

/-- A call made in time meets the caller's row. -/
theorem Ledger.meets_own {h : List Step} {s s' : State} {e : Event} {r : RequestId} {q : Request}
    (ledger : Ledger h s) (inTime : SettlesInTime ⟨s, e, s'⟩) (call : e.settler = some r)
    (found : s.requests r = some q) :
    ∃ row, s.rows q.call.key = some row ∧ row.id = r ∧ row.payloadHash = q.call.payloadHash := by
  obtain ⟨answered, unreleased, current⟩ := inTime r call q found
  obtain ⟨row, stored, id, -⟩ := ledger.lasting r q found answered unreleased current
  obtain ⟨q₀, found₀, -, hash⟩ := ledger.inserted _ row stored
  rw [id, found] at found₀
  cases found₀
  exact ⟨row, stored, id, hash.symm⟩

theorem settler_caller {s s' : State} {e : Event} {r : RequestId} (ok : step s e = some s')
    (call : e.settler = some r) : ∃ q, s.requests r = some q := by
  have effect := step_effect ok
  cases effect with
  | complete _ _ q found
  | release _ q found =>
      cases call
      exact ⟨q, found⟩
  | _ => cases call

/-- The only rows a call can change are the ones under the caller's key. -/
theorem settler_key {s s' : State} {e : Event} {r : RequestId} {q : Request} {k : String}
    {row : ReservationRow} (ok : step s e = some s') (call : e.settler = some r)
    (found : s.requests r = some q) (stored : s.rows k = some row)
    (changed : s'.rows k ≠ some row) : k = q.call.key := by
  by_contra other
  refine changed ?_
  have effect := step_effect ok
  cases effect with
  | complete r₀ result q₀ found₀ =>
      cases call
      rw [found] at found₀
      cases found₀
      exact (completeRow_of_ne other).trans stored
  | release r₀ q₀ found₀ =>
      cases call
      rw [found] at found₀
      cases found₀
      exact releaseRow_eq_some.mpr ⟨stored, fun both => other both.1⟩
  | _ => cases call

/-- A call made in time releases no reservation but the caller's, which then is
marked released. -/
theorem Ledger.releases_own {h : List Step} {s s' : State} {e : Event} {r : RequestId}
    {key : String} (ledger : Ledger h s) (ok : step s e = some s')
    (inTime : SettlesInTime ⟨s, e, s'⟩) (releases : Releases ⟨s, e, s'⟩ r key) :
    ∃ q, s'.requests r = some q ∧ q.released = true := by
  obtain ⟨r', rfl, row, found, id, gone⟩ := releases
  have effect := step_effect ok
  cases effect with
  | release _ q caller =>
      obtain ⟨own, stored, ownId, -⟩ := ledger.meets_own inTime rfl caller
      have changed : (releaseRow s.rows q.call.key) key ≠ some row :=
        fun stays => absurd (gone.symm.trans stays) (Option.some_ne_none row).symm
      have same : key = q.call.key := settler_key ok rfl caller found changed
      rw [← same, found] at stored
      cases stored
      subst id
      subst ownId
      exact ⟨_, Map.set_self .., rfl⟩

theorem Produced.mono {h : List Step} {t : Step} {payloadHash : String}
    {result : Option String} (produced : Produced h payloadHash result) :
    Produced (t :: h) payloadHash result :=
  produced.imp fun _ rest => ⟨List.mem_cons_of_mem _ rest.1, rest.2⟩

theorem Ledger.step {start : Int} {h : List Step} {s s' : State} {e : Event}
    (ledger : Ledger h s) (reach : Reachable (machine start) s) (ok : step s e = some s')
    (deletes : DeletesOnlyExpired ⟨s, e, s'⟩) (inTime : SettlesInTime ⟨s, e, s'⟩) :
    Ledger (⟨s, e, s'⟩ :: h) s' := by
  have effect := step_effect ok
  constructor
  · intro k row' found'
    have before : ∀ row, s.rows k = some row → row'.id = row.id →
        row'.payloadHash = row.payloadHash → ∃ q, s'.requests row'.id = some q ∧
          q.call.key = k ∧ q.call.payloadHash = row'.payloadHash := by
      intro row found id hash
      obtain ⟨q, caller, key, payload⟩ := ledger.inserted k row found
      obtain ⟨q', caller', continues⟩ := effect.continues caller
      exact ⟨q', id ▸ caller', continues.call ▸ key, by rw [continues.call, payload, hash]⟩
    cases effect.row found' with
    | stays found => exact before row' found rfl rfl
    | completed r result q event caller key row found shape =>
        exact before row found (by rw [shape]) (by rw [shape])
    | inserted r q event caller key shape =>
        obtain ⟨q', caller', continues⟩ := effect.continues caller
        subst shape
        exact ⟨q', caller', by rw [continues.call, key], by rw [continues.call]; rfl⟩
  · intro r q' found' answered unreleased current
    rcases effect.answered found' answered with event | ⟨q, found, continues, answered⟩
    · exact (Acquires.stored (t := ⟨s, e, s'⟩) ⟨event, q', found', rfl, answered⟩ ok).2
    · rw [continues.call] at current ⊢
      have open_ : q.released = false := by
        cases marked : q.released with
        | false => rfl
        | true => exact (continues.released marked).symm.trans unreleased
      have clock := effect.clock_le
      have stored := ledger.lasting r q found answered open_ (by omega)
      rcases stored.step reach ok deletes with stays | releases | expired
      · exact stays
      · obtain ⟨q'', found'', marked⟩ := ledger.releases_own ok inTime releases
        rw [found'] at found''
        cases found''
        rw [unreleased] at marked
        cases marked
      · omega
  · intro k row' found' completed
    cases effect.row found' with
    | stays found => exact (ledger.produced k row' found completed).mono
    | completed r result q event caller key row found shape =>
        obtain ⟨own, stored, id, hash⟩ := ledger.meets_own inTime (by rw [event]; rfl) caller
        rw [← key, found] at stored
        cases stored
        subst shape
        exact ⟨_, List.mem_cons_self, r, q, result, event, caller, hash.symm, rfl⟩
    | inserted r q event caller key shape =>
        rw [shape] at completed
        cases completed

theorem Ledger.run {start : Int} {h : List Step} {s : State} (run : Run (machine start) h s)
    (each : ∀ t ∈ h, DeletesOnlyExpired t ∧ SettlesInTime t) : Ledger h s := by
  have both : Reachable (machine start) s ∧ Ledger h s := by
    refine run.history (I := fun h s => Reachable (machine start) s ∧ Ledger h s) each
      ⟨Reachable.init, ?_⟩ ?_
    · exact ⟨fun _ _ absent => (nomatch absent), fun _ _ absent => (nomatch absent),
        fun _ _ absent => (nomatch absent)⟩
    · rintro h t e t' ⟨reach, ledger⟩ ok ⟨deletes, inTime⟩
      exact ⟨reach.step ok, ledger.step reach ok deletes inTime⟩
  exact both.2

/-- In a run whose calls of `complete` and `release` come while the caller's
reservation lasts and whose expired-branch DELETEs only meet expired rows, such a
call changes no row but the caller's own, and a replayed response was stored by a
request whose `reserve` had the same payload hash. -/
theorem own_reservation_along {start : Int} {h : List Step} {s : State}
    (run : Run (machine start) h s)
    (each : ∀ t ∈ h, DeletesOnlyExpired t ∧ SettlesInTime t) :
    (∀ t ∈ h, ∀ r, t.event.settler = some r → ∀ k row, t.pre.rows k = some row →
      t.post.rows k ≠ some row → row.id = r) ∧
    ∀ later earlier t r q result, h = later ++ t :: earlier → t.event = .select r →
      t.post.requests r = some q → q.stage = .returned (.replay result) →
      Produced earlier q.call.payloadHash result := by
  constructor
  · intro t mem r call k row found changed
    obtain ⟨later, earlier, rfl⟩ := List.append_of_mem mem
    obtain ⟨before, ok, -⟩ := run.split
    have ledger := Ledger.run before fun u mem =>
      each u (List.mem_append_right _ (List.mem_cons_of_mem _ mem))
    obtain ⟨q, caller⟩ := settler_caller ok call
    have same := settler_key ok call caller found changed
    obtain ⟨own, stored, id, -⟩ := ledger.meets_own (each t mem).2 call caller
    rw [← same, found] at stored
    cases stored
    exact id
  · intro later earlier t r q result shape event found replay
    subst shape
    obtain ⟨before, ok, -⟩ := run.split
    have ledger := Ledger.run before fun u mem =>
      each u (List.mem_append_right _ (List.mem_cons_of_mem _ mem))
    have effect := step_effect ok
    rw [event] at effect
    generalize t.post = s' at effect found
    cases effect with
    | select _ q₀ caller stage =>
        rw [setRequest_requests, Map.set_self] at found
        cases found
        obtain ⟨row, stored, completed, hash, response⟩ := afterSelect_eq_replay replay
        have produced := ledger.produced _ row stored completed
        rw [hash, response] at produced
        exact produced

theorem own_reservation_succession :
    let run := (machine 0).play
      [.reserve 0 "pay" "h" 5, .select 0, .insert 0, .complete 0 "paid", .reserve 1 "pay" "h" 5,
        .select 1] ([], (machine 0).init)
    Run (machine 0) run.1 run.2 ∧ (∀ t ∈ run.1, DeletesOnlyExpired t ∧ SettlesInTime t) ∧
      Produced run.1.tail "h" (some "paid") :=
  have guards : ∀ t ∈ ((machine 0).play
      [.reserve 0 "pay" "h" 5, .select 0, .insert 0, .complete 0 "paid", .reserve 1 "pay" "h" 5,
        .select 1] ([], (machine 0).init)).1, DeletesOnlyExpired t ∧ SettlesInTime t := by decide
  ⟨Machine.play_run .., guards,
    (own_reservation_along (Machine.play_run ..) guards).2 [] _ _ 1 _ _ rfl rfl rfl rfl⟩

/-! ### A request past its TTL -/

/-- Request 0 takes longer than its TTL. Request 1 reserves the key for another
payload before request 0 completes, and request 2 asks with request 1's payload. -/
def overrun : List Event :=
  [.reserve 0 "pay" "alice" 5, .select 0, .insert 0, .advance 6,
    .reserve 1 "pay" "bob" 100, .select 1, .delete 1, .insert 1, .complete 0 "paid alice",
    .reserve 2 "pay" "bob" 100, .select 2]

theorem late_complete :
    ∃ h s, Run (machine 0) h s ∧ (∀ t ∈ h, DeletesOnlyExpired t) ∧
      (∃ t ∈ h, ∃ row, t.event = .complete 0 "paid alice" ∧ t.pre.rows "pay" = some row ∧
        t.post.rows "pay" ≠ some row ∧ row.id = 1) ∧
      ∃ q, s.requests 2 = some q ∧ q.call.payloadHash = "bob" ∧
        q.stage = .returned (.replay (some "paid alice")) ∧
        ¬ Produced h "bob" (some "paid alice") := by
  let run := (machine 0).play overrun ([], (machine 0).init)
  refine ⟨run.1, run.2, Machine.play_run .., by decide, ?_, ?_⟩
  · exact ⟨_, List.mem_of_getElem? (i := 2) rfl, _, rfl, rfl, by decide, rfl⟩
  · refine ⟨_, rfl, rfl, rfl, ?_⟩
    rintro ⟨t, mem, r, q, response, event, caller, hash, -⟩
    have all : ∀ t ∈ run.1, ∀ r ∈ t.event.settler, ∀ q ∈ t.pre.requests r,
        q.call.payloadHash ≠ "bob" := by decide
    exact all t mem r (by rw [event]; rfl) q caller hash

end Talos.Idempotency
