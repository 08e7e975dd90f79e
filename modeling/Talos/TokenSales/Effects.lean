import Talos.TokenSales.Transfers
import Talos.Soroban.FiniteMaps

/-!
# What a step of a token sale changes

The purchases and patrons that a step writes (`step_writes`), the request that it moves
(`step_requests`), and the keys of the purchases of a run (`run_keys`).
-/

namespace Talos.TokenSales

open Database Soroban

variable {operator : Operator} {s s' : State} {event : Event}

/-! ### The rows -/

/-- The row of a purchase that is retried, that has failed, and that is completed. -/
def PurchaseRow.retried (row : PurchaseRow) : PurchaseRow :=
  { row with status := .pending, responseBody := none }

def PurchaseRow.failing (row : PurchaseRow) : PurchaseRow := { row with status := .failed }

def PurchaseRow.completed (body : PurchaseResponse) (row : PurchaseRow) : PurchaseRow :=
  { row with status := .completed, responseBody := some body }

/-- The purchases and patrons that a step writes. -/
inductive Changes (s s' : State) : Event → Prop where
  | nothing {event : Event} :
      s'.purchases = s.purchases → s'.patrons = s.patrons → Changes s s' event
  | inserts {id : RequestId} {p : Purchase} :
      s.requests id = some (p, .claiming false) → s.purchases p.txHash = none →
      s'.purchases = s.purchases.set p.txHash p.newRow → s'.patrons = s.patrons →
      Changes s s' (.claim id)
  | retries {id : RequestId} {p : Purchase} :
      s.requests id = some (p, .claiming true) →
      s'.purchases = (s.updatePurchase p.txHash PurchaseRow.retried).purchases →
      s'.patrons = s.patrons → Changes s s' (.claim id)
  | fails {id : RequestId} {p : Purchase} {status : Nat} {message : String} :
      s.requests id = some (p, .failing status message) →
      s'.purchases = (s.updatePurchase p.txHash PurchaseRow.failing).purchases →
      s'.patrons = s.patrons → Changes s s' (.markFailed id)
  | completes {id : RequestId} {p : Purchase} {mitosTxHash : Option TxHash}
      {existingPatron : Option ℚ} {written : State} {body : PurchaseResponse} :
      s.requests id = some (p, .committing mitosTxHash existingPatron) →
      s.writePatron p existingPatron = some written →
      s'.purchases = (s.updatePurchase p.txHash (PurchaseRow.completed body)).purchases →
      s'.patrons = written.patrons → Changes s s' (.commit id)

theorem claimPurchase_changes {id : RequestId} {p : Purchase} {retry : Bool}
    (here : s.requests id = some (p, .claiming retry)) :
    Changes s (s.claimPurchase id p retry) (.claim id) := by
  unfold State.claimPurchase
  split
  · next again =>
      subst again
      exact .retries here rfl rfl
  · next first =>
      cases retry with
      | true => exact absurd rfl first
      | false =>
          split
          · exact .nothing rfl rfl
          · split
            · next purchases inserted =>
                obtain ⟨absent, rfl⟩ := Table.insert_eq_some.mp inserted
                exact .inserts here absent rfl rfl
            · exact .nothing rfl rfl

theorem commitPurchase_changes {id : RequestId} {p : Purchase} {mitosTxHash : Option TxHash}
    {existingPatron : Option ℚ}
    (here : s.requests id = some (p, .committing mitosTxHash existingPatron)) :
    Changes s (s.commitPurchase id p mitosTxHash existingPatron) (.commit id) := by
  unfold State.commitPurchase
  split
  · exact .nothing rfl rfl
  · next written ok =>
      have stored := (writePatron_custody ok).1
      have purchases : Function.update written.purchases p.txHash ((written.purchases p.txHash).map
          (PurchaseRow.completed (p.responseBody mitosTxHash existingPatron))) =
          (s.updatePurchase p.txHash
            (PurchaseRow.completed (p.responseBody mitosTxHash existingPatron))).purchases := by
        rw [stored]
        rfl
      exact .completes here ok purchases rfl

theorem step_changes (ok : step operator s event = some s') : Changes s s' event := by
  rcases step_cases ok with ⟨id, request, rfl, _, rfl | ⟨p, _, rfl⟩⟩ | ⟨p, phase, here, taken⟩
  · exact .nothing rfl rfl
  · unfold State.lookup
    split
    · exact .nothing rfl rfl
    · split
      · exact .nothing rfl rfl
      · exact .nothing rfl rfl
      · exact .nothing rfl rfl
  · unfold advance at taken
    split at taken
    · cases taken
      exact claimPurchase_changes here
    · split at taken
      · cases taken
        exact .nothing rfl rfl
      · cases taken
        exact .nothing rfl rfl
    · split at taken
      · cases taken
        exact .nothing rfl rfl
      · split at taken
        · cases taken
          exact .nothing rfl rfl
        · cases taken
          exact .nothing rfl rfl
    · next id outcome =>
        cases outcome with
        | applied _ | lost | rejected =>
            cases taken
            exact .nothing rfl rfl
    · cases taken
      exact .nothing rfl rfl
    · cases taken
      exact commitPurchase_changes here
    · cases taken
      exact .nothing rfl rfl
    · cases taken
      exact .fails here rfl rfl
    · cases taken
      exact .nothing rfl rfl
    · cases taken

theorem updatePurchase_of_found {h : TxHash} {row : PurchaseRow}
    (found : s.purchases h = some row) (f : PurchaseRow → PurchaseRow) :
    (s.updatePurchase h f).purchases = s.purchases.set h (f row) := by
  change Function.update _ _ _ = _
  rw [found]
  rfl

theorem updatePurchase_eq_some {h h' : TxHash} {f : PurchaseRow → PurchaseRow}
    {row : PurchaseRow} (after : (s.updatePurchase h f).purchases h' = some row) :
    (h' = h ∧ ∃ before, s.purchases h' = some before ∧ row = f before) ∨
      s.purchases h' = some row := by
  change Function.update s.purchases h ((s.purchases h).map f) h' = some row at after
  by_cases same : h' = h
  · subst same
    rw [Function.update_self] at after
    obtain ⟨before, found, rfl⟩ := Option.map_eq_some_iff.mp after
    exact .inl ⟨rfl, before, found, rfl⟩
  · rw [Function.update_of_ne same] at after
    exact .inr after

/-- The step without the retry of a purchase that is not failed, when held purchases are
pending: nothing is written, a row of a purchase that is not completed, or the completion of a
pending one. -/
inductive Writes (s s' : State) (event : Event) : Prop where
  | nothing : s'.purchases = s.purchases → s'.patrons = s.patrons → Writes s s' event
  | opens {h : TxHash} {row : PurchaseRow} :
      s'.purchases = s.purchases.set h row → s'.patrons = s.patrons → row.status ≠ .completed →
      (∀ before, s.purchases h = some before →
        before.status ≠ .completed ∧ row.amount = before.amount) →
      (s.purchases h = none → ∃ p phase, s.requests event.request = some (p, phase) ∧
        row.amount = p.amount) →
      Writes s s' event
  | completes {id : RequestId} {p : Purchase} {mitosTxHash : Option TxHash}
      {existingPatron : Option ℚ} {row : PurchaseRow} {written : State}
      {body : PurchaseResponse} :
      event = .commit id → s.requests id = some (p, .committing mitosTxHash existingPatron) →
      s.purchases p.txHash = some row → row.status = .pending →
      s.writePatron p existingPatron = some written →
      s'.purchases = s.purchases.set p.txHash (row.completed body) →
      s'.patrons = written.patrons → Writes s s' event

theorem status_of_pending {row : PurchaseRow} (pending : row.asClaim = .pending) :
    row.status = .pending := by
  unfold PurchaseRow.asClaim at pending
  split at pending
  · assumption
  · cases pending
  · cases pending

theorem step_writes (ok : step operator s event = some s') (first : ¬ RetriesOther s event)
    (held : s.custody.Held) : Writes s s' event := by
  -- A row that is stored and not completed is written over.
  have overwrites : ∀ {h : TxHash} {row row' : PurchaseRow}, s.purchases h = some row →
      row.status ≠ .completed → s'.purchases = s.purchases.set h row' →
      s'.patrons = s.patrons → row'.status ≠ .completed → row'.amount = row.amount →
      Writes s s' event := by
    intro h row row' found before purchases patrons after amount
    refine .opens purchases patrons after (fun r same => ?_) fun absent => ?_
    · cases same.symm.trans found
      exact ⟨before, amount⟩
    · cases absent.symm.trans found
  cases step_changes ok with
  | nothing purchases patrons => exact .nothing purchases patrons
  | @inserts id p here absent purchases patrons =>
      refine .opens purchases patrons (nomatch ·) (fun before found => ?_) fun _ =>
        ⟨p, _, here, rfl⟩
      cases absent.symm.trans found
  | @retries id p here purchases patrons =>
      have failed : ∃ row ∈ s.purchases p.txHash, row.status = .failed := by
        by_contra none
        exact first ⟨(p, .claiming true), here, rfl, none⟩
      obtain ⟨row, found, failed⟩ := failed
      rw [updatePurchase_of_found found] at purchases
      refine overwrites found ?_ purchases patrons (nomatch ·) rfl
      rw [failed]
      exact (nomatch ·)
  | @fails id p _ _ here purchases patrons =>
      obtain ⟨row, found, pending⟩ := held.stored here rfl
      rw [updatePurchase_of_found found] at purchases
      refine overwrites found ?_ purchases patrons (nomatch ·) rfl
      rw [status_of_pending pending]
      exact (nomatch ·)
  | @completes id p _ _ _ _ here written purchases patrons =>
      obtain ⟨row, found, pending⟩ := held.stored here rfl
      rw [updatePurchase_of_found found] at purchases
      exact .completes rfl here found (status_of_pending pending) written purchases patrons

/-- A purchase is completed by the commit of a request for it. -/
theorem step_completed (ok : step operator s event = some s') {h : TxHash} {row : PurchaseRow}
    (after : s'.purchases h = some row) (completed : row.status = .completed) :
    (∃ before, s.purchases h = some before ∧ before.status = .completed) ∨
      ∃ id p mitosTxHash existingPatron, event = .commit id ∧
        s.requests id = some (p, .committing mitosTxHash existingPatron) ∧ p.txHash = h := by
  cases step_changes ok with
  | nothing purchases _ =>
      rw [purchases] at after
      exact .inl ⟨row, after, completed⟩
  | inserts _ _ purchases _ =>
      rw [purchases] at after
      rcases Map.set_eq_some.mp after with ⟨rfl, rfl⟩ | ⟨_, before⟩
      · cases completed
      · exact .inl ⟨row, before, completed⟩
  | retries _ purchases _ =>
      rw [purchases] at after
      rcases updatePurchase_eq_some after with ⟨_, before, _, rfl⟩ | before
      · cases completed
      · exact .inl ⟨row, before, completed⟩
  | fails _ purchases _ =>
      rw [purchases] at after
      rcases updatePurchase_eq_some after with ⟨_, before, _, rfl⟩ | before
      · cases completed
      · exact .inl ⟨row, before, completed⟩
  | @completes id p mitosTxHash existingPatron _ _ here _ purchases _ =>
      rw [purchases] at after
      rcases updatePurchase_eq_some after with ⟨rfl, _⟩ | before
      · exact .inr ⟨id, p, mitosTxHash, existingPatron, rfl, here, rfl⟩
      · exact .inl ⟨row, before, completed⟩

/-! ### The requests -/

/-- A step moves one request, whose purchase stays the same. -/
def Keeps (s s' : State) (id : RequestId) (p : Purchase) : Prop :=
  ∃ request, s'.requests = Function.update s.requests id request ∧ ∀ r ∈ request, r.1 = p

section

variable {id : RequestId} {p : Purchase} {written : State}

theorem keeps_goto {phase : Phase} (requests : written.requests = s.requests) :
    Keeps s (written.goto id p phase) id p :=
  ⟨some (p, phase), congrArg (Function.update · id _) requests, fun _ same => by
    cases same
    rfl⟩

theorem keeps_stop (requests : written.requests = s.requests) : Keeps s (written.stop id) id p :=
  ⟨none, congrArg (Function.update · id _) requests, fun _ same => nomatch same⟩

theorem keeps_respond {response : Response} (requests : written.requests = s.requests) :
    Keeps s (written.respond id p response) id p :=
  ⟨none, congrArg (Function.update · id _) requests, fun _ same => nomatch same⟩

theorem lookup_keeps : Keeps s (s.lookup id p) id p := by
  unfold State.lookup
  split
  · exact keeps_goto rfl
  · split
    · exact keeps_respond rfl
    · exact keeps_respond rfl
    · exact keeps_goto rfl

theorem claimPurchase_keeps {retry : Bool} : Keeps s (s.claimPurchase id p retry) id p := by
  unfold State.claimPurchase
  split
  · exact keeps_goto rfl
  · split
    · exact keeps_stop rfl
    · split
      · exact keeps_goto rfl
      · exact keeps_respond rfl

theorem commitPurchase_keeps {mitosTxHash : Option TxHash} {existingPatron : Option ℚ} :
    Keeps s (s.commitPurchase id p mitosTxHash existingPatron) id p := by
  unfold State.commitPurchase
  split
  · exact keeps_stop rfl
  · next written ok => exact keeps_goto (writePatron_custody ok).2.1

end

/-- The purchase of a request is the one it was accepted with. -/
theorem step_requests (ok : step operator s event = some s') {id : RequestId} {p : Purchase}
    {phase : Phase} (after : s'.requests id = some (p, phase)) :
    (∃ before, s.requests id = some (p, before)) ∨
      ∃ request, event = .post id request ∧ validate request = .ok p := by
  have moved : ∀ {q : Purchase}, Keeps s s' event.request q →
      s.requests id = some (p, phase) ∨ id = event.request ∧ q = p := by
    rintro q ⟨request, requests, own⟩
    rw [requests] at after
    by_cases same : id = event.request
    · subst same
      rw [Function.update_self] at after
      exact .inr ⟨rfl, (own _ after).symm⟩
    · rw [Function.update_of_ne same] at after
      exact .inl after
  rcases step_cases ok with ⟨posted, request, rfl, _, rfl | ⟨q, accepted, rfl⟩⟩ |
    ⟨q, phase', here, taken⟩
  · exact .inl ⟨phase, after⟩
  · rcases moved lookup_keeps with before | ⟨rfl, rfl⟩
    · exact .inl ⟨phase, before⟩
    · exact .inr ⟨request, rfl, accepted⟩
  · have keeps : Keeps s s' event.request q := by
      unfold advance at taken
      split at taken
      · cases taken
        exact claimPurchase_keeps
      · split at taken
        · cases taken
          exact keeps_goto rfl
        · cases taken
          exact keeps_goto rfl
      · split at taken
        · cases taken
          exact keeps_goto rfl
        · split at taken
          · cases taken
            exact keeps_goto rfl
          · cases taken
            exact keeps_goto rfl
      · next id outcome =>
          cases outcome with
          | applied _ | lost | rejected =>
              cases taken
              exact keeps_goto rfl
      · cases taken
        exact keeps_goto rfl
      · cases taken
        exact commitPurchase_keeps
      · cases taken
        exact keeps_respond rfl
      · cases taken
        exact keeps_respond rfl
      · cases taken
        exact keeps_stop rfl
      · cases taken
    rcases moved keeps with before | ⟨rfl, rfl⟩
    · exact .inl ⟨phase, before⟩
    · exact .inl ⟨phase', here⟩
theorem amount_pos {request : Request} {p : Purchase} (accepted : validate request = .ok p) :
    0 < p.amount ∧ request.talos = some p.talos := by
  unfold validate at accepted
  split at accepted
  · cases accepted
  · cases accepted
  · split at accepted
    · cases accepted
    · split at accepted
      · cases accepted
      · next pos =>
          split at accepted
          · cases accepted
          · cases accepted
          · next talos =>
              split at accepted
              · cases accepted
              · cases accepted
                exact ⟨not_le.mp pos, talos⟩

/-! ### The keys of a run -/

/-- The requests that a run accepts. -/
def Event.posted : Event → Option (RequestId × Purchase)
  | .post id request => (validate request).toOption.map fun p => (id, p)
  | _ => none

def postedIn (log : List (Transition State Event)) : List (RequestId × Purchase) :=
  log.filterMap fun r => r.event.posted

/-- The keys of the purchases among those of some requests. -/
def State.keysIn (s : State) (posted : List (RequestId × Purchase)) : Finset TxHash :=
  (posted.map fun request => request.2.txHash).toFinset.filter fun h => (s.purchases h).isSome

/-- A purchase is stored for a request that is in flight. -/
theorem step_purchases (ok : step operator s event = some s') {h : TxHash}
    (after : s'.purchases h ≠ none) :
    s.purchases h ≠ none ∨ ∃ p phase, s.requests event.request = some (p, phase) ∧
      p.txHash = h := by
  have updated : ∀ {h' : TxHash} {f : PurchaseRow → PurchaseRow},
      s'.purchases = (s.updatePurchase h' f).purchases → s.purchases h ≠ none := by
    intro h' f purchases absent
    obtain ⟨row, found⟩ := Option.ne_none_iff_exists'.mp after
    rw [purchases] at found
    rcases updatePurchase_eq_some found with ⟨_, before, stored, _⟩ | stored
    · cases absent.symm.trans stored
    · cases absent.symm.trans stored
  cases step_changes ok with
  | nothing purchases _ => exact .inl (purchases ▸ after)
  | @inserts id p here _ purchases _ =>
      by_cases same : h = p.txHash
      · exact .inr ⟨p, _, here, same.symm⟩
      · rw [purchases, Map.set_of_ne _ _ same] at after
        exact .inl after
  | retries _ purchases _ => exact .inl (updated purchases)
  | fails _ purchases _ => exact .inl (updated purchases)
  | completes _ _ purchases _ => exact .inl (updated purchases)

/-- The requests in flight were posted, and so were those of the purchases. -/
theorem run_posted {log : List (Transition State Event)} (run : Run (machine operator) log s) :
    (∀ h, s.purchases h ≠ none → ∃ request ∈ postedIn log, request.2.txHash = h) ∧
      ∀ id p phase, s.requests id = some (p, phase) → (id, p) ∈ postedIn log := by
  refine run.history (C := fun _ => True)
    (I := fun log s =>
      (∀ h, s.purchases h ≠ none → ∃ request ∈ postedIn log, request.2.txHash = h) ∧
        ∀ id p phase, s.requests id = some (p, phase) → (id, p) ∈ postedIn log)
    (fun _ _ => trivial) ⟨fun _ some => absurd rfl some, fun _ _ _ some => nomatch some⟩ ?_
  rintro log s event s' ⟨stored, flying⟩ ok -
  have more : ∀ {request}, request ∈ postedIn log →
      request ∈ postedIn (⟨s, event, s'⟩ :: log) := by
    intro request mem
    rw [postedIn, List.filterMap_cons]
    split
    · exact mem
    · exact List.mem_cons_of_mem _ mem
  constructor
  · intro h after
    rcases step_purchases ok after with before | ⟨p, phase, here, rfl⟩
    · obtain ⟨request, mem, own⟩ := stored h before
      exact ⟨request, more mem, own⟩
    · exact ⟨_, more (flying _ p phase here), rfl⟩
  · intro id p phase after
    rcases step_requests ok after with ⟨before, here⟩ | ⟨request, rfl, accepted⟩
    · exact more (flying id p before here)
    · have posted : Event.posted (.post id request) = some (id, p) := by
        rw [Event.posted, accepted]
        rfl
      exact List.mem_filterMap.mpr ⟨_, List.mem_cons_self, posted⟩

theorem keysIn_keys {posted : List (RequestId × Purchase)}
    (all : ∀ h, s.purchases h ≠ none → ∃ request ∈ posted, request.2.txHash = h) :
    s.purchases.Keys (s.keysIn posted) := by
  intro h
  rw [State.keysIn, Finset.mem_filter, List.mem_toFinset, List.mem_map,
    Option.isSome_iff_ne_none]
  exact ⟨And.right, fun stored => ⟨all h stored, stored⟩⟩

theorem run_keys {log : List (Transition State Event)} (run : Run (machine operator) log s) :
    s.purchases.Keys (s.keysIn (postedIn log)) := keysIn_keys (run_posted run).1

theorem run_pre_keys {log : List (Transition State Event)}
    (run : Run (machine operator) log s) {r : Transition State Event} (mem : r ∈ log) :
    r.pre.purchases.Keys (r.pre.keysIn (postedIn log)) := by
  obtain ⟨later, earlier, rfl⟩ := List.append_of_mem mem
  refine keysIn_keys fun h stored => ?_
  obtain ⟨request, before, own⟩ := (run_posted run.split.1).1 h stored
  refine ⟨request, ?_, own⟩
  rw [postedIn, List.filterMap_append, List.mem_append]
  obtain ⟨q, earlier, posted⟩ := List.mem_filterMap.mp before
  exact .inr (List.mem_filterMap.mpr ⟨q, List.mem_cons_of_mem _ earlier, posted⟩)

end Talos.TokenSales
