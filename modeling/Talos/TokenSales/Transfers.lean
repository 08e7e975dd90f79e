import Talos.TokenSales.BuyToken
import Talos.Database.Custody

/-!
# One transfer per purchase

The purchase row of a transaction is a key that a request claims, uses for one transfer and
settles (`step_custody`), as long as the UPDATE that retries a failed purchase meets a row
that is still failed, and no transfer is applied that is reported as an error. Neither is
checked: two requests that have read one failed row both retry it, and any error of the
submission marks the purchase as failed.
-/

namespace Talos.TokenSales

open Database Soroban

variable {operator : Operator} {s s' : State} {event : Event}

/-- The retry of a purchase that is not failed any more. -/
def RetriesOther (s : State) : Event → Prop
  | .claim id => ∃ request ∈ s.requests id, request.2 = .claiming true ∧
      ¬ ∃ row ∈ s.purchases request.1.txHash, row.status = .failed
  | _ => False

instance (s : State) : DecidablePred (RetriesOther s)
  | .claim id => inferInstanceAs (Decidable (∃ request ∈ s.requests id, request.2 = .claiming true ∧
      ¬ ∃ row ∈ s.purchases request.1.txHash, row.status = .failed))
  | .post .. | .verify .. | .checkAccount .. | .submit .. | .readPatron _ | .commit _ | .respond _
  | .markFailed _ | .crash _ => inferInstanceAs (Decidable False)

/-- A transfer that is applied and reported as an error. -/
def Event.Misreports : Event → Prop
  | .submit _ outcome => outcome = .lost
  | _ => False

instance : DecidablePred Event.Misreports
  | .submit _ outcome => inferInstanceAs (Decidable (outcome = .lost))
  | .claim _ | .post .. | .verify .. | .checkAccount .. | .readPatron _ | .commit _ | .respond _
  | .markFailed _ | .crash _ => inferInstanceAs (Decidable False)

/-- A step after which a purchase may have another transfer. -/
abbrev Hazard (s : State) (event : Event) : Prop := RetriesOther s event ∨ event.Misreports

/-! ### The purchases as keys -/

def PurchaseRow.asClaim (row : PurchaseRow) : Claim (Option PurchaseResponse) :=
  match row.status with
  | .pending => .pending
  | .failed => .failed
  | .completed => .completed row.responseBody

/-- Whether a request that has claimed its purchase is still to send the tokens. -/
def Phase.holding : Phase → Option Bool
  | .claiming _ | .responding _ => none
  | .verifying | .checkingAccount | .transferring | .failing .. => some true
  | .readingPatron _ | .committing .. => some false

def holdingOf (request : Purchase × Phase) : Option (Holding TxHash) :=
  request.2.holding.map fun unused => (request.1.txHash, unused)

def State.custody (s : State) : Custody TxHash RequestId (Option PurchaseResponse) :=
  .view PurchaseRow.asClaim holdingOf s.purchases s.requests s.transfers

section

variable (s : State) (id : RequestId) (p : Purchase)

theorem custody_goto (phase : Phase) :
    (s.goto id p phase).custody =
      { s.custody with
        holder := Function.update s.custody.holder id (holdingOf (p, phase)) } :=
  Custody.view_request _ _ s.purchases s.requests s.transfers id (some (p, phase))

theorem custody_stop :
    (s.stop id).custody =
      { s.custody with holder := Function.update s.custody.holder id none } :=
  Custody.view_request _ _ s.purchases s.requests s.transfers id none

theorem custody_respond (response : Response) :
    (s.respond id p response).custody =
      { s.custody with holder := Function.update s.custody.holder id none } :=
  custody_stop s id

theorem custody_updatePurchase (h : TxHash) (f : PurchaseRow → PurchaseRow) :
    (s.updatePurchase h f).custody =
      { s.custody with
        status := Function.update s.custody.status h
          (((s.purchases h).map f).map PurchaseRow.asClaim) } :=
  Custody.view_row _ _ s.purchases s.requests s.transfers h _

theorem custody_transfer (h : TxHash) :
    State.custody { s with transfers := h :: s.transfers } =
      { s.custody with uses := Function.update s.custody.uses h (s.custody.uses h + 1) } :=
  Custody.view_use _ _ s.purchases s.requests s.transfers h

end

/-- A request that goes on without letting go of its purchase. -/
theorem custody_goto_same {id : RequestId} {p : Purchase} {phase phase' : Phase}
    (here : s.requests id = some (p, phase)) (same : phase'.holding = phase.holding) :
    (s.goto id p phase').custody = s.custody := by
  have kept : holdingOf (p, phase') = s.custody.holder id := by
    change _ = (s.requests id).bind holdingOf
    rw [here, Option.bind_some, holdingOf, holdingOf, same]
  rw [custody_goto, kept, Function.update_eq_self]

theorem custody_holder {id : RequestId} {p : Purchase} {phase : Phase} {unused : Bool}
    (here : s.requests id = some (p, phase)) (holding : phase.holding = some unused) :
    s.custody.holder id = some (p.txHash, unused) :=
  Custody.view_holder here (congrArg _ holding)

/-! ### Steps -/

/-- What a request that goes its way may do: a post, or a step in a phase. -/
theorem step_cases (ok : step operator s event = some s') :
    (∃ id request, event = .post id request ∧ s.requests id = none ∧
      (s' = s ∨ ∃ p, validate request = .ok p ∧ s' = s.lookup id p)) ∨
    ∃ p phase, s.requests event.request = some (p, phase) ∧
      advance operator s event.request p phase event = some s' := by
  unfold step at ok
  split at ok
  · next id request =>
      split at ok
      · cases ok
      · next absent =>
          refine .inl ⟨id, request, rfl, absent, ?_⟩
          split at ok
          · exact .inl (Option.some.inj ok).symm
          · next p accepted => exact .inr ⟨p, accepted, (Option.some.inj ok).symm⟩
  · split at ok
    · cases ok
    · next p phase here => exact .inr ⟨p, phase, here, ok⟩

theorem lookup_custody (id : RequestId) (p : Purchase) :
    Custody.Step s.custody (s.lookup id p).custody := by
  unfold State.lookup
  split
  · rw [custody_goto]
    exact .lose
  · split
    · rw [custody_respond]
      exact .lose
    · rw [custody_respond]
      exact .lose
    · rw [custody_goto]
      exact .lose

theorem claimPurchase_custody {id : RequestId} {p : Purchase} {retry : Bool}
    (free : retry = true → ∃ row, s.purchases p.txHash = some row ∧ row.status = .failed) :
    Custody.Step s.custody (s.claimPurchase id p retry).custody := by
  unfold State.claimPurchase
  split
  · next again =>
      obtain ⟨row, found, failed⟩ := free again
      have status : s.custody.status p.txHash = some .failed := by
        rw [State.custody, Custody.view_status found, PurchaseRow.asClaim, failed]
      rw [custody_goto, custody_updatePurchase, found]
      exact .claim (.inr status)
  · split
    · rw [custody_stop]
      exact .lose
    · split
      · next purchases inserted =>
          obtain ⟨absent, rfl⟩ := Table.insert_eq_some.mp inserted
          have status : s.custody.status p.txHash = none :=
            congrArg (Option.map PurchaseRow.asClaim) absent
          have view : State.custody { s with purchases := s.purchases.set p.txHash p.newRow } =
              { s.custody with
                status := Function.update s.custody.status p.txHash (some .pending) } :=
            Custody.view_row _ _ s.purchases s.requests s.transfers p.txHash (some p.newRow)
          rw [custody_goto, view]
          exact .claim (.inl status)
      · rw [custody_respond]
        exact .lose

theorem writePatron_custody {p : Purchase} {existingPatron : Option ℚ} {written : State}
    (ok : s.writePatron p existingPatron = some written) :
    written.purchases = s.purchases ∧ written.requests = s.requests ∧
      written.transfers = s.transfers ∧ written.responses = s.responses ∧
      written.revenues = s.revenues := by
  unfold State.writePatron at ok
  split at ok
  · split at ok
    · cases ok
      exact ⟨rfl, rfl, rfl, rfl, rfl⟩
    · cases ok
  · split at ok
    · cases ok
      exact ⟨rfl, rfl, rfl, rfl, rfl⟩
    · split at ok
      · obtain ⟨patrons, _, rfl⟩ := Option.map_eq_some_iff.mp ok
        exact ⟨rfl, rfl, rfl, rfl, rfl⟩
      · cases ok

theorem commitPurchase_custody {id : RequestId} {p : Purchase} {mitosTxHash : Option TxHash}
    {existingPatron : Option ℚ}
    (here : s.requests id = some (p, .committing mitosTxHash existingPatron))
    (stored : ∃ row, s.purchases p.txHash = some row) :
    Custody.Step s.custody (s.commitPurchase id p mitosTxHash existingPatron).custody := by
  obtain ⟨row, found⟩ := stored
  unfold State.commitPurchase
  split
  · rw [custody_stop]
    exact .lose
  · next written ok =>
      obtain ⟨purchases, requests, transfers, _, _⟩ := writePatron_custody ok
      have same : State.custody { written with
          revenues := ⟨p.talos.id, p.totalCost, p.txHash⟩ :: written.revenues } = s.custody := by
        unfold State.custody
        dsimp only
        rw [purchases, requests, transfers]
      dsimp only
      rw [custody_goto, custody_updatePurchase, same]
      dsimp only
      rw [purchases, found]
      exact .settle (custody_holder here rfl)

/-- A step is one of a key that is claimed, unless it is a hazard. -/
theorem step_custody (ok : step operator s event = some s') (safe : ¬ Hazard s event)
    (held : s.custody.Held) :
    s'.custody = s.custody ∨ Custody.Step s.custody s'.custody := by
  rcases step_cases ok with ⟨id, request, _, _, rfl | ⟨p, _, rfl⟩⟩ | ⟨p, phase, here, taken⟩
  · exact .inl rfl
  · exact .inr (lookup_custody id p)
  · have stored : ∀ {unused : Bool}, phase.holding = some unused →
        ∃ row, s.purchases p.txHash = some row ∧ row.asClaim = .pending :=
      fun holding => held.stored here (congrArg _ holding)
    unfold advance at taken
    split at taken
    · next retry id =>
        cases taken
        refine .inr (claimPurchase_custody fun again => ?_)
        subst again
        by_contra none
        exact safe (.inl ⟨(p, .claiming true), here, rfl, none⟩)
    · split at taken
      · cases taken
        exact .inl (custody_goto_same here rfl)
      · cases taken
        exact .inl (custody_goto_same here rfl)
    · split at taken
      · cases taken
        exact .inl (custody_goto_same here rfl)
      · split at taken
        · cases taken
          exact .inl (custody_goto_same here rfl)
        · cases taken
          rw [custody_goto]
          exact .inr (.skip (custody_holder here rfl))
    · next id outcome =>
        cases outcome with
        | applied hash =>
            cases taken
            have fresh := custody_holder here rfl
            rw [custody_goto, custody_transfer]
            exact .inr (.use fresh)
        | lost => exact absurd (.inr rfl) safe
        | rejected =>
            cases taken
            exact .inl (custody_goto_same here rfl)
    · cases taken
      exact .inl (custody_goto_same here rfl)
    · cases taken
      obtain ⟨row, found, _⟩ := stored rfl
      exact .inr (commitPurchase_custody here ⟨row, found⟩)
    · cases taken
      rw [custody_respond]
      exact .inr .lose
    · cases taken
      obtain ⟨row, found, _⟩ := stored rfl
      rw [custody_respond, custody_updatePurchase, found]
      exact .inr (.release (custody_holder here rfl))
    · cases taken
      rw [custody_stop]
      exact .inr .lose
    · cases taken

/-- A transfer that is applied and reported as an error does not move its key. -/
theorem misreported_forget (ok : step operator s event = some s') (lost : event.Misreports) :
    s'.custody.forget = s.custody.forget := by
  rcases step_cases ok with ⟨id, request, rfl, _, _⟩ | ⟨p, phase, here, taken⟩
  · cases lost
  · unfold advance at taken
    split at taken
    · cases lost
    · cases lost
    · cases lost
    · cases lost
      cases taken
      have same : (State.goto { s with transfers := p.txHash :: s.transfers } _ p
          transferFailed).custody = State.custody { s with transfers := p.txHash :: s.transfers } :=
        custody_goto_same here rfl
      rw [same]
      rfl
    · cases lost
    · cases lost
    · cases lost
    · cases lost
    · cases lost
    · cases taken

theorem step_forget (ok : step operator s event = some s') (first : ¬ RetriesOther s event)
    (held : s.custody.Held) :
    s'.custody.forget = s.custody.forget ∨
      Custody.Step s.custody.forget s'.custody.forget := by
  by_cases lost : event.Misreports
  · exact .inl (misreported_forget ok lost)
  · rcases step_custody ok (not_or.mpr ⟨first, lost⟩) held with same | moved
    · exact .inl (congrArg _ same)
    · exact .inr moved.forget

/-! ### Answers -/

/-- The answer of a success response. -/
def answerOf : TxHash × Response → Option (TxHash × Option PurchaseResponse)
  | (h, .success _ body) => some (h, some body)
  | (_, .error ..) => none

def State.answers (s : State) : List (TxHash × Option PurchaseResponse) :=
  s.responses.filterMap answerOf

/-- What a request is about to answer. -/
def promiseOf : Purchase × Phase → Option (TxHash × Option PurchaseResponse)
  | (p, .responding body) => some (p.txHash, some body)
  | _ => none

def State.promised (s : State) : RequestId → Option (TxHash × Option PurchaseResponse) :=
  (Option.bind · promiseOf) ∘ s.requests

abbrev Kept (s : State) : Prop := Custody.Kept s.custody s.answers s.promised

theorem lookup_answers (id : RequestId) (p : Purchase) :
    s.custody.Gives s.answers (s.lookup id p).answers := by
  unfold State.lookup
  split
  · exact .inl rfl
  · next row found =>
      split
      · next body status response =>
          refine .inr ⟨(p.txHash, some body), rfl, ?_⟩
          rw [State.custody, Custody.view_status found, PurchaseRow.asClaim, status]
          dsimp only
          rw [response]
      · exact .inl rfl
      · exact .inl rfl

theorem claimPurchase_answers (id : RequestId) (p : Purchase) (retry : Bool) :
    (s.claimPurchase id p retry).answers = s.answers := by
  unfold State.claimPurchase
  split
  · rfl
  · split
    · rfl
    · split
      · rfl
      · rfl

theorem commitPurchase_answers (id : RequestId) (p : Purchase) (mitosTxHash : Option TxHash)
    (existingPatron : Option ℚ) :
    (s.commitPurchase id p mitosTxHash existingPatron).answers = s.answers := by
  unfold State.commitPurchase
  split
  · rfl
  · next written ok =>
      obtain ⟨_, _, _, responses, _⟩ := writePatron_custody ok
      exact congrArg (List.filterMap answerOf) responses

/-- A success response gives the answer of its completed purchase. -/
theorem step_answers (ok : step operator s event = some s') (kept : Kept s) :
    s.custody.Gives s.answers s'.answers := by
  rcases step_cases ok with ⟨id, request, _, _, rfl | ⟨p, _, rfl⟩⟩ | ⟨p, phase, here, taken⟩
  · exact .inl rfl
  · exact lookup_answers id p
  · unfold advance at taken
    split at taken
    · cases taken
      exact .inl (claimPurchase_answers _ p _)
    · split at taken <;> cases taken <;> exact .inl rfl
    · split at taken
      · cases taken
        exact .inl rfl
      · split at taken <;> cases taken <;> exact .inl rfl
    · split at taken <;> cases taken <;> exact .inl rfl
    · cases taken
      exact .inl rfl
    · cases taken
      exact .inl (commitPurchase_answers _ p _ _)
    · next body id =>
        cases taken
        have promised : s.promised id = some (p.txHash, some body) :=
          congrArg (Option.bind · promiseOf) here
        exact .inr ⟨(p.txHash, some body), rfl, kept.promised promised⟩
    · cases taken
      exact .inl rfl
    · cases taken
      exact .inl rfl
    · cases taken

section

variable {id : RequestId} {p : Purchase} {written : State}

theorem promises_set {request : Option (Purchase × Phase)}
    (requests : s'.requests = Function.update s.requests id request)
    (settled : ∀ a, request.bind promiseOf = some a →
      s'.custody.status a.1 = some (.completed a.2)) :
    s'.custody.Promises s.promised s'.promised := by
  refine .inr ⟨id, request.bind promiseOf, ?_, settled⟩
  rw [State.promised, requests]
  exact Function.comp_update (Option.bind · promiseOf) s.requests id request

theorem promises_goto {phase : Phase} (requests : written.requests = s.requests)
    (quiet : promiseOf (p, phase) = none) :
    (written.goto id p phase).custody.Promises s.promised (written.goto id p phase).promised :=
  promises_set (congrArg (Function.update · id _) requests)
    fun _ given => nomatch quiet.symm.trans given

theorem promises_stop (requests : written.requests = s.requests) :
    (written.stop id).custody.Promises s.promised (written.stop id).promised :=
  promises_set (congrArg (Function.update · id _) requests) fun _ given => nomatch given

theorem promises_respond {response : Response} (requests : written.requests = s.requests) :
    (written.respond id p response).custody.Promises s.promised
      (written.respond id p response).promised :=
  promises_set (congrArg (Function.update · id _) requests) fun _ given => nomatch given

theorem promises_commit {mitosTxHash : Option TxHash} {existingPatron : Option ℚ}
    (stored : ∃ row, s.purchases p.txHash = some row) :
    (s.commitPurchase id p mitosTxHash existingPatron).custody.Promises s.promised
      (s.commitPurchase id p mitosTxHash existingPatron).promised := by
  obtain ⟨row, found⟩ := stored
  unfold State.commitPurchase
  split
  · exact promises_stop rfl
  · next written ok =>
      obtain ⟨purchases, requests, _⟩ := writePatron_custody ok
      refine promises_set (congrArg (Function.update · id _) requests) ?_
      intro a given
      cases given
      rw [custody_goto, custody_updatePurchase]
      dsimp only
      rw [purchases, found, Function.update_self]
      rfl

end

theorem step_promises (ok : step operator s event = some s') (held : s.custody.Held) :
    s'.custody.Promises s.promised s'.promised := by
  rcases step_cases ok with ⟨id, request, _, _, rfl | ⟨p, _, rfl⟩⟩ | ⟨p, phase, here, taken⟩
  · exact .inl rfl
  · unfold State.lookup
    split
    · exact promises_goto rfl rfl
    · split
      · exact promises_respond rfl
      · exact promises_respond rfl
      · exact promises_goto rfl rfl
  · unfold advance at taken
    split at taken
    · cases taken
      unfold State.claimPurchase
      split
      · exact promises_goto rfl rfl
      · split
        · exact promises_stop rfl
        · split
          · exact promises_goto rfl rfl
          · exact promises_respond rfl
    · split at taken
      · cases taken
        exact promises_goto rfl rfl
      · cases taken
        exact promises_goto rfl rfl
    · split at taken
      · cases taken
        exact promises_goto rfl rfl
      · split at taken
        · cases taken
          exact promises_goto rfl rfl
        · cases taken
          exact promises_goto rfl rfl
    · next id outcome =>
        cases outcome with
        | applied _ | lost | rejected =>
            cases taken
            exact promises_goto rfl rfl
    · cases taken
      exact promises_goto rfl rfl
    · cases taken
      obtain ⟨row, found, _⟩ := held.stored here rfl
      exact promises_commit ⟨row, found⟩
    · cases taken
      exact promises_respond rfl
    · cases taken
      exact promises_respond rfl
    · cases taken
      exact promises_stop rfl
    · cases taken

/-! ### Runs -/

theorem kept_init : Kept (machine operator).init where
  exclusive := Custody.view_empty
  answered := fun _ mem => nomatch mem
  promised := fun absent => nomatch absent

theorem run_kept {log : List (Transition State Event)} (run : Run (machine operator) log s)
    (safe : ∀ r ∈ log, ¬ Hazard r.pre r.event) : Kept s :=
  run.invariant_along safe kept_init fun kept ok safe =>
    kept.step (step_custody ok safe kept.exclusive.held) (step_answers ok kept)
      (step_promises ok kept.exclusive.held)

/-- The first success response to the requests of a purchase. -/
def State.firstSuccess (s : State) (h : TxHash) : Option PurchaseResponse :=
  (Custody.firstAnswer s.answers h).join

theorem replay_firstSuccess (kept : Kept s) {h : TxHash} {replayed : Bool}
    {body : PurchaseResponse} (sent : (h, .success replayed body) ∈ s.responses) :
    s.firstSuccess h = some body := by
  have given : (h, some body) ∈ s.answers :=
    List.mem_filterMap.mpr ⟨(h, .success replayed body), sent, rfl⟩
  rw [State.firstSuccess, kept.answered.first given]
  rfl

/-! ### Runs on an example -/

def exampleTalos : TalosRow := ⟨"talos", 1, none, some "MITOS:G-ISSUER", none, none⟩

def exampleOperator : Operator := ⟨"G-OPERATOR", "G-USDC", true⟩

/-- A request for tokens, and its payment as Horizon knows it. -/
def exampleRequest (txHash : TxHash) (amount : ℚ) : Request :=
  ⟨some exampleTalos, some "G-BUYER", some amount, some txHash⟩

def examplePayment (amount : ℚ) : TxResult where
  successful := true
  sourceAccount := "G-BUYER"
  inner := some ("G-BUYER",
    [⟨"payment", some ⟨"USDC", "G-USDC"⟩, some exampleOperator.publicKey, amount⟩])

/-- The steps of a request up to the submission of its transfer, and those after it. -/
def pays (id : RequestId) (amount : ℚ) (outcome : Submission) : List Event :=
  [.claim id, .verify id (some (examplePayment amount)), .checkAccount id true,
    .submit id outcome]

def finishes (id : RequestId) : List Event := [.readPatron id, .commit id, .respond id]

/-- A purchase, from the request to the response. -/
def buys (id : RequestId) (txHash : TxHash) (amount : ℚ) : List Event :=
  .post id (exampleRequest txHash amount) :: pays id amount (.applied "sent") ++ finishes id

def played (events : List Event) : List (Transition State Event) × State :=
  (machine exampleOperator).play events ([], (machine exampleOperator).init)

/-- A purchase and its replay. -/
def replayed : List Event := buys 0 "payment" 60 ++ [.post 1 (exampleRequest "payment" 60)]

/-- Two requests that have read the failed row both retry it. -/
def retriedTwice : List Event :=
  [.post 0 (exampleRequest "payment" 60), .claim 0, .verify 0 none, .markFailed 0,
    .post 1 (exampleRequest "payment" 60), .post 2 (exampleRequest "payment" 60)] ++
    pays 1 60 (.applied "sent") ++ pays 2 60 (.applied "sent again")

/-- A transfer that times out but is applied, and its retry. -/
def timedOut : List Event :=
  .post 0 (exampleRequest "payment" 60) :: pays 0 60 .lost ++
    [.markFailed 0, .post 1 (exampleRequest "payment" 60)] ++
    pays 1 60 (.applied "sent again")

end Talos.TokenSales
