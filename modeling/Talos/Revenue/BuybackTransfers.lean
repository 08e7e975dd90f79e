import Talos.Revenue.Buyback
import Talos.TokenSales.Transfers

/-!
# One transfer per idempotency key

The row of an idempotency key is claimed, used for one transfer and settled as that of a
purchase is, on the same two conditions: the UPDATE that retries a failed buyback meets a row
that is still failed, and an error that comes with a response of Horizon, which may be that of
a gateway, is the error of a transaction that was not applied.
-/

namespace Talos.Revenue

open Database Soroban

variable {operator : Operator} {s s' : State} {event : Event}

/-- The retry of a buyback that is not failed any more, or a transfer that is applied and
reported as an error with a response. -/
def Hazard (s : State) : Event → Prop
  | .claim id => ∃ request ∈ s.requests id, request.2 = .claiming true ∧
      ∃ key ∈ request.1.key, ¬ ∃ row ∈ s.buybacks key, row.status = .failed
  | .submit _ (.error true true _) => True
  | _ => False

instance (s : State) : DecidablePred (Hazard s)
  | .claim id => inferInstanceAs (Decidable (∃ request ∈ s.requests id, request.2 = .claiming true ∧
      ∃ key ∈ request.1.key, ¬ ∃ row ∈ s.buybacks key, row.status = .failed))
  | .submit _ (.error true true _) => inferInstanceAs (Decidable True)
  | .submit _ (.error true false _) | .submit _ (.error false ..) | .submit _ (.applied _)
  | .post .. | .commit _ | .respond _ | .markFailed _ | .crash _ =>
      inferInstanceAs (Decidable False)

/-! ### The buybacks as keys -/

def BuybackRow.asClaim (row : BuybackRow) : Claim (Option BuybackResponse) :=
  match row.status with
  | .pending => .pending
  | .failed => .failed
  | .completed => .completed row.responseBody

/-- Whether a request that has claimed its key is still to submit the transaction. -/
def Phase.holding : Phase → Option Bool
  | .claiming _ | .responding _ => none
  | .submitting | .failing _ => some true
  | .committing _ | .erring _ => some false

def holdingOf (request : Buyback × Phase) : Option (Holding Key) :=
  request.1.key.bind fun key => request.2.holding.map fun unused => (key, unused)

def State.custody (s : State) : Custody Key RequestId (Option BuybackResponse) :=
  .view BuybackRow.asClaim holdingOf s.buybacks s.requests s.transfers.reduceOption

section

variable (s : State) (id : RequestId) (b : Buyback)

theorem custody_goto (phase : Phase) :
    (s.goto id b phase).custody =
      { s.custody with
        holder := Function.update s.custody.holder id (holdingOf (b, phase)) } :=
  Custody.view_request _ _ s.buybacks s.requests s.transfers.reduceOption id (some (b, phase))

theorem custody_stop :
    (s.stop id).custody =
      { s.custody with holder := Function.update s.custody.holder id none } :=
  Custody.view_request _ _ s.buybacks s.requests s.transfers.reduceOption id none

theorem custody_respond (response : Response) :
    (s.respond id b response).custody =
      { s.custody with holder := Function.update s.custody.holder id none } :=
  custody_stop s id

theorem custody_updateBuyback (key : Key) (f : BuybackRow → BuybackRow) :
    (s.updateBuyback key f).custody =
      { s.custody with
        status := Function.update s.custody.status key
          (((s.buybacks key).map f).map BuybackRow.asClaim) } :=
  Custody.view_row _ _ s.buybacks s.requests s.transfers.reduceOption key _

variable {b}

theorem custody_transfer {key : Key} (keyed : b.key = some key) :
    (s.transfer b).custody =
      { s.custody with uses := Function.update s.custody.uses key (s.custody.uses key + 1) } := by
  have more : (b.key :: s.transfers).reduceOption = key :: s.transfers.reduceOption := by
    rw [keyed, List.reduceOption_cons_of_some]
  have used := Custody.view_use BuybackRow.asClaim holdingOf s.buybacks s.requests
    s.transfers.reduceOption key
  rw [← more] at used
  exact used

theorem custody_transfer_of_none (unkeyed : b.key = none) :
    (s.transfer b).custody = s.custody := by
  have same : (b.key :: s.transfers).reduceOption = s.transfers.reduceOption := by
    rw [unkeyed, List.reduceOption_cons_of_none]
  unfold State.custody State.transfer
  dsimp only
  rw [same]

end

theorem holdingOf_of_none {b : Buyback} (unkeyed : b.key = none) (phase : Phase) :
    holdingOf (b, phase) = none := by
  rw [holdingOf, unkeyed, Option.bind_none]

theorem holdingOf_of_some {b : Buyback} {key : Key} (keyed : b.key = some key) {phase : Phase}
    {unused : Bool} (holding : phase.holding = some unused) :
    holdingOf (b, phase) = some (key, unused) := by
  rw [holdingOf, keyed, Option.bind_some, holding, Option.map_some]

/-- A request without a key holds none. -/
theorem custody_goto_of_none (id : RequestId) {b : Buyback} (unkeyed : b.key = none)
    (phase : Phase) : Custody.Step s.custody (s.goto id b phase).custody := by
  rw [custody_goto, holdingOf_of_none unkeyed]
  exact .lose

/-! ### Steps -/

theorem step_cases (ok : step operator s event = some s') :
    (∃ id request, event = .post id request ∧ s.requests id = none ∧
      (s' = s ∨ ∃ b, s' = s.lookup operator id b)) ∨
    ∃ b phase, s.requests event.request = some (b, phase) ∧
      advance operator s event.request b phase event = some s' := by
  unfold step at ok
  split at ok
  · next id request =>
      split at ok
      · cases ok
      · next absent =>
          refine .inl ⟨id, request, rfl, absent, ?_⟩
          split at ok
          · exact .inl (Option.some.inj ok).symm
          · next b _ => exact .inr ⟨b, (Option.some.inj ok).symm⟩
  · split at ok
    · cases ok
    · next b phase here => exact .inr ⟨b, phase, here, ok⟩

theorem lookup_custody (id : RequestId) (b : Buyback) :
    Custody.Step s.custody (s.lookup operator id b).custody := by
  unfold State.lookup
  split
  · next unkeyed => exact custody_goto_of_none id unkeyed _
  · next key keyed =>
      have idle : ∀ retry, holdingOf (b, .claiming retry) = none := by
        intro retry
        rw [holdingOf, keyed]
        rfl
      split
      · rw [custody_goto, idle]
        exact .lose
      · split
        · rw [custody_respond]
          exact .lose
        · split
          · rw [custody_respond]
            exact .lose
          · rw [custody_respond]
            exact .lose
          · rw [custody_goto, idle]
            exact .lose

theorem claimKey_custody {id : RequestId} {b : Buyback} {key : Key} (keyed : b.key = some key)
    {retry : Bool}
    (free : retry = true → ∃ row, s.buybacks key = some row ∧ row.status = .failed) :
    Custody.Step s.custody (s.claimKey operator id b key retry).custody := by
  have held : holdingOf (b, .submitting) = some (key, true) := holdingOf_of_some keyed rfl
  unfold State.claimKey
  split
  · next again =>
      obtain ⟨row, found, failed⟩ := free again
      have status : s.custody.status key = some .failed := by
        rw [State.custody, Custody.view_status found, BuybackRow.asClaim, failed]
      rw [custody_goto, custody_updateBuyback, found, held]
      exact .claim (.inr status)
  · split
    · next buybacks inserted =>
        obtain ⟨absent, rfl⟩ := Table.insert_eq_some.mp inserted
        have status : s.custody.status key = none :=
          congrArg (Option.map BuybackRow.asClaim) absent
        have view : State.custody { s with buybacks := s.buybacks.set key (b.newRow operator) } =
            { s.custody with status := Function.update s.custody.status key (some .pending) } :=
          Custody.view_row _ _ s.buybacks s.requests s.transfers.reduceOption key
            (some (b.newRow operator))
        rw [custody_goto, view, held]
        exact .claim (.inl status)
    · rw [custody_respond]
      exact .lose

theorem submit_custody (operator : Operator) {id : RequestId} {b : Buyback} {outcome : Submission}
    (here : s.requests id = some (b, .submitting))
    (safe : ¬ Hazard s (.submit id outcome))
    (taken : advance operator s id b .submitting (.submit id outcome) = some s') :
    s'.custody = s.custody ∨ Custody.Step s.custody s'.custody := by
  cases keyed : b.key with
  | none =>
      refine .inr ?_
      cases outcome with
      | applied txHash =>
          cases taken
          have moved := custody_goto_of_none (s := s.transfer b) id keyed (.committing txHash)
          rw [custody_transfer_of_none s keyed] at moved
          exact moved
      | error response applied message =>
          cases taken
          unfold State.submissionError
          rw [keyed]
          cases applied with
          | false => exact custody_goto_of_none id keyed _
          | true =>
              have moved := custody_goto_of_none (s := s.transfer b) id keyed (.erring message)
              rw [custody_transfer_of_none s keyed] at moved
              exact moved
  | some key =>
      have held : holdingOf (b, .submitting) = some (key, true) := holdingOf_of_some keyed rfl
      have fresh : s.custody.holder id = some (key, true) := Custody.view_holder here held
      cases outcome with
      | applied txHash =>
          cases taken
          rw [custody_goto, custody_transfer s keyed, holdingOf_of_some keyed rfl]
          exact .inr (.use fresh)
      | error response applied message =>
          cases taken
          unfold State.submissionError
          rw [keyed]
          cases response with
          | false =>
              cases applied with
              | false =>
                  refine .inr ?_
                  change Custody.Step _ (s.goto id b (.erring message)).custody
                  rw [custody_goto, holdingOf_of_some keyed rfl]
                  exact .skip fresh
              | true =>
                  refine .inr ?_
                  change Custody.Step _ ((s.transfer b).goto id b (.erring message)).custody
                  rw [custody_goto, custody_transfer s keyed, holdingOf_of_some keyed rfl]
                  exact .use fresh
          | true =>
              cases applied with
              | false =>
                  refine .inl ?_
                  have kept : holdingOf (b, .failing message) = s.custody.holder id := by
                    rw [fresh, holdingOf_of_some keyed rfl]
                  change (s.goto id b (.failing message)).custody = _
                  rw [custody_goto, kept, Function.update_eq_self]
              | true => exact absurd trivial safe

theorem commitBuyback_custody {id : RequestId} {b : Buyback} {txHash : TxHash}
    (here : s.requests id = some (b, .committing txHash)) (held : s.custody.Held) :
    Custody.Step s.custody (s.commitBuyback id b txHash).custody := by
  unfold State.commitBuyback
  dsimp only
  split
  · next unkeyed => exact custody_goto_of_none id unkeyed _
  · next key keyed =>
      have holds : holdingOf (b, .committing txHash) = some (key, false) :=
        holdingOf_of_some keyed rfl
      obtain ⟨row, found, _⟩ := held.stored here holds
      have done : ∀ body, holdingOf (b, .responding body) = none := by
        intro body
        rw [holdingOf, keyed]
        rfl
      rw [custody_goto, custody_updateBuyback, done, found]
      exact .settle (Custody.view_holder here holds)

/-- A step is one of a key that is claimed, unless it is a hazard. -/
theorem step_custody (ok : step operator s event = some s') (safe : ¬ Hazard s event)
    (held : s.custody.Held) :
    s'.custody = s.custody ∨ Custody.Step s.custody s'.custody := by
  rcases step_cases ok with ⟨id, request, _, _, rfl | ⟨b, rfl⟩⟩ | ⟨b, phase, here, taken⟩
  · exact .inl rfl
  · exact .inr (lookup_custody id b)
  · unfold advance at taken
    split at taken
    · next retry id =>
        obtain ⟨key, keyed, rfl⟩ := Option.map_eq_some_iff.mp taken
        refine .inr (claimKey_custody keyed fun again => ?_)
        subst again
        by_contra none
        exact safe ⟨(b, .claiming true), here, rfl, key, keyed, none⟩
    · exact submit_custody operator here safe taken
    · cases taken
      exact .inr (commitBuyback_custody here held)
    · cases taken
      rw [custody_respond]
      exact .inr .lose
    · cases taken
      rw [custody_respond]
      exact .inr .lose
    · next message id =>
        obtain ⟨key, keyed, rfl⟩ := Option.map_eq_some_iff.mp taken
        have holds : holdingOf (b, .failing message) = some (key, true) :=
          holdingOf_of_some keyed rfl
        obtain ⟨row, found, _⟩ := held.stored here holds
        rw [custody_respond, custody_updateBuyback, found]
        exact .inr (.release (Custody.view_holder here holds))
    · cases taken
      rw [custody_stop]
      exact .inr .lose
    · cases taken

/-! ### Answers -/

/-- The answer of a success response to a request with a key. -/
def answerOf : Option Key × Response → Option (Key × Option BuybackResponse)
  | (some key, .success _ body) => some (key, some body)
  | _ => none

def State.answers (s : State) : List (Key × Option BuybackResponse) :=
  s.responses.filterMap answerOf

/-- What a request with a key is about to answer. -/
def promiseOf : Buyback × Phase → Option (Key × Option BuybackResponse)
  | (b, .responding body) => b.key.map fun key => (key, some body)
  | _ => none

def State.promised (s : State) : RequestId → Option (Key × Option BuybackResponse) :=
  (Option.bind · promiseOf) ∘ s.requests

abbrev Kept (s : State) : Prop := Custody.Kept s.custody s.answers s.promised

theorem answers_respond_error (s : State) (id : RequestId) (b : Buyback) (status : Nat)
    (message : String) : (s.respond id b (.error status message)).answers = s.answers := by
  have quiet : answerOf (b.key, .error status message) = none := by
    cases b.key with
    | none => rfl
    | some key => rfl
  exact List.filterMap_cons_none quiet

theorem answers_respond_success (s : State) (id : RequestId) {b : Buyback} {key : Key}
    (keyed : b.key = some key) (replayed : Bool) (body : BuybackResponse) :
    (s.respond id b (.success replayed body)).answers = (key, some body) :: s.answers := by
  have given : answerOf (b.key, .success replayed body) = some (key, some body) := by
    rw [keyed]
    rfl
  exact List.filterMap_cons_some given

theorem answers_respond_unkeyed (s : State) (id : RequestId) {b : Buyback}
    (unkeyed : b.key = none) (response : Response) :
    (s.respond id b response).answers = s.answers := by
  have quiet : answerOf (b.key, response) = none := by
    rw [unkeyed]
    rfl
  exact List.filterMap_cons_none quiet

/-- A success response gives the answer of its completed buyback. -/
theorem step_answers (ok : step operator s event = some s') (kept : Kept s) :
    s.custody.Gives s.answers s'.answers := by
  rcases step_cases ok with ⟨id, request, _, _, rfl | ⟨b, rfl⟩⟩ | ⟨b, phase, here, taken⟩
  · exact .inl rfl
  · unfold State.lookup
    split
    · exact .inl rfl
    · next key keyed =>
        split
        · exact .inl rfl
        · next row found =>
            split
            · exact .inl (answers_respond_error s id b _ _)
            · split
              · next body status response =>
                  refine .inr ⟨(key, some body), answers_respond_success s id keyed _ _, ?_⟩
                  rw [State.custody, Custody.view_status found, BuybackRow.asClaim, status]
                  dsimp only
                  rw [response]
              · exact .inl (answers_respond_error s id b _ _)
              · exact .inl rfl
  · unfold advance at taken
    split at taken
    · next retry id =>
        obtain ⟨key, keyed, rfl⟩ := Option.map_eq_some_iff.mp taken
        refine .inl ?_
        unfold State.claimKey
        split
        · rfl
        · split
          · rfl
          · exact answers_respond_error s id b _ _
    · next outcome =>
        refine .inl ?_
        cases outcome with
        | applied txHash =>
            cases taken
            rfl
        | error response applied message =>
            cases taken
            unfold State.submissionError
            cases applied with
            | false => split <;> rfl
            | true => split <;> rfl
    · cases taken
      refine .inl ?_
      unfold State.commitBuyback
      dsimp only
      split <;> rfl
    · next body id =>
        cases taken
        cases keyed : b.key with
        | none => exact .inl (answers_respond_unkeyed s id keyed _)
        | some key =>
            have promised : s.promised id = some (key, some body) := by
              change (s.requests id).bind promiseOf = _
              rw [show s.requests id = some (b, .responding body) from here, Option.bind_some,
                promiseOf, keyed, Option.map_some]
            exact .inr ⟨(key, some body), answers_respond_success s id keyed _ _,
              kept.promised promised⟩
    · cases taken
      exact .inl (answers_respond_error s _ b _ _)
    · next message id =>
        obtain ⟨key, keyed, rfl⟩ := Option.map_eq_some_iff.mp taken
        exact .inl (answers_respond_error _ id b _ _)
    · cases taken
      exact .inl rfl
    · cases taken

section

variable {id : RequestId} {b : Buyback} {written : State}

theorem promises_set {request : Option (Buyback × Phase)}
    (requests : s'.requests = Function.update s.requests id request)
    (settled : ∀ a, request.bind promiseOf = some a →
      s'.custody.status a.1 = some (.completed a.2)) :
    s'.custody.Promises s.promised s'.promised := by
  refine .inr ⟨id, request.bind promiseOf, ?_, settled⟩
  rw [State.promised, requests]
  exact Function.comp_update (Option.bind · promiseOf) s.requests id request

theorem promises_goto {phase : Phase} (requests : written.requests = s.requests)
    (quiet : promiseOf (b, phase) = none) :
    (written.goto id b phase).custody.Promises s.promised (written.goto id b phase).promised :=
  promises_set (congrArg (Function.update · id _) requests)
    fun _ given => nomatch quiet.symm.trans given

theorem promises_stop : (s.stop id).custody.Promises s.promised (s.stop id).promised :=
  promises_set rfl fun _ given => nomatch given

theorem promises_respond {response : Response} (requests : written.requests = s.requests) :
    (written.respond id b response).custody.Promises s.promised
      (written.respond id b response).promised :=
  promises_set (congrArg (Function.update · id _) requests) fun _ given => nomatch given

theorem promises_submissionError {response : Bool} {message : String}
    (requests : written.requests = s.requests) :
    (written.submissionError id b response message).custody.Promises s.promised
      (written.submissionError id b response message).promised := by
  unfold State.submissionError
  split
  · exact promises_goto requests rfl
  · exact promises_goto requests rfl

theorem promises_commit {txHash : TxHash} (here : s.requests id = some (b, .committing txHash))
    (held : s.custody.Held) :
    (s.commitBuyback id b txHash).custody.Promises s.promised
      (s.commitBuyback id b txHash).promised := by
  unfold State.commitBuyback
  dsimp only
  split
  · next unkeyed =>
      refine promises_set rfl fun a given => ?_
      rw [Option.bind_some, promiseOf, unkeyed] at given
      cases given
  · next key keyed =>
      have holds : holdingOf (b, .committing txHash) = some (key, false) :=
        holdingOf_of_some keyed rfl
      obtain ⟨row, found, _⟩ := held.stored here holds
      refine promises_set rfl fun a given => ?_
      rw [Option.bind_some, promiseOf, keyed] at given
      cases given
      rw [custody_goto, custody_updateBuyback]
      dsimp only
      rw [found, Function.update_self]
      rfl

end

theorem step_promises (ok : step operator s event = some s') (held : s.custody.Held) :
    s'.custody.Promises s.promised s'.promised := by
  rcases step_cases ok with ⟨id, request, _, _, rfl | ⟨b, rfl⟩⟩ | ⟨b, phase, here, taken⟩
  · exact .inl rfl
  · unfold State.lookup
    split
    · exact promises_goto rfl rfl
    · split
      · exact promises_goto rfl rfl
      · split
        · exact promises_respond rfl
        · split
          · exact promises_respond rfl
          · exact promises_respond rfl
          · exact promises_goto rfl rfl
  · unfold advance at taken
    split at taken
    · obtain ⟨key, _, rfl⟩ := Option.map_eq_some_iff.mp taken
      unfold State.claimKey
      split
      · exact promises_goto rfl rfl
      · split
        · exact promises_goto rfl rfl
        · exact promises_respond rfl
    · split at taken
      · cases taken
        exact promises_goto rfl rfl
      · next applied _ =>
          cases taken
          cases applied with
          | false => exact promises_submissionError rfl
          | true => exact promises_submissionError rfl
    · cases taken
      exact promises_commit here held
    · cases taken
      exact promises_respond rfl
    · cases taken
      exact promises_respond rfl
    · obtain ⟨key, _, rfl⟩ := Option.map_eq_some_iff.mp taken
      exact promises_respond rfl
    · cases taken
      exact promises_stop
    · cases taken

/-! ### Runs -/

theorem kept_init : Kept (machine operator).init where
  exclusive := Custody.view_empty
  answered := fun _ mem => nomatch mem
  promised := fun absent => nomatch absent

theorem run_kept {log : List (Transition State Event)} (run : Run (machine operator) log s)
    (safe : ∀ r ∈ log, ¬ Hazard r.pre r.event) : Kept s :=
  run.invariant_along safe kept_init fun kept ok safe =>
    kept.step (step_custody ok safe kept.exclusive.held) (step_answers ok kept)
      (step_promises ok kept.exclusive.held)

/-- The first success response to the requests with a key. -/
def State.firstSuccess (s : State) (key : Key) : Option BuybackResponse :=
  (Custody.firstAnswer s.answers key).join

theorem replay_firstSuccess (kept : Kept s) {key : Key} {replayed : Bool}
    {body : BuybackResponse} (sent : (some key, .success replayed body) ∈ s.responses) :
    s.firstSuccess key = some body := by
  have given : (key, some body) ∈ s.answers :=
    List.mem_filterMap.mpr ⟨(some key, .success replayed body), sent, rfl⟩
  rw [State.firstSuccess, kept.answered.first given]
  rfl

theorem transfers_le_one (kept : Kept s) (key : Key) : s.transfers.count (some key) ≤ 1 := by
  have most : s.transfers.reduceOption.count key ≤ 1 := kept.exclusive.most key
  rw [List.reduceOption, List.count_filterMap] at most
  exact most

/-! ### Runs on an example -/

def exampleOperator : Operator := ⟨true, fun _ => "digest"⟩

def exampleRequest : Request :=
  ⟨true, some ⟨"talos", some "MITOS:G-ISSUER"⟩, some ⟨5, 100⟩, some "key"⟩

def exampleKey : Key := ⟨"talos", "key"⟩

def played (events : List Event) : List (Transition State Event) × State :=
  (machine exampleOperator).play events ([], (machine exampleOperator).init)

/-- A buyback and its replay. -/
def replayed : List Event :=
  [.post 0 exampleRequest, .claim 0, .submit 0 (.applied "sent"), .commit 0, .respond 0,
    .post 1 exampleRequest]

/-- A gateway timeout of a transaction that is applied, and its retry. -/
def timedOut : List Event :=
  [.post 0 exampleRequest, .claim 0, .submit 0 (.error true true "Gateway Timeout"),
    .markFailed 0, .post 1 exampleRequest, .claim 1, .submit 1 (.applied "sent again")]

/-! ### At most one transfer -/

/-- Without hazards there is at most one transfer for a transaction that buys tokens and for an
idempotency key of a buyback, and a replay gives the first success response. -/
theorem transfers_once (seller : TokenSales.Operator) (operator : Operator) :
    (∀ (s : TokenSales.State) (log : List (Transition TokenSales.State TokenSales.Event)),
      Run (TokenSales.machine seller) log s →
      (∀ r ∈ log, ¬ TokenSales.Hazard r.pre r.event) →
      ∀ txHash, s.transfers.count txHash ≤ 1 ∧
        ∀ body, (txHash, .success true body) ∈ s.responses → s.firstSuccess txHash = some body) ∧
    ∀ (s : State) (log : List (Transition State Event)),
      Run (machine operator) log s → (∀ r ∈ log, ¬ Hazard r.pre r.event) →
      ∀ key, s.transfers.count (some key) ≤ 1 ∧
        ∀ body, (some key, .success true body) ∈ s.responses →
          s.firstSuccess key = some body := by
  constructor
  · intro s log run safe txHash
    have kept := TokenSales.run_kept run safe
    exact ⟨kept.exclusive.most txHash, fun _ sent => TokenSales.replay_firstSuccess kept sent⟩
  · intro s log run safe key
    have kept := run_kept run safe
    exact ⟨transfers_le_one kept key, fun _ sent => replay_firstSuccess kept sent⟩

theorem transfers_once_replayed :
    ((TokenSales.played TokenSales.replayed).2.transfers.count "payment" ≤ 1 ∧
      (TokenSales.played TokenSales.replayed).2.firstSuccess "payment" =
        some ⟨"payment", some "sent", "MITOS", 60, 1, 60, "G-BUYER", 60, .pending 40⟩) ∧
    (played replayed).2.transfers.count (some exampleKey) ≤ 1 ∧
      (played replayed).2.firstSuccess exampleKey = some ⟨"sent", 100, 5⟩ := by
  constructor
  · obtain ⟨once, first⟩ := (transfers_once TokenSales.exampleOperator exampleOperator).1 _ _
      (Machine.play_run _ TokenSales.replayed) (by decide +kernel) "payment"
    exact ⟨once, first _ (by decide +kernel)⟩
  · obtain ⟨once, first⟩ := (transfers_once TokenSales.exampleOperator exampleOperator).2 _ _
      (Machine.play_run _ replayed) (by decide +kernel) exampleKey
    exact ⟨once, first _ (by decide +kernel)⟩

/-- Each hazard leads to a second transfer. -/
theorem transferred_twice :
    (Reachable (TokenSales.machine TokenSales.exampleOperator)
        (TokenSales.played TokenSales.retriedTwice).2 ∧
      (TokenSales.played TokenSales.retriedTwice).2.transfers.count "payment" = 2) ∧
    (Reachable (TokenSales.machine TokenSales.exampleOperator)
        (TokenSales.played TokenSales.timedOut).2 ∧
      (TokenSales.played TokenSales.timedOut).2.transfers.count "payment" = 2) ∧
    Reachable (machine exampleOperator) (played timedOut).2 ∧
      (played timedOut).2.transfers.count (some exampleKey) = 2 := by
  refine ⟨⟨⟨_, Machine.play_run _ _⟩, ?_⟩, ⟨⟨_, Machine.play_run _ _⟩, ?_⟩,
    ⟨_, Machine.play_run _ _⟩, ?_⟩
  · decide +kernel
  · decide +kernel
  · decide +kernel

end Talos.Revenue
