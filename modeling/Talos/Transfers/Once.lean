import Talos.Database.Custody
import Talos.Transfers.Authorization

/-!
# One transfer per authorization

What a signature authorizes is a key that a request claims with its insert and uses for one call
(`step_exclusive`). The row of the nonce may be gone when a request comes to its insert, but only
after the authorization has been expired for the retention time (`Stored`), so a request that
read the clock less than that time before does not claim it again. With another expiry the same
nonce is another authorization.
-/

namespace Talos.Transfers

open Encoding Database

variable {hmac : String → String → String} {clock : Nat} {platform : Platform}
  {signed : String → Set TransferSignedPayload} {s s' : State} {event : Event}
  {h : List (Transition State Event)}

/-! ### Assumptions about a run -/

/-- Signatures that are accepted were made by the holder of the key, over the canonical form of a
payload. -/
def Unforgeable (hmac : String → String → String) (signed : String → Set TransferSignedPayload)
    (h : List (Transition State Event)) : Prop :=
  ∀ t ∈ h, ∀ r request, t.event = .arrive r request →
    authenticate hmac t.pre.platform request = .ok () →
      ∃ payload ∈ signed request.apiKey,
        canonicalizeTransferPayload payload = canonicalizeTransferPayload request.payload

/-- What a request has found that is about to insert its nonce. -/
def Stage.inserting : Stage → Option Checked
  | .checked found => some found
  | .authenticated | .consumed _ => none

/-- A request that inserts has read the clock less than the retention time before. -/
def Prompt (s : State) : Event → Prop
  | .consume r _ => ∀ pending ∈ s.pending r, ∀ found ∈ pending.stage.inserting,
      s.clock < found.readAt + nonceRetentionSeconds * 1000
  | _ => True

instance (s : State) : DecidablePred (Prompt s)
  | .consume r _ => inferInstanceAs (Decidable (∀ pending ∈ s.pending r, _))
  | .tick _ | .administer _ | .arrive .. | .check _ | .sendUSDC _ | .fail _ | .prune _ =>
      inferInstanceAs (Decidable True)

/-! ### What a call should be -/

/-- The call is what the holder of an accepted key signed, and was within the expiry window and
the threshold when the clock was read. -/
structure AsSigned (signed : String → Set TransferSignedPayload) (h : List (Transition State Event))
    (call : Call) : Prop where
  payload : ∃ payload ∈ signed call.request.apiKey, payload.agent = call.talosId ∧
    payload.destination = call.destination ∧ payload.amount = call.amount ∧
    payload.authorization = call.authorization
  holder : ∃ t ∈ h, t.pre.platform.verifyAgentApiKey call.talosId call.request.apiKey = .ok ()
  checked : ∃ t ∈ h,
    t.pre.clock < call.authorization.expiry * 1000 ∧
    call.authorization.expiry * 1000 ≤ t.pre.clock + maxTransferAuthLifetimeSeconds * 1000 ∧
    (∀ threshold ∈ t.pre.platform.approvalThreshold call.talosId, cents call.amount ≤ threshold) ∧
    t.pre.platform.agentSecret call.talosId = some call.agentSecret

/-- No nonce of an agent is signed with two expiries. -/
def FreshNonces (signed : String → Set TransferSignedPayload) : Prop :=
  ∀ apiKey apiKey' payload payload', payload ∈ signed apiKey → payload' ∈ signed apiKey' →
    payload.authorization.key = payload'.authorization.key →
      payload.authorization = payload'.authorization

/-! ### Authorizations as keys -/

def State.spent (s : State) (a : Authorization) : Option Unit :=
  if a ∈ s.consumed then some () else none

def holdingOf (pending : Pending) : Option (Holding Authorization) :=
  match pending.stage with
  | .consumed _ => some (pending.request.payload.authorization, true)
  | .authenticated | .checked _ => none

def State.custody (s : State) : Custody Authorization Nat Unit :=
  .view (fun _ => .pending) holdingOf s.spent s.pending (s.calls.map Call.authorization)

theorem custody_set (s : State) (r : Nat) (pending : Option Pending) :
    (s.set r pending).custody =
      { s.custody with
        holder := Function.update s.custody.holder r (pending.bind holdingOf) } :=
  Custody.view_request _ _ s.spent s.pending (s.calls.map Call.authorization) r pending

theorem spent_consume (s : State) (nonces : Table NonceKey Nat) (a : Authorization) :
    State.spent { s with nonces := nonces, consumed := a :: s.consumed } =
      Function.update s.spent a (some ()) := by
  funext b
  by_cases same : b = a
  · subst same
    rw [Function.update_self]
    exact if_pos List.mem_cons_self
  · rw [Function.update_of_ne same]
    unfold State.spent
    simp only [List.mem_cons, same, false_or]

theorem custody_consume (s : State) (nonces : Table NonceKey Nat) (a : Authorization) :
    State.custody { s with nonces := nonces, consumed := a :: s.consumed } =
      { s.custody with status := Function.update s.custody.status a (some .pending) } := by
  rw [State.custody, spent_consume]
  exact Custody.view_row _ _ s.spent s.pending (s.calls.map Call.authorization) a (some ())

theorem custody_free {a : Authorization} (fresh : a ∉ s.consumed) : s.custody.Free a :=
  .inl (congrArg (Option.map _) (if_neg fresh))

theorem drop_exclusive (ex : s.custody.Exclusive) (r : Nat) : (s.set r none).custody.Exclusive := by
  rw [custody_set]
  exact ex.lose r

/-! ### Steps -/

/-- What the insert does: nothing, or it stores an authorization that is in its window. -/
theorem consume_cases (s : State) (r : Nat) (request : TransferRequest) (found : Checked)
    (acknowledged : Bool) :
    s.consume r request found acknowledged = s.set r none ∨
    inNonceWindow request.payload.authorization.expiry found.nowSeconds = true ∧
      ∃ nonces, s.nonces.insert request.payload.authorization.key
          request.payload.authorization.expiry = some nonces ∧
        s.consume r request found acknowledged =
          State.set
            { s with
              nonces := nonces
              consumed := request.payload.authorization :: s.consumed } r
            (if acknowledged then some ⟨request, .consumed found⟩ else none) := by
  unfold State.consume
  dsimp only
  split
  · exact .inl rfl
  · next window =>
      split
      · exact .inl rfl
      · split
        · exact .inl rfl
        · next nonces inserted =>
            exact .inr ⟨(Bool.not_eq_false _).mp window, nonces, inserted, rfl⟩

/-- The rows of nonces that were inserted stay until the authorization has been expired for the
retention time. -/
def Stored (s : State) : Prop :=
  ∀ a ∈ s.consumed, s.nonces a.key = some a.expiry ∨
    a.expiry + nonceRetentionSeconds < s.clock / 1000

theorem Stored.consume (stored : Stored s) (r : Nat) (request : TransferRequest) (found : Checked)
    (acknowledged : Bool) : Stored (s.consume r request found acknowledged) := by
  rcases consume_cases s r request found acknowledged with same | ⟨-, nonces, inserted, same⟩
  · rw [same]
    exact stored
  · rw [same]
    obtain ⟨absent, rfl⟩ := Table.insert_eq_some.mp inserted
    intro a mem
    rcases List.mem_cons.mp mem with rfl | before
    · exact .inl (Function.update_self _ _ _)
    · refine (stored a before).imp_left fun row => ?_
      have other : a.key ≠ request.payload.authorization.key := by
        intro same
        rw [same, absent] at row
        cases row
      exact (Function.update_of_ne other _ _).trans row

theorem Stored.step (stored : Stored s) (ok : step hmac s event = some s') : Stored s' := by
  cases event with
  | tick milliseconds =>
      cases ok
      intro a mem
      refine (stored a mem).imp_right fun old => old.trans_le ?_
      exact Nat.div_le_div_right (Nat.le_add_right _ _)
  | administer platform =>
      cases ok
      exact stored
  | arrive r request =>
      simp only [Transfers.step] at ok
      split at ok
      · cases ok
      · split at ok <;> cases ok <;> exact stored
  | check r =>
      simp only [Transfers.step] at ok
      split at ok
      · split at ok <;> cases ok <;> exact stored
      · cases ok
  | consume r acknowledged =>
      simp only [Transfers.step] at ok
      split at ok
      · next request found _ =>
          cases ok
          exact stored.consume r request found acknowledged
      · cases ok
  | sendUSDC r =>
      simp only [Transfers.step] at ok
      split at ok
      · cases ok
        exact stored
      · cases ok
  | fail r =>
      simp only [Transfers.step] at ok
      split at ok
      · cases ok
        exact stored
      · cases ok
  | prune readAt =>
      simp only [Transfers.step] at ok
      split at ok
      · next past =>
          cases ok
          intro a mem
          rcases stored a mem with row | old
          · by_cases expired : a.expiry + nonceRetentionSeconds < readAt / 1000
            · exact .inr (expired.trans_le (Nat.div_le_div_right past))
            · have kept : pruned s.nonces readAt a.key = some a.expiry :=
                Table.delete_eq_some.mpr ⟨row, decide_eq_false expired⟩
              exact .inl kept
          · exact .inr old
      · cases ok

theorem inNonceWindow_eq_true {expiry nowSeconds : Nat}
    (window : inNonceWindow expiry nowSeconds = true) :
    nowSeconds < expiry ∧ expiry ≤ nowSeconds + maxTransferAuthLifetimeSeconds := by
  simp only [inNonceWindow, Bool.and_eq_true, decide_eq_true_eq] at window
  exact ⟨window.1.2, window.2⟩

/-- A prompt request does not insert an authorization that was inserted before. -/
theorem Stored.fresh (stored : Stored s) {request : TransferRequest} {found : Checked}
    {nonces : Table NonceKey Nat}
    (window : inNonceWindow request.payload.authorization.expiry found.nowSeconds = true)
    (prompt : s.clock < found.readAt + nonceRetentionSeconds * 1000)
    (inserted : s.nonces.insert request.payload.authorization.key
      request.payload.authorization.expiry = some nonces) :
    request.payload.authorization ∉ s.consumed := by
  intro mem
  obtain ⟨absent, -⟩ := Table.insert_eq_some.mp inserted
  rcases stored _ mem with row | old
  · rw [absent] at row
    cases row
  · have valid : found.readAt / 1000 < request.payload.authorization.expiry :=
      (inNonceWindow_eq_true window).1
    omega

theorem step_exclusive (ok : step hmac s event = some s') (stored : Stored s)
    (prompt : Prompt s event) (ex : s.custody.Exclusive) : s'.custody.Exclusive := by
  cases event with
  | tick | administer =>
      cases ok
      exact ex
  | arrive r request =>
      simp only [step] at ok
      split at ok
      · cases ok
      · split at ok
        · cases ok
          exact ex
        · cases ok
          rw [custody_set]
          exact ex.lose r
  | check r =>
      simp only [step] at ok
      split at ok
      · split at ok
        · cases ok
          exact drop_exclusive ex r
        · cases ok
          rw [custody_set]
          exact ex.lose r
      · cases ok
  | consume r acknowledged =>
      simp only [step] at ok
      split at ok
      · next request found here =>
          cases ok
          rcases consume_cases s r request found acknowledged with
            same | ⟨window, nonces, inserted, same⟩
          · rw [same]
            exact drop_exclusive ex r
          · rw [same, custody_set, custody_consume]
            have free := custody_free (stored.fresh window (prompt _ here found rfl) inserted)
            have claimed := ex.claim (r := r) free
            cases acknowledged with
            | true => exact claimed
            | false =>
                have lost := claimed.lose r
                rw [Function.update_idem] at lost
                exact lost
      · cases ok
  | sendUSDC r =>
      simp only [step] at ok
      split at ok
      · next request found here =>
          cases ok
          have held : s.custody.holder r = some (request.payload.authorization, true) :=
            Custody.view_holder here rfl
          have lost := (ex.use held).lose r
          rw [Function.update_idem] at lost
          rw [custody_set]
          refine cast (congrArg Custody.Exclusive ?_) lost
          exact Custody.ext rfl rfl (Custody.usesOf_cons _ _).symm
      · cases ok
  | fail r =>
      simp only [step] at ok
      split at ok
      · cases ok
        exact drop_exclusive ex r
      · cases ok
  | prune readAt =>
      simp only [step] at ok
      split at ok
      · cases ok
        exact ex
      · cases ok

/-! ### What requests have passed -/

def Authenticated (hmac : String → String → String) (h : List (Transition State Event))
    (request : TransferRequest) : Prop :=
  ∃ t ∈ h, ∃ r, t.event = .arrive r request ∧ authenticate hmac t.pre.platform request = .ok ()

def Found (h : List (Transition State Event)) (request : TransferRequest) (found : Checked) :
    Prop :=
  ∃ t ∈ h, check t.pre.platform t.pre.clock request = .ok found

def Stage.Passed (h : List (Transition State Event)) (request : TransferRequest) : Stage → Prop
  | .authenticated => True
  | .checked found => Found h request found
  | .consumed found => Found h request found ∧
      inNonceWindow request.payload.authorization.expiry found.nowSeconds = true

/-- Requests in flight and calls have passed the checks before them. -/
structure Passed (hmac : String → String → String) (h : List (Transition State Event))
    (s : State) : Prop where
  pending : ∀ r p, s.pending r = some p →
    Authenticated hmac h p.request ∧ p.stage.Passed h p.request
  calls : ∀ call ∈ s.calls, Authenticated hmac h call.request ∧
    Stage.Passed h call.request (.consumed call.found) ∧ call.talosId = call.request.talosId ∧
    call.agentSecret = call.found.agentSecret ∧
    call.destination = call.request.payload.destination ∧ call.amount = call.request.payload.amount

theorem Authenticated.later {t : Transition State Event} {request : TransferRequest}
    (authenticated : Authenticated hmac h request) : Authenticated hmac (t :: h) request := by
  obtain ⟨u, mem, rest⟩ := authenticated
  exact ⟨u, List.mem_cons_of_mem t mem, rest⟩

theorem Found.later {t : Transition State Event} {request : TransferRequest} {found : Checked}
    (passed : Found h request found) : Found (t :: h) request found := by
  obtain ⟨u, mem, rest⟩ := passed
  exact ⟨u, List.mem_cons_of_mem t mem, rest⟩

theorem Stage.Passed.later {t : Transition State Event} {request : TransferRequest} {stage : Stage}
    (passed : stage.Passed h request) : stage.Passed (t :: h) request := by
  cases stage with
  | authenticated => trivial
  | checked found => exact Found.later passed
  | consumed found => exact ⟨Found.later passed.1, passed.2⟩

theorem Passed.later {t : Transition State Event} (passed : Passed hmac h s) :
    Passed hmac (t :: h) s where
  pending r p found := by
    obtain ⟨authenticated, stage⟩ := passed.pending r p found
    exact ⟨authenticated.later, stage.later⟩
  calls call mem := by
    obtain ⟨authenticated, stage, rest⟩ := passed.calls call mem
    exact ⟨authenticated.later, stage.later, rest⟩

theorem Passed.set (passed : Passed hmac h s) {r : Nat} {pending : Option Pending}
    (new : ∀ p, pending = some p → Authenticated hmac h p.request ∧ p.stage.Passed h p.request) :
    Passed hmac h (s.set r pending) where
  pending r' p found := by
    by_cases same : r' = r
    · subst same
      have now : Function.update s.pending r' pending r' = some p := found
      rw [Function.update_self] at now
      exact new p now
    · have now : Function.update s.pending r pending r' = some p := found
      rw [Function.update_of_ne same] at now
      exact passed.pending r' p now
  calls := passed.calls

theorem Passed.drop (passed : Passed hmac h s) (r : Nat) : Passed hmac h (s.set r none) :=
  passed.set fun _ absent => nomatch absent

theorem Passed.call (passed : Passed hmac h s) {r : Nat} {request : TransferRequest}
    {found : Checked} (here : s.pending r = some ⟨request, .consumed found⟩) :
    Passed hmac h { s with calls := request.call found :: s.calls } where
  pending := passed.pending
  calls call mem := by
    rcases List.mem_cons.mp mem with rfl | old
    · obtain ⟨authenticated, stage⟩ := passed.pending r _ here
      exact ⟨authenticated, stage, rfl, rfl, rfl, rfl⟩
    · exact passed.calls call old

theorem Passed.step (passed : Passed hmac h s) (ok : step hmac s event = some s') :
    Passed hmac (⟨s, event, s'⟩ :: h) s' := by
  have before : Passed hmac (⟨s, event, s'⟩ :: h) s := passed.later
  have here : (⟨s, event, s'⟩ : Transition State Event) ∈ ⟨s, event, s'⟩ :: h := List.mem_cons_self
  cases event with
  | tick | administer =>
      cases ok
      exact ⟨before.pending, before.calls⟩
  | arrive r request =>
      simp only [Transfers.step] at ok
      split at ok
      · cases ok
      · split at ok
        · cases ok
          exact before
        · next accepted =>
            cases ok
            refine before.set fun p new => ?_
            cases new
            exact ⟨⟨_, here, r, rfl, accepted⟩, trivial⟩
  | check r =>
      simp only [Transfers.step] at ok
      split at ok
      · next request pending =>
          split at ok
          · cases ok
            exact before.drop r
          · next found accepted =>
              cases ok
              refine before.set fun p new => ?_
              cases new
              exact ⟨(before.pending r _ pending).1, ⟨_, here, accepted⟩⟩
      · cases ok
  | consume r acknowledged =>
      simp only [Transfers.step] at ok
      split at ok
      · next request found pending =>
          cases ok
          rcases consume_cases s r request found acknowledged with
            same | ⟨window, nonces, -, same⟩
          · rw [same] at before ⊢
            exact before.drop r
          · obtain ⟨authenticated, stage⟩ := before.pending r _ pending
            rw [same] at before authenticated stage ⊢
            have inserted : Passed hmac _
                { s with
                  nonces := nonces
                  consumed := request.payload.authorization :: s.consumed } :=
              ⟨before.pending, before.calls⟩
            refine inserted.set fun p new => ?_
            cases acknowledged with
            | true =>
                cases new
                exact ⟨authenticated, stage, window⟩
            | false => cases new
      · cases ok
  | sendUSDC r =>
      simp only [Transfers.step] at ok
      split at ok
      · next request found pending =>
          cases ok
          exact (before.call pending).drop r
      · cases ok
  | fail r =>
      simp only [Transfers.step] at ok
      split at ok
      · cases ok
        exact before.drop r
      · cases ok
  | prune readAt =>
      simp only [Transfers.step] at ok
      split at ok
      · cases ok
        exact ⟨before.pending, before.calls⟩
      · cases ok

/-! ### What the checks give -/

theorem authenticate_eq_ok {platform : Platform} {request : TransferRequest}
    (ok : authenticate hmac platform request = .ok ()) :
    platform.verifyAgentApiKey request.talosId request.apiKey = .ok () ∧
      transferSchema request.payload request.signature = true ∧
      request.payload.agent = request.talosId ∧
      verifyTransferSignature hmac request.payload request.apiKey request.signature = true := by
  unfold authenticate at ok
  cases key : platform.verifyAgentApiKey request.talosId request.apiKey with
  | error refusal =>
      rw [key] at ok
      cases ok
  | ok =>
      rw [key] at ok
      change (if _ then _ else _) = _ at ok
      split_ifs at ok with schema agent signature
      exact ⟨rfl, (Bool.not_eq_false _).mp schema, not_ne_iff.mp agent,
        (Bool.not_eq_false _).mp signature⟩

theorem check_eq_ok {request : TransferRequest} {found : Checked}
    (ok : check platform clock request = .ok found) :
    found.readAt = clock ∧
      (∀ t ∈ platform.approvalThreshold request.talosId,
        ¬ number t < number (cents request.payload.amount)) ∧
      platform.agentSecret request.talosId = some found.agentSecret := by
  unfold check at ok
  dsimp only at ok
  split at ok
  · cases ok
  · split at ok
    · cases ok
    · next below =>
        split at ok
        · cases ok
        · next agentSecret configured =>
            cases ok
            refine ⟨rfl, fun t is less => below ?_, configured⟩
            rw [Option.mem_def.mp is, Option.any_some]
            exact decide_eq_true less

theorem transferSchema_amount {payload : TransferSignedPayload} {signature : String}
    (schema : transferSchema payload signature = true) :
    canonicalTransferAmountSchema payload.amount = true := by
  simp only [transferSchema, Bool.and_eq_true] at schema
  exact schema.1.1.1.2

theorem Passed.asSigned (passed : Passed hmac h s) (unforgeable : Unforgeable hmac signed h)
    {call : Call} (mem : call ∈ s.calls) : AsSigned signed h call := by
  obtain ⟨⟨t, past, r, arrived, accepted⟩, ⟨⟨u, earlier, found⟩, window⟩, agent, secret,
    destination, amount⟩ := passed.calls call mem
  obtain ⟨key, schema, own, -⟩ := authenticate_eq_ok accepted
  obtain ⟨readAt, below, configured⟩ := check_eq_ok found
  refine ⟨?_, ⟨t, past, agent ▸ key⟩, ⟨u, earlier, ?_⟩⟩
  · obtain ⟨payload, isSigned, same⟩ := unforgeable t past r _ arrived accepted
    cases canonicalizeTransferPayload_injective same
    exact ⟨_, isSigned, own.trans agent.symm, destination.symm, amount.symm, rfl⟩
  · obtain ⟨future, near⟩ := inNonceWindow_eq_true window
    rw [Checked.nowSeconds, readAt] at future near
    change _ < call.request.payload.authorization.expiry * 1000 ∧
      call.request.payload.authorization.expiry * 1000 ≤ _ ∧ _
    refine ⟨by omega, by omega, fun threshold is => ?_, ?_⟩
    · rw [agent] at is
      by_contra above
      rw [amount] at above
      exact below threshold is
        (number_lt (not_le.mp above) (cents_lt (transferSchema_amount schema)))
    · rw [agent, secret]
      exact configured

/-! ### One call -/

/-- In every run in which no signature is forged and requests are prompt: an authorization is used
for one call at most, calls are as signed, and a nonce is used for one call at most if it is
signed with one expiry. -/
theorem authorizations_used_once (run : Run (machine hmac clock platform) h s)
    (unforgeable : Unforgeable hmac signed h) (prompt : ∀ t ∈ h, Prompt t.pre t.event) :
    (s.calls.map Call.authorization).Nodup ∧ (∀ call ∈ s.calls, AsSigned signed h call) ∧
      (FreshNonces signed → (s.calls.map fun call => call.authorization.key).Nodup) := by
  have stored : Stored s ∧ s.custody.Exclusive :=
    run.invariant_along (C := fun t => Prompt t.pre t.event)
      (I := fun s => Stored s ∧ s.custody.Exclusive) prompt
      ⟨fun _ absent => (nomatch absent), Custody.view_empty⟩
      fun ⟨stored, ex⟩ ok prompt => ⟨stored.step ok, step_exclusive ok stored prompt ex⟩
  have passed : Passed hmac h s :=
    run.history (C := fun _ => True) (I := Passed hmac) (fun _ _ => trivial)
      ⟨fun _ _ absent => (nomatch absent), fun _ absent => (nomatch absent)⟩
      fun passed ok _ => passed.step ok
  have asSigned : ∀ call ∈ s.calls, AsSigned signed h call :=
    fun call mem => passed.asSigned unforgeable mem
  have once : (s.calls.map Call.authorization).Nodup :=
    List.nodup_iff_count_le_one.mpr stored.2.most
  refine ⟨once, asSigned, fun fresh => ?_⟩
  have keys : ((s.calls.map Call.authorization).map Authorization.key).Nodup := by
    refine once.map_on fun a mem b mem' same => ?_
    obtain ⟨call, isCall, rfl⟩ := List.mem_map.mp mem
    obtain ⟨call', isCall', rfl⟩ := List.mem_map.mp mem'
    obtain ⟨payload, isSigned, -, -, -, is⟩ := (asSigned call isCall).payload
    obtain ⟨payload', isSigned', -, -, -, is'⟩ := (asSigned call' isCall').payload
    rw [← is, ← is'] at same ⊢
    exact fresh _ _ payload payload' isSigned isSigned' same
  rw [List.map_map] at keys
  exact keys

/-! ### One nonce, two expiries -/

def exampleApiKey : String := "tak"

def examplePayload (expiry : String) : TransferSignedPayload where
  agent := "talos"
  destination := String.ofList ('G' :: List.replicate 55 'A')
  asset := "USDC"
  amount := "5.00"
  nonce := String.ofList (List.replicate 64 '0')
  expiry := expiry

/-- What the holder of the key signed. -/
def exampleSigned (apiKey : String) : Set TransferSignedPayload :=
  {payload | apiKey = exampleApiKey ∧
    (payload = examplePayload "1700000100" ∨ payload = examplePayload "1700009000")}

def exampleHmac (apiKey text : String) : String :=
  if apiKey = exampleApiKey ∧
      text = canonicalizeTransferPayload (examplePayload "1700000100") then
    String.ofList (List.replicate 64 'a')
  else if apiKey = exampleApiKey ∧
      text = canonicalizeTransferPayload (examplePayload "1700009000") then
    String.ofList (List.replicate 64 'b')
  else ""

def examplePlatform : Platform where
  verifyAgentApiKey talosId apiKey :=
    if talosId = "talos" ∧ apiKey = exampleApiKey then .ok () else .error ⟨401, "Invalid API key"⟩
  approvalThreshold _ := some 1000
  agentSecret _ := some "S-SECRET"

def exampleRequest (expiry : String) : TransferRequest where
  talosId := "talos"
  apiKey := exampleApiKey
  payload := examplePayload expiry
  signature := signTransferPayload exampleHmac (examplePayload expiry) exampleApiKey

theorem example_unforgeable (h : List (Transition State Event)) :
    Unforgeable exampleHmac exampleSigned h := by
  intro t mem r request arrived ok
  obtain ⟨-, -, -, valid⟩ := authenticate_eq_ok ok
  obtain ⟨hex, same⟩ := (Bool.and_eq_true _ _).mp valid
  have verified := of_decide_eq_true same
  unfold signTransferPayload exampleHmac at verified
  split_ifs at verified with first second
  · exact ⟨_, ⟨first.1, .inl rfl⟩, first.2.symm⟩
  · exact ⟨_, ⟨second.1, .inr rfl⟩, second.2.symm⟩
  · rw [← verified] at hex
    exact absurd hex (by decide)

def exampleMachine : Machine State Event := machine exampleHmac 1700000000000 examplePlatform

def played (events : List Event) : List (Transition State Event) × State :=
  exampleMachine.play events ([], exampleMachine.init)

theorem played_run (events : List Event) :
    Run exampleMachine (played events).1 (played events).2 :=
  Machine.play_run exampleMachine events

/-- A request and, once more, the same request. -/
def transfer (r : Nat) (expiry : String) : List Event :=
  [.arrive r (exampleRequest expiry), .arrive (r + 1) (exampleRequest expiry), .check r,
    .check (r + 1), .consume (r + 1) true, .consume r true, .sendUSDC r, .sendUSDC (r + 1)]

def pruning : List Event :=
  transfer 1 "1700000100" ++ [.tick 8800000, .prune 1700008800000] ++ transfer 3 "1700009000"

/-! ### The two requests are authentic

Their texts are long, so that it is not left to the run to compare them. -/

theorem signature_first : signTransferPayload exampleHmac (examplePayload "1700000100")
    exampleApiKey = String.ofList (List.replicate 64 'a') := by
  rw [signTransferPayload, exampleHmac, if_pos ⟨rfl, rfl⟩]

theorem signature_second : signTransferPayload exampleHmac (examplePayload "1700009000")
    exampleApiKey = String.ofList (List.replicate 64 'b') := by
  have other : ¬(exampleApiKey = exampleApiKey ∧
      canonicalizeTransferPayload (examplePayload "1700009000") =
        canonicalizeTransferPayload (examplePayload "1700000100")) := by
    rintro ⟨-, same⟩
    have expiries := congrArg TransferSignedPayload.expiry
      (canonicalizeTransferPayload_injective same)
    exact absurd expiries (by decide)
  rw [signTransferPayload, exampleHmac, if_neg other, if_pos ⟨rfl, rfl⟩]

theorem authenticate_example {expiry signature : String}
    (signed : signTransferPayload exampleHmac (examplePayload expiry) exampleApiKey = signature)
    (valid : transferSchema (examplePayload expiry) signature = true)
    (hex : isHex64 signature = true) :
    authenticate exampleHmac examplePlatform (exampleRequest expiry) = .ok () := by
  have verified : verifyTransferSignature exampleHmac (examplePayload expiry) exampleApiKey
      signature = true := by
    rw [verifyTransferSignature, hex, signed]
    exact decide_eq_true rfl
  have request : exampleRequest expiry =
      ⟨"talos", exampleApiKey, examplePayload expiry, signature⟩ := by
    rw [exampleRequest, signed]
  have known : examplePlatform.verifyAgentApiKey "talos" exampleApiKey = .ok () := by
    simp [examplePlatform]
  have agent : (examplePayload expiry).agent = "talos" := rfl
  simp only [request, authenticate, known, valid, verified, agent]
  rfl

def Authentic (request : TransferRequest) : Prop :=
  authenticate exampleHmac examplePlatform request = .ok ()

theorem examples_authentic : Authentic (exampleRequest "1700000100") ∧
    Authentic (exampleRequest "1700009000") :=
  ⟨authenticate_example signature_first (by decide) (by decide),
    authenticate_example signature_second (by decide) (by decide)⟩

/-- The machine that lets every request in. -/
def trustingMachine : Machine State Event where
  init := exampleMachine.init
  step s
    | .arrive r request =>
        if (s.pending r).isSome then none
        else some (s.set r (some ⟨request, .authenticated⟩))
    | e => step exampleHmac s e

/-- An event that leaves the platform as it is and brings no request that would be refused. -/
def Trusted : Event → Prop
  | .administer _ => False
  | .arrive _ request => Authentic request
  | _ => True

theorem consume_platform (s : State) (r : Nat) (request : TransferRequest) (found : Checked)
    (acknowledged : Bool) : (s.consume r request found acknowledged).platform = s.platform := by
  unfold State.consume
  dsimp only
  split
  · rfl
  · split
    · rfl
    · split <;> rfl

theorem step_trusted {s : State} {e : Event} (platform : s.platform = examplePlatform)
    (trusted : Trusted e) : exampleMachine.step s e = trustingMachine.step s e ∧
      ∀ s', trustingMachine.step s e = some s' → s'.platform = examplePlatform := by
  cases e with
  | administer _ => exact trusted.elim
  | arrive r request =>
      have authentic : authenticate exampleHmac s.platform request = .ok () := by
        rw [platform]
        exact trusted
      constructor
      · simp only [exampleMachine, machine, trustingMachine, step, authentic]
      · intro s' ok
        simp only [trustingMachine] at ok
        split at ok
        · cases ok
        · cases ok
          exact platform
  | tick _ => exact ⟨rfl, fun s' ok => by cases ok; exact platform⟩
  | check r =>
      refine ⟨rfl, fun s' ok => ?_⟩
      simp only [trustingMachine, step] at ok
      split at ok
      · split at ok <;> (cases ok; exact platform)
      · cases ok
  | consume r acknowledged =>
      refine ⟨rfl, fun s' ok => ?_⟩
      simp only [trustingMachine, step] at ok
      split at ok
      · cases ok
        rw [consume_platform, platform]
      · cases ok
  | sendUSDC r =>
      refine ⟨rfl, fun s' ok => ?_⟩
      simp only [trustingMachine, step] at ok
      split at ok <;> cases ok
      exact platform
  | fail r =>
      refine ⟨rfl, fun s' ok => ?_⟩
      simp only [trustingMachine, step] at ok
      split at ok <;> cases ok
      exact platform
  | prune _ =>
      refine ⟨rfl, fun s' ok => ?_⟩
      simp only [trustingMachine, step] at ok
      split at ok <;> cases ok
      exact platform

theorem play_trusted {events : List Event} (trusted : ∀ e ∈ events, Trusted e)
    {h : List (Transition State Event)} {s : State} (platform : s.platform = examplePlatform) :
    exampleMachine.play events (h, s) = trustingMachine.play events (h, s) := by
  induction events generalizing h s with
  | nil => rfl
  | cons e rest ih =>
      obtain ⟨first, others⟩ := List.forall_mem_cons.mp trusted
      obtain ⟨same, keeps⟩ := step_trusted platform first
      rw [Machine.play, Machine.play, same]
      cases next : trustingMachine.step s e with
      | none => exact ih others platform
      | some s' => exact ih others (keeps s' next)

theorem played_trusted {events : List Event} (trusted : ∀ e ∈ events, Trusted e) :
    played events = trustingMachine.play events ([], exampleMachine.init) :=
  play_trusted trusted rfl

theorem transfer_trusted {r : Nat} {expiry : String}
    (authentic : Authentic (exampleRequest expiry)) : ∀ e ∈ transfer r expiry, Trusted e := by
  simp [transfer, Trusted, authentic]

theorem pruning_trusted : ∀ e ∈ pruning, Trusted e := by
  simp only [pruning, List.mem_append]
  rintro e ((mem | mem) | mem)
  · exact transfer_trusted examples_authentic.1 e mem
  · simp at mem
    rcases mem with rfl | rfl <;> trivial
  · exact transfer_trusted examples_authentic.2 e mem

theorem authorizations_used_once_replayed :
    (played (transfer 1 "1700000100")).2.calls.length = 1 ∧
      ((played (transfer 1 "1700000100")).2.calls.map Call.authorization).Nodup := by
  have computed : (played (transfer 1 "1700000100")).2.calls.length = 1 ∧
      ∀ t ∈ (played (transfer 1 "1700000100")).1, Prompt t.pre t.event := by
    rw [played_trusted (transfer_trusted examples_authentic.1)]
    decide +kernel
  exact ⟨computed.1, (authorizations_used_once (played_run _) (example_unforgeable _) computed.2).1⟩

/-- A nonce that was pruned moves money again when it is signed with another expiry. -/
theorem nonce_used_again :
    Reachable exampleMachine (played pruning).2 ∧
      Unforgeable exampleHmac exampleSigned (played pruning).1 ∧
      (∀ t ∈ (played pruning).1, Prompt t.pre t.event) ∧
      ¬ ((played pruning).2.calls.map fun call => call.authorization.key).Nodup := by
  have computed : (∀ t ∈ (played pruning).1, Prompt t.pre t.event) ∧
      ¬ ((played pruning).2.calls.map fun call => call.authorization.key).Nodup := by
    rw [played_trusted pruning_trusted]
    decide +kernel
  exact ⟨⟨_, played_run pruning⟩, example_unforgeable _, computed⟩

end Talos.Transfers
