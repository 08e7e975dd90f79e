import Talos.Database.Machine
import Talos.Database.Table

/-!
# Decisions on approvals

`PATCH /api/talos/:id/approvals/:approvalId`
(`web/src/app/api/talos/[id]/approvals/[approvalId]/route.ts`). A request is checked, recorded on
chain and written by an UPDATE; requests interleave between these. What the checks read of the
tables does not change in between, so they are one step. The message that is signed is the
caller's: no check compares it with the approval, the decision or the stored status.
-/

namespace Talos.Approvals

open Database

/-! ### The route -/

structure Approval where
  talosId : String
  type : String
  title : String
  amount : Option String
  status : String
  decidedAt : Option Nat
  decidedBy : Option String
  txHash : Option String
  deriving DecidableEq, Repr

structure Patron where
  talosId : String
  stellarPublicKey : String
  status : String
  deriving DecidableEq, Repr

/-- Path and body of a request; a member that is missing is empty. -/
structure PatchRequest where
  talosId : String
  approvalId : String
  status : String
  decidedBy : String
  signature : String
  message : String
  deriving DecidableEq, Repr

/-- What the requests find: agents, patrons, and Ed25519 (`verifyStellarSignature`). -/
structure Platform where
  talos : List String
  patrons : List Patron
  approvals : Table String Approval
  verify : (publicKey message signature : String) → Bool

/-- Status and error text of a response. -/
structure Refusal where
  status : Nat
  error : String
  deriving DecidableEq, Repr

variable (p : Platform)

def isActivePatron (talosId publicKey : String) : Bool :=
  p.patrons.any fun patron => patron.talosId = talosId ∧ patron.stellarPublicKey = publicKey ∧
    patron.status = "active"

/-- The checks, in their order. -/
def check (approvals : Table String Approval) (request : PatchRequest) : Except Refusal Unit :=
  if request.talosId ∉ p.talos then .error ⟨404, "TALOS not found"⟩
  else if (approvals request.approvalId).all (·.talosId ≠ request.talosId) then
    .error ⟨404, "Approval not found"⟩
  else if request.status ∉ ["approved", "rejected"] then
    .error ⟨400, "status must be 'approved' or 'rejected'"⟩
  else if request.decidedBy = "" then
    .error ⟨400, "decidedBy (Stellar public key) is required"⟩
  else if request.signature = "" ∨ request.message = "" then
    .error ⟨400, "signature and message are required"⟩
  else if isActivePatron p request.talosId request.decidedBy = false then
    .error ⟨403, "Only active Patrons can approve or reject decisions"⟩
  else if p.verify request.decidedBy request.message request.signature = false then
    .error ⟨403, "Signature verification failed for the deciding patron"⟩
  else .ok ()

/-- A request that has been checked, and what `recordApprovalOnChain` gave: a hash or nothing. -/
structure Pending where
  request : PatchRequest
  onChain : Option (Option String)
  deriving DecidableEq, Repr

structure State where
  approvals : Table String Approval
  pending : Nat → Option Pending

inductive Event where
  | arrive (r : Nat) (request : PatchRequest)
  | record (r : Nat) (txHash : Option String)
  | update (r : Nat) (now : Nat)
  /-- A statement fails, and the answer is 500. -/
  | fail (r : Nat)

/-- The UPDATE. -/
def updated (approvals : Table String Approval) (request : PatchRequest) (txHash : Option String)
    (now : Nat) : Table String Approval :=
  approvals.update (fun id _ => id = request.approvalId) fun row =>
    { row with
      status := request.status
      decidedAt := some now
      decidedBy := some request.decidedBy
      txHash := txHash }

def step (s : State) : Event → Option State
  | .arrive r request =>
      if (s.pending r).isSome then none
      else match check p s.approvals request with
        | .error _ => some s
        | .ok () => some { s with pending := Function.update s.pending r (some ⟨request, none⟩) }
  | .record r txHash =>
      match s.pending r with
      | some ⟨request, none⟩ =>
          some { s with pending := Function.update s.pending r (some ⟨request, some txHash⟩) }
      | _ => none
  | .update r now =>
      match s.pending r with
      | some ⟨request, some txHash⟩ => some
          { approvals := updated s.approvals request txHash now
            pending := Function.update s.pending r none }
      | _ => none
  | .fail r =>
      if (s.pending r).isSome then some { s with pending := Function.update s.pending r none }
      else none

def machine : Machine State Event where
  init := ⟨p.approvals, fun _ => none⟩
  step := step p

/-! ### What a decision should be -/

/-- The request whose decision a step writes. -/
def State.decides (s : State) : Event → Option PatchRequest
  | .update r _ => ((s.pending r).filter (·.onChain.isSome)).map (·.request)
  | _ => none

def decisions : List String := ["approved", "rejected"]

/-- Decided approvals keep their status. -/
def Final (s s' : State) : Prop :=
  ∀ id row, s.approvals id = some row → row.status ∈ decisions →
    (s'.approvals id).map (·.status) = some row.status

/-- The message and the signature of the request are good for this decision only. -/
def Bound (s : State) (request : PatchRequest) : Prop :=
  ∀ talosId approvalId status,
    check p s.approvals
        { request with talosId := talosId, approvalId := approvalId, status := status } = .ok () →
    approvalId = request.approvalId ∧ status = request.status

/-- The step writes another decision into an approval that has one. -/
def Overturns (s : State) (event : Event) : Prop :=
  ∃ request ∈ s.decides event, ∃ row ∈ s.approvals request.approvalId,
    row.status ∈ decisions ∧ row.status ≠ request.status

instance (s : State) : DecidablePred (Overturns s) :=
  fun event => inferInstanceAs (Decidable (∃ request ∈ s.decides event, _))

/-! ### The checks -/

section

variable {p}
variable {s s' : State} {event : Event} {request : PatchRequest}
  {approvals approvals' : Table String Approval}

theorem check_eq_ok : check p approvals request = .ok () ↔
    request.talosId ∈ p.talos ∧
      (∃ row ∈ approvals request.approvalId, row.talosId = request.talosId) ∧
      request.status ∈ decisions ∧ request.decidedBy ≠ "" ∧
      ¬ (request.signature = "" ∨ request.message = "") ∧
      isActivePatron p request.talosId request.decidedBy = true ∧
      p.verify request.decidedBy request.message request.signature = true := by
  have found : (approvals request.approvalId).all (·.talosId ≠ request.talosId) = true ↔
      ¬ ∃ row ∈ approvals request.approvalId, row.talosId = request.talosId := by
    cases approvals request.approvalId <;> simp
  unfold check
  rw [decisions]
  simp only [found]
  split_ifs <;> simp_all

/-- The checks see which agent an approval belongs to, and nothing else of it. -/
theorem check_congr (same : ∀ id, (approvals' id).map (·.talosId) = (approvals id).map (·.talosId))
    (ok : check p approvals request = .ok ()) : check p approvals' request = .ok () := by
  obtain ⟨talos, ⟨row, found, owner⟩, rest⟩ := check_eq_ok.mp ok
  have here := same request.approvalId
  rw [Option.mem_def.mp found, Option.map_some, Option.map_eq_some_iff] at here
  obtain ⟨row', found', owner'⟩ := here
  exact check_eq_ok.mpr ⟨talos, ⟨row', found', owner'.trans owner⟩, rest⟩

/-- A request that passes also passes with the opposite decision. -/
theorem check_opposite (ok : check p approvals request = .ok ()) :
    ∃ status, status ≠ request.status ∧
      check p approvals { request with status := status } = .ok () := by
  obtain ⟨talos, found, -, rest⟩ := check_eq_ok.mp ok
  have either : "approved" ∈ decisions ∧ "rejected" ∈ decisions := by decide
  by_cases approved : request.status = "approved"
  · exact ⟨"rejected", by rw [approved]; decide, check_eq_ok.mpr ⟨talos, found, either.2, rest⟩⟩
  · exact ⟨"approved", fun same => approved same.symm,
      check_eq_ok.mpr ⟨talos, found, either.1, rest⟩⟩

/-! ### Steps -/

theorem decides_eq_some : s.decides event = some request ↔
    ∃ r now txHash, event = .update r now ∧ s.pending r = some ⟨request, some txHash⟩ := by
  cases event with
  | update r now =>
      simp only [State.decides, Option.map_eq_some_iff, Option.filter_eq_some_iff,
        Option.isSome_iff_exists]
      constructor
      · rintro ⟨⟨_, onChain⟩, ⟨found, txHash, rfl⟩, rfl⟩
        exact ⟨r, now, txHash, rfl, found⟩
      · rintro ⟨_, _, txHash, ⟨⟩, found⟩
        exact ⟨_, ⟨found, txHash, rfl⟩, rfl⟩
  | arrive | record | fail =>
      constructor
      · rintro ⟨⟩
      · rintro ⟨_, _, _, ⟨⟩, _⟩

/-- A step writes the decision it has, or no approval. -/
theorem step_approvals (ok : step p s event = some s') :
    (s'.approvals = s.approvals ∧ s.decides event = none) ∨
      ∃ request txHash now, s.decides event = some request ∧
        s'.approvals = updated s.approvals request txHash now := by
  cases event with
  | arrive r request =>
      simp only [step] at ok
      split at ok
      · cases ok
      · split at ok <;> cases ok <;> exact .inl ⟨rfl, rfl⟩
  | record r txHash =>
      simp only [step] at ok
      split at ok <;> cases ok
      exact .inl ⟨rfl, rfl⟩
  | update r now =>
      simp only [step] at ok
      split at ok
      · next request txHash found =>
          cases ok
          exact .inr ⟨request, txHash, now, decides_eq_some.mpr ⟨r, now, txHash, rfl, found⟩, rfl⟩
      · cases ok
  | fail r =>
      simp only [step] at ok
      split at ok <;> cases ok
      exact .inl ⟨rfl, rfl⟩

theorem updated_talosId (txHash : Option String) (now : Nat) (id : String) :
    (updated approvals request txHash now id).map (·.talosId) = (approvals id).map (·.talosId) := by
  rw [updated, Table.update, Option.map_map]
  congr 1
  funext row
  simp only [Function.comp_apply]
  split <;> rfl

theorem step_talosId (ok : step p s event = some s') (id : String) :
    (s'.approvals id).map (·.talosId) = (s.approvals id).map (·.talosId) := by
  rcases step_approvals ok with ⟨same, -⟩ | ⟨_, txHash, now, -, same⟩
  · rw [same]
  · rw [same]
    exact updated_talosId txHash now id

/-- Requests that are being handled have passed the checks. -/
def Checked (p : Platform) (s : State) : Prop :=
  ∀ r pending, s.pending r = some pending → check p s.approvals pending.request = .ok ()

theorem Checked.step (checked : Checked p s) (ok : step p s event = some s') : Checked p s' := by
  intro r pending found
  refine check_congr (step_talosId ok) ?_
  have kept : ∀ {r' value}, (Function.update s.pending r' value) r = some pending →
      value = some pending ∨ s.pending r = some pending := by
    intro r' value now
    by_cases same : r = r'
    · subst same
      exact .inl (by simpa using now)
    · exact .inr (by simpa [same] using now)
  cases event with
  | arrive r' request =>
      simp only [Approvals.step] at ok
      split at ok
      · cases ok
      · split at ok
        · cases ok
          exact checked r pending found
        · next passes =>
            cases ok
            rcases kept found with new | before
            · cases new
              exact passes
            · exact checked r pending before
  | record r' txHash =>
      simp only [Approvals.step] at ok
      split at ok
      · next request here =>
          cases ok
          rcases kept found with new | before
          · cases new
            exact checked r' ⟨request, none⟩ (by assumption)
          · exact checked r pending before
      · cases ok
  | update r' now =>
      simp only [Approvals.step] at ok
      split at ok
      · cases ok
        exact checked r pending ((kept found).resolve_left nofun)
      · cases ok
  | fail r' =>
      simp only [Approvals.step] at ok
      split at ok
      · cases ok
        exact checked r pending ((kept found).resolve_left nofun)
      · cases ok

theorem checked_of_run {h : List (Transition State Event)} (run : Run (machine p) h s) :
    Checked p s :=
  run.invariant (I := Checked p) (fun _ _ found => nomatch found) fun checked ok => checked.step ok

theorem Checked.decides (checked : Checked p s) (is : s.decides event = some request) :
    check p s.approvals request = .ok () := by
  obtain ⟨r, _, _, -, found⟩ := decides_eq_some.mp is
  exact checked r _ found

/-- The UPDATE changes the status of its approval. -/
theorem updated_status (txHash : Option String) (now : Nat) (id : String) :
    (updated approvals request txHash now id).map (·.status) =
      if id = request.approvalId then (approvals id).map fun _ => request.status
      else (approvals id).map (·.status) := by
  rw [updated, Table.update, Option.map_map]
  by_cases same : id = request.approvalId
  · rw [if_pos same]
    congr 1
    funext row
    simp [same]
  · rw [if_neg same]
    congr 1
    funext row
    simp [same]

theorem final_iff (ok : step p s event = some s') : Final s s' ↔ ¬ Overturns s event := by
  rcases step_approvals ok with ⟨same, none_⟩ | ⟨request, txHash, now, is, same⟩
  · constructor
    · rintro - ⟨request, is, -⟩
      rw [none_] at is
      cases is
    · intro _ id row found _
      rw [same, found, Option.map_some]
  · constructor
    · rintro final ⟨request', is', row, found, decided, other⟩
      cases is.symm.trans is'
      have kept := final request.approvalId row found decided
      rw [same, updated_status, if_pos rfl, Option.mem_def.mp found, Option.map_some] at kept
      exact other (Option.some_inj.mp kept).symm
    · intro safe id row found decided
      rw [same, updated_status]
      split
      · next here =>
          subst here
          rw [found, Option.map_some, Option.some_inj]
          by_contra other
          exact safe ⟨request, is, row, found, decided, fun same => other same.symm⟩
      · rw [found, Option.map_some]

/-- No request that passes the checks is bound to its decision. -/
theorem not_bound (ok : check p s.approvals request = .ok ()) : ¬ Bound p s request := by
  intro bound
  obtain ⟨status, other, passes⟩ := check_opposite ok
  exact other (bound request.talosId request.approvalId status passes).2

/-! ### What holds of decisions, and when -/

/-- For every run, and whatever messages the patrons signed: decided approvals stay as they are
exactly if no step overturns one; every decision is authorized by a message that is good for it
only exactly if no decision is written; and who decides is an active patron and signed the
message. -/
theorem decisions_iff {signed : String → Set String}
    (unforgeable : ∀ publicKey message signature, p.verify publicKey message signature = true →
      message ∈ signed publicKey)
    {h : List (Transition State Event)} (run : Run (machine p) h s) :
    ((∀ r ∈ h, Final r.pre r.post) ↔ ∀ r ∈ h, ¬ Overturns r.pre r.event) ∧
    ((∀ r ∈ h, ∀ request ∈ r.pre.decides r.event,
        request.message ∈ signed request.decidedBy ∧ Bound p r.pre request) ↔
      ∀ r ∈ h, r.pre.decides r.event = none) ∧
    ∀ r ∈ h, ∀ request ∈ r.pre.decides r.event,
      request.message ∈ signed request.decidedBy ∧
        isActivePatron p request.talosId request.decidedBy = true := by
  have checked : ∀ r ∈ h, Checked p r.pre := by
    intro r mem
    obtain ⟨later, earlier, rfl⟩ := List.append_of_mem mem
    exact checked_of_run run.split.1
  refine ⟨?_, ?_, ?_⟩
  · exact forall₂_congr fun r mem => final_iff (run.taken mem)
  · constructor
    · intro authorized r mem
      by_contra some_
      obtain ⟨request, is⟩ := Option.ne_none_iff_exists'.mp some_
      exact not_bound ((checked r mem).decides is) (authorized r mem request is).2
    · intro nothing r mem request is
      rw [nothing r mem] at is
      cases is
  · intro r mem request is
    obtain ⟨-, -, -, -, -, patron, valid⟩ := check_eq_ok.mp ((checked r mem).decides is)
    exact ⟨unforgeable _ _ _ valid, patron⟩

end

/-! ### One signature, two decisions -/

def examplePlatform : Platform where
  talos := ["talos"]
  patrons := [⟨"talos", "G-PATRON", "active"⟩]
  approvals id :=
    if id ∈ ["approval-1", "approval-2"] then
      some ⟨"talos", "transaction", "Pay", some "10.000000", "pending", none, none, none⟩
    else none
  verify publicKey message signature :=
    publicKey = "G-PATRON" ∧ message = "I approve approval-1" ∧ signature = "signature"

def exampleRequest (approvalId status : String) : PatchRequest :=
  ⟨"talos", approvalId, status, "G-PATRON", "signature", "I approve approval-1"⟩

def played (events : List Event) : List (Transition State Event) × State :=
  (machine examplePlatform).play events ([], (machine examplePlatform).init)

def request (r : Nat) (approvalId status : String) : List Event :=
  [.arrive r (exampleRequest approvalId status), .record r (some "hash"), .update r 1]

/-- What the patron signed. -/
def exampleSigned (publicKey : String) : Set String :=
  {message | publicKey = "G-PATRON" ∧ message = "I approve approval-1"}

theorem example_unforgeable (publicKey message signature : String)
    (valid : examplePlatform.verify publicKey message signature = true) :
    message ∈ exampleSigned publicKey := by
  obtain ⟨rfl, rfl, -⟩ := of_decide_eq_true valid
  exact ⟨rfl, rfl⟩

theorem decisions_iff_once :
    (played (request 1 "approval-1" "approved")).1.length = 3 ∧
      ∀ r ∈ (played (request 1 "approval-1" "approved")).1, Final r.pre r.post :=
  ⟨by decide, (decisions_iff example_unforgeable (Machine.play_run _ _)).1.mpr
    (by decide)⟩

def reused : List Event :=
  request 1 "approval-1" "approved" ++ request 2 "approval-1" "rejected" ++
    request 3 "approval-2" "approved"

/-- The message that approves one approval rejects it afterwards, and approves another. -/
theorem decided_again :
    Reachable (machine examplePlatform) (played reused).2 ∧
      (¬ ∀ r ∈ (played reused).1, Final r.pre r.post) ∧
      ¬ ∀ r ∈ (played reused).1, ∀ request ∈ r.pre.decides r.event,
        Bound examplePlatform r.pre request := by
  have run := Machine.play_run (machine examplePlatform) reused
  refine ⟨⟨_, run⟩, ?_, ?_⟩
  · intro final
    have safe : ∀ r ∈ (played reused).1, ¬ Overturns r.pre r.event :=
      fun r mem => (final_iff (run.taken mem)).mp (final r mem)
    exact absurd safe (by decide)
  · intro bound
    have passes : ∃ r ∈ (played reused).1, ∃ request ∈ r.pre.decides r.event,
        (check examplePlatform r.pre.approvals request).isOk = true := by decide
    obtain ⟨r, mem, request, is, ok⟩ := passes
    refine not_bound ?_ (bound r mem request is)
    cases passed : check examplePlatform r.pre.approvals request with
    | error refusal =>
        rw [passed] at ok
        cases ok
    | ok => rfl

end Talos.Approvals
