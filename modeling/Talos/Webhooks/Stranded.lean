import Talos.Webhooks.Fencing
import Talos.Webhooks.Rotation
import Talos.Database.Table

/-!
# Deliveries that nobody can claim

The claim of `attemptDelivery` looks for a delivery without a lease by `leased_by = NULL`, which
is unknown of every row. So a delivery whose lease has run out is taken and its request is made,
but one whose lease columns are empty is not: it has had no lease since it was created, and never
gets one.
-/

namespace Talos.Webhooks.Delivery

open Database Soroban
open Rotation (Subscription resolveSigningSecrets)

/-- `status = ANY('pending', 'failed') AND (leased_by = NULL OR leased_by = worker OR
lease_expires_at < now)` -/
def claimCondition (workerId : String) (now : Int) (row : DeliveryRow) : Truth :=
  let retryable : Truth :=
    (sqlEq .unknown (some row.status) (some .pending)).or
      (sqlEq .unknown (some row.status) (some .failed))
  retryable.and ((sqlEq .unknown row.leasedBy none).or
    ((sqlEq .unknown row.leasedBy (some workerId)).or (sqlLt row.leaseExpiresAt (some now))))

/-- The columns of a subscription that a delivery reads. -/
structure Recipient where
  active : Bool
  url : String
  secrets : Subscription

/-- What an attempt meets outside of the deliveries. -/
structure Server where
  enabled : Bool
  subscriptions : String → Option Recipient
  encryptionKey : Nat
  /-- When the secrets are resolved. -/
  signedAt : Int

/-- How an attempt begins, up to the request. -/
inductive Beginning where
  | disabled
  | unclaimed
  | refused (claimed : DeliveryRow) (error : String)
  | requested (claimed : DeliveryRow) (url : String) (secrets : List String)

/-- What follows the claim, up to the request. -/
def Server.proceed (server : Server) (claimed : DeliveryRow) : Beginning :=
  match server.subscriptions claimed.subscriptionId with
  | none => .refused claimed "subscription_not_found"
  | some subscription =>
    if subscription.active = false then .refused claimed "subscription_inactive"
    else
      match resolveSigningSecrets server.encryptionKey subscription.secrets server.signedAt with
      | none => .refused claimed "secret_decrypt_failed"
      | some secrets => .requested claimed subscription.url secrets

/-- `attemptDelivery` of a stored row, up to the request. -/
def attemptDelivery (server : Server) (row : DeliveryRow) (workerId : String)
    (ttlSeconds now : Int) : Beginning :=
  if server.enabled = false then .disabled
  else if (claimCondition workerId now row).Holds then
    server.proceed (row.leased workerId now ttlSeconds)
  else .unclaimed

/-- The row that the attempt has leased. -/
def Beginning.claimed : Beginning → Option DeliveryRow
  | .disabled => none
  | .unclaimed => none
  | .refused claimed _ => some claimed
  | .requested claimed _ _ => some claimed

/-- The lease columns are empty. -/
structure Unleased (row : DeliveryRow) : Prop where
  holder : row.leasedBy = none
  expiry : row.leaseExpiresAt = none

def Expired (now : Int) (row : DeliveryRow) : Prop := ∃ expiry ∈ row.leaseExpiresAt, expiry < now

/-- The delivery may be tried again and nobody holds it. -/
structure Free (now : Int) (row : DeliveryRow) : Prop where
  retryable : row.status = .pending ∨ row.status = .failed
  free : Unleased row ∨ Expired now row

/-- The subscription is found, active, and has a secret to sign with. -/
def Server.Serves (server : Server) (row : DeliveryRow) : Prop :=
  ∃ subscription ∈ server.subscriptions row.subscriptionId, subscription.active = true ∧
    ∃ secrets, resolveSigningSecrets server.encryptionKey subscription.secrets server.signedAt =
      some secrets

variable {config : BackoffConfig} {start : Int} {rows : Table DeliveryId DeliveryRow}
  {s s' : State} {event : Event} {h : List Step} {d : DeliveryId} {server : Server}
  {row : DeliveryRow} {workerId : String} {now : Int}

/-! ### The claim -/

theorem claimCondition_holds : (claimCondition workerId now row).Holds ↔
    (row.status = .pending ∨ row.status = .failed) ∧
      (row.leasedBy = some workerId ∨ Expired now row) := by
  simp only [claimCondition, Expired, Truth.and_holds, Truth.or_holds, sqlEq_some, sqlEq_none,
    sqlLt_holds, Option.some.injEq, reduceCtorEq, false_and, false_or, Option.mem_def,
    exists_eq_left']

/-- The condition that the machine of deliveries claims by. -/
theorem claimCondition_eq_claimable :
    (claimCondition workerId now row).Holds ↔ claimable workerId now row = true := by
  rw [claimCondition_holds, claimable, decide_eq_true_eq, Option.any_eq_true]
  simp only [Expired, Option.mem_def, decide_eq_true_eq]

theorem Unleased.not_claimable (unleased : Unleased row) :
    ¬ (claimCondition workerId now row).Holds := by
  rw [claimCondition_holds, Expired, unleased.holder, unleased.expiry]
  rintro ⟨_, own | ⟨_, absent, _⟩⟩
  · cases own
  · cases absent

/-- Of the deliveries that nobody holds, those with a lease that has run out are claimed. -/
theorem Free.claimCondition_iff (free : Free now row) :
    (claimCondition workerId now row).Holds ↔ row.leaseExpiresAt ≠ none := by
  rcases free.free with unleased | expired
  · constructor
    · exact fun holds => absurd holds unleased.not_claimable
    · exact fun leased => absurd unleased.expiry leased
  · constructor
    · rintro - none
      obtain ⟨expiry, stored, _⟩ := expired
      rw [none] at stored
      cases stored
    · exact fun _ => claimCondition_holds.mpr ⟨free.retryable, .inr expired⟩

/-! ### One attempt -/

theorem proceed_claimed (server : Server) (claimed : DeliveryRow) :
    (server.proceed claimed).claimed = some claimed := by
  unfold Server.proceed
  split
  · rfl
  · split
    · rfl
    · split
      · rfl
      · rfl

/-- The request is made exactly for the subscriptions that can be served. -/
theorem proceed_requested_iff {claimed : DeliveryRow} :
    (∃ url secrets, server.proceed claimed = .requested claimed url secrets) ↔
      server.Serves claimed := by
  unfold Server.proceed Server.Serves
  cases found : server.subscriptions claimed.subscriptionId with
  | none => simp
  | some subscription =>
    cases active : subscription.active with
    | false => simp [active]
    | true =>
      cases resolved : resolveSigningSecrets server.encryptionKey subscription.secrets
          server.signedAt with
      | none => simp [active, resolved]
      | some secrets => simp [active, resolved]

/-- A delivery that nobody holds is leased by whoever attempts it exactly if its lease columns are
not empty. Then its request is made, unless the subscription cannot be served. -/
theorem attempted_iff (free : Free now row) (server : Server) (workerId : String)
    (ttlSeconds : Int) :
    ((attemptDelivery server row workerId ttlSeconds now).claimed =
        some (row.leased workerId now ttlSeconds) ↔
      server.enabled = true ∧ row.leaseExpiresAt ≠ none) ∧
    ((∃ url secrets, attemptDelivery server row workerId ttlSeconds now =
        .requested (row.leased workerId now ttlSeconds) url secrets) ↔
      server.enabled = true ∧ row.leaseExpiresAt ≠ none ∧ server.Serves row) := by
  have claimed : (claimCondition workerId now row).Holds ↔ row.leaseExpiresAt ≠ none :=
    free.claimCondition_iff
  unfold attemptDelivery
  cases enabled : server.enabled with
  | false => simp [Beginning.claimed]
  | true =>
    rw [if_neg Bool.false_ne_true.symm]
    by_cases leased : row.leaseExpiresAt ≠ none
    · rw [if_pos (claimed.mpr leased), proceed_claimed, proceed_requested_iff]
      simp [leased, Server.Serves, DeliveryRow.leased]
    · rw [if_neg (mt claimed.mp leased)]
      simp [Beginning.claimed, leased]

/-! ### All attempts -/

/-- A delivery without a lease is nobody's, and stays as it is. -/
structure Stranded (d : DeliveryId) (row : DeliveryRow) (s : State) : Prop where
  stored : s.rows d = some row
  nobody : ∀ attempt ∈ s.attempts, attempt.deliveryId ≠ d

theorem Stranded.set {a : AttemptId} {attempt : Attempt} {stage : Stage}
    (stranded : Stranded d row s) (found : s.attempts[a]? = some attempt) :
    ∀ other ∈ s.attempts.set a { attempt with stage := stage }, other.deliveryId ≠ d := by
  intro other mem
  rcases List.mem_or_eq_of_mem_set mem with old | rfl
  · exact stranded.nobody other old
  · exact stranded.nobody attempt (List.mem_of_getElem? found)

theorem Stranded.step (stranded : Stranded d row s) (unleased : Unleased row)
    (ok : step config s event = some s') : Stranded d row s' := by
  cases step_effect ok with
  | clock => exact ⟨stranded.stored, stranded.nobody⟩
  | idle => exact stranded
  | claimed d' workerId ttlSeconds now row' _ found free =>
    have other : d ≠ d' := by
      rintro rfl
      obtain rfl := Option.some.inj (stranded.stored.symm.trans found)
      exact unleased.not_claimable (claimCondition_eq_claimable.mpr free)
    refine ⟨?_, ?_⟩
    · exact (Map.set_of_ne _ _ other).trans stranded.stored
    · intro attempt mem
      rcases List.mem_append.mp mem with mem | new
      · exact stranded.nobody attempt mem
      · obtain rfl := List.mem_singleton.mp new
        exact other.symm
  | moved a attempt stage found => exact ⟨stranded.stored, stranded.set found⟩
  | settled a attempt patch found =>
    refine ⟨?_, stranded.set found⟩
    have other := stranded.nobody attempt (List.mem_of_getElem? found)
    rcases settle_row s a attempt patch d with stays | ⟨_, _, same, _⟩
    · exact stays.trans stranded.stored
    · exact absurd same.symm other

/-- In every run, a delivery that is stored without a lease stays as it is: no claim of it succeeds,
and nothing is ever sent. -/
theorem stranded_forever (run : Run (machine config start rows) h s) (stored : rows d = some row)
    (unleased : Unleased row) : Stranded d row s := by
  refine run.invariant (I := Stranded d row) ⟨stored, ?_⟩
    fun stranded ok => stranded.step unleased ok
  intro attempt absent
  cases absent

/-! ### A new delivery -/

/-- The row that `emitWebhookEvent` inserts. The lease columns are left to their default, NULL. -/
def DeliveryRow.emitted (subscriptionId payloadHash : String) (maxAttempts : Nat) (now : Int) :
    DeliveryRow :=
  { subscriptionId, payloadHash, status := .pending, attempts := 0, maxAttempts
    lastStatusCode := none, lastError := none, lastAttemptAt := none, nextAttemptAt := some now
    completedAt := none, responseBody := none, leasedBy := none, leasedAt := none
    leaseExpiresAt := none, fencingToken := 0 }

theorem emitted_free (subscriptionId payloadHash : String) (maxAttempts : Nat) (created now : Int) :
    Free now (.emitted subscriptionId payloadHash maxAttempts created) :=
  ⟨.inl rfl, .inl ⟨rfl, rfl⟩⟩

/-- A server that delivers, and one active subscription. -/
def oneServer : Server where
  enabled := true
  subscriptions _ := some ⟨true, "https://example.com/webhook",
    ⟨"agent", ⟨1, 0, "secret"⟩, none, none, none, 1⟩⟩
  encryptionKey := 1
  signedAt := 10

theorem attempted_iff_overdue : ∃ url secrets,
    attemptDelivery oneServer claimedBefore "w1" 300 10 =
      .requested (claimedBefore.leased "w1" 10 300) url secrets := by
  have free : Free 10 claimedBefore := ⟨.inl rfl, .inr ⟨5, rfl, by decide⟩⟩
  exact (attempted_iff free oneServer "w1" 300).2.mpr
    ⟨rfl, nofun, _, rfl, rfl, ["secret"], rfl⟩

/-- A delivery that was just emitted is due and nobody's, and no claim of it succeeds. -/
theorem emitted_unclaimed :
    Free 10 (.emitted "sub" "hash:approval.approved@agent" 5 0) ∧
    oneServer.Serves (.emitted "sub" "hash:approval.approved@agent" 5 0) ∧
    attemptDelivery oneServer (.emitted "sub" "hash:approval.approved@agent" 5 0) "w1" 300 10 =
      .unclaimed :=
  ⟨emitted_free .., ⟨_, rfl, rfl, ["secret"], rfl⟩, rfl⟩

end Talos.Webhooks.Delivery
