import Talos.Webhooks.Rotation

/-!
# The overlap of a rotation

There is room for one previous secret. A rotation within the grace window of the one
before drops a secret whose announced overlap is not over (`secret_dropped`), and so does
a rotation whose UPDATE replaces another secret than the one it has read. In a run without
such rotations, in which no delivery signs with a copy that a rotation has made stale, a
delivery signs with the current secret and with every retired one until its announced
expiry, unless its rotation was finalized (`overlap_along`).
-/

namespace Talos.Webhooks.Rotation

open Database Soroban

abbrev Step := Transition State Event

variable {config : RotationConfig} {key : Nat} {start : Int} {talosId secret : String} {iv : Nat}
  {s s' : State} {event : Event} {h : List Step} {x : String} {expiry : Int}

/-- The rotation whose UPDATE this step is, with the secret it has read. -/
def updating (t : Step) : Option (RotationCall × Ciphertext) :=
  match t.event with
  | .rotateUpdate c =>
      match t.pre.rotations c with
      | some call =>
          if call.talosId = t.pre.subscription.talosId then
            call.existing.map fun existing => (call, existing)
          else none
      | none => none
  | _ => none

/-- The copy a delivery signs with in this step. -/
def signing (t : Step) : Option Subscription :=
  match t.event with
  | .sign d => t.pre.deliveries d
  | _ => none

def finalizes (t : Step) : Bool :=
  match t.event with
  | .finalizeWebhookSecretRotation talosId => talosId = t.pre.subscription.talosId
  | _ => false

/-! ### What is owed to consumers -/

/-- The step is the UPDATE of a rotation that retires the secret, with this expiry. -/
def Retires (t : Step) (x : String) (expiry : Int) : Prop :=
  ∃ call ∈ updating t, t.pre.subscription.secretCiphertext.plaintext = x ∧
    call.1.previousSecretExpiresAt = expiry

/-- The last rotation before these steps is finalized by one of them, before the next. -/
def Finalized (later : List Step) : Prop :=
  ∃ after u between, later = after ++ u :: between ∧ finalizes u = true ∧
    ∀ t ∈ between, updating t = none

/-- A rotation of the run has retired the secret with this announced expiry and was not
finalized. -/
def Announced (h : List Step) (x : String) (expiry : Int) : Prop :=
  ∃ later t earlier, h = later ++ t :: earlier ∧ Retires t x expiry ∧ ¬ Finalized later

/-- After the run `h` to `s`, consumers may verify with this secret. -/
def Required (h : List Step) (s : State) (x : String) : Prop :=
  s.subscription.secretCiphertext.plaintext = x ∨
    ∃ expiry, Announced h x expiry ∧ s.clock < expiry

/-! ### Steps of one rotation at a time -/

structure Orderly (t : Step) : Prop where
  /-- The secret a rotation replaces is the one it has read. -/
  reads : ∀ call ∈ updating t, call.2 = t.pre.subscription.secretCiphertext
  /-- It finds no previous secret in its grace window. -/
  settled : updating t ≠ none →
    ∀ expiresAt ∈ t.pre.subscription.previousSecretExpiresAt, expiresAt ≤ t.pre.clock
  /-- No rotation has come between the SELECT of a delivery and its signature. -/
  signs : ∀ copy ∈ signing t, copy.secretCiphertext = t.pre.subscription.secretCiphertext ∧
    copy.previousSecretCiphertext = t.pre.subscription.previousSecretCiphertext ∧
    copy.previousSecretExpiresAt = t.pre.subscription.previousSecretExpiresAt

instance (t : Step) : Decidable (Orderly t) :=
  decidable_of_iff
    ((∀ call ∈ updating t, call.2 = t.pre.subscription.secretCiphertext) ∧
      (updating t ≠ none →
        ∀ expiresAt ∈ t.pre.subscription.previousSecretExpiresAt, expiresAt ≤ t.pre.clock) ∧
      ∀ copy ∈ signing t, copy.secretCiphertext = t.pre.subscription.secretCiphertext ∧
        copy.previousSecretCiphertext = t.pre.subscription.previousSecretCiphertext ∧
        copy.previousSecretExpiresAt = t.pre.subscription.previousSecretExpiresAt)
    ⟨fun ⟨reads, settled, signs⟩ => ⟨reads, settled, signs⟩,
      fun ⟨reads, settled, signs⟩ => ⟨reads, settled, signs⟩⟩

/-! ### One step -/

/-- What a step does to the stored subscription. -/
inductive SubscriptionStep (s : State) (event : Event) : Subscription → Prop where
  | stays (idle : ∀ s', updating ⟨s, event, s'⟩ = none ∧ finalizes ⟨s, event, s'⟩ = false) :
      SubscriptionStep s event s.subscription
  | rotated (call : RotationCall) (existing : Ciphertext)
      (updates : ∀ s', updating ⟨s, event, s'⟩ = some (call, existing)) :
      SubscriptionStep s event (s.subscription.rotated call existing)
  | finalized (ends : ∀ s', updating ⟨s, event, s'⟩ = none ∧ finalizes ⟨s, event, s'⟩ = true) :
      SubscriptionStep s event s.subscription.finalized

theorem step_subscription (ok : step config key s event = some s') :
    SubscriptionStep s event s'.subscription := by
  cases event with
  | advance now =>
      simp only [step, Option.ite_none_right_eq_some, Option.some.injEq] at ok
      obtain ⟨-, rfl⟩ := ok
      exact .stays fun _ => ⟨rfl, rfl⟩
  | rotateWebhookSecret c talosId plaintext graceSeconds iv =>
      simp only [step, Option.ite_none_left_eq_some] at ok
      obtain ⟨-, ok⟩ := ok
      split at ok <;> cases ok <;> exact .stays fun _ => ⟨rfl, rfl⟩
  | rotateSelect c =>
      simp only [step] at ok
      split at ok
      · split at ok
        · cases ok
        · split at ok <;> cases ok <;> exact .stays fun _ => ⟨rfl, rfl⟩
      · cases ok
  | rotateUpdate c =>
      simp only [step] at ok
      split at ok
      · next call found =>
          split at ok
          · next existing read =>
              cases ok
              dsimp only
              split
              · next same =>
                  exact .rotated call existing fun _ => by simp [updating, found, same, read]
              · next other =>
                  exact .stays fun _ => ⟨by simp [updating, found, other], rfl⟩
          · cases ok
      · cases ok
  | finalizeWebhookSecretRotation talosId =>
      simp only [step] at ok
      split at ok
      · next same =>
          cases ok
          exact .finalized fun _ => ⟨rfl, decide_eq_true same⟩
      · next other =>
          cases ok
          exact .stays fun _ => ⟨rfl, decide_eq_false other⟩
  | deliverySelect d =>
      simp only [step, Option.ite_none_left_eq_some, Option.some.injEq] at ok
      obtain ⟨-, rfl⟩ := ok
      exact .stays fun _ => ⟨rfl, rfl⟩
  | sign d =>
      simp only [step] at ok
      split at ok
      · cases ok
        exact .stays fun _ => ⟨rfl, rfl⟩
      · cases ok

theorem step_clock (ok : step config key s event = some s') : s.clock ≤ s'.clock := by
  cases event with
  | advance now =>
      simp only [step, Option.ite_none_right_eq_some, Option.some.injEq] at ok
      obtain ⟨later, rfl⟩ := ok
      exact later
  | _ =>
      simp only [step] at ok
      grind

/-! ### Readable ciphertexts -/

/-- Everything stored or about to be was encrypted under the key. -/
structure Sealed (key : Nat) (s : State) : Prop where
  current : s.subscription.secretCiphertext.key = key
  previous : ∀ prevCipher ∈ s.subscription.previousSecretCiphertext, prevCipher.key = key
  calls : ∀ c call, s.rotations c = some call →
    call.newCiphertext.key = key ∧ ∀ existing ∈ call.existing, existing.key = key

theorem Sealed.setRotation {c : RotationId} {call : RotationCall} (sealed : Sealed key s)
    (new : call.newCiphertext.key = key) (read : ∀ existing ∈ call.existing, existing.key = key) :
    Sealed key { s with rotations := s.rotations.set c call } where
  current := sealed.current
  previous := sealed.previous
  calls := by
    intro c' call' found
    rcases Map.set_eq_some.mp found with ⟨-, rfl⟩ | ⟨-, found⟩
    · exact ⟨new, read⟩
    · exact sealed.calls c' call' found

theorem Sealed.removeRotation {c : RotationId} (sealed : Sealed key s) :
    Sealed key { s with rotations := s.rotations.remove c } where
  current := sealed.current
  previous := sealed.previous
  calls c' call' found := sealed.calls c' call' (Map.remove_eq_some.mp found).2

theorem Sealed.step (sealed : Sealed key s) (ok : step config key s event = some s') :
    Sealed key s' := by
  cases event with
  | advance now =>
      simp only [Rotation.step, Option.ite_none_right_eq_some, Option.some.injEq] at ok
      obtain ⟨-, rfl⟩ := ok
      exact ⟨sealed.current, sealed.previous, sealed.calls⟩
  | rotateWebhookSecret c talosId plaintext graceSeconds iv =>
      simp only [Rotation.step, Option.ite_none_left_eq_some] at ok
      obtain ⟨-, ok⟩ := ok
      split at ok
      · cases ok
        exact sealed
      · cases ok
        exact sealed.setRotation rfl fun _ absent => by cases absent
  | rotateSelect c =>
      simp only [Rotation.step] at ok
      split at ok
      · next call found =>
          split at ok
          · cases ok
          · split at ok
            · cases ok
              exact sealed.removeRotation
            · cases ok
              refine sealed.setRotation (sealed.calls c call found).1 fun existing read => ?_
              cases read
              exact sealed.current
      · cases ok
  | rotateUpdate c =>
      simp only [Rotation.step] at ok
      split at ok
      · next call found =>
          split at ok
          · next existing read =>
              cases ok
              have calls := sealed.calls c call found
              have removed := sealed.removeRotation (c := c)
              split
              · refine ⟨calls.1, fun prevCipher previous => ?_, removed.calls⟩
                cases previous
                exact calls.2 existing read
              · exact ⟨sealed.current, sealed.previous, removed.calls⟩
          · cases ok
      · cases ok
  | finalizeWebhookSecretRotation talosId =>
      simp only [Rotation.step] at ok
      split at ok
      · cases ok
        exact ⟨sealed.current, fun _ absent => (by cases absent), sealed.calls⟩
      · cases ok
        exact sealed
  | deliverySelect d =>
      simp only [Rotation.step, Option.ite_none_left_eq_some, Option.some.injEq] at ok
      obtain ⟨-, rfl⟩ := ok
      exact ⟨sealed.current, sealed.previous, sealed.calls⟩
  | sign d =>
      simp only [Rotation.step] at ok
      split at ok
      · cases ok
        exact ⟨sealed.current, sealed.previous, sealed.calls⟩
      · cases ok

/-! ### The previous slot -/

/-- A secret that is still announced is in the previous slot, and no rotation has come
since. -/
def Kept (h : List Step) (s : State) : Prop :=
  ∀ later t earlier x expiry, h = later ++ t :: earlier → Retires t x expiry →
    ¬ Finalized later → s.clock < expiry →
    (∀ u ∈ later, updating u = none) ∧
      (∃ prevCipher, s.subscription.previousSecretCiphertext = some prevCipher ∧
        prevCipher.plaintext = x) ∧
      s.subscription.previousSecretExpiresAt = some expiry

theorem Finalized.cons {later : List Step} (t : Step) (finalized : Finalized later) :
    Finalized (t :: later) := by
  obtain ⟨after, u, between, rfl, ends, idle⟩ := finalized
  exact ⟨t :: after, u, between, rfl, ends, idle⟩

theorem Kept.step (kept : Kept h s) (ok : step config key s event = some s')
    (orderly : Orderly ⟨s, event, s'⟩) : Kept (⟨s, event, s'⟩ :: h) s' := by
  intro later t earlier x expiry shape retires unfinalized current
  have change := step_subscription ok
  cases later with
  | nil =>
      cases shape
      obtain ⟨call, updates, rfl, rfl⟩ := retires
      have reads := orderly.reads call updates
      generalize stored : s'.subscription = subscription at change
      cases change with
      | stays idle => rw [(idle s').1] at updates; cases updates
      | finalized ends => rw [(ends s').1] at updates; cases updates
      | rotated call' existing updates' =>
          rw [updates' s'] at updates
          cases updates
          exact ⟨fun _ absent => (by cases absent),
            ⟨existing, rfl, congrArg Ciphertext.plaintext reads⟩, rfl⟩
  | cons u later =>
      cases shape
      have clock := step_clock ok
      obtain ⟨idle, ⟨prevCipher, stored, plain⟩, expires⟩ := kept later t earlier x expiry rfl
        retires (fun finalized => unfinalized (finalized.cons _)) (by omega)
      generalize same : s'.subscription = subscription at change
      cases change with
      | stays none =>
          refine ⟨?_, ⟨prevCipher, stored, plain⟩, expires⟩
          intro v mem
          rcases List.mem_cons.mp mem with rfl | mem
          · exact (none s').1
          · exact idle v mem
      | rotated call existing updates =>
          have past : expiry ≤ s.clock :=
            orderly.settled (by rw [updates]; exact Option.some_ne_none _) expiry expires
          omega
      | finalized ends =>
          exact absurd ⟨[], _, later, rfl, (ends s').2, idle⟩ unfinalized

/-- In a run of orderly steps, every delivery signs with the current secret and with each
retired one until its announced expiry, unless its rotation was finalized. -/
theorem overlap_along (run : Run (machine config key start talosId secret iv) h s)
    (each : ∀ t ∈ h, Orderly t) :
    ∀ later t earlier copy, h = later ++ t :: earlier → signing t = some copy →
      ∃ secrets, resolveSigningSecrets key copy t.pre.clock = some secrets ∧
        ∀ x, Required earlier t.pre x → x ∈ secrets := by
  rintro later t earlier copy rfl signs
  obtain ⟨before, ok, -⟩ := run.split
  have each' : ∀ u ∈ earlier, Orderly u := fun u mem =>
    each u (List.mem_append_right _ (List.mem_cons_of_mem _ mem))
  have sealed : Sealed key t.pre := before.invariant
    ⟨rfl, fun _ absent => (by cases absent), fun _ _ absent => (by cases absent)⟩
    fun sealed ok => sealed.step ok
  have kept : Kept earlier t.pre := by
    refine before.history each' ?_ fun kept ok orderly => kept.step ok orderly
    intro later t earlier x expiry shape
    exact absurd shape (by simp)
  obtain ⟨current, previous, expires⟩ := (each t (by simp)).signs copy signs
  unfold resolveSigningSecrets decryptSecret
  rw [current, previous, expires, if_pos sealed.current, Option.map_some]
  refine ⟨_, rfl, fun x required => ?_⟩
  rcases required with rfl | ⟨expiry, ⟨later', u, earlier', shape, retires, unfinalized⟩, now⟩
  · split
    · split
      · exact List.mem_cons_self
      · exact List.mem_cons_self
    · exact List.mem_cons_self
  · obtain ⟨-, ⟨prevCipher, stored, rfl⟩, announced⟩ :=
      kept later' u earlier' x expiry shape retires unfinalized now
    simp [stored, announced, now, sealed.previous prevCipher stored]

/-! ### Rotations one after the other -/

def dayConfig : RotationConfig := ⟨86400, by decide, by decide⟩

def firstSecret : String := "whsec_first_secret"
def secondSecret : String := "whsec_second_secret"
def thirdSecret : String := "whsec_third_secret"

def webhook : Machine State Event := machine dayConfig 7 0 "agent" firstSecret 0

def rotation (c : RotationId) (secret : String) : List Event :=
  [.rotateWebhookSecret c "agent" secret (some 300) (c + 1), .rotateSelect c, .rotateUpdate c]

def delivery (d : SigningId) : List Event := [.deliverySelect d, .sign d]

/-- The second rotation comes when the overlap of the first has ended. -/
def spacedRun : List Step × State :=
  webhook.play (rotation 0 secondSecret ++ delivery 0 ++ [.advance 300000] ++
    rotation 1 thirdSecret ++ delivery 1) ([], webhook.init)

theorem overlap_along_spaced :
    Run webhook spacedRun.1 spacedRun.2 ∧ (∀ t ∈ spacedRun.1, Orderly t) ∧
      ∀ later t earlier copy, spacedRun.1 = later ++ t :: earlier → signing t = some copy →
        ∃ secrets, resolveSigningSecrets 7 copy t.pre.clock = some secrets ∧
          ∀ x, Required earlier t.pre x → x ∈ secrets :=
  have each : ∀ t ∈ spacedRun.1, Orderly t := by decide
  ⟨Machine.play_run .., each, overlap_along (Machine.play_run ..) each⟩

/-- The second rotation comes within the overlap of the first. -/
def hastyRun : List Step × State :=
  webhook.play (rotation 0 secondSecret ++ rotation 1 thirdSecret ++ [.deliverySelect 0])
    ([], webhook.init)

theorem secret_dropped :
    ∃ later t earlier s copy secrets, Run webhook (later ++ t :: earlier) s ∧
      signing t = some copy ∧ resolveSigningSecrets 7 copy t.pre.clock = some secrets ∧
      Required earlier t.pre firstSecret ∧ firstSecret ∉ secrets := by
  have signed : webhook.step hastyRun.2 (.sign 0) =
      some { hastyRun.2 with deliveries := hastyRun.2.deliveries.remove 0 } := rfl
  have unfinalized : ¬ Finalized (hastyRun.1.take 4) := by
    rintro ⟨after, u, between, shape, ends, -⟩
    have none : ∀ u ∈ hastyRun.1.take 4, finalizes u = false := by decide
    rw [none u (by rw [shape]; simp)] at ends
    cases ends
  refine ⟨[], _, hastyRun.1, _, _, _, .step (Machine.play_run ..) signed, rfl, rfl,
    .inr ⟨300000, ⟨hastyRun.1.take 4, _, hastyRun.1.drop 5, rfl, ?_, unfinalized⟩, by decide⟩,
    by decide⟩
  exact ⟨_, rfl, rfl, rfl⟩

end Talos.Webhooks.Rotation
