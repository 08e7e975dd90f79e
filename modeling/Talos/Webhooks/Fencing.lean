import Talos.Webhooks.Delivery

/-!
# Fencing of deliveries

Each claim of a delivery issues a new token, and the writes that follow name it. So the
outcome of an attempt whose token is not the latest changes nothing, attempts are only
counted up, and a delivery that is delivered or dead-lettered stays as it is. A request is
not guarded: an attempt that has claimed the delivery before may still send it
(`sent_after_delivery`), but only once its token is no longer the latest (`fenced`).
-/

namespace Talos.Webhooks.Delivery

open Database Soroban

abbrev Step := Transition State Event

variable {config : BackoffConfig} {start : Int} {rows : Table DeliveryId DeliveryRow}
  {s s' t : State} {event : Event} {h : List Step} {d : DeliveryId} {a : AttemptId}
  {row row' : DeliveryRow} {attempt : Attempt}

/-! ### One step -/

/-- The attempt whose outcome or refusal this step writes. -/
def writing (t : Step) : Option Attempt :=
  match t.event with
  | .record a _ => t.pre.attempts[a]?
  | .markDeliveryFailed a => t.pre.attempts[a]?
  | _ => none

/-- The attempt whose request this step sends. -/
def sending (t : Step) : Option Attempt :=
  match t.event with
  | .send a => t.pre.attempts[a]?
  | _ => none

/-- The write at the end of an attempt. -/
inductive Patch (s : State) (attempt : Attempt) : (DeliveryRow → DeliveryRow) → Prop where
  | recorded (outcome : RequestOutcome) (jitter : Nat)
      (stage : attempt.stage = .responded outcome) :
      Patch s attempt fun row => row.recorded attempt.claimed outcome s.clock jitter
  | markedFailed (error : String) (stage : attempt.stage = .refused error) :
      Patch s attempt fun row => row.markedFailed error s.clock

/-- What a step does to the deliveries and to the attempts. -/
inductive Effect (s : State) (event : Event) : State → Prop where
  | clock (now : Int) (later : s.clock ≤ now) : Effect s event { s with clock := now }
  | idle : Effect s event s
  | claimed (d : DeliveryId) (workerId : String) (ttlSeconds now : Int) (row : DeliveryRow)
      (claims : event = .claim d workerId ttlSeconds now) (found : s.rows d = some row)
      (free : claimable workerId now row = true) :
      Effect s event
        { s with
          rows := s.rows.set d (row.leased workerId now ttlSeconds)
          attempts := s.attempts ++ [⟨d, row.leased workerId now ttlSeconds, .loading⟩] }
  | moved (a : AttemptId) (attempt : Attempt) (stage : Stage)
      (found : s.attempts[a]? = some attempt)
      (open' : attempt.stage ≠ .ended) (still : stage ≠ .ended) :
      Effect s event (s.setStage a attempt stage)
  | settled (a : AttemptId) (attempt : Attempt) (patch : DeliveryRow → DeliveryRow)
      (found : s.attempts[a]? = some attempt) (writes : ∀ s', writing ⟨s, event, s'⟩ = some attempt)
      (patches : Patch s attempt patch) : Effect s event (s.settle a attempt patch)

theorem step_effect (ok : step config s event = some s') : Effect s event s' := by
  cases event with
  | advance now =>
      simp only [step, Option.ite_none_right_eq_some, Option.some.injEq] at ok
      obtain ⟨later, rfl⟩ := ok
      exact .clock now later
  | claim d workerId ttlSeconds now =>
      simp only [step, Option.ite_none_right_eq_some, Option.some.injEq] at ok
      obtain ⟨-, rfl⟩ := ok
      unfold State.claim
      split
      · next row found =>
          split
          · next free => exact .claimed d workerId ttlSeconds now row rfl found free
          · exact .idle
      · exact .idle
  | load a refusal =>
      simp only [step] at ok
      split at ok
      · next attempt found =>
          split at ok
          · next stage =>
              cases ok
              refine .moved a attempt _ found (by simp [stage]) ?_
              split <;> exact Stage.noConfusion
          · cases ok
      · cases ok
  | send a =>
      simp only [step] at ok
      split at ok
      · next attempt found =>
          split at ok
          · next stage =>
              cases ok
              exact .moved a attempt _ found (by simp [stage]) Stage.noConfusion
          · cases ok
      · cases ok
  | respond a outcome =>
      simp only [step] at ok
      split at ok
      · next attempt found =>
          split at ok
          · next stage =>
              cases ok
              exact .moved a attempt _ found (by simp [stage]) Stage.noConfusion
          · cases ok
      · cases ok
  | record a jitter =>
      simp only [step] at ok
      split at ok
      · next attempt found =>
          split at ok
          · next outcome stage =>
              split at ok
              · cases ok
                exact .settled a attempt _ found (fun _ => found) (.recorded outcome jitter stage)
              · cases ok
          · cases ok
      · cases ok
  | markDeliveryFailed a =>
      simp only [step] at ok
      split at ok
      · next attempt found =>
          split at ok
          · next error stage =>
              cases ok
              exact .settled a attempt _ found (fun _ => found) (.markedFailed error stage)
          · cases ok
      · cases ok

theorem settle_row (s : State) (a : AttemptId) (attempt : Attempt)
    (patch : DeliveryRow → DeliveryRow) (d : DeliveryId) :
    (s.settle a attempt patch).rows d = s.rows d ∨
      ∃ row, s.rows d = some row ∧ d = attempt.deliveryId ∧
        row.fencingToken = attempt.claimed.fencingToken ∧
        (s.settle a attempt patch).rows d = some (patch row) := by
  rcases Table.update_cases s.rows (fun d row => d = attempt.deliveryId ∧
    row.fencingToken = attempt.claimed.fencingToken) patch d with stays | ⟨row, found, hit, changed⟩
  · exact .inl stays
  · obtain ⟨same, token⟩ := of_decide_eq_true hit
    exact .inr ⟨row, found, same, token, changed⟩

/-- A patch leaves the token, and counts the attempt or leaves the count. -/
theorem Patch.patched {patch : DeliveryRow → DeliveryRow} (patches : Patch s attempt patch)
    (row : DeliveryRow) : (patch row).fencingToken = row.fencingToken ∧
      ((patch row).attempts = row.attempts ∨
        (patch row).attempts = attempt.claimed.attempts + 1) := by
  cases patches with
  | recorded outcome jitter =>
      unfold DeliveryRow.recorded
      dsimp only
      split <;> exact ⟨rfl, .inr rfl⟩
  | markedFailed error => exact ⟨rfl, .inl rfl⟩

theorem Patch.open {patch : DeliveryRow → DeliveryRow} (patches : Patch s attempt patch) :
    attempt.stage ≠ .ended := by
  cases patches with
  | recorded outcome jitter stage => simp [stage]
  | markedFailed error stage => simp [stage]

/-! ### Tokens and attempts -/

structure Fenced (s : State) : Prop where
  /-- A token that was issued is the latest of its delivery, or an earlier one. -/
  issued : ∀ (a : AttemptId) (attempt : Attempt), s.attempts[a]? = some attempt →
    ∃ row, s.rows attempt.deliveryId = some row ∧
      attempt.claimed.fencingToken ≤ row.fencingToken
  distinct : ∀ (a a' : AttemptId) (attempt attempt' : Attempt),
    s.attempts[a]? = some attempt → s.attempts[a']? = some attempt' →
    attempt.deliveryId = attempt'.deliveryId →
    attempt.claimed.fencingToken = attempt'.claimed.fencingToken → a = a'
  /-- While the attempt with the latest token is under way, the row waits for it. -/
  latest : ∀ (a : AttemptId) (attempt : Attempt) (row : DeliveryRow),
    s.attempts[a]? = some attempt → attempt.stage ≠ .ended →
    s.rows attempt.deliveryId = some row →
    attempt.claimed.fencingToken = row.fencingToken →
    row.attempts = attempt.claimed.attempts ∧ row.status.terminal = false

theorem claimable_open {workerId : String} {now : Int} (free : claimable workerId now row = true) :
    row.status.terminal = false := by
  obtain ⟨status, -⟩ := of_decide_eq_true free
  rcases status with status | status <;> rw [status] <;> rfl

/-- The attempt at a number after an attempt has moved. -/
theorem setStage_attempt {stage : Stage} {a' : AttemptId} {attempt' : Attempt}
    (found : s.attempts[a]? = some attempt)
    (found' : (s.setStage a attempt stage).attempts[a']? = some attempt') :
    ∃ old, s.attempts[a']? = some old ∧ attempt'.deliveryId = old.deliveryId ∧
      attempt'.claimed = old.claimed ∧
      (attempt'.stage = old.stage ∧ a' ≠ a ∨ a' = a ∧ attempt'.stage = stage) := by
  unfold State.setStage at found'
  rw [List.getElem?_set] at found'
  split at found'
  · next same =>
      subst same
      split at found'
      · cases found'
        exact ⟨attempt, found, rfl, rfl, .inr ⟨rfl, rfl⟩⟩
      · cases found'
  · next other => exact ⟨attempt', found', rfl, rfl, .inl ⟨rfl, fun same => other same.symm⟩⟩

theorem Fenced.moved {stage : Stage} (fenced : Fenced s) (found : s.attempts[a]? = some attempt)
    (open' : attempt.stage ≠ .ended) : Fenced (s.setStage a attempt stage) where
  issued := by
    intro a' attempt' found'
    obtain ⟨old, was, delivery, claimed, -⟩ := setStage_attempt found found'
    rw [delivery, claimed]
    exact fenced.issued a' old was
  distinct := by
    intro a₁ a₂ attempt₁ attempt₂ found₁ found₂ same token
    obtain ⟨old₁, was₁, delivery₁, claimed₁, -⟩ := setStage_attempt found found₁
    obtain ⟨old₂, was₂, delivery₂, claimed₂, -⟩ := setStage_attempt found found₂
    rw [delivery₁, delivery₂] at same
    rw [claimed₁, claimed₂] at token
    exact fenced.distinct a₁ a₂ old₁ old₂ was₁ was₂ same token
  latest := by
    intro a' attempt' row found' running stored token
    obtain ⟨old, was, delivery, claimed, stages⟩ := setStage_attempt found found'
    rw [delivery] at stored
    rw [claimed] at token ⊢
    refine fenced.latest a' old row was ?_ stored token
    rcases stages with ⟨same, -⟩ | ⟨rfl, -⟩
    · rwa [← same]
    · rw [found] at was
      cases was
      exact open'

theorem Fenced.settled {patch : DeliveryRow → DeliveryRow} (fenced : Fenced s)
    (found : s.attempts[a]? = some attempt) (patches : Patch s attempt patch) :
    Fenced (s.settle a attempt patch) := by
  have moved : Fenced (s.setStage a attempt .ended) := fenced.moved found patches.open
  refine ⟨?_, moved.distinct, ?_⟩
  · intro a' attempt' found'
    obtain ⟨row, stored, le⟩ := moved.issued a' attempt' found'
    rcases settle_row s a attempt patch attempt'.deliveryId with stays | ⟨row', was, -, -, now⟩
    · exact ⟨row, stays.trans stored, le⟩
    · cases was.symm.trans stored
      exact ⟨_, now, (patches.patched row).1 ▸ le⟩
  · intro a' attempt' row found' running stored token
    rcases settle_row s a attempt patch attempt'.deliveryId with
      stays | ⟨old, was, same, latest, now⟩
    · exact moved.latest a' attempt' row found' running (stays.symm.trans stored) token
    · cases now.symm.trans stored
      rw [(patches.patched old).1, latest] at token
      obtain ⟨before, was', delivery, claimed, stages⟩ := setStage_attempt found found'
      rw [delivery] at same
      rw [claimed] at token
      cases fenced.distinct a' a before attempt was' found same token
      rcases stages with ⟨-, other⟩ | ⟨-, ended⟩
      · exact absurd rfl other
      · exact absurd ended running

theorem append_attempt {attempts : List Attempt} {new : Attempt}
    (found : (attempts ++ [new])[a]? = some attempt) :
    attempts[a]? = some attempt ∨ a = attempts.length ∧ attempt = new := by
  rcases Nat.lt_trichotomy a attempts.length with old | rfl | beyond
  · rw [List.getElem?_append_left old] at found
    exact .inl found
  · rw [List.getElem?_concat_length] at found
    cases found
    exact .inr ⟨rfl, rfl⟩
  · rw [List.getElem?_eq_none (by simp; omega)] at found
    cases found

theorem Fenced.claimed {workerId : String} {ttlSeconds now : Int} (fenced : Fenced s)
    (found : s.rows d = some row) (free : claimable workerId now row = true) :
    Fenced { s with
      rows := s.rows.set d (row.leased workerId now ttlSeconds)
      attempts := s.attempts ++ [⟨d, row.leased workerId now ttlSeconds, .loading⟩] } := by
  -- The tokens issued before are those of the row before, or less.
  have earlier : ∀ (a : AttemptId) (attempt : Attempt), s.attempts[a]? = some attempt →
      attempt.deliveryId = d → attempt.claimed.fencingToken ≤ row.fencingToken := by
    intro a attempt found' same
    obtain ⟨row', stored, le⟩ := fenced.issued a attempt found'
    rw [same, found] at stored
    cases stored
    exact le
  refine ⟨?_, ?_, ?_⟩
  · intro a attempt found'
    rcases append_attempt found' with old | ⟨-, rfl⟩
    · by_cases same : attempt.deliveryId = d
      · refine ⟨_, by rw [same]; exact Map.set_self .., ?_⟩
        exact Nat.le_succ_of_le (earlier a attempt old same)
      · obtain ⟨row', stored, le⟩ := fenced.issued a attempt old
        exact ⟨row', (Map.set_of_ne _ _ same).trans stored, le⟩
    · exact ⟨_, Map.set_self .., Nat.le_refl _⟩
  · intro a a' attempt attempt' found' found'' same token
    rcases append_attempt found' with old | ⟨rfl, rfl⟩
    · rcases append_attempt found'' with old' | ⟨rfl, rfl⟩
      · exact fenced.distinct a a' attempt attempt' old old' same token
      · have le := earlier a attempt old same
        have issued : attempt.claimed.fencingToken = row.fencingToken + 1 := token
        omega
    · rcases append_attempt found'' with old' | ⟨rfl, rfl⟩
      · have le := earlier a' attempt' old' same.symm
        have issued : row.fencingToken + 1 = attempt'.claimed.fencingToken := token
        omega
      · rfl
  · intro a attempt row' found' running stored token
    rcases append_attempt found' with old | ⟨rfl, rfl⟩
    · by_cases same : attempt.deliveryId = d
      · rw [same] at stored
        cases (Map.set_self ..).symm.trans stored
        have le := earlier a attempt old same
        have issued : attempt.claimed.fencingToken = row.fencingToken + 1 := token
        omega
      · exact fenced.latest a attempt row' old running ((Map.set_of_ne _ _ same).symm.trans stored)
          token
    · cases (Map.set_self ..).symm.trans stored
      have kept : row.status.terminal = false := claimable_open free
      exact ⟨rfl, kept⟩

theorem Fenced.step (fenced : Fenced s) (ok : step config s event = some s') : Fenced s' := by
  have effect := step_effect ok
  cases effect with
  | clock | idle => exact ⟨fenced.issued, fenced.distinct, fenced.latest⟩
  | claimed d workerId ttlSeconds now row _ found free => exact fenced.claimed found free
  | moved a attempt stage found open' => exact fenced.moved found open'
  | settled a attempt patch found writes patches => exact fenced.settled found patches

theorem fenced_of_reachable (reach : Reachable (machine config start rows) s) : Fenced s := by
  refine reach.invariant ⟨?_, ?_, ?_⟩ fun fenced ok => fenced.step ok
  · intro a attempt absent
    cases absent
  · intro a a' attempt attempt' absent
    cases absent
  · intro a attempt row absent
    cases absent

/-! ### What a step leaves -/

/-- A write under a token that is not the latest changes no row. -/
theorem writing_superseded (ok : step config s event = some s')
    (writes : writing ⟨s, event, s'⟩ = some attempt)
    (superseded : ∀ row, s.rows attempt.deliveryId = some row →
      attempt.claimed.fencingToken ≠ row.fencingToken) (d : DeliveryId) :
    s'.rows d = s.rows d := by
  have effect := step_effect ok
  cases effect with
  | clock | idle | moved => rfl
  | claimed d' workerId ttlSeconds now row claims =>
      cases claims
      cases writes
  | settled a attempt' patch found writes' patches =>
      cases (writes' _).symm.trans writes
      rcases settle_row s a attempt patch d with stays | ⟨row, stored, rfl, token, -⟩
      · exact stays
      · exact absurd token.symm (superseded row stored)

theorem step_attempts (fenced : Fenced s) (ok : step config s event = some s')
    (found : s.rows d = some row) (found' : s'.rows d = some row') :
    row.attempts ≤ row'.attempts := by
  have effect := step_effect ok
  cases effect with
  | clock | idle | moved =>
      cases found.symm.trans found'
      exact Nat.le_refl _
  | claimed d' workerId ttlSeconds now old _ found₀ =>
      rcases Map.set_eq_some.mp found' with ⟨rfl, rfl⟩ | ⟨-, same⟩
      · cases found.symm.trans found₀
        exact Nat.le_refl _
      · cases found.symm.trans same
        exact Nat.le_refl _
  | settled a attempt patch running _ patches =>
      rcases settle_row s a attempt patch d with stays | ⟨old, stored, rfl, token, now⟩
      · cases found.symm.trans (stays.symm.trans found')
        exact Nat.le_refl _
      · cases found.symm.trans stored
        cases now.symm.trans found'
        have waits := (fenced.latest a attempt row running patches.open found token.symm).1
        rcases (patches.patched row).2 with same | counted
        · exact Nat.le_of_eq same.symm
        · omega

theorem terminal_step (fenced : Fenced s) (ok : step config s event = some s')
    (found : s.rows d = some row) (terminal : row.status.terminal = true) :
    s'.rows d = some row := by
  have effect := step_effect ok
  cases effect with
  | clock | idle | moved => exact found
  | claimed d' workerId ttlSeconds now old _ found₀ free =>
      have other : d ≠ d' := by
        rintro rfl
        cases found.symm.trans found₀
        rw [claimable_open free] at terminal
        cases terminal
      exact (Map.set_of_ne _ _ other).trans found
  | settled a attempt patch running _ patches =>
      rcases settle_row s a attempt patch d with stays | ⟨old, stored, rfl, token, -⟩
      · exact stays.trans found
      · cases found.symm.trans stored
        have waits := (fenced.latest a attempt row running patches.open found token.symm).2
        rw [waits] at terminal
        cases terminal

theorem terminal_steps (reach : Reachable (machine config start rows) s)
    (steps : Steps (machine config start rows) s h t) (found : s.rows d = some row)
    (terminal : row.status.terminal = true) : t.rows d = some row := by
  have both : Fenced t ∧ t.rows d = some row :=
    steps.invariant (I := fun t => Fenced t ∧ t.rows d = some row)
      ⟨fenced_of_reachable reach, found⟩ fun ⟨fenced, found⟩ ok =>
        ⟨fenced.step ok, terminal_step fenced ok found terminal⟩
  exact both.2

/-- A request that is sent for a delivery in a terminal state carries an earlier token. -/
theorem sending_superseded (fenced : Fenced s) (ok : step config s event = some s')
    (sends : sending ⟨s, event, s'⟩ = some attempt)
    (found : s.rows attempt.deliveryId = some row) (terminal : row.status.terminal = true) :
    attempt.claimed.fencingToken < row.fencingToken := by
  cases event with
  | send a =>
      change s.attempts[a]? = some attempt at sends
      have running : attempt.stage ≠ .ended := by
        simp only [step, sends, Option.ite_none_right_eq_some] at ok
        rw [ok.1]
        exact Stage.noConfusion
      obtain ⟨row', stored, le⟩ := fenced.issued a attempt sends
      cases found.symm.trans stored
      refine Nat.lt_of_le_of_ne le fun latest => ?_
      rw [(fenced.latest a attempt row sends running found latest).2] at terminal
      cases terminal
  | _ => cases sends

/-- Whatever the interleaving: a write under an earlier token changes nothing, attempts do
not decrease, and a delivery in a terminal state stays as it is, while a request for it is
only sent under an earlier token. -/
theorem fenced (run : Run (machine config start rows) h s) :
    (∀ t ∈ h, ∀ attempt, writing t = some attempt →
      (∀ row, t.pre.rows attempt.deliveryId = some row →
        attempt.claimed.fencingToken ≠ row.fencingToken) →
      ∀ d, t.post.rows d = t.pre.rows d) ∧
    (∀ t ∈ h, ∀ d row row', t.pre.rows d = some row → t.post.rows d = some row' →
      row.attempts ≤ row'.attempts) ∧
    ∀ t ∈ h, ∀ d row, t.pre.rows d = some row → row.status.terminal = true →
      t.post.rows d = some row ∧ s.rows d = some row ∧
        ∀ attempt, sending t = some attempt → attempt.deliveryId = d →
          attempt.claimed.fencingToken < row.fencingToken := by
  refine ⟨fun t mem attempt writes => writing_superseded (run.taken mem) writes, ?_, ?_⟩
  · intro t mem d row row' found found'
    obtain ⟨later, earlier, rfl⟩ := List.append_of_mem mem
    obtain ⟨before, ok, -⟩ := run.split
    exact step_attempts (fenced_of_reachable ⟨_, before⟩) ok found found'
  · intro t mem d row found terminal
    obtain ⟨later, earlier, rfl⟩ := List.append_of_mem mem
    obtain ⟨before, ok, after⟩ := run.split
    have reach : Reachable (machine config start rows) t.pre := ⟨_, before⟩
    have stays := terminal_step (fenced_of_reachable reach) ok found terminal
    refine ⟨stays, terminal_steps (reach.step ok) after stays terminal, ?_⟩
    rintro attempt sends rfl
    exact sending_superseded (fenced_of_reachable reach) ok sends found terminal

/-! ### A request after the delivery -/

def claimedBefore : DeliveryRow :=
  { subscriptionId := "sub", payloadHash := "hash:approval.approved@agent", status := .pending
    attempts := 0, maxAttempts := 5, lastStatusCode := none, lastError := none
    lastAttemptAt := none, nextAttemptAt := some 0, completedAt := none, responseBody := none
    leasedBy := some "w", leasedAt := some 0, leaseExpiresAt := some 5, fencingToken := 1 }

def oneDelivery : Machine State Event :=
  machine ⟨1000, 60000⟩ 10 (Map.empty.set "d" claimedBefore)

/-- Worker 0 stops between its claim and its request; worker 1 takes the delivery and
delivers it. -/
def overtakenRun : List Step × State :=
  oneDelivery.play
    [.claim "d" "w0" 1 10, .load 0 none, .advance 2000, .claim "d" "w1" 300 2000, .load 1 none,
      .send 1, .respond 1 ⟨some 200, none, none⟩, .record 1 1000]
    ([], oneDelivery.init)

theorem fenced_overtaken :
    Run oneDelivery overtakenRun.1 overtakenRun.2 ∧
      (∀ t ∈ overtakenRun.1, ∀ d row row', t.pre.rows d = some row → t.post.rows d = some row' →
        row.attempts ≤ row'.attempts) ∧
      ∀ t ∈ overtakenRun.1, ∀ d row, t.pre.rows d = some row → row.status.terminal = true →
        t.post.rows d = some row ∧ overtakenRun.2.rows d = some row ∧
          ∀ attempt, sending t = some attempt → attempt.deliveryId = d →
            attempt.claimed.fencingToken < row.fencingToken :=
  ⟨Machine.play_run .., (fenced (Machine.play_run ..)).2⟩

theorem sent_after_delivery :
    ∃ t h s attempt row, Run oneDelivery (t :: h) s ∧ sending t = some attempt ∧
      t.pre.rows attempt.deliveryId = some row ∧ row.status = .delivered := by
  have sent : oneDelivery.step overtakenRun.2 (.send 0) =
      some (overtakenRun.2.setStage 0 ⟨"d", claimedBefore.leased "w0" 10 1, .sending⟩ .waiting) :=
    rfl
  exact ⟨_, _, _, _, _, .step (Machine.play_run ..) sent, rfl, rfl, rfl⟩

end Talos.Webhooks.Delivery
