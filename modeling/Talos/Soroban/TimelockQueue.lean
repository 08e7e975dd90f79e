import Talos.Soroban.Contract
import Mathlib.Data.Nat.Basic

/-!
# Timelock queues

A queue of delayed actions over an ordered clock: an action is scheduled with a
delay of at least the queue's minimum and may be executed once its due time has
come. `Queue.Turn` lists what one step can do to such a queue, and `Sealed` is
what a minimum delay buys: from a time on, everything that is pending and was not
pending then is due no earlier than that time plus the delay.

The clock is any ordered type and `after` any monotone way to add a delay to a
time, so the rules hold for saturating machine arithmetic too.
-/

namespace Talos.Soroban

/-- An action waiting for its due time. -/
structure Pending (A τ : Type) where
  action : A
  eta : τ
deriving DecidableEq, Repr

structure Queue (A τ : Type) where
  pending : Map Nat (Pending A τ)
  minDelay : τ

variable {A τ : Type} [Preorder τ]

/-- A later start or a longer delay is never over earlier. -/
structure Delays (after : τ → τ → τ) : Prop where
  mono : ∀ {now now' delay delay'}, now ≤ now' → delay ≤ delay' →
    after now delay ≤ after now' delay'

namespace Queue

/-- What a step at time `now` can do to a queue that never lowers its minimum
delay below `d`. Executing and cancelling an action both close its entry. -/
inductive Turn (after : τ → τ → τ) (d now : τ) (q : Queue A τ) : Queue A τ → Prop where
  | idle : Turn after d now q q
  | schedule (id : Nat) (action : A) (delay : τ) (delayed : q.minDelay ≤ delay) :
      Turn after d now q { q with pending := q.pending.set id ⟨action, after now delay⟩ }
  | close (id : Nat) : Turn after d now q { q with pending := q.pending.remove id }
  | configure (minDelay : τ) (kept : d ≤ minDelay) : Turn after d now q { q with minDelay }

/-- Relative to the queue `start`: everything newly pending is due at `horizon`
or later, and scheduling still takes a delay of at least `d`. -/
structure Sealed (start : Queue A τ) (horizon d : τ) (q : Queue A τ) : Prop where
  delay : d ≤ q.minDelay
  pending : ∀ id p, q.pending id = some p → start.pending id = some p ∨ horizon ≤ p.eta

variable {after : τ → τ → τ} {start q q' : Queue A τ} {horizon T d now : τ}

theorem Sealed.refl (enabled : d ≤ start.minDelay) : Sealed start horizon d start where
  delay := enabled
  pending _ _ found := .inl found

theorem Sealed.turn (delays : Delays after) (old : Sealed start (after T d) d q)
    (later : T ≤ now) (turn : Turn after d now q q') : Sealed start (after T d) d q' := by
  cases turn with
  | idle => exact old
  | schedule id action delay delayed =>
    refine ⟨old.delay, fun id' p found => ?_⟩
    by_cases same : id' = id
    · -- the new entry waits for at least `d` from now on
      subst same
      obtain rfl : ⟨action, after now delay⟩ = p := by simpa using found
      exact .inr (delays.mono later (le_trans old.delay delayed))
    · have older : q.pending id' = some p := (Map.set_of_ne q.pending _ same).symm.trans found
      exact old.pending id' p older
  | close id =>
    refine ⟨old.delay, fun id' p found => ?_⟩
    by_cases same : id' = id
    · simp [same] at found
    · have older : q.pending id' = some p := (Map.remove_of_ne q.pending same).symm.trans found
      exact old.pending id' p older
  | configure minDelay kept => exact ⟨kept, old.pending⟩

/-- Before the horizon, only what was pending at the start is due. -/
theorem Sealed.due (old : Sealed start horizon d q) {id : Nat} {p : Pending A τ}
    (found : q.pending id = some p) (due : p.eta ≤ now) (early : ¬ horizon ≤ now) :
    start.pending id = some p :=
  (old.pending id p found).resolve_right fun far => early (le_trans far due)

end Queue

section Runs

variable {R σ C ρ E : Type} {m : Contract R σ C ρ E}

/-- `t` is reached from `s` by allowed calls that are accepted from time `T` on. -/
def Since (m : Contract R σ C ρ E) (T : Nat) (allowed : C → Prop) (s t : σ) : Prop :=
  ∃ h, Steps m s h t ∧ ∀ r ∈ h, T ≤ r.env.timestamp ∧ allowed r.call

theorem Since.refl {T : Nat} {allowed : C → Prop} {s : σ} : Since m T allowed s s :=
  ⟨[], .refl, by simp⟩

theorem Since.reachable {T : Nat} {allowed : C → Prop} {s t : σ} (since : Since m T allowed s t)
    (reach : Reachable m s) : Reachable m t :=
  since.elim fun _ run => reach.steps run.1

/-- A contract whose allowed calls are turns of a queue keeps it sealed. -/
theorem Since.sealed {after : Nat → Nat → Nat} (delays : Delays after) {T d : Nat}
    {allowed : C → Prop} {s t : σ} (since : Since m T allowed s t) (queue : σ → Queue A Nat)
    (turn : ∀ {e s c v s'}, m.exec e s c = .ok (v, s') → allowed c →
      Queue.Turn after d e.timestamp (queue s) (queue s'))
    (enabled : d ≤ (queue s).minDelay) :
    Queue.Sealed (queue s) (after T d) d (queue t) := by
  obtain ⟨h, steps, within⟩ := since
  induction steps with
  | refl => exact .refl enabled
  | step _ ok ih =>
    obtain ⟨later, isAllowed⟩ := within _ (List.mem_cons_self ..)
    have old := ih fun r mem => within r (List.mem_cons_of_mem _ mem)
    exact old.turn delays later (turn ok isAllowed)

end Runs

end Talos.Soroban
