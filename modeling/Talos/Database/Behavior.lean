import Talos.Database.Machine
import Mathlib.Algebra.Order.Ring.Nat

/-!
# Endless runs

A `Behavior` is an endless sequence of states in which nothing happens at some times; a
run that ends is one in which nothing happens from some time on. What must happen is
stated over behaviors: `Leads P Q` says that `Q` holds at or after every time at which `P`
does. Such a fact comes from a rank that goes down until `Q` holds (`leads_of_rank`) and
from conditions that hold until something else does (`holds_until`).
-/

namespace Talos.Database

structure Behavior {σ ε : Type} (m : Machine σ ε) where
  state : Nat → σ
  event : Nat → Option ε
  init : state 0 = m.init
  next : ∀ n, match event n with
    | some e => m.step (state n) e = some (state (n + 1))
    | none => state (n + 1) = state n

variable {σ ε : Type} {m : Machine σ ε} {b : Behavior m}

namespace Behavior

/-- At each time nothing happens, or a step is taken. -/
theorem next_cases (b : Behavior m) (n : Nat) :
    b.state (n + 1) = b.state n ∨
      ∃ e, b.event n = some e ∧ m.step (b.state n) e = some (b.state (n + 1)) := by
  have next := b.next n
  cases taken : b.event n with
  | none =>
      rw [taken] at next
      exact .inl next
  | some e =>
      rw [taken] at next
      exact .inr ⟨e, rfl, next⟩

/-- Every step that is taken meets a condition. -/
def Along (b : Behavior m) (C : Transition σ ε → Prop) : Prop :=
  ∀ n e, b.event n = some e → C ⟨b.state n, e, b.state (n + 1)⟩

theorem invariant_along {C : Transition σ ε → Prop} {I : σ → Prop} (along : b.Along C)
    (start : I m.init) (keep : ∀ {t e t'}, I t → m.step t e = some t' → C ⟨t, e, t'⟩ → I t')
    (n : Nat) : I (b.state n) := by
  induction n with
  | zero =>
      rw [b.init]
      exact start
  | succ n ih =>
      rcases b.next_cases n with still | ⟨e, taken, ok⟩
      · rw [still]
        exact ih
      · exact keep ih ok (along n e taken)

/-- A relation between consecutive states holds between any two. -/
theorem later {R : σ → σ → Prop} (refl : ∀ s, R s s) (trans : ∀ {s t u}, R s t → R t u → R s u)
    (step : ∀ n, R (b.state n) (b.state (n + 1))) {n k : Nat} (le : n ≤ k) :
    R (b.state n) (b.state k) := by
  induction le with
  | refl => exact refl _
  | step _ ih => exact trans ih (step _)

/-- `Q` holds at or after every time at which `P` does. -/
def Leads (b : Behavior m) (P Q : σ → Prop) : Prop :=
  ∀ n, P (b.state n) → ∃ k, n ≤ k ∧ Q (b.state k)

theorem Leads.trans {P Q R : σ → Prop} (first : b.Leads P Q) (second : b.Leads Q R) :
    b.Leads P R := by
  intro n here
  obtain ⟨k, le, mid⟩ := first n here
  obtain ⟨l, le', there⟩ := second k mid
  exact ⟨l, le.trans le', there⟩

/-- Induction on a rank. -/
theorem leads_of_rank {P Q : σ → Prop} (rank : σ → Nat)
    (down : ∀ r, b.Leads (fun s => P s ∧ rank s = r) fun s => Q s ∨ P s ∧ rank s < r) :
    b.Leads P Q := by
  intro n here
  induction same : rank (b.state n) using Nat.strong_induction_on generalizing n with
  | _ r ih =>
      obtain ⟨k, le, there | ⟨still, lower⟩⟩ := down r n ⟨here, same⟩
      · exact ⟨k, le, there⟩
      · obtain ⟨l, le', there⟩ := ih _ lower k still rfl
        exact ⟨l, le.trans le', there⟩

/-- What holds until something else does, and stops to hold. -/
theorem holds_until {P Q : σ → Prop}
    (step : ∀ n, P (b.state n) → P (b.state (n + 1)) ∨ Q (b.state (n + 1))) {n k : Nat}
    (le : n ≤ k) (here : P (b.state n)) (stops : ¬ P (b.state k)) :
    ∃ l, n ≤ l ∧ Q (b.state l) := by
  induction le with
  | refl => exact absurd here stops
  | step before ih =>
      rename_i k
      by_cases still : P (b.state k)
      · rcases step k still with holds | other
        · exact absurd holds stops
        · exact ⟨k + 1, Nat.le_succ_of_le before, other⟩
      · exact ih still

end Behavior

/-! ### A list of events, and nothing afterwards -/

/-- The state after the first events; one that is not possible is passed over. -/
def Machine.after (m : Machine σ ε) (events : List ε) (n : Nat) : σ :=
  (m.play (events.take n) ([], m.init)).2

theorem Machine.play_append (m : Machine σ ε) (first second : List ε)
    (run : List (Transition σ ε) × σ) :
    m.play (first ++ second) run = m.play second (m.play first run) := by
  induction first generalizing run with
  | nil => rfl
  | cons e rest ih =>
      obtain ⟨h, s⟩ := run
      rw [List.cons_append, play, play]
      cases m.step s e with
      | none => exact ih _
      | some s' => exact ih _

theorem Machine.after_succ (m : Machine σ ε) {events : List ε} {n : Nat} {e : ε}
    (here : events[n]? = some e) :
    m.after events (n + 1) = (m.step (m.after events n) e).getD (m.after events n) := by
  rw [after, after, List.take_add_one, here, play_append]
  generalize m.play (events.take n) ([], m.init) = run
  obtain ⟨h, s⟩ := run
  rw [Option.toList_some, play]
  dsimp only
  cases m.step s e with
  | none => rfl
  | some s' => rfl

theorem Machine.after_of_le (m : Machine σ ε) {events : List ε} {n : Nat}
    (le : events.length ≤ n) : m.after events n = m.after events events.length := by
  rw [after, after, List.take_of_length_le le, List.take_length]

def Machine.playing (m : Machine σ ε) (events : List ε) : Behavior m where
  state := m.after events
  event n := events[n]?.filter fun e => (m.step (m.after events n) e).isSome
  init := rfl
  next n := by
    cases here : events[n]? with
    | none =>
        have le : events.length ≤ n := List.getElem?_eq_none_iff.mp here
        exact (m.after_of_le (Nat.le_succ_of_le le)).trans (m.after_of_le le).symm
    | some e =>
        have next := m.after_succ here
        cases taken : m.step (m.after events n) e with
        | none =>
            rw [taken] at next
            simp [Option.filter, taken, next]
        | some s' =>
            rw [taken] at next
            simp [Option.filter, taken, next]

theorem Machine.playing_along (m : Machine σ ε) {events : List ε} {C : Transition σ ε → Prop}
    (each : ∀ n, (lt : n < events.length) →
      C ⟨m.after events n, events[n], m.after events (n + 1)⟩) :
    (m.playing events).Along C := by
  intro n e taken
  obtain ⟨here, -⟩ := Option.filter_eq_some_iff.mp taken
  obtain ⟨lt, rfl⟩ := List.getElem?_eq_some_iff.mp here
  exact each n lt

end Talos.Database
