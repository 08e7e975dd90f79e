import Mathlib.Data.List.Range

/-!
# Sagas

Steps that are taken one after the other and, when one of them fails for good, are undone
from the failed one downwards. A log lists what was done, newest first. Whatever was
attempted when a saga has failed was undone, once each, the later step first
(`Path.undone_failed`, `Path.attempted`).
-/

namespace Talos.Saga

/-- What is done; `O` are the outcomes of undoing a step. -/
inductive Action (O : Type) where
  | attempt (i : Nat)
  | complete (i : Nat)
  | fail (i : Nat)
  | undo (j : Nat) (outcome : O)
  | settle
  deriving DecidableEq

inductive Stage where
  /-- The steps below `i` are completed; `tried` if step `i` was attempted. -/
  | forward (i : Nat) (tried : Bool)
  /-- Step `i` has failed; the steps below `j` are still to be undone. -/
  | backward (i j : Nat)
  | failed (i : Nat)

variable {O : Type}

/-- The logs that lead to a stage. -/
inductive Path : List (Action O) → Stage → Prop where
  | start : Path [] (.forward 0 false)
  | attempt {log : List (Action O)} {i : Nat} {tried : Bool} (path : Path log (.forward i tried)) :
      Path (.attempt i :: log) (.forward i true)
  | complete {log : List (Action O)} {i : Nat} (path : Path log (.forward i true)) :
      Path (.complete i :: log) (.forward (i + 1) false)
  | fail {log : List (Action O)} {i : Nat} (path : Path log (.forward i true)) :
      Path (.fail i :: log) (.backward i (i + 1))
  | undo {log : List (Action O)} {i j : Nat} (outcome : O) (path : Path log (.backward i (j + 1))) :
      Path (.undo j outcome :: log) (.backward i j)
  | settle {log : List (Action O)} {i : Nat} (path : Path log (.backward i 0)) :
      Path (.settle :: log) (.failed i)

def Action.undone : Action O → Option (Nat × O)
  | .undo j outcome => some (j, outcome)
  | _ => none

/-- The steps that were undone, newest first. -/
def undone (log : List (Action O)) : List (Nat × O) := log.filterMap Action.undone

/-- The steps that were attempted by a stage. -/
def Stage.attempted : Stage → Nat → Prop
  | .forward i tried, j => j < i ∨ tried = true ∧ j = i
  | .backward i _, j => j ≤ i
  | .failed i, j => j ≤ i

/-- What is undone at a stage: nothing, or the steps from the failed one down. -/
def Stage.Undoes : Stage → List Nat → Prop
  | .forward _ _, steps => steps = []
  | .backward i j, steps => j ≤ i + 1 ∧ steps = List.range' j (i + 1 - j)
  | .failed i, steps => steps = List.range (i + 1)

/-- The step that failed. -/
def Stage.failure : Stage → Option Nat
  | .forward _ _ => none
  | .backward i _ => some i
  | .failed i => some i

variable {log : List (Action O)} {stage : Stage} {i j : Nat}

theorem Path.attempted (path : Path log stage) (j : Nat) :
    .attempt j ∈ log ↔ stage.attempted j := by
  induction path with
  | start => simp [Stage.attempted]
  | attempt _ ih =>
      simp only [List.mem_cons, Action.attempt.injEq, ih, Stage.attempted, true_and]
      tauto
  | complete _ ih =>
      simp only [List.mem_cons, reduceCtorEq, false_or, ih, Stage.attempted, true_and,
        Bool.false_eq_true, false_and, or_false]
      omega
  | fail _ ih =>
      simp only [List.mem_cons, reduceCtorEq, false_or, ih, Stage.attempted, true_and]
      omega
  | undo _ _ ih | settle _ ih =>
      rw [List.mem_cons, or_iff_right nofun]
      exact ih

/-- A step that failed is the one that the stage is about. -/
theorem Path.failure (path : Path log stage) (i : Nat) :
    .fail i ∈ log ↔ stage.failure = some i := by
  induction path with
  | start => simp [Stage.failure]
  | fail _ ih =>
      simp only [Stage.failure, reduceCtorEq, iff_false] at ih
      simp only [List.mem_cons, Action.fail.injEq, ih, or_false, Stage.failure, Option.some.injEq,
        eq_comm]
  | attempt _ ih | complete _ ih | undo _ _ ih | settle _ ih =>
      rw [List.mem_cons, or_iff_right nofun]
      exact ih

theorem Path.undone (path : Path log stage) : stage.Undoes ((Saga.undone log).map Prod.fst) := by
  induction path with
  | start => rfl
  | attempt _ ih | complete _ ih => exact ih
  | @fail _ i _ ih =>
      refine ⟨Nat.le_refl _, ?_⟩
      rw [Nat.sub_self]
      exact ih
  | @undo _ i j outcome _ ih =>
      obtain ⟨le, steps⟩ := ih
      refine ⟨by omega, ?_⟩
      have left : i + 1 - j = (i + 1 - (j + 1)) + 1 := by omega
      rw [left, List.range'_succ, ← steps]
      rfl
  | settle _ ih => exact ih.2.trans (List.range_eq_range' ..).symm

/-- A saga that failed at step `i` has undone the steps `i`, …, `0` in this order. -/
theorem Path.undone_failed (path : Path log (.failed i)) :
    (Saga.undone log).reverse.map Prod.fst = (List.range (i + 1)).reverse := by
  rw [List.map_reverse]
  exact congrArg List.reverse path.undone

end Talos.Saga
