import Mathlib.Data.List.Basic

/-!
# Streams that arrive in chunks

A handler is called after every chunk with all that has arrived, until it gives an answer.
How the stream is cut does not matter, as long as the handler has no answer at an end of a
chunk before it has all it needs (`whole_iff`).
-/

namespace Talos.Arrival

variable {α β : Type}

/-- The first answer of a handler, and how much had arrived by then. -/
def answer (f : List α → Option β) (arrived : List α) : List (List α) → Option (Nat × β)
  | [] => none
  | chunk :: chunks =>
      match f (arrived ++ chunk) with
      | some b => some ((arrived ++ chunk).length, b)
      | none => answer f (arrived ++ chunk) chunks

/-- How much has arrived after each chunk, if `n` had before the first. -/
def ends (n : Nat) : List (List α) → List Nat
  | [] => []
  | chunk :: chunks => (n + chunk.length) :: ends (n + chunk.length) chunks

/-- The answer is that to the whole stream in one chunk, and comes when `needed` items are
there. -/
def Whole (f : List α → Option β) (needed : Nat) (chunks : List (List α)) : Prop :=
  ∃ p b, answer f [] chunks = some (p, b) ∧
    answer f [] [chunks.flatten] = some (chunks.flatten.length, b) ∧ needed ≤ p

variable {f : List α → Option β} {arrived : List α} {chunks : List (List α)} {p q needed : Nat}
  {b : β}

theorem answer_single (f : List α → Option β) (stream : List α) :
    answer f [] [stream] = (f stream).map fun b => (stream.length, b) := by
  rw [answer, List.nil_append]
  cases f stream <;> rfl

theorem ends_bounds (mem : q ∈ ends p chunks) : p ≤ q ∧ q ≤ p + chunks.flatten.length := by
  induction chunks generalizing p with
  | nil => cases mem
  | cons chunk chunks ih =>
      rw [List.flatten_cons, List.length_append]
      rcases List.mem_cons.mp mem with rfl | later
      · omega
      · have := ih later
        omega

/-- The last chunk brings the end of the stream. -/
theorem length_mem_ends (some : chunks ≠ []) : p + chunks.flatten.length ∈ ends p chunks := by
  induction chunks generalizing p with
  | nil => exact absurd rfl some
  | cons chunk chunks ih =>
      rw [List.flatten_cons, List.length_append, ← Nat.add_assoc, ends]
      cases chunks with
      | nil => exact List.mem_cons_self
      | cons => exact List.mem_cons_of_mem _ (ih (List.cons_ne_nil _ _))

theorem take_arrived (arrived chunk : List α) (chunks : List (List α)) :
    (arrived ++ (chunk :: chunks).flatten).take (arrived.length + chunk.length) =
      arrived ++ chunk := by
  rw [List.flatten_cons, ← List.append_assoc, ← List.length_append, List.take_left']
  rfl

/-- The answer is given at the end of a chunk, and at none before. -/
theorem answer_eq_some (answered : answer f arrived chunks = some (p, b)) :
    p ∈ ends arrived.length chunks ∧ f ((arrived ++ chunks.flatten).take p) = some b ∧
      ∀ q ∈ ends arrived.length chunks, q < p → f ((arrived ++ chunks.flatten).take q) = none := by
  induction chunks generalizing arrived with
  | nil => cases answered
  | cons chunk chunks ih =>
      have here := take_arrived arrived chunk chunks
      unfold answer at answered
      split at answered
      · next found =>
          cases answered
          rw [List.length_append, here]
          refine ⟨List.mem_cons_self, found, fun q mem early => ?_⟩
          rcases List.mem_cons.mp mem with rfl | later
          · omega
          · have := (ends_bounds later).1
            omega
      · next none =>
          obtain ⟨later, at', before⟩ := ih answered
          rw [List.length_append] at later before
          rw [List.append_assoc, ← List.flatten_cons] at at' before
          refine ⟨List.mem_cons_of_mem _ later, at', fun q mem early => ?_⟩
          rcases List.mem_cons.mp mem with rfl | later
          · rw [here]
            exact none
          · exact before q later early

theorem answer_eq_none (unanswered : answer f arrived chunks = none) :
    ∀ q ∈ ends arrived.length chunks, f ((arrived ++ chunks.flatten).take q) = none := by
  induction chunks generalizing arrived with
  | nil => exact nofun
  | cons chunk chunks ih =>
      have here := take_arrived arrived chunk chunks
      unfold answer at unanswered
      split at unanswered
      · cases unanswered
      · next none =>
          intro q mem
          rcases List.mem_cons.mp mem with rfl | later
          · rw [here]
            exact none
          · have after := ih unanswered q (by rw [List.length_append]; exact later)
            rwa [List.append_assoc, ← List.flatten_cons] at after

/-- If the answer is settled once `needed` items are there, then the cuts do not matter
exactly if no chunk ends where the handler has an answer before. -/
theorem whole_iff {stream : List α} (cut : chunks.flatten = stream) (pos : 0 < needed)
    (le : needed ≤ stream.length)
    (settled : ∀ p, needed ≤ p → f (stream.take p) = some b) :
    Whole f needed chunks ↔ ∀ p ∈ ends 0 chunks, p < needed → f (stream.take p) = none := by
  subst cut
  have whole : f chunks.flatten = some b := by
    have last := settled chunks.flatten.length le
    rwa [List.take_length] at last
  constructor
  · rintro ⟨p, b', answered, -, late⟩ q mem early
    obtain ⟨-, -, before⟩ := answer_eq_some answered
    exact before q mem (Nat.lt_of_lt_of_le early late)
  · intro quiet
    cases answered : answer f [] chunks with
    | none =>
        have some : chunks ≠ [] := by
          rintro rfl
          exact absurd (Nat.lt_of_lt_of_le pos le) (Nat.lt_irrefl 0)
        have mem := length_mem_ends (p := 0) some
        have last := answer_eq_none answered _ mem
        rw [List.nil_append, Nat.zero_add, List.take_length, whole] at last
        cases last
    | some result =>
        obtain ⟨p, b'⟩ := result
        obtain ⟨mem, at', -⟩ := answer_eq_some answered
        rw [List.nil_append] at at'
        have late : needed ≤ p := by
          by_contra early
          rw [quiet p mem (Nat.lt_of_not_le early)] at at'
          cases at'
        rw [settled p late] at at'
        cases at'
        refine ⟨p, b, answered, ?_, late⟩
        rw [answer_single, whole]
        rfl

end Talos.Arrival
