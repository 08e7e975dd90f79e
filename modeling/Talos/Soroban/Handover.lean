import Talos.Soroban.Contract

/-!
# Two-step handovers

An office changes hands in two steps: its holder nominates a successor, and the
nominee confirms. `Office.Turn` lists what a signed step can do to an office, and
`TwoStep` is what follows for every run of a contract whose calls are such turns:
the holder changes only to the nominee, by the nominee's own signature, and a
pending nomination was signed by the present holder with nothing done to it since.
-/

namespace Talos.Soroban

structure Office (A : Type) where
  holder : Option A
  nominee : Option A

/-- What a call does to an office, read off its name and arguments. -/
inductive Move (A : Type) where
  | idle
  | install (a : A)
  | nominate (a : A)
  | confirm
  | withdraw
deriving DecidableEq

namespace Office

variable {A : Type} {signed : A → Prop} {o o' : Office A} {move : Move A} {a b : A}

/-- The accepted moves. A vacant office is there for the taking. -/
inductive Turn (signed : A → Prop) (o : Office A) : Move A → Office A → Prop where
  | idle : Turn signed o .idle o
  | install (a : A) (vacant : o.holder = none) :
      Turn signed o (.install a) { o with holder := some a }
  | nominate (a b : A) (isHolder : o.holder = some a) (isSigned : signed a) :
      Turn signed o (.nominate b) { o with nominee := some b }
  | confirm (b : A) (isNominee : o.nominee = some b) (isSigned : signed b) :
      Turn signed o .confirm ⟨some b, none⟩
  | withdraw (a : A) (isHolder : o.holder = some a) (isSigned : signed a) :
      Turn signed o .withdraw { o with nominee := none }

theorem Turn.held (turn : Turn signed o move o') (held : o.holder ≠ none) : o'.holder ≠ none := by
  cases turn with
  | install | confirm => exact Option.some_ne_none _
  | idle | nominate | withdraw => exact held

theorem Turn.installed (turn : Turn signed o (.install a) o') :
    o.holder = none ∧ o'.holder ≠ none := by
  cases turn with
  | install _ vacant => exact ⟨vacant, Option.some_ne_none _⟩

/-- The holder changes only when the nominee confirms. -/
theorem Turn.handover (turn : Turn signed o move o') (holder : o.holder = some a)
    (changed : o'.holder ≠ some a) :
    move = .confirm ∧ ∃ b, o.nominee = some b ∧ signed b ∧ o' = ⟨some b, none⟩ := by
  cases turn with
  | install _ vacant => cases holder.symm.trans vacant
  | confirm b isNominee isSigned => exact ⟨rfl, b, isNominee, isSigned, rfl⟩
  | idle | nominate | withdraw => exact absurd holder changed

end Office

section Runs

variable {R σ C ρ E : Type} {m : Contract R σ C ρ E} {office : σ → Office Address}
  {move : C → Move Address} {h : List (Entry R σ C ρ)} {s : σ} {a b : Address}

/-- `a`, who held the office, nominated `b`, and no move was made since. -/
def Nominated (office : σ → Office Address) (move : C → Move Address)
    (h : List (Entry R σ C ρ)) (a b : Address) : Prop :=
  ∃ later r earlier, h = later ++ r :: earlier ∧ move r.call = .nominate b ∧
    (office r.pre).holder = some a ∧ r.env.auth a = true ∧ ∀ q ∈ later, move q.call = .idle

theorem Nominated.idle {r : Entry R σ C ρ} (nominated : Nominated office move h a b)
    (idle : move r.call = .idle) : Nominated office move (r :: h) a b := by
  obtain ⟨later, q, earlier, rfl, call, holder, signed, still⟩ := nominated
  exact ⟨r :: later, q, earlier, rfl, call, holder, signed, List.forall_mem_cons.mpr ⟨idle, still⟩⟩

/-- Handovers in two steps, as seen after the run `h` to `s`. -/
structure TwoStep (m : Contract R σ C ρ E) (office : σ → Office Address)
    (move : C → Move Address) (h : List (Entry R σ C ρ)) (s : σ) : Prop where
  /-- The next call changes the holder only as the confirmation of a nomination
  by the present one. -/
  handover : ∀ e c v s' a, m.exec e s c = .ok (v, s') → (office s).holder = some a →
    (office s').holder ≠ some a → move c = .confirm ∧ ∃ b, (office s').holder = some b ∧
      (office s').nominee = none ∧ e.auth b = true ∧ Nominated office move h a b
  /-- A pending nomination was made by the present holder. -/
  nomination : ∀ b, (office s).nominee = some b →
    ∃ a, (office s).holder = some a ∧ Nominated office move h a b
  /-- The next call installs a holder only if no call has before. -/
  once : ∀ e c v s' a, m.exec e s c = .ok (v, s') → move c = .install a →
    ∀ r ∈ h, ∀ a', move r.call ≠ .install a'

/-- Every accepted call is a turn of the office. -/
def TakesTurns (m : Contract R σ C ρ E) (office : σ → Office Address)
    (move : C → Move Address) : Prop :=
  ∀ e s c v s', m.exec e s c = .ok (v, s') →
    Office.Turn (fun a => e.auth a = true) (office s) (move c) (office s')

theorem nominated_of_run (turns : TakesTurns m office move) (start : (office m.init).nominee = none)
    (run : Run m h s) (nominee : (office s).nominee = some b) :
    ∃ a, (office s).holder = some a ∧ Nominated office move h a b := by
  induction run with
  | refl => cases start.symm.trans nominee
  | @step h t t' e c v run ok ih =>
    have turn := turns e t c v t' ok
    generalize called : move c = kind at turn
    generalize office t' = after at turn nominee ⊢
    cases turn with
    | idle =>
      obtain ⟨a, holder, nominated⟩ := ih nominee
      exact ⟨a, holder, nominated.idle called⟩
    | install a vacant =>
      obtain ⟨a, holder, -⟩ := ih nominee
      cases vacant.symm.trans holder
    | nominate a b isHolder isSigned =>
      obtain rfl := Option.some.inj nominee
      exact ⟨a, isHolder, [], _, h, rfl, called, isHolder, isSigned, List.forall_mem_nil _⟩
    | confirm | withdraw => cases nominee

theorem held_of_run (turns : TakesTurns m office move) (run : Run m h s) {r : Entry R σ C ρ}
    (mem : r ∈ h) (installs : move r.call = .install a) : (office s).holder ≠ none := by
  induction run with
  | refl => cases mem
  | @step h t t' e c v run ok ih =>
    have turn := turns e t c v t' ok
    rcases List.mem_cons.mp mem with rfl | older
    · rw [installs] at turn
      exact turn.installed.2
    · exact turn.held (ih older)

/-- A contract whose calls are turns of an office hands it over in two steps. -/
theorem twoStep_of_run (turns : TakesTurns m office move) (start : (office m.init).nominee = none)
    (run : Run m h s) : TwoStep m office move h s where
  handover e c v s' a ok holder changed := by
    obtain ⟨confirms, b, nominee, signed, after⟩ := (turns e s c v s' ok).handover holder changed
    obtain ⟨a', holder', nominated⟩ := nominated_of_run turns start run nominee
    obtain rfl : a' = a := Option.some.inj (holder'.symm.trans holder)
    rw [after]
    exact ⟨confirms, b, rfl, rfl, signed, nominated⟩
  nomination b nominee := nominated_of_run turns start run nominee
  once e c v s' a ok installs r mem a' installed := by
    have turn := turns e s c v s' ok
    rw [installs] at turn
    exact held_of_run turns run mem installed turn.installed.1

end Runs

end Talos.Soroban
