import Talos.Database.Machine
import Talos.Purchases.Amounts

/-!
# The budget of purchases

Calls of `purchase_service` of one agent, interleaved at their awaits
(`prime-agent/src/talos_agent/tools/commerce.py`, with the spending log of
`prime-agent/src/talos_agent/db.py`). A call reads what was spent, and compares it with the budget
when the price arrives; it records its price after a successful answer, whether or not its payment
was settled. Times are in seconds.
-/

namespace Talos.Purchases

open Encoding Database

/-- A price with a time: of a row of the spending log, whose amount is the float of the price, or
of a payment that was settled. -/
structure Entry where
  time : ℕ
  price : ℚ
  deriving DecidableEq

inductive Phase where
  /-- Waiting for the 402 response, having read what was spent. -/
  | quoting (spentMonth : ℚ)
  | signing (price : ℚ)
  /-- Waiting for the answer to the payment. -/
  | submitted (price : ℚ) (settledAt : Option ℕ)
  deriving DecidableEq

structure Call where
  id : ℕ
  startedAt : ℕ
  phase : Phase
  deriving DecidableEq

/-- `late` are the signed payments of calls that have ended, if they were not settled before. -/
structure State where
  clock : ℕ
  log : List Entry
  calls : List Call
  late : List ℚ
  settled : List Entry

inductive Event where
  | tick (seconds : ℕ)
  | start (c : ℕ)
  | respond (c : ℕ) (response : ServiceResponse)
  | sign (c : ℕ)
  /-- The seller settles the payment. -/
  | settle (c : ℕ)
  | settleLate (price : ℚ)
  | answer (c : ℕ) (accepted : Bool)
  /-- A refusal, a timeout or an exception ends the call. -/
  | drop (c : ℕ)

/-- What the agent is configured with; `sum` is the `SUM` of SQLite. -/
structure Config where
  gtmBudget : Numeric
  approvalThreshold : ℚ
  sum : List ℚ → ℚ

def month : ℕ := 30 * 24 * 60 * 60

def since (t : ℕ) (entries : List Entry) : List Entry := entries.filter fun e => t ≤ e.time

variable (config : Config)

/-- `get_spending_period(30)` -/
def State.spendingPeriod (s : State) : ℚ :=
  config.sum ((since (s.clock - month) s.log).map fun e => toDouble e.price)

def Config.budget (spentMonth : ℚ) : Budget :=
  ⟨config.gtmBudget.toNumber, spentMonth, config.approvalThreshold⟩

def State.call (s : State) (c : ℕ) : Option Call := s.calls.find? fun call => call.id = c

def State.remove (s : State) (c : ℕ) : State :=
  { s with calls := s.calls.filter fun call => call.id ≠ c }

def State.put (s : State) (call : Call) : State :=
  { s with calls := call :: s.calls.filter fun other => other.id ≠ call.id }

/-- The payment that a call leaves behind. -/
def Phase.unsettled : Phase → List ℚ
  | .submitted price none => [price]
  | .submitted _ (some _) | .quoting _ | .signing _ => []

def State.finish (s : State) (call : Call) : State :=
  { s.remove call.id with late := call.phase.unsettled ++ s.late }

def step (s : State) : Event → Option State
  | .tick seconds => some { s with clock := s.clock + seconds }
  | .start c =>
      if (s.call c).isSome then none
      else match precheck (config.budget (s.spendingPeriod config)) with
        | .error _ => some s
        | .ok () => some (s.put ⟨c, s.clock, .quoting (s.spendingPeriod config)⟩)
  | .respond c response =>
      match s.call c with
      | some ⟨_, startedAt, .quoting spentMonth⟩ =>
          match quotedUnits (config.budget spentMonth) response with
          | .error _ => some (s.remove c)
          | .ok _ => some (s.put ⟨c, startedAt, .signing response.effective.exact⟩)
      | _ => none
  | .sign c =>
      match s.call c with
      | some ⟨_, startedAt, .signing price⟩ =>
          some (s.put ⟨c, startedAt, .submitted price none⟩)
      | _ => none
  | .settle c =>
      match s.call c with
      | some ⟨_, startedAt, .submitted price none⟩ =>
          some { s.put ⟨c, startedAt, .submitted price (some s.clock)⟩ with
            settled := ⟨s.clock, price⟩ :: s.settled }
      | _ => none
  | .settleLate price =>
      if price ∈ s.late then
        some { s with late := s.late.erase price, settled := ⟨s.clock, price⟩ :: s.settled }
      else none
  | .answer c accepted =>
      match s.call c with
      | some ⟨_, startedAt, .submitted price settledAt⟩ =>
          let s' := s.finish ⟨c, startedAt, .submitted price settledAt⟩
          some (if accepted then { s' with log := ⟨s.clock, price⟩ :: s.log } else s')
      | _ => none
  | .drop c => (s.call c).map s.finish

def machine : Machine State Event where
  init := ⟨0, [], [], [], []⟩
  step := step config

/-! ### The cap -/

def total (entries : List Entry) : ℚ := (entries.map (·.price)).sum

/-- The entries of the thirty days from `t` on. -/
def monthFrom (t : ℕ) (entries : List Entry) : List Entry :=
  entries.filter fun e => t ≤ e.time ∧ e.time ≤ t + month

/-- In no period of thirty days more is settled than the budget. -/
def Capped (s : State) : Prop :=
  ∀ t, total (monthFrom t s.settled) ≤ config.gtmBudget.hundredths / 100

/-! ### When it holds -/

/-- A whole number of smallest units. -/
def IsUnits (price : ℚ) : Prop := (price * usdcUnitScale).den = 1

instance : DecidablePred IsUnits :=
  fun price => inferInstanceAs (Decidable ((price * usdcUnitScale).den = 1))

def halfUnit : ℚ := 1 / (2 * usdcUnitScale)

def Phase.settledAt : Phase → Option ℕ
  | .submitted _ settledAt => settledAt
  | .quoting _ | .signing _ => none

/-- A call starts while no other is in flight and reads the sum to half a smallest unit, prices are
whole units, and no payment is settled whose call has failed or is over. -/
def Careful (s : State) : Event → Prop
  | .start _ => s.calls = [] ∧
      |s.spendingPeriod config - total (since (s.clock - month) s.log)| < halfUnit
  | .respond _ response => IsUnits response.effective.exact
  | .settleLate _ => False
  | .answer c false | .drop c => ∀ call ∈ s.call c, call.phase.settledAt = none
  | .tick _ | .sign _ | .settle _ | .answer _ true => True

instance (s : State) : DecidablePred (Careful config s)
  | .start _ => inferInstanceAs (Decidable (s.calls = [] ∧ _))
  | .respond _ response => inferInstanceAs (Decidable (IsUnits response.effective.exact))
  | .settleLate _ => inferInstanceAs (Decidable False)
  | .answer c false | .drop c =>
      inferInstanceAs (Decidable (∀ call ∈ s.call c, call.phase.settledAt = none))
  | .tick _ | .sign _ | .settle _ | .answer _ true => inferInstanceAs (Decidable True)

end Talos.Purchases
