import Talos.Registry.Effects
import Mathlib.Algebra.Order.Ring.Int

/-!
# The protocol fee

Every writer of the fee bounds it by 100%, and so does the execution of a proposal, however it was
scheduled. The fee of an amount is then the exact part of it rounded down. The product is formed
first, in checked `i128` arithmetic: that it fits is all an amount needs for its fee to be answered.
-/

namespace Talos.Registry

open Talos.Soroban

variable {e : Env Remote} {s s' : Storage} {c : Call} {v : Value} {amount amount' fee fee' : Int}

/-- The configured fee in basis points, or the one charged before a fee is configured. -/
def Storage.feeBps (s : Storage) : Nat := s.protocolFeeBps.getD protocolFeeBpsDefault

/-! ### The configured fee -/

/-- A configured fee is at most 100%. -/
def FeeBounded (s : Storage) : Prop := ∀ bps ∈ s.protocolFeeBps, bps ≤ maxProtocolFeeBps

theorem FeeBounded.configured {bps : Nat} (stored : s.protocolFeeBps = some bps)
    (bounded : bps ≤ maxProtocolFeeBps) : FeeBounded s := by
  intro other same
  obtain rfl := Option.some.inj (stored.symm.trans same)
  exact bounded

theorem FeeBounded.step (inv : FeeBounded s) (ok : exec e s c = .ok (v, s')) : FeeBounded s' := by
  cases exec_effect ok with
  | initializeContract => exact .configured rfl (by decide)
  | setProtocolFee _ bounded => exact .configured rfl bounded
  | executeFee _ feeBps _ _ _ _ bounded => exact .configured rfl bounded
  | _ => exact inv

theorem FeeBounded.of_reachable (reach : Reachable contract s) : FeeBounded s := by
  refine reach.invariant ?_ fun inv ok => inv.step ok
  intro bps stored
  cases stored

theorem FeeBounded.feeBps_le (inv : FeeBounded s) : s.feeBps ≤ maxProtocolFeeBps := by
  rw [Storage.feeBps]
  cases stored : s.protocolFeeBps with
  | none => decide
  | some bps => exact inv bps stored

/-! ### The calculation -/

/-- An amount that is not negative has a fee exactly if the product fits, and else overflows. -/
theorem calculateProtocolFee_eq (positive : 0 ≤ amount) : calculateProtocolFee s amount =
    if amount * s.feeBps ≤ i128Max then .ok (amount * s.feeBps / 10000) else .error .overflow := by
  have product : 0 ≤ amount * (s.feeBps : Int) := Int.mul_nonneg positive (Int.natCast_nonneg _)
  have low : i128Min ≤ amount * s.feeBps := Int.le_trans (by decide) product
  rw [calculateProtocolFee, rejectIf_neg (Int.not_lt.mpr positive), bind_ok, i128]
  change ((if i128Min ≤ amount * (s.feeBps : Int) ∧ amount * (s.feeBps : Int) ≤ i128Max then
      Except.ok (amount * (s.feeBps : Int)) else Except.error Trap.overflow) >>=
    fun product => Except.ok (product.tdiv maxProtocolFeeBps)) = _
  by_cases fits : amount * (s.feeBps : Int) ≤ i128Max
  · rw [if_pos ⟨low, fits⟩, if_pos fits, bind_ok, Int.tdiv_eq_ediv_of_nonneg product]
    rfl
  · rw [if_neg (fun both => fits both.2), if_neg fits, bind_error]

/-- No fee rate up to 100% makes an amount of at most `i128::MAX / 10000` overflow. -/
theorem product_fits (inv : FeeBounded s) (positive : 0 ≤ amount)
    (small : amount ≤ i128Max / 10000) : amount * s.feeBps ≤ i128Max := by
  have rate : (s.feeBps : Int) ≤ 10000 := Int.ofNat_le.mpr inv.feeBps_le
  calc amount * (s.feeBps : Int)
      ≤ amount * 10000 := Int.mul_le_mul_of_nonneg_left rate positive
    _ ≤ i128Max / 10000 * 10000 := Int.mul_le_mul_of_nonneg_right small (by decide)
    _ ≤ i128Max := Int.ediv_mul_le _ (by decide)

/-- What the calculation promises of the fees of a storage. -/
structure FeeLaw (s : Storage) : Prop where
  bounded : s.feeBps ≤ maxProtocolFeeBps
  answers : ∀ amount : Int, 0 ≤ amount → amount * s.feeBps ≤ i128Max →
    calculateProtocolFee s amount = .ok (amount * s.feeBps / 10000)
  overflows : ∀ amount : Int, 0 ≤ amount → ¬ amount * s.feeBps ≤ i128Max →
    calculateProtocolFee s amount = .error .overflow
  part : ∀ amount : Int, 0 ≤ amount →
    0 ≤ amount * s.feeBps / 10000 ∧ amount * s.feeBps / 10000 ≤ amount
  monotone : ∀ amount amount' : Int, 0 ≤ amount → amount ≤ amount' →
    amount * s.feeBps / 10000 ≤ amount' * s.feeBps / 10000 ∧
      (amount' * s.feeBps ≤ i128Max → amount * s.feeBps ≤ i128Max)
  safe : ∀ amount : Int, 0 ≤ amount → amount ≤ i128Max / 10000 → amount * s.feeBps ≤ i128Max

theorem fee_part (inv : FeeBounded s) (positive : 0 ≤ amount) :
    0 ≤ amount * s.feeBps / 10000 ∧ amount * s.feeBps / 10000 ≤ amount := by
  have rate : (s.feeBps : Int) ≤ 10000 := Int.ofNat_le.mpr inv.feeBps_le
  have product : 0 ≤ amount * (s.feeBps : Int) := Int.mul_nonneg positive (Int.natCast_nonneg _)
  constructor
  · exact Int.ediv_nonneg product (by decide)
  · calc amount * s.feeBps / 10000
        ≤ amount * 10000 / 10000 :=
          Int.ediv_le_ediv (by decide) (Int.mul_le_mul_of_nonneg_left rate positive)
      _ = amount := Int.mul_ediv_cancel _ (by decide)

/-- In every reachable storage the fee is at most 100%, whoever wrote it, and the fee of an amount
is the exact part of it rounded down, unless the product overflows. -/
theorem protocolFee_exact (reach : Reachable contract s) : FeeLaw s := by
  have inv := FeeBounded.of_reachable reach
  have products {amount amount' : Int} (le : amount ≤ amount') :
      amount * (s.feeBps : Int) ≤ amount' * s.feeBps :=
    Int.mul_le_mul_of_nonneg_right le (Int.natCast_nonneg _)
  exact {
    bounded := inv.feeBps_le
    answers := fun amount positive fits => by rw [calculateProtocolFee_eq positive, if_pos fits]
    overflows := fun amount positive large => by rw [calculateProtocolFee_eq positive, if_neg large]
    part := fun amount positive => fee_part inv positive
    monotone := fun amount amount' _ le =>
      ⟨Int.ediv_le_ediv (by decide) (products le), Int.le_trans (products le)⟩
    safe := fun amount positive small => product_fits inv positive small }

/-- A registry with a fee of 3%, charged since its initialization. -/
def initialized : Storage :=
  contract.submitAll [(⟨0, 1, fun _ => true, ⟨[]⟩⟩, .initializeContract ⟨0⟩)] contract.init

theorem protocolFee_exact_initialized : Reachable contract initialized ∧
    initialized.protocolFeeBps = some 300 ∧ FeeLaw initialized :=
  ⟨Reachable.init.submitAll _, by decide, protocolFee_exact (Reachable.init.submitAll _)⟩

/-- The largest amount has no fee: 300 times it does not fit. -/
theorem protocolFee_overflows : Reachable contract initialized ∧
    calculateProtocolFee initialized i128Max = .error .overflow :=
  ⟨Reachable.init.submitAll _, by decide⟩

end Talos.Registry
