import Mathlib.Logic.Basic
import Mathlib.Order.Defs.LinearOrder

/-!
# Outcomes of a contract invocation

A Soroban entry point either returns a value or is rejected, and a rejected
invocation is rolled back by the host: no write of it survives. So an entry
point is a function into `Outcome`, and storage travels explicitly next to the
value it returns.

The combinators below are the shapes the contracts are written in (`if … {
return Err(..) }`, `.ok_or(..)?`, `.expect(..)`, checked arithmetic), each with
the lemma that says when it succeeds. `simp` with these lemmas turns a
successful invocation into the conjunction of the guards it passed.
-/

namespace Talos.Soroban

/-- An account or contract address. -/
structure Address where
  id : Nat
deriving DecidableEq, Repr

/-- Why the host rejects an invocation: a typed `contracterror` code, a Rust
panic with its message, a missing `require_auth` signature, or an arithmetic
overflow (the release profile sets `overflow-checks = true`). -/
inductive Trap (E : Type) where
  | error (code : E)
  | panic (message : String)
  | unauthorized
  | overflow
deriving DecidableEq, Repr

abbrev Outcome (E α : Type) := Except (Trap E) α

variable {E α β : Type}

/-- `if c { return Err(t) }`, and equally `if c { panic!(t) }`. -/
def rejectIf (c : Prop) [Decidable c] (t : Trap E) : Outcome E Unit :=
  if c then .error t else .ok ()

/-- `o.ok_or(t)?`, and equally `o.expect(t)`. -/
def orReject (o : Option α) (t : Trap E) : Outcome E α :=
  match o with
  | some a => .ok a
  | none => .error t

@[simp] theorem bind_eq_ok {ε : Type} {x : Except ε α} {f : α → Except ε β} {b : β} :
    (x >>= f) = .ok b ↔ ∃ a, x = .ok a ∧ f a = .ok b := by
  cases x <;> simp [bind, Except.bind]

theorem bind_eq_error {ε : Type} {x : Except ε α} {f : α → Except ε β} {t : ε} :
    (x >>= f) = .error t ↔ x = .error t ∨ ∃ a, x = .ok a ∧ f a = .error t := by
  cases x <;> simp [bind, Except.bind]

@[simp] theorem bind_ok {ε : Type} (a : α) (f : α → Except ε β) :
    ((.ok a : Except ε α) >>= f) = f a := rfl

@[simp] theorem bind_error {ε : Type} (t : ε) (f : α → Except ε β) :
    ((.error t : Except ε α) >>= f) = .error t := rfl

@[simp] theorem mapError_eq_ok {ε ε' : Type} {x : Except ε α} {f : ε → ε'} {a : α} :
    x.mapError f = .ok a ↔ x = .ok a := by
  cases x <;> simp [Except.mapError]

@[simp] theorem rejectIf_eq_ok {c : Prop} [Decidable c] {t : Trap E} {u : Unit} :
    rejectIf c t = .ok u ↔ ¬ c := by
  unfold rejectIf
  split <;> simp_all

@[simp] theorem orReject_eq_ok {o : Option α} {t : Trap E} {a : α} :
    orReject o t = .ok a ↔ o = some a := by
  cases o <;> simp [orReject]

theorem rejectIf_eq_error {c : Prop} [Decidable c] {t t' : Trap E} :
    rejectIf c t = .error t' ↔ c ∧ t' = t := by
  unfold rejectIf
  split <;> simp_all [eq_comm]

theorem orReject_eq_error {o : Option α} {t t' : Trap E} :
    orReject o t = .error t' ↔ o = none ∧ t' = t := by
  cases o <;> simp [orReject, eq_comm]

theorem rejectIf_pos {c : Prop} [Decidable c] {t : Trap E} (h : c) :
    rejectIf c t = .error t := if_pos h

theorem rejectIf_neg {c : Prop} [Decidable c] {t : Trap E} (h : ¬ c) :
    rejectIf c t = .ok () := if_neg h

@[simp] theorem orReject_some (a : α) (t : Trap E) : orReject (some a) t = .ok a := rfl

@[simp] theorem orReject_none (t : Trap E) : orReject (none : Option α) t = .error t := rfl

/-! ### Fixed-width arithmetic -/

def u32Max : Nat := 4294967295

def u64Max : Nat := 18446744073709551615

def i128Max : Int := 170141183460469231731687303715884105727

def i128Min : Int := -170141183460469231731687303715884105728

/-- `a + b` in `u32`, trapping on overflow. -/
def addU32 (a b : Nat) : Outcome E Nat :=
  if a + b ≤ u32Max then .ok (a + b) else .error .overflow

/-- `a + b` in `u64`, trapping on overflow. -/
def addU64 (a b : Nat) : Outcome E Nat :=
  if a + b ≤ u64Max then .ok (a + b) else .error .overflow

/-- `a.checked_add(b)` in `u32`. -/
def checkedAddU32 (a b : Nat) : Option Nat := if a + b ≤ u32Max then some (a + b) else none

/-- `a.checked_add(b)` in `u64`. -/
def checkedAddU64 (a b : Nat) : Option Nat := if a + b ≤ u64Max then some (a + b) else none

def saturatingAddU32 (a b : Nat) : Nat := min (a + b) u32Max

def saturatingAddU64 (a b : Nat) : Nat := min (a + b) u64Max

/-- The exact result `x` of an `i128` operation, as the `checked_` forms return it. -/
def checkedI128 (x : Int) : Option Int := if i128Min ≤ x ∧ x ≤ i128Max then some x else none

/-- The exact result `x` of an `i128` operator, trapping on overflow. -/
def i128 (x : Int) : Outcome E Int :=
  if i128Min ≤ x ∧ x ≤ i128Max then .ok x else .error .overflow

/-- `a / b` in `i128`, truncated toward zero. -/
def divI128 (a b : Int) : Outcome E Int := do
  rejectIf (b = 0) (.panic "attempt to divide by zero")
  i128 (a.tdiv b)

@[simp] theorem addU32_eq_ok {a b c : Nat} :
    (addU32 a b : Outcome E Nat) = .ok c ↔ a + b ≤ u32Max ∧ c = a + b := by
  unfold addU32
  split <;> simp [*, eq_comm]

@[simp] theorem addU64_eq_ok {a b c : Nat} :
    (addU64 a b : Outcome E Nat) = .ok c ↔ a + b ≤ u64Max ∧ c = a + b := by
  unfold addU64
  split <;> simp [*, eq_comm]

@[simp] theorem i128_eq_ok {x y : Int} :
    (i128 x : Outcome E Int) = .ok y ↔ (i128Min ≤ x ∧ x ≤ i128Max) ∧ y = x := by
  unfold i128
  split <;> simp [*, eq_comm]

@[simp] theorem divI128_eq_ok {a b c : Int} : (divI128 a b : Outcome E Int) = .ok c ↔
    b ≠ 0 ∧ (i128Min ≤ a.tdiv b ∧ a.tdiv b ≤ i128Max) ∧ c = a.tdiv b := by
  simp [divI128]

@[simp] theorem checkedAddU32_eq_some {a b c : Nat} :
    checkedAddU32 a b = some c ↔ a + b ≤ u32Max ∧ c = a + b := by
  unfold checkedAddU32
  split <;> simp [*, eq_comm]

@[simp] theorem checkedAddU64_eq_some {a b c : Nat} :
    checkedAddU64 a b = some c ↔ a + b ≤ u64Max ∧ c = a + b := by
  unfold checkedAddU64
  split <;> simp [*, eq_comm]

@[simp] theorem checkedI128_eq_some {x y : Int} :
    checkedI128 x = some y ↔ (i128Min ≤ x ∧ x ≤ i128Max) ∧ y = x := by
  unfold checkedI128
  split <;> simp [*, eq_comm]

/-! ### The invocation environment -/

/-- What an invocation sees of the ledger: close time, sequence number, the
addresses that authorised it, and `remote`, the answers other contracts give to
the cross-contract calls it makes. -/
structure Env (R : Type) where
  timestamp : Nat
  sequence : Nat
  auth : Address → Bool
  remote : R

/-- `a.require_auth()`. -/
def requireAuth {R : Type} (e : Env R) (a : Address) : Outcome E Unit :=
  rejectIf (e.auth a = false) .unauthorized

@[simp] theorem requireAuth_eq_ok {R : Type} {e : Env R} {a : Address} {u : Unit} :
    (requireAuth e a : Outcome E Unit) = .ok u ↔ e.auth a = true := by
  simp [requireAuth]

end Talos.Soroban
