import Talos.Soroban.Contract

/-!
# ttl_manager

Age bookkeeping for persistent entries (`contracts/ttl_manager`). Re-writing an
entry renews its lifetime and leaves its value alone; the only data a sweep
changes are the `LastTouched` markers.

The contracts each carry their own copy of the sweep loop. It is one function
here, `sweep`, over a `Tracked` family of entries; each contract instantiates it
with its own keys.
-/

namespace Talos.TtlManager

open Talos.Soroban

def renewalThreshold : Nat := 2000000

def needsTouch (lastTouched currentLedger : Nat) : Bool :=
  decide (renewalThreshold ≤ currentLedger - lastTouched)

def ageLedgers (lastTouched currentLedger : Nat) : Nat := currentLedger - lastTouched

def defaultMaxBatchKeys : Nat := 200

def maxBatchKeys : Nat := 1000

/-- Age window and work cap of a batched sweep. -/
structure TtlBounds where
  minAge : Nat
  maxAge : Nat
  maxKeys : Nat
deriving DecidableEq, Repr

inductive BoundsError where
  | invertedAgeWindow
  | zeroMaxKeys
  | maxKeysTooLarge
deriving DecidableEq, Repr

def BoundsError.message : BoundsError → String
  | .invertedAgeWindow => "ttl bounds: min_age exceeds max_age"
  | .zeroMaxKeys => "ttl bounds: max_keys must be greater than zero"
  | .maxKeysTooLarge => "ttl bounds: max_keys exceeds MAX_BATCH_KEYS"

def TtlBounds.renewal : TtlBounds := ⟨renewalThreshold, u32Max, defaultMaxBatchKeys⟩

def TtlBounds.validate (b : TtlBounds) : Except BoundsError Unit :=
  if b.minAge > b.maxAge then .error .invertedAgeWindow
  else if b.maxKeys = 0 then .error .zeroMaxKeys
  else if b.maxKeys > maxBatchKeys then .error .maxKeysTooLarge
  else .ok ()

/-- `limit` clamped to the work cap, once the bounds are known to be valid. -/
def TtlBounds.clampLimit (b : TtlBounds) (limit : Nat) : Except BoundsError Nat := do
  b.validate
  .ok (min limit b.maxKeys)

def TtlBounds.contains (b : TtlBounds) (age : Nat) : Bool :=
  decide (b.minAge ≤ age) && decide (age ≤ b.maxAge)

def shouldExtend (lastTouched currentLedger : Nat) (b : TtlBounds) : Bool :=
  b.contains (ageLedgers lastTouched currentLedger)

/-- The half-open Rust range `lo..hi` as the list of ids a `for` loop visits. -/
def idRange (lo hi : Nat) : List Nat := List.range' lo (hi - lo)

/-- Ids a bounded sweep may visit. -/
def boundedRange (startId limit : Nat) (b : TtlBounds) (endExclusive : Nat) :
    Except BoundsError (List Nat) := do
  let capped ← b.clampLimit limit
  .ok (idRange startId (min endExclusive (saturatingAddU32 startId capped)))

/-- `unwrap_or_else(|err| panic!("{}", err.message()))`. -/
def orPanic {E α : Type} : Except BoundsError α → Outcome E α
  | .ok a => .ok a
  | .error err => .error (.panic err.message)

inductive EntryOutcome where
  | touched
  | skipped
  | absent
deriving DecidableEq, Repr

structure BatchSweep where
  total : Nat
  touched : Nat
  skipped : Nat
deriving DecidableEq, Repr

def BatchSweep.empty : BatchSweep := ⟨0, 0, 0⟩

/-- Fold one id's outcome into the accumulator. Absent ids are not counted. -/
def BatchSweep.record (b : BatchSweep) : EntryOutcome → BatchSweep
  | .touched => { b with total := b.total + 1, touched := b.touched + 1 }
  | .skipped => { b with total := b.total + 1, skipped := b.skipped + 1 }
  | .absent => b

/-- A family of age-tracked entries in storage `σ`: whether the entry of an id
exists, its `LastTouched` marker (absent reads as `0`), and the write that
renews it at a given ledger. -/
structure Tracked (σ : Type) where
  present : σ → Nat → Bool
  lastTouched : σ → Nat → Nat
  renew : Nat → σ → Nat → σ

/-- One iteration of a sweep loop. -/
def sweepOne {σ : Type} (t : Tracked σ) (currentLedger : Nat) (b : TtlBounds)
    (acc : BatchSweep × σ) (id : Nat) : BatchSweep × σ :=
  if t.present acc.2 id then
    if shouldExtend (t.lastTouched acc.2 id) currentLedger b then
      (acc.1.record .touched, t.renew currentLedger acc.2 id)
    else (acc.1.record .skipped, acc.2)
  else (acc.1.record .absent, acc.2)

/-- The sweep loop over `ids`. -/
def sweep {σ : Type} (t : Tracked σ) (currentLedger : Nat) (b : TtlBounds) (ids : List Nat)
    (s : σ) : BatchSweep × σ :=
  ids.foldl (sweepOne t currentLedger b) (.empty, s)

section Sweep

variable {σ : Type} {t : Tracked σ} {currentLedger : Nat} {b : TtlBounds}

theorem sweepOne_relates {r : σ → σ → Prop} (refl : ∀ s, r s s)
    (keep : ∀ s id, t.present s id = true → r s (t.renew currentLedger s id))
    (acc : BatchSweep × σ) (id : Nat) : r acc.2 (sweepOne t currentLedger b acc id).2 := by
  unfold sweepOne
  by_cases present : t.present acc.2 id = true
  · rw [if_pos present]
    split
    · exact keep _ _ present
    · exact refl _
  · rw [if_neg present]
    exact refl _

/-- Whatever a single renewal of a present entry preserves, a sweep preserves. -/
theorem sweep_relates {r : σ → σ → Prop} (refl : ∀ s, r s s)
    (trans : ∀ {a b c}, r a b → r b c → r a c)
    (keep : ∀ s id, t.present s id = true → r s (t.renew currentLedger s id))
    (ids : List Nat) (s : σ) : r s (sweep t currentLedger b ids s).2 := by
  suffices loop : ∀ acc : BatchSweep × σ,
      r acc.2 (ids.foldl (sweepOne t currentLedger b) acc).2 from loop (.empty, s)
  induction ids with
  | nil => exact fun acc => refl _
  | cons id rest ih => exact fun acc => trans (sweepOne_relates refl keep acc id) (ih _)

end Sweep

end Talos.TtlManager
