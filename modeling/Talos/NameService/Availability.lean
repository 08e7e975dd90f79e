import Talos.NameService.Effects
import Mathlib.Data.List.DropRight

/-!
# Availability of names

Registration, lookup and the availability query all canonicalize first, and the canonicalizer traps
on inputs that are too long, blank, or too long once trimmed. On all others the query answers, and
it answers what a registration would find.
-/

namespace Talos.NameService

open Talos.Soroban

variable {e : Env Remote} {s s' : Storage} {raw raw' name : Bytes} {owner : Address} {talosId : Nat}

/-! ### When there is a canonical form -/

/-- The name has at most 64 bytes, one of them not trimmed, and at most 32 once trimmed. -/
structure Canonicalizes (raw : Bytes) : Prop where
  short : raw.length ≤ 64
  notBlank : ∃ b ∈ raw, isTrimmed b = false
  trimmed : (trim raw).length ≤ 32

/-- Nothing is left exactly of the names with nothing to keep. -/
theorem trim_eq_nil_iff {name : Bytes} : trim name = [] ↔ ∀ b ∈ name, isTrimmed b = true := by
  rw [trim, List.reverse_eq_nil_iff, List.dropWhile_eq_nil_iff]
  constructor
  · intro rest
    have again : (name.dropWhile isTrimmed).dropWhile isTrimmed = [] :=
      List.dropWhile_eq_nil_iff.mpr fun b mem => rest b (List.mem_reverse.mpr mem)
    rw [List.dropWhile_idempotent] at again
    exact List.dropWhile_eq_nil_iff.mp again
  · intro all b mem
    exact all b ((List.dropWhile_suffix _).mem (List.mem_reverse.mp mem))

theorem canonicalizes_iff :
    Canonicalizes raw ↔ ∃ name, canonicalizeName raw = (.ok name : Result Bytes) := by
  have kept : trim raw ≠ [] ↔ ∃ b ∈ raw, isTrimmed b = false := by
    simp [trim_eq_nil_iff]
  simp only [canonicalizeName, bind_eq_ok, rejectIf_eq_ok, Except.ok.injEq, Nat.not_lt]
  constructor
  · rintro ⟨short, notBlank, trimmed⟩
    exact ⟨_, (), short, (), kept.mpr notBlank, (), trimmed, rfl⟩
  · rintro ⟨_, _, short, _, notBlank, _, trimmed, -⟩
    exact ⟨short, kept.mp notBlank, trimmed⟩

/-! ### The three entry points -/

theorem isNameAvailable_of_canonical (canonical : canonicalizeName raw = (.ok name : Result Bytes)) :
    isNameAvailable s raw = .ok (validateName name && (s.nameRecord name).isNone) := by
  rw [isNameAvailable, canonical, bind_ok]
  cases valid : validateName name with
  | true => rfl
  | false => rfl

theorem resolveName_of_canonical (canonical : canonicalizeName raw = (.ok name : Result Bytes)) :
    resolveName s raw = .ok (s.nameRecord name) := by
  rw [resolveName, canonical, bind_ok]

/-- The name is available exactly if its canonical form is valid and not registered. -/
theorem isNameAvailable_iff : isNameAvailable s raw = .ok true ↔
    ∃ name, canonicalizeName raw = (.ok name : Result Bytes) ∧ validateName name = true ∧
      s.nameRecord name = none := by
  constructor
  · intro available
    have canonicalizes := available
    rw [isNameAvailable, bind_eq_ok] at canonicalizes
    obtain ⟨name, canonical, -⟩ := canonicalizes
    rw [isNameAvailable_of_canonical canonical] at available
    obtain ⟨valid, free⟩ := Bool.and_eq_true_iff.mp (Except.ok.inj available)
    exact ⟨name, canonical, valid, Option.isNone_iff_eq_none.mp free⟩
  · rintro ⟨name, canonical, valid, free⟩
    rw [isNameAvailable_of_canonical canonical, valid, free]
    rfl

/-- The contract is initialized, registrations are not paused, and the owner signs and is the
creator that the registry knows. -/
structure MayRegister (e : Env Remote) (s : Storage) (owner : Address) (talosId : Nat) : Prop where
  isOpen : Open e s pauseNameRegistration
  signed : e.auth owner = true
  creator : ∃ registry, s.registryContract = some registry ∧
    e.remote.creatorOf registry talosId = some (some owner)

theorem registrable_iff (may : MayRegister e s owner talosId) :
    Registrable e s owner talosId raw name ↔ canonicalizeName raw = (.ok name : Result Bytes) ∧
      validateName name = true ∧ s.nameRecord name = none := by
  constructor
  · intro registrable
    exact ⟨registrable.canonical, registrable.valid, registrable.free⟩
  · rintro ⟨canonical, valid, free⟩
    exact ⟨may.isOpen, may.signed, canonical, valid, free, may.creator⟩

/-- A registration that meets every check is accepted. -/
theorem registerName_of (registrable : Registrable e s owner talosId raw name) :
    registerName e s owner talosId raw =
      .ok ((s.guarded e pauseNameRegistration).setName talosId name) := by
  obtain ⟨isOpen, signed, canonical, valid, free, registry, configured, creator⟩ := registrable
  simp only [registerName, bind_eq_ok, checkNotPaused_eq_ok, requireAuth_eq_ok, orReject_eq_ok,
    rejectIf_eq_ok, Except.ok.injEq]
  refine ⟨_, ⟨isOpen, rfl⟩, (), signed, name, canonical, (), ?_, (), ?_, registry, configured,
    _, creator, (), not_not_intro rfl, rfl⟩
  · rw [valid]
    exact Bool.noConfusion
  · rw [show (s.guarded e pauseNameRegistration).nameRecord name = none from free]
    exact Bool.false_ne_true

/-! ### The law -/

/-- What the three entry points promise of a name. -/
structure Exact (s : Storage) (raw : Bytes) : Prop where
  answers : ∃ available, isNameAvailable s raw = .ok available
  resolves : ∃ talosId, resolveName s raw = .ok talosId
  available_iff : isNameAvailable s raw = .ok true ↔
    ∃ name, canonicalizeName raw = (.ok name : Result Bytes) ∧ validateName name = true ∧
      s.nameRecord name = none
  registers_iff : ∀ e owner talosId, MayRegister e s owner talosId →
    ((∃ s', registerName e s owner talosId raw = .ok s') ↔ isNameAvailable s raw = .ok true)
  registered : ∀ e owner talosId s', registerName e s owner talosId raw = .ok s' →
    ∀ raw' name, canonicalizeName raw = (.ok name : Result Bytes) →
      canonicalizeName raw' = (.ok name : Result Bytes) → resolveName s' raw' = .ok (some talosId)

theorem registers_iff (may : MayRegister e s owner talosId) :
    (∃ s', registerName e s owner talosId raw = .ok s') ↔ isNameAvailable s raw = .ok true := by
  rw [isNameAvailable_iff]
  constructor
  · rintro ⟨s', ok⟩
    obtain ⟨name, registrable, -⟩ := registerName_ok ok
    exact ⟨name, (registrable_iff may).mp registrable⟩
  · rintro ⟨name, free⟩
    exact ⟨_, registerName_of ((registrable_iff may).mpr free)⟩

/-- A registered name resolves under every spelling of it. -/
theorem resolveName_registered (ok : registerName e s owner talosId raw = .ok s')
    (canonical : canonicalizeName raw = (.ok name : Result Bytes))
    (same : canonicalizeName raw' = (.ok name : Result Bytes)) :
    resolveName s' raw' = .ok (some talosId) := by
  obtain ⟨stored, registrable, rfl⟩ := registerName_ok ok
  obtain rfl := Except.ok.inj (registrable.canonical.symm.trans canonical)
  rw [resolveName_of_canonical same]
  exact congrArg _ (Map.set_self _ _ _)

/-- The queries answer, and agree with registrations, exactly on the names that have a canonical
form. -/
theorem availability_exact_iff (s : Storage) (raw : Bytes) : Exact s raw ↔ Canonicalizes raw := by
  rw [canonicalizes_iff]
  constructor
  · intro exactly
    obtain ⟨available, ok⟩ := exactly.answers
    rw [isNameAvailable, bind_eq_ok] at ok
    obtain ⟨name, canonical, -⟩ := ok
    exact ⟨name, canonical⟩
  · rintro ⟨name, canonical⟩
    exact {
      answers := ⟨_, isNameAvailable_of_canonical canonical⟩
      resolves := ⟨_, resolveName_of_canonical canonical⟩
      available_iff := isNameAvailable_iff
      registers_iff := fun _ _ _ may => registers_iff may
      registered := fun _ _ _ _ ok _ _ canonical same => resolveName_registered ok canonical same }

/-- Asking for a blank name traps, and so does asking for one of 65 bytes. -/
theorem availability_traps :
    isNameAvailable contract.init [32] =
      .error (.panic "Name cannot be empty after canonicalization") ∧
    resolveName contract.init [32] =
      .error (.panic "Name cannot be empty after canonicalization") ∧
    ¬ Exact contract.init [32] ∧ ¬ Exact contract.init (List.replicate 65 97) := by
  refine ⟨rfl, rfl, ?_, ?_⟩
  · intro exactly
    obtain ⟨_, ok⟩ := exactly.answers
    cases ok
  · intro exactly
    obtain ⟨_, ok⟩ := exactly.answers
    cases ok

end Talos.NameService
