import Talos.Registry.Identity

/-!
# Metadata bounds

`create_talos` and `update_creator_metadata` write the same three fields and
check them with helpers of their own: a creation against the limits of each field,
an update against one limit for all three. The limits of a creation survive an
update exactly as far as the update itself keeps to them.
-/

namespace Talos.Registry

open Talos.Soroban

variable {e : Env Remote} {s s' : Storage} {c : Call} {v : Value}
  {name category description : Bytes}

/-! ### What the checks accept -/

/-- The limits of a creation. -/
structure MetadataBounds (name category description : Bytes) : Prop where
  nameNonempty : 0 < name.length
  name : name.length ≤ maxNameBytes
  category : category.length ≤ maxCategoryBytes
  description : description.length ≤ maxDescriptionBytes

/-- The limits of an update. -/
structure UpdateBounds (name category description : Bytes) : Prop where
  name : name.length ≤ maxStringLen
  category : category.length ≤ maxStringLen
  description : description.length ≤ maxStringLen

structure SymbolBounds (tokenSymbol : Bytes) : Prop where
  nonempty : 0 < tokenSymbol.length
  bounded : tokenSymbol.length ≤ maxTokenSymbolBytes

theorem validateTokenSymbol_eq_ok {tokenSymbol : Bytes} {u : Unit} :
    validateTokenSymbol tokenSymbol = .ok u ↔ SymbolBounds tokenSymbol := by
  simp only [validateTokenSymbol, bind_eq_ok, rejectIf_eq_ok, Nat.not_lt]
  constructor
  · rintro ⟨_, nonempty, bounded⟩
    exact ⟨Nat.pos_of_ne_zero nonempty, bounded⟩
  · rintro ⟨nonempty, bounded⟩
    exact ⟨(), Nat.ne_of_gt nonempty, bounded⟩

theorem validateTalosMetadata_eq_ok {pulse : Pulse} {u : Unit} :
    validateTalosMetadata name category description pulse = .ok u ↔
      MetadataBounds name category description ∧ SymbolBounds pulse.tokenSymbol := by
  simp only [validateTalosMetadata, bind_eq_ok, rejectIf_eq_ok, validateTokenSymbol_eq_ok,
    Nat.not_lt]
  constructor
  · rintro ⟨_, nonempty, _, name, _, category, _, description, symbol⟩
    exact ⟨⟨Nat.pos_of_ne_zero nonempty, name, category, description⟩, symbol⟩
  · rintro ⟨⟨nonempty, name, category, description⟩, symbol⟩
    exact ⟨(), Nat.ne_of_gt nonempty, (), name, (), category, (), description, symbol⟩

theorem validateCreatorMetadataFields_eq_ok {u : Unit} :
    validateCreatorMetadataFields name category description = .ok u ↔
      UpdateBounds name category description := by
  simp only [validateCreatorMetadataFields, validateStringInput, bind_eq_ok, rejectIf_eq_ok,
    Nat.not_lt]
  constructor
  · rintro ⟨_, name, _, category, description⟩
    exact ⟨name, category, description⟩
  · rintro ⟨name, category, description⟩
    exact ⟨(), name, (), category, description⟩

/-! ### What is stored -/

structure WithinBounds (t : Talos) : Prop where
  metadata : MetadataBounds t.name t.category t.description
  symbol : SymbolBounds t.pulse.tokenSymbol

def AllWithinBounds (s : Storage) : Prop := ∀ id t, s.talos id = some t → WithinBounds t

/-- An update of the metadata that keeps to the limits of a creation. -/
def Call.keepsLimits : Call → Prop
  | .updateCreatorMetadata _ name category description => MetadataBounds name category description
  | _ => True

theorem AllWithinBounds.set (all : AllWithinBounds s) {id : Nat} {t : Talos}
    (written : s'.talos = s.talos.set id t) (within : WithinBounds t) : AllWithinBounds s' := by
  intro id' t' found
  rw [written, Map.set_apply] at found
  split at found
  · obtain rfl := Option.some.inj found
    exact within
  · exact all id' t' found

/-- Every writer of a record keeps the bounds, an update of the metadata when it
keeps to the limits. -/
theorem AllWithinBounds.step (all : AllWithinBounds s) (ok : exec e s c = .ok (v, s'))
    (keeps : c.keepsLimits) : AllWithinBounds s' := by
  cases c with
  | createTalos a =>
    simp only [exec, returning_eq_ok, createTalos, bind_eq_ok, checkNotPaused_eq_ok,
      validateTalosMetadata_eq_ok, Except.ok.injEq, Prod.mk.injEq] at ok
    obtain ⟨_, ⟨_, ⟨_, rfl⟩, _, _, _, _, _, ⟨metadata, symbol⟩, _, _, _, _, _, rfl⟩, _⟩ := ok
    exact all.set rfl ⟨metadata, symbol⟩
  | updatePulse talosId pulse =>
    simp only [exec, silent_eq_ok, updatePulse, bind_eq_ok, checkNotPaused_eq_ok, orReject_eq_ok,
      validateTokenSymbol_eq_ok, Except.ok.injEq] at ok
    obtain ⟨⟨_, ⟨_, rfl⟩, t, found, _, _, _, symbol, rfl⟩, _⟩ := ok
    exact all.set rfl ⟨(all talosId t found).metadata, symbol⟩
  | updateCreatorMetadata talosId name category description =>
    simp only [exec, silent_eq_ok, updateCreatorMetadata, bind_eq_ok, checkNotPaused_eq_ok,
      orReject_eq_ok, Except.ok.injEq] at ok
    obtain ⟨⟨_, ⟨_, rfl⟩, t, found, _, _, _, _, rfl⟩, _⟩ := ok
    exact all.set rfl ⟨keeps, (all talosId t found).symbol⟩
  | updatePatron talosId patron =>
    simp only [exec, silent_eq_ok, updatePatron, bind_eq_ok, checkNotPaused_eq_ok, orReject_eq_ok,
      Except.ok.injEq] at ok
    obtain ⟨⟨_, ⟨_, rfl⟩, t, found, _, _, _, _, rfl⟩, _⟩ := ok
    exact all.set rfl ⟨(all talosId t found).metadata, (all talosId t found).symbol⟩
  | updateKernel talosId kernel =>
    simp only [exec, silent_eq_ok, updateKernel, bind_eq_ok, checkNotPaused_eq_ok, orReject_eq_ok,
      Except.ok.injEq] at ok
    obtain ⟨⟨_, ⟨_, rfl⟩, t, found, _, _, rfl⟩, _⟩ := ok
    exact all.set rfl ⟨(all talosId t found).metadata, (all talosId t found).symbol⟩
  | deactivateTalos talosId controller =>
    simp only [exec, silent_eq_ok, deactivateTalos, bind_eq_ok, checkNotPaused_eq_ok,
      orReject_eq_ok, Except.ok.injEq] at ok
    obtain ⟨⟨_, ⟨_, rfl⟩, t, found, _, _, _, _, rfl⟩, _⟩ := ok
    exact all.set rfl ⟨(all talosId t found).metadata, (all talosId t found).symbol⟩
  | activateTalos talosId controller =>
    simp only [exec, silent_eq_ok, activateTalos, bind_eq_ok, checkNotPaused_eq_ok,
      orReject_eq_ok, Except.ok.injEq] at ok
    obtain ⟨⟨_, ⟨_, rfl⟩, t, found, _, _, _, _, rfl⟩, _⟩ := ok
    exact all.set rfl ⟨(all talosId t found).metadata, (all talosId t found).symbol⟩
  | _ =>
    cases exec_effect ok with
    | edit t t' edits => cases edits
    | _ => exact all

/-- What an update stores is what it was given. -/
theorem keepsLimits_of_within (ok : exec e s c = .ok (v, s')) (all : AllWithinBounds s') :
    c.keepsLimits := by
  cases c with
  | updateCreatorMetadata talosId name category description =>
    simp only [exec, silent_eq_ok, updateCreatorMetadata, bind_eq_ok, Except.ok.injEq] at ok
    obtain ⟨⟨_, _, t, _, _, _, _, _, rfl⟩, _⟩ := ok
    exact (all talosId _ (Map.set_self ..)).metadata
  | _ => trivial

/-- All records are within the bounds throughout a run exactly when all updates
of the metadata kept to the limits. -/
theorem allWithinBounds_iff_of_run {h : List Invocation} (run : Run contract h s) :
    (AllWithinBounds s ∧ ∀ r ∈ h, AllWithinBounds r.pre) ↔ ∀ r ∈ h, r.call.keepsLimits := by
  induction run with
  | refl =>
    have start : AllWithinBounds contract.init := fun _ _ found => nomatch found
    exact iff_of_true ⟨start, List.forall_mem_nil _⟩ (List.forall_mem_nil _)
  | step _ ok ih =>
    simp only [List.forall_mem_cons]
    constructor
    · rintro ⟨now, before, older⟩
      exact ⟨keepsLimits_of_within ok now, ih.mp ⟨before, older⟩⟩
    · rintro ⟨newest, older⟩
      obtain ⟨before, throughout⟩ := ih.mpr older
      exact ⟨before.step ok newest, before, throughout⟩

/-! ### What the two entry points accept -/

/-- Some reachable registry accepts a creation with these fields. -/
def CreateAccepts (name category description : Bytes) : Prop :=
  ∃ s e a id s', Reachable contract s ∧ createTalos e s a = .ok (id, s') ∧
    a.name = name ∧ a.category = category ∧ a.description = description

/-- Some reachable registry accepts an update to these fields. -/
def UpdateAccepts (name category description : Bytes) : Prop :=
  ∃ s e talosId s', Reachable contract s ∧
    updateCreatorMetadata e s talosId name category description = .ok s'

/-- A creation with these fields by a creator who holds all shares. -/
def createWith (name category description : Bytes) : CreateArgs where
  name := name
  category := category
  description := description
  patron := ⟨100, 0, 0, ⟨1⟩, ⟨1⟩, ⟨1⟩⟩
  kernel := ⟨0, 0, 0⟩
  pulse := ⟨0, 0, [84]⟩
  protocolWallet := ⟨0⟩

theorem createAccepts_iff : CreateAccepts name category description ↔
    MetadataBounds name category description := by
  constructor
  · rintro ⟨s, e, a, id, s', -, ok, rfl, rfl, rfl⟩
    simp only [createTalos, bind_eq_ok, validateTalosMetadata_eq_ok] at ok
    obtain ⟨_, _, _, _, _, _, _, ⟨metadata, -⟩, -⟩ := ok
    exact metadata
  · intro metadata
    have valid : validateTalosMetadata name category description ⟨0, 0, [84]⟩ = .ok () :=
      validateTalosMetadata_eq_ok.mpr ⟨metadata, ⟨by decide, by decide⟩⟩
    obtain ⟨id, s', ok⟩ : ∃ id s', createTalos openEnv contract.init
        (createWith name category description) = .ok (id, s') := by
      simp only [createTalos, bind_eq_ok]
      exact ⟨1, _, contract.init, rfl, (), rfl, (), rfl, (), valid, (), rfl, 2, rfl, rfl⟩
    exact ⟨_, _, _, id, s', Reachable.init, ok, rfl, rfl, rfl⟩

theorem updateAccepts_iff : UpdateAccepts name category description ↔
    UpdateBounds name category description := by
  constructor
  · rintro ⟨s, e, talosId, s', -, ok⟩
    simp only [updateCreatorMetadata, bind_eq_ok, validateCreatorMetadataFields_eq_ok] at ok
    obtain ⟨_, _, _, _, _, _, _, bounds, -⟩ := ok
    exact bounds
  · intro bounds
    have valid : validateCreatorMetadataFields name category description = .ok () :=
      validateCreatorMetadataFields_eq_ok.mpr bounds
    let created := contract.submitAll [(openEnv, createBy ⟨1⟩)] contract.init
    obtain ⟨s', ok⟩ : ∃ s', updateCreatorMetadata openEnv created 1 name category description =
        .ok s' := by
      simp only [updateCreatorMetadata, bind_eq_ok]
      exact ⟨_, created, rfl, _, rfl, (), rfl, (), valid, rfl⟩
    exact ⟨created, openEnv, 1, s', Reachable.init.submitAll _, ok⟩

/-- Stored metadata is within the limits of a creation throughout a run exactly
when every accepted update keeps to them. The two entry points agree on a triple
exactly when both reject one of its fields by its length alone, or its name and
category are within the limits of a creation just when its description is within
those of an update. -/
theorem metadata_bounds_iff {h : List Invocation} (run : Run contract h s)
    (name category description : Bytes) :
    ((AllWithinBounds s ∧ ∀ r ∈ h, AllWithinBounds r.pre) ↔ ∀ r ∈ h, r.call.keepsLimits) ∧
    ((CreateAccepts name category description ↔ UpdateAccepts name category description) ↔
      (256 < name.length ∨ 256 < category.length ∨ 512 < description.length ∨
        (0 < name.length ∧ name.length ≤ 64 ∧ category.length ≤ 32 ↔
          description.length ≤ 256))) := by
  refine ⟨allWithinBounds_iff_of_run run, ?_⟩
  have creation : MetadataBounds name category description ↔ 0 < name.length ∧
      name.length ≤ 64 ∧ category.length ≤ 32 ∧ description.length ≤ 512 :=
    ⟨fun ⟨a, b, c, d⟩ => ⟨a, b, c, d⟩, fun ⟨a, b, c, d⟩ => ⟨a, b, c, d⟩⟩
  have update : UpdateBounds name category description ↔ name.length ≤ 256 ∧
      category.length ≤ 256 ∧ description.length ≤ 256 :=
    ⟨fun ⟨a, b, c⟩ => ⟨a, b, c⟩, fun ⟨a, b, c⟩ => ⟨a, b, c⟩⟩
  rw [createAccepts_iff, updateAccepts_iff, creation, update]
  omega

/-- A run that creates a Talos and then names it with 64 bytes. -/
def renamedRun : List Invocation × Storage :=
  contract.play [(openEnv, createBy ⟨1⟩),
    (openEnv, .updateCreatorMetadata 1 (List.replicate 64 97) [] [])] ([], contract.init)

theorem metadata_bounds_iff_renamed : (renamedRun.1.map (·.result)) = [.unit, .id 1] ∧
    AllWithinBounds renamedRun.2 := by
  have keeps : ∀ r ∈ renamedRun.1, r.call.keepsLimits := by
    have calls : renamedRun.1.map (·.call) =
      [.updateCreatorMetadata 1 (List.replicate 64 97) [] [], createBy ⟨1⟩] := by decide
    intro r mem
    have call := List.mem_map_of_mem (f := fun r : Invocation => r.call) mem
    rw [calls] at call
    rcases List.mem_cons.mp call with same | call
    · rw [same]
      exact ⟨by decide, by decide, by decide, by decide⟩
    · rw [List.mem_singleton.mp call]
      trivial
  exact ⟨by decide,
    ((metadata_bounds_iff (Contract.play_steps .refl _) [] [] []).1.mpr keeps).1⟩

/-- An update stores an empty name, and one that a creation would take for its
description is rejected. -/
theorem metadata_bounds_broken :
    let s := contract.submitAll [(openEnv, createBy ⟨1⟩),
      (openEnv, .updateCreatorMetadata 1 [] [] [])] contract.init
    Reachable contract s ∧ (s.talos 1).map (·.name) = some [] ∧ ¬ AllWithinBounds s ∧
    CreateAccepts [97] [] (List.replicate 300 97) ∧
      ¬ UpdateAccepts [97] [] (List.replicate 300 97) := by
  refine ⟨Reachable.init.submitAll _, by decide, fun all => ?_, ?_, ?_⟩
  · exact absurd (all 1 _ rfl).metadata.nameNonempty (by decide)
  · refine createAccepts_iff.mpr ⟨by decide, by decide, by decide, ?_⟩
    rw [List.length_replicate]
    decide
  · intro accepts
    have short := (updateAccepts_iff.mp accepts).description
    rw [List.length_replicate] at short
    exact absurd short (by decide)

end Talos.Registry
