import Talos.NameService.Effects
import Talos.Soroban.FiniteMaps

/-!
# Names and Talos are in bijection

`NameRecord` and `TalosName` are written separately by registrations and TTL
sweeps. In every reachable storage they are inverse to each other, and every
stored name is valid, so canonical. Renaming frees the old name.
-/

namespace Talos.NameService

open Talos.Soroban

variable {e : Env Remote} {s s' : Storage} {c : Call} {v : Value}

/-- The two maps agree, and hold valid names only. -/
structure NamesInv (s : Storage) : Prop where
  inverse : Map.Inverse s.nameRecord s.talosName
  valid : ∀ name talosId, s.nameRecord name = some talosId → validateName name = true

theorem NamesInv.empty : NamesInv .empty where
  inverse := Map.Inverse.empty
  valid name talosId found := by simp [Storage.empty] at found

theorem NamesInv.setName (inv : NamesInv s) {talosId : Nat} {name : Bytes}
    (free : s.nameRecord name = none) (valid : validateName name = true) :
    NamesInv (s.setName talosId name) := by
  cases old : s.talosName talosId with
  | none =>
    have eq : s.setName talosId name = { s with
        nameRecord := s.nameRecord.set name talosId
        talosName := s.talosName.set talosId name } := by
      simp [Storage.setName, old]
    rw [eq]
    refine ⟨inv.inverse.bind free old, ?_⟩
    intro n t found
    dsimp only at found
    rw [Map.set_apply] at found
    split at found
    · next same => exact same ▸ valid
    · exact inv.valid n t found
  | some oldName =>
    have eq : s.setName talosId name = { s with
        nameRecord := (s.nameRecord.remove oldName).set name talosId
        talosName := s.talosName.set talosId name } := by
      simp [Storage.setName, old]
    rw [eq]
    refine ⟨inv.inverse.rebind free old, ?_⟩
    intro n t found
    dsimp only at found
    rw [Map.set_apply, Map.remove_apply] at found
    split at found
    · next same => exact same ▸ valid
    · split at found
      · cases found
      · exact inv.valid n t found

theorem NamesInv.step (inv : NamesInv s) (ok : exec e s c = .ok (v, s')) : NamesInv s' := by
  cases exec_effect ok with
  | register name call registrable =>
    have guarded : NamesInv (s.guarded e pauseNameRegistration) := ⟨inv.inverse, inv.valid⟩
    exact guarded.setName registrable.free registrable.valid
  | _ => exact ⟨inv.inverse, inv.valid⟩

theorem NamesInv.of_reachable (reach : Reachable contract s) : NamesInv s :=
  reach.invariant .empty fun inv ok => inv.step ok

/-- After a registration the Talos has the new name and its old one is free. -/
theorem setName_frees {talosId : Nat} {name oldName : Bytes}
    (old : s.talosName talosId = some oldName) (ne : oldName ≠ name) :
    (s.setName talosId name).nameRecord oldName = none := by
  simp [Storage.setName, old, Map.set_apply, ne]

/-- A name that is taken is not registered again, so renaming changes the name. -/
theorem Registrable.ne_old {owner : Address} {talosId : Nat} {raw name oldName : Bytes}
    (registrable : Registrable e s owner talosId raw name) (inv : NamesInv s)
    (old : s.talosName talosId = some oldName) : oldName ≠ name := by
  rintro rfl
  have taken := (inv.inverse oldName talosId).mpr old
  rw [registrable.free] at taken
  cases taken

/-- In every reachable storage names and Talos are in bijection, every stored
name is valid and its own canonical form, and an accepted registration gives the
Talos a name it did not have and frees the one it had. -/
theorem names_bijective (reach : Reachable contract s) :
    (∀ name talosId, s.nameRecord name = some talosId ↔ s.talosName talosId = some name) ∧
    (∀ name talosId, s.nameRecord name = some talosId →
      validateName name = true ∧ canonicalizeName name = (.ok name : Result Bytes)) ∧
    (∀ name t₁ t₂, s.talosName t₁ = some name → s.talosName t₂ = some name → t₁ = t₂) ∧
    (∀ talosId n₁ n₂, s.nameRecord n₁ = some talosId → s.nameRecord n₂ = some talosId →
      n₁ = n₂) ∧
    (∀ e c v s' owner talosId raw, c.registration = some (owner, talosId, raw) →
      exec e s c = .ok (v, s') → ∃ name, canonicalizeName raw = (.ok name : Result Bytes) ∧
        s'.talosName talosId = some name ∧ ∀ oldName, s.talosName talosId = some oldName →
          oldName ≠ name ∧ s'.nameRecord oldName = none) := by
  have inv := NamesInv.of_reachable reach
  refine ⟨inv.inverse, ?_, ?_, ?_, ?_⟩
  · intro name talosId found
    have valid := inv.valid name talosId found
    exact ⟨valid, canonicalizeName_of_valid valid⟩
  · intro name t₁ t₂ h₁ h₂
    have back₁ := (inv.inverse name t₁).mpr h₁
    have back₂ := (inv.inverse name t₂).mpr h₂
    exact Option.some.inj (back₁.symm.trans back₂)
  · intro talosId n₁ n₂ h₁ h₂
    exact inv.inverse.key_unique h₁ h₂
  · intro e c v s' owner talosId raw call ok
    cases exec_effect ok with
    | register name call' registrable =>
      obtain ⟨rfl, rfl, rfl⟩ : _ = owner ∧ _ = talosId ∧ _ = raw := by
        simpa using call'.symm.trans call
      refine ⟨name, registrable.canonical, Map.set_self .., ?_⟩
      intro oldName old
      have ne := registrable.ne_old inv old
      exact ⟨ne, setName_frees old ne⟩
    | _ => cases call

/-- A registry that knows address 1 as creator of every Talos. -/
def openEnv : Env Remote :=
  ⟨0, 0, fun _ => true, ⟨fun _ _ => some (some ⟨1⟩), fun _ _ => none, fun _ _ _ _ => none⟩⟩

/-- Talos 1 registers "vega", then "Lyra ", which is stored as "lyra". -/
def renamed : Storage :=
  contract.submitAll
    [(openEnv, .initializeContract ⟨7⟩ ⟨0⟩ 0),
      (openEnv, .registerName ⟨1⟩ 1 [118, 101, 103, 97]),
      (openEnv, .registerName ⟨1⟩ 1 [76, 121, 114, 97, 32])] contract.init

theorem names_bijective_renamed :
    renamed.talosName 1 = some [108, 121, 114, 97] ∧
    renamed.nameRecord [118, 101, 103, 97] = none ∧
    ∀ name talosId,
      renamed.nameRecord name = some talosId ↔ renamed.talosName talosId = some name :=
  ⟨by decide, by decide, (names_bijective (Reachable.init.submitAll _)).1⟩

end Talos.NameService
