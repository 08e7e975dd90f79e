import Talos.Registry.Effects
import Talos.NameService.Effects

/-!
# Emergency pauses

`pause` writes `PauseState` and `is_paused` reads it; the guards of the write
paths read the numeric records of `pause_control`. In the registry nothing ever
writes the latter, in the name service only `pause_domain` does. So a pause set
by `pause` stops nothing: while it is shown as in force, every entry point its
domain names is still accepted for some caller, unless there is nothing for it
to act on.
-/

namespace Talos.Registry

open Talos.Soroban Talos.PauseControl

variable {e e' : Env Remote} {s s' : Storage} {c : Call} {v : Value}

/-! ### The registry guard never closes -/

/-- No entry point writes a numeric pause record. -/
theorem pauseControl_of_reachable (reach : Reachable contract s) : s.pauseControl = .empty := by
  apply Reachable.invariant (I := fun s => s.pauseControl = .empty) reach rfl
  intro e s c v s' empty ok
  have guarded : ∀ domainId, (s.guarded e domainId).pauseControl = .empty := by
    intro domainId
    have absent : s.pauseControl domainId = none := by
      rw [empty]
      rfl
    exact (expireIfElapsed_of_none e absent).trans empty
  cases exec_effect ok <;> first | exact empty | exact guarded _

theorem isOpen_of_reachable (reach : Reachable contract s) (e : Env Remote) (domainId : Nat) :
    Open e s domainId := by
  have empty := pauseControl_of_reachable reach
  simp [Open, inForce, empty]

theorem checkNotPaused_of_reachable (reach : Reachable contract s) (e : Env Remote)
    (domainId : Nat) : checkNotPaused e s domainId = .ok s := by
  rw [checkNotPaused_eq_ok]
  refine ⟨isOpen_of_reachable reach e domainId, ?_⟩
  have absent : s.pauseControl domainId = none := by
    rw [pauseControl_of_reachable reach]
    rfl
  rw [Storage.guarded, expireIfElapsed_of_none e absent]

/-! ### What a domain names -/

/-- The domain that names an entry point, after its documentation. -/
def Call.pauseDomain : Call → Option PauseDomain
  | .createTalos _ => some .talosCreation
  | .updatePatron .. => some .patronUpdates
  | .updateKernel .. => some .kernelUpdates
  | .updatePulse .. => some .pulseUpdates
  | .deactivateTalos .. => some .deactivation
  | .updateCreatorMetadata .. => some .metadataUpdates
  | _ => none

/-- While the domain shows as paused, every call it names is rejected, whoever
signs it. -/
def PauseEffective (e : Env Remote) (s : Storage) (domain : PauseDomain) : Prop :=
  isPaused e s domain = true → ∀ e' c v s', e'.timestamp = e.timestamp →
    c.pauseDomain = some domain → exec e' s c ≠ .ok (v, s')

/-- Nothing for the entry point of the domain to act on: the id counter is at its
end, or no Talos is stored. -/
def Idle (s : Storage) : PauseDomain → Prop
  | .talosCreation => u32Max ≤ nextTalosId s
  | _ => ∀ talosId, s.talos talosId = none

theorem room_of_ok {a : CreateArgs} (ok : exec e s (.createTalos a) = .ok (v, s')) :
    nextTalosId s < u32Max := by
  cases exec_effect ok with
  | create talos isOpen id creator createdAt room => exact room
  | edit t t' edits => cases edits
  | migrated version config schema call =>
    rcases call with call | ⟨_, call⟩
    · cases call
    · cases call

theorem found_of_ok {talosId : Nat} (edits : c.edits = some talosId)
    (ok : exec e s c = .ok (v, s')) : ∃ t, s.talos talosId = some t := by
  cases exec_effect ok with
  | edit t t' edits' isOpen found same =>
    obtain rfl := Option.some.inj (edits'.symm.trans edits)
    exact ⟨t, found⟩
  | migrated version config schema call =>
    rcases call with rfl | ⟨_, rfl⟩
    · cases edits
    · cases edits
  | _ => cases edits

theorem rejected_of_idle {domain : PauseDomain} (idle : Idle s domain)
    (named : c.pauseDomain = some domain) : exec e s c ≠ .ok (v, s') := by
  intro ok
  have absent : ∀ talosId, c.edits = some talosId → s.talos talosId ≠ none := by
    intro talosId edits none
    obtain ⟨t, found⟩ := found_of_ok edits ok
    rw [none] at found
    cases found
  cases c with
  | createTalos a =>
    obtain rfl := Option.some.inj named
    exact absurd (room_of_ok ok) (Nat.not_lt.mpr idle)
  | updatePatron talosId _ | updateKernel talosId _ | updatePulse talosId _
  | deactivateTalos talosId _ | updateCreatorMetadata talosId _ _ _ =>
    obtain rfl := Option.some.inj named
    exact absent talosId rfl (idle talosId)
  | _ => cases named

/-! ### While it shows as paused, calls get through -/

/-- The same ledger close with every signature present. -/
def signedBy (e : Env Remote) : Env Remote := { e with auth := fun _ => true }

/-- A creation that meets every check: address 0 holds all shares. -/
def plainCreation (s : Storage) : CreateArgs where
  name := [97]
  category := []
  description := []
  patron := ⟨100, 0, 0, ⟨0⟩, ⟨0⟩, ⟨0⟩⟩
  kernel := ⟨0, 0, 0⟩
  pulse := ⟨0, 0, [84]⟩
  protocolWallet := s.protocolWallet.getD ⟨0⟩

theorem createTalos_accepted (reach : Reachable contract s) (room : nextTalosId s < u32Max)
    (e : Env Remote) :
    ∃ v s', exec (signedBy e) s (.createTalos (plainCreation s)) = .ok (v, s') := by
  have wallet : ¬ ∃ wallet ∈ s.protocolWallet, wallet ≠ (plainCreation s).protocolWallet := by
    rintro ⟨wallet, configured, differs⟩
    apply differs
    rw [plainCreation, Option.mem_def.mp configured]
    rfl
  have counter : (addU32 (s.nextTalosId.getD 1) 1 : Result Nat) = .ok (s.nextTalosId.getD 1 + 1) :=
    addU32_eq_ok.mpr ⟨room, rfl⟩
  have shares : validatePatronShares (plainCreation s).patron = .ok () := rfl
  have metadata : validateTalosMetadata (plainCreation s).name (plainCreation s).category
    (plainCreation s).description (plainCreation s).pulse = .ok () := rfl
  have signed : requireAuth (signedBy e) (plainCreation s).patron.creatorAddr =
    (.ok () : Result Unit) := rfl
  cases ok : createTalos (signedBy e) s (plainCreation s) with
  | ok p => exact ⟨_, _, returning_eq_ok.mpr ⟨p.1, ok, rfl⟩⟩
  | error t =>
    simp only [createTalos, checkNotPaused_of_reachable reach, bind_ok, signed, shares, metadata,
      rejectIf_neg wallet, counter, reduceCtorEq] at ok

/-- An edit of a stored Talos that meets every check, by its creator. -/
def plainEdit (talosId : Nat) (t : Talos) : PauseDomain → Call
  | .talosCreation | .patronUpdates => .updatePatron talosId ⟨100, 0, 0, ⟨0⟩, ⟨0⟩, ⟨0⟩⟩
  | .kernelUpdates => .updateKernel talosId ⟨0, 0, 0⟩
  | .pulseUpdates => .updatePulse talosId ⟨0, 0, [84]⟩
  | .deactivation => .deactivateTalos talosId t.creator
  | .metadataUpdates => .updateCreatorMetadata talosId [] [] []

theorem edit_accepted (reach : Reachable contract s) {talosId : Nat} {t : Talos}
    (found : s.talos talosId = some t) (domain : PauseDomain) (e : Env Remote) :
    ∃ v s', exec (signedBy e) s (plainEdit talosId t domain) = .ok (v, s') := by
  have isOpen := fun domainId => checkNotPaused_of_reachable reach (signedBy e) domainId
  have signed : requireAuth (signedBy e) t.creator = (.ok () : Result Unit) := rfl
  have shares : validatePatronShares ⟨100, 0, 0, ⟨0⟩, ⟨0⟩, ⟨0⟩⟩ = .ok () := rfl
  have symbol : validateTokenSymbol [84] = .ok () := rfl
  have metadata : validateCreatorMetadataFields [] [] [] = .ok () := rfl
  have creator : ¬ (t.creator ≠ t.creator ∧ s.pauseController talosId ≠ some t.creator) :=
    fun other => other.1 rfl
  cases domain with
  | talosCreation | patronUpdates =>
    apply silent_accepted
    intro trap rejected
    simp only [updatePatron, isOpen, found, orReject_some, signed, shares, bind_ok,
      reduceCtorEq] at rejected
  | kernelUpdates =>
    apply silent_accepted
    intro trap rejected
    simp only [updateKernel, isOpen, found, orReject_some, signed, bind_ok,
      reduceCtorEq] at rejected
  | pulseUpdates =>
    apply silent_accepted
    intro trap rejected
    simp only [updatePulse, isOpen, found, orReject_some, signed, symbol, bind_ok,
      reduceCtorEq] at rejected
  | deactivation =>
    apply silent_accepted
    intro trap rejected
    simp only [deactivateTalos, isOpen, found, orReject_some, signed, rejectIf_neg creator,
      bind_ok, reduceCtorEq] at rejected
  | metadataUpdates =>
    apply silent_accepted
    intro trap rejected
    simp only [updateCreatorMetadata, isOpen, found, orReject_some, signed, metadata, bind_ok,
      reduceCtorEq] at rejected

/-- A pause is effective exactly while it is not shown, or there is nothing it
could stop. -/
theorem pauseEffective_iff (reach : Reachable contract s) (e : Env Remote)
    (domain : PauseDomain) :
    PauseEffective e s domain ↔ isPaused e s domain = false ∨ Idle s domain := by
  constructor
  · intro effective
    by_contra neither
    obtain ⟨shown, busy⟩ := not_or.mp neither
    rw [Bool.not_eq_false] at shown
    by_cases creation : domain = .talosCreation
    · subst creation
      have room : nextTalosId s < u32Max := Nat.lt_of_not_le busy
      obtain ⟨v, s', ok⟩ := createTalos_accepted reach room e
      exact effective shown (signedBy e) _ v s' rfl rfl ok
    · obtain ⟨talosId, t, found⟩ : ∃ talosId t, s.talos talosId = some t := by
        by_contra none
        apply busy
        have absent : ∀ talosId, s.talos talosId = .none := by
          intro talosId
          rw [Option.eq_none_iff_forall_ne_some]
          exact fun t found => none ⟨talosId, t, found⟩
        cases domain with
        | talosCreation => exact absurd rfl creation
        | _ => exact absent
      obtain ⟨v, s', ok⟩ := edit_accepted reach found domain e
      have named : (plainEdit talosId t domain).pauseDomain = some domain := by
        cases domain with
        | talosCreation => exact absurd rfl creation
        | _ => rfl
      exact effective shown (signedBy e) _ v s' rfl named ok
  · rintro (hidden | idle) shown e' c v s' _ named
    · rw [hidden] at shown
      cases shown
    · exact rejected_of_idle idle named

end Talos.Registry

namespace Talos.NameService

open Talos.Soroban Talos.PauseControl

variable {e e' : Env Remote} {s s' : Storage} {c : Call} {v : Value}

/-- While the domain shows as paused, every registration is rejected, whoever
signs it and whatever the registry answers. -/
def PauseEffective (e : Env Remote) (s : Storage) (domain : PauseDomain) : Prop :=
  isPaused e s domain = true → ∀ e' c v s', e'.timestamp = e.timestamp →
    c.registration ≠ none → exec e' s c ≠ .ok (v, s')

/-- Nothing to register: no registry to ask, or no valid name left. -/
def Idle (s : Storage) : Prop :=
  s.registryContract = none ∨ ∀ name, validateName name = true → s.nameRecord name ≠ none

theorem registrable_of_ok (registers : c.registration ≠ none)
    (ok : exec e s c = .ok (v, s')) :
    ∃ owner talosId raw name, Registrable e s owner talosId raw name := by
  cases exec_effect ok with
  | register name call registrable => exact ⟨_, _, _, name, registrable⟩
  | _ => exact absurd rfl registers

/-- The same ledger close with every signature present, at which the registry
knows address 0 as creator of every Talos. -/
def favourable (e : Env Remote) : Env Remote := { e with
  auth := fun _ => true
  remote := { e.remote with creatorOf := fun _ _ => some (some ⟨0⟩) } }

theorem registerName_accepted {registry : Address} {name : Bytes}
    (isOpen : Open e s pauseNameRegistration) (configured : s.registryContract = some registry)
    (valid : validateName name = true) (free : s.nameRecord name = none) :
    ∃ v s', exec (favourable e) s (.registerName ⟨0⟩ 0 name) = .ok (v, s') := by
  have guard : checkNotPaused (favourable e) s pauseNameRegistration =
      .ok (s.guarded e pauseNameRegistration) := checkNotPaused_eq_ok.mpr ⟨isOpen, rfl⟩
  have configured' : (s.guarded e pauseNameRegistration).registryContract = some registry :=
    configured
  have free' : (s.guarded e pauseNameRegistration).nameRecord name = none := free
  have canonical : (canonicalizeName name : Result Bytes) = .ok name :=
    canonicalizeName_of_valid valid
  have signed : requireAuth (favourable e) ⟨0⟩ = (.ok () : Result Unit) := rfl
  have creator : (favourable e).remote.creatorOf registry 0 = some (some ⟨0⟩) := rfl
  have notTaken : ¬ (none : Option Nat).isSome = true := Bool.false_ne_true
  have isCreator : ¬ (some ⟨0⟩ : Option Address) ≠ some ⟨0⟩ := not_not_intro rfl
  apply silent_accepted
  intro trap rejected
  simp only [registerName, guard, signed, canonical, valid, configured', free', creator, bind_ok,
    orReject_some, rejectIf_neg notTaken, rejectIf_neg isCreator, rejectIf_neg not_false,
    reduceCtorEq] at rejected

/-- A pause is effective exactly while it is not shown, or a numeric pause of
registrations is in force too, or there is nothing it could stop. -/
theorem pauseEffective_iff (e : Env Remote) (s : Storage) (domain : PauseDomain) :
    PauseEffective e s domain ↔
      isPaused e s domain = false ∨ ¬ Open e s pauseNameRegistration ∨ Idle s := by
  constructor
  · intro effective
    by_contra neither
    obtain ⟨shown, isOpen, busy⟩ := by simpa only [not_or, not_not] using neither
    rw [Bool.not_eq_false] at shown
    obtain ⟨unset, taken⟩ := not_or.mp busy
    obtain ⟨registry, configured⟩ := Option.ne_none_iff_exists'.mp unset
    obtain ⟨name, valid, free⟩ : ∃ name, validateName name = true ∧ s.nameRecord name = none := by
      by_contra none
      apply taken
      intro name valid free
      exact none ⟨name, valid, free⟩
    obtain ⟨v, s', ok⟩ := registerName_accepted isOpen configured valid free
    have registers : (Call.registerName ⟨0⟩ 0 name).registration ≠ none := Option.some_ne_none _
    exact effective shown (favourable e) _ v s' rfl registers ok
  · rintro stopped shown e' c v s' sameTime registers ok
    obtain ⟨owner, talosId, raw, name, registrable⟩ := registrable_of_ok registers ok
    rcases stopped with hidden | closed | unset | taken
    · rw [hidden] at shown
      cases shown
    · apply closed
      rw [Open, ← sameTime]
      exact registrable.isOpen
    · obtain ⟨registry, configured, _⟩ := registrable.creator
      rw [unset] at configured
      cases configured
    · exact taken name registrable.valid registrable.free

end Talos.NameService

namespace Talos

open Talos.Soroban

/-- In both contracts, a pause that `is_paused` shows stops the entry points its
domain names exactly when something else stops them. -/
theorem pause_effective_iff {r : Registry.Storage} (reach : Reachable Registry.contract r)
    (n : NameService.Storage) :
    (∀ e domain, Registry.PauseEffective e r domain ↔
      Registry.isPaused e r domain = false ∨ Registry.Idle r domain) ∧
    (∀ e domain, NameService.PauseEffective e n domain ↔
      NameService.isPaused e n domain = false ∨
        ¬ NameService.Open e n NameService.pauseNameRegistration ∨ NameService.Idle n) :=
  ⟨fun e domain => Registry.pauseEffective_iff reach e domain,
    fun e domain => NameService.pauseEffective_iff e n domain⟩

/-- A registry whose admin, address 0, paused creation and edits for good. -/
def Registry.pausedRegistry : Registry.Storage :=
  Registry.contract.submitAll
    ([.initializeContract ⟨0⟩, .createTalos (Registry.plainCreation .empty),
      .pause ⟨0⟩ .talosCreation 0, .pause ⟨0⟩ .metadataUpdates 0].map
        fun call => (⟨100, 10, fun _ => true, ⟨[]⟩⟩, call))
    Registry.contract.init

/-- A name service whose admin, address 0, paused registrations for good. -/
def NameService.pausedNames : NameService.Storage :=
  NameService.contract.submitAll
    ([.initializeContract ⟨7⟩ ⟨0⟩ 0, .pause ⟨0⟩ .nameRegistration 0].map
        fun call => (⟨100, 10, fun _ => true, ⟨fun _ _ => none, fun _ _ => none,
          fun _ _ _ _ => none⟩⟩, call))
    NameService.contract.init

theorem pause_effective_iff_pausedRegistry : Reachable Registry.contract Registry.pausedRegistry ∧
    (∀ e domain, Registry.PauseEffective e Registry.pausedRegistry domain ↔
      Registry.isPaused e Registry.pausedRegistry domain = false ∨
        Registry.Idle Registry.pausedRegistry domain) :=
  ⟨Reachable.init.submitAll _, (pause_effective_iff (Reachable.init.submitAll _) .empty).1⟩

/-- In those storages the pauses show as in force, a year later as well, and
creation, a metadata update and a registration are accepted all the same. -/
theorem pauses_stop_nothing :
    let e : Env Registry.Remote := ⟨31536100, 20, fun _ => true, ⟨[]⟩⟩
    let e' : Env NameService.Remote := ⟨31536100, 20, fun _ => true,
      ⟨fun _ _ => some (some ⟨1⟩), fun _ _ => none, fun _ _ _ _ => none⟩⟩
    Reachable Registry.contract Registry.pausedRegistry ∧
    Registry.isPaused e Registry.pausedRegistry .talosCreation = true ∧
    Registry.isPaused e Registry.pausedRegistry .metadataUpdates = true ∧
    (Registry.exec e Registry.pausedRegistry
      (.createTalos (Registry.plainCreation .empty))).isOk = true ∧
    (Registry.exec e Registry.pausedRegistry (.updateCreatorMetadata 1 [] [] [])).isOk = true ∧
    Reachable NameService.contract NameService.pausedNames ∧
    NameService.isPaused e' NameService.pausedNames .nameRegistration = true ∧
    (NameService.exec e' NameService.pausedNames
      (.registerName ⟨1⟩ 1 [118, 101, 103, 97])).isOk = true :=
  ⟨Reachable.init.submitAll _, by decide, by decide, by decide, by decide,
    Reachable.init.submitAll _, by decide, by decide⟩

end Talos
