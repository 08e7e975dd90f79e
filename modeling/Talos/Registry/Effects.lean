import Talos.Registry.Model

/-!
# What the registry entry points do

`Effect e s c v s'` lists the ways an accepted call can change the storage, each
with the guards that later proofs use. It is a sound abstraction of `exec`
(`exec_effect`), so an invariant of the registry is a case analysis over its
constructors and unfolds no entry point.
-/

namespace Talos.Registry

open Talos.Soroban Talos.TtlManager Talos.PauseControl Talos.AdminControls Talos.StorageMigration

variable {e : Env Remote} {s s' : Storage} {c : Call} {v : Value}

/-! ### The guard -/

/-- The storage after the pause guard of a domain let a call through: an elapsed
pause of that domain has been written back as lifted. -/
def Storage.guarded (e : Env Remote) (s : Storage) (domainId : Nat) : Storage :=
  { s with pauseControl := (expireIfElapsed e s.pauseControl domainId).2 }

/-- The pause guard lets calls of the domain through. -/
def Open (e : Env Remote) (s : Storage) (domainId : Nat) : Prop :=
  inForce e.timestamp s.pauseControl domainId = false

theorem checkNotPaused_eq_ok {domainId : Nat} :
    checkNotPaused e s domainId = .ok s' ↔ Open e s domainId ∧ s' = s.guarded e domainId := by
  simp only [checkNotPaused, bind_eq_ok, PauseControl.checkNotPaused_eq_ok, Except.ok.injEq]
  constructor
  · rintro ⟨_, ⟨isOpen, rfl⟩, rfl⟩
    exact ⟨isOpen, rfl⟩
  · rintro ⟨isOpen, rfl⟩
    exact ⟨_, ⟨isOpen, rfl⟩, rfl⟩

theorem requireAdmin_eq_ok {admin : Address} :
    requireAdmin e s = .ok admin ↔ s.protocolWallet = some admin ∧ e.auth admin = true := by
  simp only [requireAdmin, bind_eq_ok, orReject_eq_ok, requireAuth_eq_ok, Except.ok.injEq]
  constructor
  · rintro ⟨_, wallet, _, signed, rfl⟩
    exact ⟨wallet, signed⟩
  · rintro ⟨wallet, signed⟩
    exact ⟨admin, wallet, (), signed, rfl⟩

/-! ### Effects -/

/-- An update keeps what identifies a record: its id, creator and creation time. -/
structure SameIdentity (t t' : Talos) : Prop where
  id : t'.id = t.id
  creator : t'.creator = t.creator
  createdAt : t'.createdAt = t.createdAt

/-- The record a call rewrites in place. -/
def Call.edits : Call → Option Nat
  | .updatePatron talosId _ | .updateKernel talosId _ | .updatePulse talosId _
  | .updateCreatorMetadata talosId _ _ _ | .deactivateTalos talosId _
  | .activateTalos talosId _ => some talosId
  | _ => none

/-- The pause domain, by number, that guards an edit. -/
def Call.editDomain : Call → Nat
  | .deactivateTalos .. => pauseTalosDeactivation
  | .activateTalos .. => pauseTalosActivation
  | _ => pauseTalosUpdate

inductive Effect (e : Env Remote) (s : Storage) : Call → Value → Storage → Prop where
  | create {a : CreateArgs} (talos : Talos) (isOpen : Open e s pauseTalosCreation)
      (id : talos.id = nextTalosId s) (creator : talos.creator = a.patron.creatorAddr)
      (createdAt : talos.createdAt = e.timestamp) (room : nextTalosId s + 1 ≤ u32Max) :
      Effect e s (.createTalos a) (.id (nextTalosId s)) { s.guarded e pauseTalosCreation with
        talos := s.talos.set (nextTalosId s) talos
        creatorOf := s.creatorOf.set (nextTalosId s) talos.creator
        nextTalosId := some (nextTalosId s + 1) }
  | edit {c : Call} {talosId : Nat} (t t' : Talos) (edits : c.edits = some talosId)
      (isOpen : Open e s c.editDomain) (found : s.talos talosId = some t)
      (same : SameIdentity t t') :
      Effect e s c .unit { s.guarded e c.editDomain with talos := s.talos.set talosId t' }
  | setPauseController {talosId : Nat} {controller : Address} :
      Effect e s (.setPauseController talosId controller) .unit
        { s with pauseController := s.pauseController.set talosId controller }
  | setResumeController {talosId : Nat} {controller : Address} :
      Effect e s (.setResumeController talosId controller) .unit
        { s with resumeController := s.resumeController.set talosId controller }
  | initializeContract {wallet : Address} (schema : StorageMigration.Store)
      (unset : s.protocolWallet = none) :
      Effect e s (.initializeContract wallet) .unit { s with
        protocolWallet := some wallet
        protocolFeeBps := some protocolFeeBpsDefault
        nextTalosId := some 1
        schema }
  | setProtocolFee {feeBps : Nat} (noTimelock : (getTimelockConfig s).minDelay = 0)
      (bounded : feeBps ≤ maxProtocolFeeBps) :
      Effect e s (.setProtocolFee feeBps) .unit
        { s.guarded e pauseProtocolConfig with protocolFeeBps := some feeBps }
  | proposeAdmin {newAdmin : Address} (noTimelock : (getTimelockConfig s).minDelay = 0) :
      Effect e s (.proposeAdmin newAdmin) .unit
        { s.guarded e pauseProtocolConfig with pendingAdmin := some newAdmin }
  | acceptAdmin (pending : Address) (nominated : s.pendingAdmin = some pending)
      (signed : e.auth pending = true) :
      Effect e s .acceptAdmin .unit { s.guarded e pauseProtocolConfig with
        protocolWallet := some pending
        pendingAdmin := none }
  | cancelAdminTransfer :
      Effect e s .cancelAdminTransfer .unit
        { s.guarded e pauseProtocolConfig with pendingAdmin := none }
  | setTimelockConfig {minDelay gracePeriod : Nat} (admin : Address)
      (isAdmin : s.protocolWallet = some admin) :
      Effect e s (.setTimelockConfig minDelay gracePeriod) .unit
        { s.guarded e pauseProtocolConfig with timelockConfig := some ⟨minDelay, gracePeriod⟩ }
  | scheduleAction {action : AdminAction} {delay : Nat} (admin : Address)
      (delayed : (getTimelockConfig s).minDelay ≤ delay)
      (room : s.nextTimelockId.getD 1 + 1 ≤ u64Max) :
      Effect e s (.scheduleAction action delay) (.id (s.nextTimelockId.getD 1))
        { s.guarded e pauseProtocolConfig with
          timelockProposal := s.timelockProposal.set (s.nextTimelockId.getD 1)
            ⟨s.nextTimelockId.getD 1, action, saturatingAddU64 e.timestamp delay, .scheduled,
              e.timestamp, admin⟩
          nextTimelockId := some (s.nextTimelockId.getD 1 + 1) }
  | executeFee {proposalId : Nat} (proposal : TimelockProposal AdminAction) (feeBps : Nat)
      (found : s.timelockProposal proposalId = some proposal)
      (scheduled : proposal.status = .scheduled) (due : proposal.eta ≤ e.timestamp)
      (action : proposal.action = .setProtocolFee feeBps) (bounded : feeBps ≤ maxProtocolFeeBps) :
      Effect e s (.executeAction proposalId) .unit { s with
        protocolFeeBps := some feeBps
        timelockProposal :=
          s.timelockProposal.set proposal.id { proposal with status := .executed } }
  | executeNomination {proposalId : Nat} (proposal : TimelockProposal AdminAction)
      (newAdmin : Address) (found : s.timelockProposal proposalId = some proposal)
      (scheduled : proposal.status = .scheduled) (due : proposal.eta ≤ e.timestamp)
      (action : proposal.action = .proposeAdmin newAdmin) :
      Effect e s (.executeAction proposalId) .unit { s with
        pendingAdmin := some newAdmin
        timelockProposal :=
          s.timelockProposal.set proposal.id { proposal with status := .executed } }
  | cancelAction {proposalId : Nat} (proposal : TimelockProposal AdminAction)
      (found : s.timelockProposal proposalId = some proposal)
      (scheduled : proposal.status = .scheduled) :
      Effect e s (.cancelAction proposalId) .unit { s.guarded e pauseProtocolConfig with
        timelockProposal :=
          s.timelockProposal.set proposalId { proposal with status := .cancelled } }
  | pause {caller : Address} {domain : PauseDomain} {duration : Nat} (expiresAt : Nat) :
      Effect e s (.pause caller domain duration) .unit
        { s with pauseState := s.pauseState.set domain ⟨caller, e.timestamp, expiresAt⟩ }
  | unpause {domain : PauseDomain} :
      Effect e s (.unpause domain) .unit { s with pauseState := s.pauseState.remove domain }
  | addGuardian {guardian : Address} :
      Effect e s (.addGuardian guardian) .unit
        { s with guardians := some (getGuardians s ++ [guardian]) }
  | removeGuardian {guardian : Address} :
      Effect e s (.removeGuardian guardian) .unit { s with guardians := some e.remote.remaining }
  | addAssetToAllowlist {asset : Address} :
      Effect e s (.addAssetToAllowlist asset) .unit
        { s with allowedAsset := s.allowedAsset.set asset true }
  | removeAssetFromAllowlist {asset : Address} :
      Effect e s (.removeAssetFromAllowlist asset) .unit
        { s with allowedAsset := s.allowedAsset.remove asset }
  | touchTalos {talosId : Nat} (touched : Bool) (lastTouched : Map Nat Nat) :
      Effect e s (.touchTalos talosId) (.flag touched) { s with lastTouched }
  | touchBatch {startId limit : Nat} (n m : Nat) (lastTouched : Map Nat Nat) :
      Effect e s (.touchBatch startId limit) (.counts n m)
        { s.guarded e pauseProtocolConfig with lastTouched }
  | extendTtlBatch {startId limit minAge maxAge : Nat} (n m : Nat) (lastTouched : Map Nat Nat) :
      Effect e s (.extendTtlBatch startId limit minAge maxAge) (.counts n m)
        { s.guarded e pauseProtocolConfig with lastTouched }
  | migrated {c : Call} (version : Nat) (timelockConfig : Option TimelockConfig)
      (schema : StorageMigration.Store)
      (call : c = .runMigrations ∨ ∃ target, c = .runMigrationsTo target)
      (config : timelockConfig.getD ⟨0, defaultGracePeriod⟩ = getTimelockConfig s) :
      Effect e s c (.version version) { s with timelockConfig, schema }
  | rollbackSchema {target : Nat} (schema : StorageMigration.Store) :
      Effect e s (.rollbackSchema target) .unit { s with schema }

/-! ### Sweeps -/

/-- Renewing a Talos writes back the record it read. -/
theorem renew_lastTouched (currentLedger : Nat) (s : Storage) (id : Nat) :
    ∃ lastTouched, trackedTalos.renew currentLedger s id = { s with lastTouched } := by
  simp only [trackedTalos]
  split
  · next talos found =>
    rw [Map.set_eq_self found]
    exact ⟨_, rfl⟩
  · exact ⟨s.lastTouched, rfl⟩

theorem sweep_lastTouched (currentLedger : Nat) (bounds : TtlBounds) (ids : List Nat)
    (s : Storage) : ∃ lastTouched,
      (sweep trackedTalos currentLedger bounds ids s).2 = { s with lastTouched } := by
  refine sweep_relates (r := fun s s' => ∃ lastTouched, s' = { s with lastTouched })
    (fun s => ⟨s.lastTouched, rfl⟩) ?_ (fun s id _ => renew_lastTouched _ s id) ids s
  rintro a b c ⟨_, rfl⟩ ⟨lastTouched, rfl⟩
  exact ⟨lastTouched, rfl⟩

/-! ### Every accepted call has an effect -/

theorem createTalos_effect {a : CreateArgs} {id : Nat} (ok : createTalos e s a = .ok (id, s')) :
    Effect e s (.createTalos a) (.id id) s' := by
  simp only [createTalos, bind_eq_ok, checkNotPaused_eq_ok, addU32_eq_ok, Except.ok.injEq,
    Prod.mk.injEq] at ok
  obtain ⟨_, ⟨isOpen, rfl⟩, _, _, _, _, _, _, _, _, _, ⟨room, rfl⟩, rfl, rfl⟩ := ok
  exact .create _ isOpen rfl rfl rfl room

theorem scheduleAction_effect {action : AdminAction} {delay id : Nat}
    (ok : scheduleAction e s action delay = .ok (id, s')) :
    Effect e s (.scheduleAction action delay) (.id id) s' := by
  simp only [scheduleAction, scheduleActionInternal, validateDelay, bind_eq_ok,
    checkNotPaused_eq_ok, rejectIf_eq_ok, addU64_eq_ok, Except.ok.injEq, Prod.mk.injEq] at ok
  obtain ⟨_, ⟨_, rfl⟩, admin, _, _, delayed, _, ⟨room, rfl⟩, rfl, rfl⟩ := ok
  exact .scheduleAction admin (Nat.le_of_not_lt delayed) room

theorem executeAction_effect {proposalId : Nat} (ok : executeAction e s proposalId = .ok s') :
    Effect e s (.executeAction proposalId) .unit s' := by
  simp only [executeAction, validateExecutableProposal, validateExecutable, bind_eq_ok,
    orReject_eq_ok, rejectIf_eq_ok, Except.ok.injEq, Decidable.not_not] at ok
  obtain ⟨_, ⟨proposal, found, _, scheduled, _, ⟨_, due, _⟩, rfl⟩, ok⟩ := ok
  cases action : proposal.action with
  | setProtocolFee feeBps =>
    simp only [action, setProtocolFeeInternal, bind_eq_ok, rejectIf_eq_ok, Except.ok.injEq] at ok
    obtain ⟨_, ⟨_, bounded, rfl⟩, rfl⟩ := ok
    exact .executeFee proposal feeBps found scheduled (Nat.le_of_not_lt due) action
      (Nat.le_of_not_lt bounded)
  | proposeAdmin newAdmin =>
    simp only [action, bind_eq_ok, Except.ok.injEq] at ok
    obtain ⟨_, _, _, rfl, rfl⟩ := ok
    exact .executeNomination proposal newAdmin found scheduled (Nat.le_of_not_lt due) action

theorem touchTalos_effect {talosId : Nat} {b : Bool} (ok : touchTalos e s talosId = .ok (b, s')) :
    Effect e s (.touchTalos talosId) (.flag b) s' := by
  simp only [touchTalos, bind_eq_ok] at ok
  obtain ⟨_, _, ok⟩ := ok
  split at ok
  · obtain ⟨rfl, rfl⟩ := by simpa using ok
    obtain ⟨lastTouched, eq⟩ := renew_lastTouched e.sequence s talosId
    rw [eq]
    exact .touchTalos _ lastTouched
  · obtain ⟨rfl, rfl⟩ := by simpa using ok
    exact .touchTalos _ s.lastTouched

theorem runMigrationsTo_effect {target version : Nat}
    (call : c = .runMigrations ∨ ∃ target, c = .runMigrationsTo target)
    (ok : runMigrationsTo e s target = .ok (version, s')) :
    Effect e s c (.version version) s' := by
  simp only [runMigrationsTo, bind_eq_ok] at ok
  obtain ⟨_, _, _, _, _, _, ok⟩ := ok
  split at ok
  · obtain ⟨rfl, rfl⟩ := by simpa using ok
    exact .migrated _ s.timelockConfig s.schema call rfl
  split at ok
  · split at ok
    · cases ok
    · simp only [bind_eq_ok, Except.ok.injEq, Prod.mk.injEq] at ok
      obtain ⟨schema, _, rfl, rfl⟩ := ok
      exact .migrated _ (some (getTimelockConfig s)) schema call rfl
  · obtain ⟨rfl, rfl⟩ := by simpa using ok
    exact .migrated _ s.timelockConfig s.schema call rfl

theorem unpause_effect {domain : PauseDomain} (ok : unpause e s domain = .ok s') :
    Effect e s (.unpause domain) .unit s' := by
  simp only [unpause, bind_eq_ok] at ok
  obtain ⟨_, _, ok⟩ := ok
  split at ok
  · next absent =>
    obtain rfl := by simpa using ok
    have same : s.pauseState.remove domain = s.pauseState :=
      Map.remove_eq_self (Option.isNone_iff_eq_none.mp absent)
    have effect : Effect e s (.unpause domain) .unit
      { s with pauseState := s.pauseState.remove domain } := .unpause
    rwa [same] at effect
  · obtain rfl := by simpa using ok
    exact .unpause

/-- Every accepted call has one of the effects. -/
theorem exec_effect (ok : exec e s c = .ok (v, s')) : Effect e s c v s' := by
  cases c with
  | createTalos a =>
    obtain ⟨id, accepted, rfl⟩ := returning_eq_ok.mp ok
    exact createTalos_effect accepted
  | updatePatron talosId patron =>
    simp only [exec, silent_eq_ok, updatePatron, bind_eq_ok, checkNotPaused_eq_ok, orReject_eq_ok,
      Except.ok.injEq] at ok
    obtain ⟨⟨_, ⟨isOpen, rfl⟩, t, found, _, _, _, _, rfl⟩, rfl⟩ := ok
    exact .edit t _ rfl isOpen found ⟨rfl, rfl, rfl⟩
  | updateKernel talosId kernel =>
    simp only [exec, silent_eq_ok, updateKernel, bind_eq_ok, checkNotPaused_eq_ok, orReject_eq_ok,
      Except.ok.injEq] at ok
    obtain ⟨⟨_, ⟨isOpen, rfl⟩, t, found, _, _, rfl⟩, rfl⟩ := ok
    exact .edit t _ rfl isOpen found ⟨rfl, rfl, rfl⟩
  | updatePulse talosId pulse =>
    simp only [exec, silent_eq_ok, updatePulse, bind_eq_ok, checkNotPaused_eq_ok, orReject_eq_ok,
      Except.ok.injEq] at ok
    obtain ⟨⟨_, ⟨isOpen, rfl⟩, t, found, _, _, _, _, rfl⟩, rfl⟩ := ok
    exact .edit t _ rfl isOpen found ⟨rfl, rfl, rfl⟩
  | updateCreatorMetadata talosId name category description =>
    simp only [exec, silent_eq_ok, updateCreatorMetadata, bind_eq_ok, checkNotPaused_eq_ok,
      orReject_eq_ok, Except.ok.injEq] at ok
    obtain ⟨⟨_, ⟨isOpen, rfl⟩, t, found, _, _, _, _, rfl⟩, rfl⟩ := ok
    exact .edit t _ rfl isOpen found ⟨rfl, rfl, rfl⟩
  | deactivateTalos talosId controller =>
    simp only [exec, silent_eq_ok, deactivateTalos, bind_eq_ok, checkNotPaused_eq_ok,
      orReject_eq_ok, Except.ok.injEq] at ok
    obtain ⟨⟨_, ⟨isOpen, rfl⟩, t, found, _, _, _, _, rfl⟩, rfl⟩ := ok
    exact .edit t _ rfl isOpen found ⟨rfl, rfl, rfl⟩
  | activateTalos talosId controller =>
    simp only [exec, silent_eq_ok, activateTalos, bind_eq_ok, checkNotPaused_eq_ok,
      orReject_eq_ok, Except.ok.injEq] at ok
    obtain ⟨⟨_, ⟨isOpen, rfl⟩, t, found, _, _, _, _, rfl⟩, rfl⟩ := ok
    exact .edit t _ rfl isOpen found ⟨rfl, rfl, rfl⟩
  | setPauseController talosId controller =>
    simp only [exec, silent_eq_ok, setPauseController, bind_eq_ok, Except.ok.injEq] at ok
    obtain ⟨⟨_, _, _, _, rfl⟩, rfl⟩ := ok
    exact .setPauseController
  | setResumeController talosId controller =>
    simp only [exec, silent_eq_ok, setResumeController, bind_eq_ok, Except.ok.injEq] at ok
    obtain ⟨⟨_, _, _, _, rfl⟩, rfl⟩ := ok
    exact .setResumeController
  | initializeContract wallet =>
    simp only [exec, silent_eq_ok, initializeContract, bind_eq_ok, rejectIf_eq_ok,
      Bool.not_eq_true, Option.isSome_eq_false_iff, Option.isNone_iff_eq_none,
      Except.ok.injEq] at ok
    obtain ⟨⟨_, unset, schema, _, rfl⟩, rfl⟩ := ok
    exact .initializeContract schema unset
  | setProtocolFee feeBps =>
    simp only [exec, silent_eq_ok, setProtocolFee, setProtocolFeeInternal, bind_eq_ok,
      checkNotPaused_eq_ok, rejectIf_eq_ok, Except.ok.injEq] at ok
    obtain ⟨⟨_, ⟨_, rfl⟩, _, bounded, _, _, _, noTimelock, _, _, rfl⟩, rfl⟩ := ok
    exact .setProtocolFee (Nat.eq_zero_of_not_pos noTimelock) (Nat.le_of_not_lt bounded)
  | proposeAdmin newAdmin =>
    simp only [exec, silent_eq_ok, proposeAdmin, bind_eq_ok, checkNotPaused_eq_ok, rejectIf_eq_ok,
      Except.ok.injEq] at ok
    obtain ⟨⟨_, ⟨_, rfl⟩, _, _, _, noTimelock, rfl⟩, rfl⟩ := ok
    exact .proposeAdmin (Nat.eq_zero_of_not_pos noTimelock)
  | acceptAdmin =>
    simp only [exec, silent_eq_ok, acceptAdmin, bind_eq_ok, checkNotPaused_eq_ok, orReject_eq_ok,
      requireAuth_eq_ok, Except.ok.injEq] at ok
    obtain ⟨⟨_, ⟨_, rfl⟩, pending, nominated, _, signed, rfl⟩, rfl⟩ := ok
    exact .acceptAdmin pending nominated signed
  | cancelAdminTransfer =>
    simp only [exec, silent_eq_ok, cancelAdminTransfer, bind_eq_ok, checkNotPaused_eq_ok,
      Except.ok.injEq] at ok
    obtain ⟨⟨_, ⟨_, rfl⟩, _, _, _, _, rfl⟩, rfl⟩ := ok
    exact .cancelAdminTransfer
  | setTimelockConfig minDelay gracePeriod =>
    simp only [exec, silent_eq_ok, setTimelockConfig, setTimelockConfigInternal, bind_eq_ok,
      checkNotPaused_eq_ok, requireAdmin_eq_ok, Except.ok.injEq] at ok
    obtain ⟨⟨_, ⟨_, rfl⟩, admin, ⟨isAdmin, _⟩, _, _, rfl⟩, rfl⟩ := ok
    exact .setTimelockConfig admin isAdmin
  | scheduleAction action delay =>
    obtain ⟨id, accepted, rfl⟩ := returning_eq_ok.mp ok
    exact scheduleAction_effect accepted
  | executeAction proposalId =>
    obtain ⟨accepted, rfl⟩ := silent_eq_ok.mp ok
    exact executeAction_effect accepted
  | cancelAction proposalId =>
    simp only [exec, silent_eq_ok, cancelAction, bind_eq_ok, checkNotPaused_eq_ok, orReject_eq_ok,
      rejectIf_eq_ok, Decidable.not_not, Except.ok.injEq] at ok
    obtain ⟨⟨_, ⟨_, rfl⟩, _, _, proposal, found, _, scheduled, rfl⟩, rfl⟩ := ok
    exact .cancelAction proposal found scheduled
  | pause caller domain duration =>
    simp only [exec, silent_eq_ok, pause, applyPause, bind_eq_ok, Except.ok.injEq] at ok
    obtain ⟨⟨_, _, _, _, _, _, _, _, expiresAt, _, rfl⟩, rfl⟩ := ok
    exact .pause expiresAt
  | unpause domain =>
    obtain ⟨accepted, rfl⟩ := silent_eq_ok.mp ok
    exact unpause_effect accepted
  | addGuardian guardian =>
    simp only [exec, silent_eq_ok, addGuardian, bind_eq_ok, Except.ok.injEq] at ok
    obtain ⟨⟨_, _, rfl⟩, rfl⟩ := ok
    exact .addGuardian
  | removeGuardian guardian =>
    simp only [exec, silent_eq_ok, removeGuardian, bind_eq_ok, Except.ok.injEq] at ok
    obtain ⟨⟨_, _, rfl⟩, rfl⟩ := ok
    exact .removeGuardian
  | addAssetToAllowlist asset =>
    simp only [exec, silent_eq_ok, addAssetToAllowlist, bind_eq_ok, Except.ok.injEq] at ok
    obtain ⟨⟨_, _, _, _, rfl⟩, rfl⟩ := ok
    exact .addAssetToAllowlist
  | removeAssetFromAllowlist asset =>
    simp only [exec, silent_eq_ok, removeAssetFromAllowlist, bind_eq_ok, Except.ok.injEq] at ok
    obtain ⟨⟨_, _, _, _, rfl⟩, rfl⟩ := ok
    exact .removeAssetFromAllowlist
  | touchTalos talosId =>
    obtain ⟨b, accepted, rfl⟩ := returning_eq_ok.mp ok
    exact touchTalos_effect accepted
  | touchBatch startId limit =>
    simp only [exec, returning_eq_ok, touchBatch, bind_eq_ok, checkNotPaused_eq_ok,
      Except.ok.injEq, Prod.mk.injEq] at ok
    obtain ⟨_, ⟨_, ⟨_, rfl⟩, _, _, _, rfl⟩, rfl⟩ := ok
    obtain ⟨lastTouched, eq⟩ := sweep_lastTouched e.sequence .renewal _
      (s.guarded e pauseProtocolConfig)
    rw [eq]
    exact .touchBatch _ _ lastTouched
  | extendTtlBatch startId limit minAge maxAge =>
    simp only [exec, returning_eq_ok, extendTtlBatch, bind_eq_ok, checkNotPaused_eq_ok,
      Except.ok.injEq, Prod.mk.injEq] at ok
    obtain ⟨_, ⟨_, ⟨_, rfl⟩, _, _, range, _, _, rfl⟩, rfl⟩ := ok
    obtain ⟨lastTouched, eq⟩ := sweep_lastTouched e.sequence
      ⟨minAge, maxAge, defaultMaxBatchKeys⟩ range (s.guarded e pauseProtocolConfig)
    rw [eq]
    exact .extendTtlBatch _ _ lastTouched
  | runMigrations =>
    obtain ⟨version, accepted, rfl⟩ := returning_eq_ok.mp ok
    exact runMigrationsTo_effect (.inl rfl) accepted
  | runMigrationsTo target =>
    obtain ⟨version, accepted, rfl⟩ := returning_eq_ok.mp ok
    exact runMigrationsTo_effect (.inr ⟨target, rfl⟩) accepted
  | rollbackSchema target =>
    simp only [exec, silent_eq_ok, rollbackSchema, bind_eq_ok] at ok
    obtain ⟨⟨_, _, moved, _, ok⟩, rfl⟩ := ok
    cases moved with
    | error _ => cases ok
    | ok schema =>
      obtain rfl := by simpa using ok
      exact .rollbackSchema schema

end Talos.Registry
