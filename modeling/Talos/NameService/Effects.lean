import Talos.NameService.Model

/-!
# What the name service entry points do

As for the registry: `Effect` lists the ways an accepted call can change the
storage, and `exec_effect` says that there are no others. Sweeps change the TTL
markers only, since every entry they write is the one they read.
-/

namespace Talos.NameService

open Talos.Soroban Talos.TtlManager Talos.PauseControl Talos.AdminControls

variable {e : Env Remote} {s s' : Storage} {c : Call} {v : Value}

/-! ### The guard -/

/-- The storage after the pause guard of a domain let a call through. -/
def Storage.guarded (e : Env Remote) (s : Storage) (domainId : Nat) : Storage :=
  { s with pauseControl := (expireIfElapsed e s.pauseControl domainId).2 }

/-- The pause guard lets calls of the domain through. -/
def Open (e : Env Remote) (s : Storage) (domainId : Nat) : Prop :=
  inForce e.timestamp s.pauseControl domainId = false

theorem checkNotPaused_eq_ok {domainId : Nat} :
    checkNotPaused e s domainId = .ok s' ↔ Open e s domainId ∧ s' = s.guarded e domainId := by
  simp only [checkNotPaused, bind_eq_ok, PauseControl.checkNotPaused_eq_ok, Except.ok.injEq]
  constructor
  · rintro ⟨_, ⟨isOpen, rfl⟩, rfl⟩
    exact ⟨isOpen, rfl⟩
  · rintro ⟨isOpen, rfl⟩
    exact ⟨_, ⟨isOpen, rfl⟩, rfl⟩

theorem requireAdmin_eq_ok {admin : Address} :
    requireAdmin e s = .ok admin ↔ s.admin = some admin ∧ e.auth admin = true := by
  simp only [requireAdmin, bind_eq_ok, orReject_eq_ok, requireAuth_eq_ok, Except.ok.injEq]
  constructor
  · rintro ⟨_, isAdmin, _, signed, rfl⟩
    exact ⟨isAdmin, signed⟩
  · rintro ⟨isAdmin, signed⟩
    exact ⟨admin, isAdmin, (), signed, rfl⟩

/-! ### Effects -/

/-- The registration a call asks for. -/
def Call.registration : Call → Option (Address × Nat × Bytes)
  | .registerName owner talosId name => some (owner, talosId, name)
  | .registerNameWithFee owner talosId name _ _ => some (owner, talosId, name)
  | _ => none

/-- What a registration has checked: the name it stores is valid, free and the
canonical form of the given one, and the registry knows the owner as creator. -/
structure Registrable (e : Env Remote) (s : Storage) (owner : Address) (talosId : Nat)
    (raw name : Bytes) : Prop where
  isOpen : Open e s pauseNameRegistration
  signed : e.auth owner = true
  canonical : canonicalizeName raw = (.ok name : Result Bytes)
  valid : validateName name = true
  free : s.nameRecord name = none
  creator : ∃ registry, s.registryContract = some registry ∧
    e.remote.creatorOf registry talosId = some (some owner)

inductive Effect (e : Env Remote) (s : Storage) : Call → Value → Storage → Prop where
  | register {c : Call} {owner : Address} {talosId : Nat} {raw : Bytes} (name : Bytes)
      (call : c.registration = some (owner, talosId, raw))
      (registrable : Registrable e s owner talosId raw name) :
      Effect e s c .unit ((s.guarded e pauseNameRegistration).setName talosId name)
  | initializeContract {registryId admin : Address} {nameFee : Int}
      (unset : s.registryContract = none) :
      Effect e s (.initializeContract registryId admin nameFee) .unit { s with
        registryContract := some registryId
        admin := some admin
        nameFeeAmount := some nameFee }
  | setNameFee {newFee : Int} :
      Effect e s (.setNameFee newFee) .unit { s with nameFeeAmount := some newFee }
  | setAdmin {newAdmin : Address} (signed : ∀ admin, s.admin = some admin → e.auth admin = true) :
      Effect e s (.setAdmin newAdmin) .unit
        { s.guarded e pauseNameConfig with admin := some newAdmin }
  | setRegistryContract {newRegistryId : Address}
      (noTimelock : (getTimelockConfig s).minDelay = 0) :
      Effect e s (.setRegistryContract newRegistryId) .unit
        { s.guarded e pauseNameConfig with registryContract := some newRegistryId }
  | setTimelockConfig {minDelay gracePeriod : Nat} :
      Effect e s (.setTimelockConfig minDelay gracePeriod) .unit
        { s.guarded e pauseNameConfig with timelockConfig := some ⟨minDelay, gracePeriod⟩ }
  | scheduleAction {action : AdminAction} {delay : Nat} (admin : Address)
      (delayed : (getTimelockConfig s).minDelay ≤ delay)
      (room : s.nextTimelockId.getD 1 + 1 ≤ u64Max) :
      Effect e s (.scheduleAction action delay) (.id (s.nextTimelockId.getD 1))
        { s.guarded e pauseNameConfig with
          timelockProposal := s.timelockProposal.set (s.nextTimelockId.getD 1)
            ⟨s.nextTimelockId.getD 1, action, saturatingAddU64 e.timestamp delay, .scheduled,
              e.timestamp, admin⟩
          nextTimelockId := some (s.nextTimelockId.getD 1 + 1) }
  | executeRegistry {proposalId : Nat} (proposal : TimelockProposal AdminAction)
      (newRegistryId : Address) (found : s.timelockProposal proposalId = some proposal)
      (scheduled : proposal.status = .scheduled) (due : proposal.eta ≤ e.timestamp)
      (action : proposal.action = .setRegistryContract newRegistryId) :
      Effect e s (.executeAction proposalId) .unit { s with
        registryContract := some newRegistryId
        timelockProposal :=
          s.timelockProposal.set proposalId { proposal with status := .executed } }
  | executeAdmin {proposalId : Nat} (proposal : TimelockProposal AdminAction)
      (newAdmin : Address) (found : s.timelockProposal proposalId = some proposal)
      (scheduled : proposal.status = .scheduled) (due : proposal.eta ≤ e.timestamp)
      (action : proposal.action = .setAdmin newAdmin) :
      Effect e s (.executeAction proposalId) .unit { s with
        admin := some newAdmin
        timelockProposal :=
          s.timelockProposal.set proposalId { proposal with status := .executed } }
  | cancelAction {proposalId : Nat} (proposal : TimelockProposal AdminAction)
      (found : s.timelockProposal proposalId = some proposal)
      (scheduled : proposal.status = .scheduled) :
      Effect e s (.cancelAction proposalId) .unit { s.guarded e pauseNameConfig with
        timelockProposal :=
          s.timelockProposal.set proposalId { proposal with status := .cancelled } }
  | pause {caller : Address} {domain : PauseDomain} {duration : Nat} (expiresAt : Nat) :
      Effect e s (.pause caller domain duration) .unit
        { s with pauseState := s.pauseState.set domain ⟨caller, e.timestamp, expiresAt⟩ }
  | unpause {domain : PauseDomain} :
      Effect e s (.unpause domain) .unit { s with pauseState := s.pauseState.remove domain }
  | addGuardian {guardian : Address} (guardians : Option (List Address)) :
      Effect e s (.addGuardian guardian) .unit { s with guardians }
  | removeGuardian {guardian : Address} (guardians : Option (List Address)) :
      Effect e s (.removeGuardian guardian) .unit { s with guardians }
  | pauseDomain {domainId duration : Nat} (store : PauseControl.Store) :
      Effect e s (.pauseDomain domainId duration) .unit { s with pauseControl := store }
  | unpauseDomain {domainId : Nat} (store : PauseControl.Store) :
      Effect e s (.unpauseDomain domainId) .unit { s with pauseControl := store }
  | isDomainPaused {domainId : Nat} (paused : Bool) :
      Effect e s (.isDomainPaused domainId) (.flag paused) (s.guarded e domainId)
  | touchName {name : Bytes} (touched : Bool) (lastTouched : Map Nat Nat) :
      Effect e s (.touchName name) (.flag touched) { s with lastTouched }
  | touchAllTtl {maxTalosId : Nat} (total : Nat) (lastTouched : Map Nat Nat) :
      Effect e s (.touchAllTtl maxTalosId) (.id total)
        { s.guarded e pauseNameConfig with lastTouched }
  | extendTtlBatch {maxTalosId limit minAge maxAge : Nat} (n m : Nat)
      (lastTouched : Map Nat Nat) :
      Effect e s (.extendTtlBatch maxTalosId limit minAge maxAge) (.counts n m)
        { s.guarded e pauseNameConfig with lastTouched }

/-! ### Sweeps -/

/-- Renewing a name writes back both entries it read. -/
theorem renew_lastTouched (currentLedger : Nat) (s : Storage) (id : Nat) :
    ∃ lastTouched, trackedNames.renew currentLedger s id = { s with lastTouched } := by
  simp only [trackedNames]
  split
  · next name found =>
    rw [Map.refresh_eq_self, Map.set_eq_self found]
    exact ⟨_, rfl⟩
  · exact ⟨s.lastTouched, rfl⟩

theorem sweep_lastTouched (currentLedger : Nat) (bounds : TtlBounds) (ids : List Nat)
    (s : Storage) : ∃ lastTouched,
      (sweep trackedNames currentLedger bounds ids s).2 = { s with lastTouched } := by
  refine sweep_relates (r := fun s s' => ∃ lastTouched, s' = { s with lastTouched })
    (fun s => ⟨s.lastTouched, rfl⟩) ?_ (fun s id _ => renew_lastTouched _ s id) ids s
  rintro a b c ⟨_, rfl⟩ ⟨lastTouched, rfl⟩
  exact ⟨lastTouched, rfl⟩

/-! ### Every accepted call has an effect -/

theorem registerName_ok {owner : Address} {talosId : Nat} {raw : Bytes}
    (ok : registerName e s owner talosId raw = .ok s') :
    ∃ name, Registrable e s owner talosId raw name ∧
      s' = (s.guarded e pauseNameRegistration).setName talosId name := by
  simp only [registerName, bind_eq_ok, checkNotPaused_eq_ok, requireAuth_eq_ok, orReject_eq_ok,
    rejectIf_eq_ok, Bool.not_eq_false, Bool.not_eq_true, Option.isSome_eq_false_iff,
    Option.isNone_iff_eq_none, Decidable.not_not, Except.ok.injEq] at ok
  obtain ⟨_, ⟨isOpen, rfl⟩, _, signed, name, canonical, _, valid, _, free, registry, configured,
    _, answer, _, rfl, rfl⟩ := ok
  exact ⟨name, ⟨isOpen, signed, canonical, valid, free, registry, configured, answer⟩, rfl⟩

/-- The fee is paid after the registration and writes nothing more. -/
theorem registerNameWithFee_ok {owner : Address} {talosId : Nat} {raw : Bytes}
    {payer asset : Address}
    (ok : registerNameWithFee e s owner talosId raw payer asset = .ok s') :
    registerName e s owner talosId raw = .ok s' := by
  simp only [registerNameWithFee, bind_eq_ok] at ok
  obtain ⟨t, registered, ok⟩ := ok
  split at ok
  · obtain rfl := by simpa using ok
    exact registered
  · simp only [bind_eq_ok, Except.ok.injEq] at ok
    obtain ⟨_, _, _, _, _, _, _, _, _, _, _, _, rfl⟩ := ok
    exact registered

theorem executeAction_effect {proposalId : Nat} (ok : executeAction e s proposalId = .ok s') :
    Effect e s (.executeAction proposalId) .unit s' := by
  simp only [executeAction, bind_eq_ok, orReject_eq_ok, rejectIf_eq_ok, Decidable.not_not] at ok
  obtain ⟨proposal, found, _, scheduled, _, due, _, _, ok⟩ := ok
  split at ok
  · next newRegistryId action =>
    simp only [bind_eq_ok, Except.ok.injEq] at ok
    obtain ⟨_, _, _, rfl, rfl⟩ := ok
    exact .executeRegistry proposal newRegistryId found scheduled (Nat.le_of_not_lt due) action
  · next newAdmin action =>
    simp only [bind_ok, Except.ok.injEq] at ok
    obtain rfl := ok
    exact .executeAdmin proposal newAdmin found scheduled (Nat.le_of_not_lt due) action

theorem unpause_effect {domain : PauseDomain} (ok : unpause e s domain = .ok s') :
    Effect e s (.unpause domain) .unit s' := by
  simp only [unpause, bind_eq_ok] at ok
  obtain ⟨_, _, ok⟩ := ok
  split at ok
  · next absent =>
    obtain rfl := by simpa using ok
    have same : s.pauseState.remove domain = s.pauseState :=
      Map.remove_eq_self (Option.isNone_iff_eq_none.mp absent)
    have effect : Effect e s (.unpause domain) .unit
      { s with pauseState := s.pauseState.remove domain } := .unpause
    rwa [same] at effect
  · obtain rfl := by simpa using ok
    exact .unpause

theorem touchName_effect {name : Bytes} {b : Bool} (ok : touchName e s name = .ok (b, s')) :
    Effect e s (.touchName name) (.flag b) s' := by
  simp only [touchName, bind_eq_ok, orReject_eq_ok] at ok
  obtain ⟨talosId, found, ok⟩ := ok
  split at ok
  · rw [Map.refresh_eq_self, Map.set_eq_self found] at ok
    obtain ⟨rfl, rfl⟩ := by simpa using ok
    exact .touchName _ _
  · obtain ⟨rfl, rfl⟩ := by simpa using ok
    exact .touchName _ s.lastTouched

theorem touchAllTtl_effect {maxTalosId total : Nat}
    (ok : touchAllTtl e s maxTalosId = .ok (total, s')) :
    Effect e s (.touchAllTtl maxTalosId) (.id total) s' := by
  simp only [touchAllTtl, bind_eq_ok, checkNotPaused_eq_ok, requireAdmin_eq_ok, Except.ok.injEq,
    Prod.mk.injEq] at ok
  obtain ⟨_, ⟨_, rfl⟩, admin, ⟨isAdmin, _⟩, _, _, rfl, rfl⟩ := ok
  -- The admin key is written back as it was read.
  have same : { s.guarded e pauseNameConfig with admin := some admin } =
      s.guarded e pauseNameConfig := by
    rw [← isAdmin]
  rw [same]
  obtain ⟨lastTouched, eq⟩ := sweep_lastTouched e.sequence .renewal
    (idRange 1 (saturatingAddU32 maxTalosId 1)) (s.guarded e pauseNameConfig)
  rw [eq]
  exact .touchAllTtl _ lastTouched

/-- Every accepted call has one of the effects. -/
theorem exec_effect (ok : exec e s c = .ok (v, s')) : Effect e s c v s' := by
  cases c with
  | registerName owner talosId name =>
    obtain ⟨accepted, rfl⟩ := silent_eq_ok.mp ok
    obtain ⟨canonical, registrable, rfl⟩ := registerName_ok accepted
    exact .register canonical rfl registrable
  | registerNameWithFee owner talosId name payer asset =>
    obtain ⟨accepted, rfl⟩ := silent_eq_ok.mp ok
    obtain ⟨canonical, registrable, rfl⟩ := registerName_ok (registerNameWithFee_ok accepted)
    exact .register canonical rfl registrable
  | initializeContract registryId admin nameFee =>
    simp only [exec, silent_eq_ok, initializeContract, bind_eq_ok, rejectIf_eq_ok,
      Bool.not_eq_true, Option.isSome_eq_false_iff, Option.isNone_iff_eq_none,
      Except.ok.injEq] at ok
    obtain ⟨⟨_, unset, _, _, rfl⟩, rfl⟩ := ok
    exact .initializeContract unset
  | setNameFee newFee =>
    simp only [exec, silent_eq_ok, setNameFee, bind_eq_ok, Except.ok.injEq] at ok
    obtain ⟨⟨_, _, _, _, _, _, rfl⟩, rfl⟩ := ok
    exact .setNameFee
  | setAdmin newAdmin =>
    simp only [exec, silent_eq_ok, setAdmin, bind_eq_ok, checkNotPaused_eq_ok] at ok
    obtain ⟨⟨_, ⟨_, rfl⟩, ok⟩, rfl⟩ := ok
    cases current : s.admin with
    | none =>
      have current' : (s.guarded e pauseNameConfig).admin = none := current
      simp only [current', bind_ok, Except.ok.injEq] at ok
      obtain rfl := ok
      exact .setAdmin fun admin isAdmin => by simp [current] at isAdmin
    | some admin =>
      have current' : (s.guarded e pauseNameConfig).admin = some admin := current
      simp only [current', bind_eq_ok, requireAuth_eq_ok, Except.ok.injEq] at ok
      obtain ⟨_, signed, rfl⟩ := ok
      apply Effect.setAdmin
      intro other isAdmin
      obtain rfl := Option.some.inj (current.symm.trans isAdmin)
      exact signed
  | setRegistryContract newRegistryId =>
    simp only [exec, silent_eq_ok, setRegistryContract, bind_eq_ok, checkNotPaused_eq_ok,
      rejectIf_eq_ok, Except.ok.injEq] at ok
    obtain ⟨⟨_, ⟨_, rfl⟩, _, _, _, noTimelock, _, _, rfl⟩, rfl⟩ := ok
    exact .setRegistryContract (Nat.eq_zero_of_not_pos noTimelock)
  | setTimelockConfig minDelay gracePeriod =>
    simp only [exec, silent_eq_ok, setTimelockConfig, bind_eq_ok, checkNotPaused_eq_ok,
      Except.ok.injEq] at ok
    obtain ⟨⟨_, ⟨_, rfl⟩, _, _, _, _, _, _, rfl⟩, rfl⟩ := ok
    exact .setTimelockConfig
  | scheduleAction action delay =>
    simp only [exec, returning_eq_ok, scheduleAction, bind_eq_ok, checkNotPaused_eq_ok,
      rejectIf_eq_ok, addU64_eq_ok, Except.ok.injEq, Prod.mk.injEq] at ok
    obtain ⟨_, ⟨_, ⟨_, rfl⟩, admin, _, _, delayed, _, ⟨room, rfl⟩, rfl, rfl⟩, rfl⟩ := ok
    exact .scheduleAction admin (Nat.le_of_not_lt delayed) room
  | executeAction proposalId =>
    obtain ⟨accepted, rfl⟩ := silent_eq_ok.mp ok
    exact executeAction_effect accepted
  | cancelAction proposalId =>
    simp only [exec, silent_eq_ok, cancelAction, bind_eq_ok, checkNotPaused_eq_ok, orReject_eq_ok,
      rejectIf_eq_ok, Decidable.not_not, Except.ok.injEq] at ok
    obtain ⟨⟨_, ⟨_, rfl⟩, _, _, proposal, found, _, scheduled, rfl⟩, rfl⟩ := ok
    exact .cancelAction proposal found scheduled
  | pause caller domain duration =>
    simp only [exec, silent_eq_ok, pause, bind_eq_ok, Except.ok.injEq] at ok
    obtain ⟨⟨_, _, _, _, _, _, _, _, expiresAt, _, rfl⟩, rfl⟩ := ok
    exact .pause expiresAt
  | unpause domain =>
    obtain ⟨accepted, rfl⟩ := silent_eq_ok.mp ok
    exact unpause_effect accepted
  | addGuardian guardian =>
    simp only [exec, silent_eq_ok, addGuardian, bind_eq_ok] at ok
    obtain ⟨⟨_, _, ok⟩, rfl⟩ := ok
    split at ok
    · obtain rfl := by simpa using ok
      exact .addGuardian s.guardians
    · simp only [bind_eq_ok, Except.ok.injEq] at ok
      obtain ⟨_, _, rfl⟩ := ok
      exact .addGuardian _
  | removeGuardian guardian =>
    simp only [exec, silent_eq_ok, removeGuardian, bind_eq_ok] at ok
    obtain ⟨⟨_, _, ok⟩, rfl⟩ := ok
    split at ok
    · obtain rfl := by simpa using ok
      exact .removeGuardian _
    · obtain rfl := by simpa using ok
      exact .removeGuardian s.guardians
  | pauseDomain domainId duration =>
    simp only [exec, silent_eq_ok, pauseDomain, bind_eq_ok, Except.ok.injEq] at ok
    obtain ⟨⟨_, _, store, _, rfl⟩, rfl⟩ := ok
    exact .pauseDomain store
  | unpauseDomain domainId =>
    simp only [exec, silent_eq_ok, unpauseDomain, bind_eq_ok, Except.ok.injEq] at ok
    obtain ⟨⟨_, _, store, _, rfl⟩, rfl⟩ := ok
    exact .unpauseDomain store
  | isDomainPaused domainId =>
    simp only [exec, returning_eq_ok, isDomainPausedScoped, bind_eq_ok, checkNotPaused_eq_ok,
      Except.ok.injEq, Prod.mk.injEq] at ok
    obtain ⟨_, ⟨_, ⟨_, rfl⟩, _, rfl⟩, rfl⟩ := ok
    exact .isDomainPaused _
  | touchName name =>
    obtain ⟨b, accepted, rfl⟩ := returning_eq_ok.mp ok
    exact touchName_effect accepted
  | touchAllTtl maxTalosId =>
    obtain ⟨total, accepted, rfl⟩ := returning_eq_ok.mp ok
    exact touchAllTtl_effect accepted
  | extendTtlBatch maxTalosId limit minAge maxAge =>
    simp only [exec, returning_eq_ok, extendTtlBatch, bind_eq_ok, checkNotPaused_eq_ok,
      Except.ok.injEq, Prod.mk.injEq] at ok
    obtain ⟨_, ⟨_, ⟨_, rfl⟩, _, _, range, _, _, rfl⟩, rfl⟩ := ok
    obtain ⟨lastTouched, eq⟩ := sweep_lastTouched e.sequence
      ⟨minAge, maxAge, defaultMaxBatchKeys⟩ range (s.guarded e pauseNameConfig)
    rw [eq]
    exact .extendTtlBatch _ _ lastTouched

end Talos.NameService
