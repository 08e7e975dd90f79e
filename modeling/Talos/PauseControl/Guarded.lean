import Talos.PauseControl

/-!
# Guarded calls over a run

A contract that uses `pause_control`: it pauses and unpauses domains, and each of its operations
runs behind `check_not_paused` for one domain. An elapsed pause is written back as lifted only when
such a call is accepted, so the stored flag can be stale. What the guard decides is what the last
accepted `pause_domain` or `unpause_domain` on the domain says, at every later time.
-/

namespace Talos.PauseControl

open Talos.Soroban

variable {R E σ : Type}

/-! ### Contracts with guarded operations -/

inductive Call (R E σ : Type) where
  | pauseDomain (domainId : Nat) (authAddr : Address) (duration : Nat)
  | unpauseDomain (domainId : Nat) (authAddr : Address)
  /-- The operation has the rest of the storage to itself. -/
  | guarded (domainId : Nat) (operation : Env R → σ → Outcome E σ)

def Call.domainId : Call R E σ → Nat
  | .pauseDomain domainId _ _ | .unpauseDomain domainId _ | .guarded domainId _ => domainId

def exec (e : Env R) (s : Store × σ) : Call R E σ → Outcome E (Unit × (Store × σ))
  | .pauseDomain domainId authAddr duration => do
      let store ← pauseDomain e s.1 domainId authAddr duration
      .ok ((), store, s.2)
  | .unpauseDomain domainId authAddr => do
      let store ← unpauseDomain e s.1 domainId authAddr
      .ok ((), store, s.2)
  | .guarded domainId operation => do
      let store ← checkNotPaused e s.1 domainId
      let rest ← operation e s.2
      .ok ((), store, rest)

def host (rest : σ) : Contract R (Store × σ) (Call R E σ) Unit E := ⟨(.empty, rest), exec⟩

/-! ### What was last said of a domain -/

inductive Switch where
  | pause (pausedAt duration : Nat)
  | unpause
deriving DecidableEq, Repr

abbrev Invocation (R E σ : Type) := Entry R (Store × σ) (Call R E σ) Unit

def switchOn (domainId : Nat) (r : Invocation R E σ) : Option Switch :=
  match r.call with
  | .pauseDomain d _ duration => if d = domainId then some (.pause r.env.timestamp duration) else none
  | .unpauseDomain d _ => if d = domainId then some .unpause else none
  | .guarded _ _ => none

/-- The last accepted pause or unpause of the domain. -/
def lastSwitch (h : List (Invocation R E σ)) (domainId : Nat) : Option Switch :=
  (h.filterMap (switchOn domainId)).head?

/-- Whether a domain is paused at a time after what was last said of it. -/
def Switch.holds (now : Nat) : Switch → Bool
  | .pause pausedAt duration => duration == 0 || decide (now < pausedAt + duration)
  | .unpause => false

def pausedAt (h : List (Invocation R E σ)) (domainId now : Nat) : Bool :=
  (lastSwitch h domainId).any (Switch.holds now)

variable {e : Env R} {s s' : Store × σ} {store store' : Store} {c : Call R E σ}
  {h : List (Invocation R E σ)} {domainId now : Nat} {rest : σ} {u : Unit}

theorem pausedAt_cons {r : Invocation R E σ} :
    pausedAt (r :: h) domainId now =
      match switchOn domainId r with
      | some switch => switch.holds now
      | none => pausedAt h domainId now := by
  unfold pausedAt lastSwitch
  cases spoken : switchOn domainId r with
  | some switch => rw [List.filterMap_cons_some spoken, List.head?_cons, Option.any_some]
  | none => rw [List.filterMap_cons_none spoken]

/-! ### One call -/

theorem pauseDomain_eq_ok {authAddr : Address} {duration : Nat} :
    (pauseDomain e store domainId authAddr duration : Outcome E Store) = .ok store' ↔
      e.auth authAddr = true ∧ (duration = 0 ∨ e.timestamp + duration ≤ u64Max) ∧
        store' = store.set domainId ⟨true, authAddr, e.timestamp,
          if duration = 0 then 0 else e.timestamp + duration⟩ := by
  unfold pauseDomain
  rw [bind_eq_ok]
  by_cases forever : duration = 0
  · simp only [if_pos forever, bind_ok, requireAuth_eq_ok, Except.ok.injEq]
    constructor
    · rintro ⟨_, signed, rfl⟩
      exact ⟨signed, .inl forever, rfl⟩
    · rintro ⟨signed, -, rfl⟩
      exact ⟨(), signed, rfl⟩
  · simp only [if_neg forever, bind_eq_ok, requireAuth_eq_ok, addU64_eq_ok, Except.ok.injEq]
    constructor
    · rintro ⟨_, signed, _, ⟨room, rfl⟩, rfl⟩
      exact ⟨signed, .inr room, rfl⟩
    · rintro ⟨signed, room, rfl⟩
      exact ⟨(), signed, _, ⟨room.resolve_left forever, rfl⟩, rfl⟩

theorem unpauseDomain_eq_ok {authAddr : Address} :
    (unpauseDomain e store domainId authAddr : Outcome E Store) = .ok store' ↔
      e.auth authAddr = true ∧ ∃ old, store domainId = some old ∧ old.paused = true ∧
        store' = store.set domainId ⟨false, authAddr, old.pausedAt, 0⟩ := by
  simp only [unpauseDomain, bind_eq_ok, requireAuth_eq_ok, orReject_eq_ok, rejectIf_eq_ok,
    Except.ok.injEq, Bool.not_eq_false]
  constructor
  · rintro ⟨_, signed, old, found, _, paused, rfl⟩
    exact ⟨signed, old, found, paused, rfl⟩
  · rintro ⟨signed, old, found, paused, rfl⟩
    exact ⟨(), signed, old, found, (), paused, rfl⟩

theorem inForce_set_self {status : PauseStatus} : inForce now (store.set domainId status) domainId =
    (status.paused && (status.expiresAt == 0 || decide (now < status.expiresAt))) := by
  rw [inForce, Map.set_self]

theorem inForce_congr {domainId : Nat} (same : store' domainId = store domainId) :
    inForce now store' domainId = inForce now store domainId := by
  rw [inForce, inForce, same]

theorem expireIfElapsed_of_ne {other : Nat} (ne : other ≠ domainId) :
    (expireIfElapsed e store domainId).2 other = store other := by
  unfold expireIfElapsed
  split
  · rfl
  · split
    · rfl
    · split
      · rfl
      · split
        · exact Map.set_of_ne _ _ ne
        · rfl

/-- Writing an elapsed pause back changes the answer at no later time. -/
theorem inForce_expireIfElapsed (later : e.timestamp ≤ now) (other : Nat) :
    inForce now (expireIfElapsed e store domainId).2 other = inForce now store other := by
  by_cases same : other = domainId
  · subst same
    unfold expireIfElapsed
    split
    · rfl
    · next status found =>
      split
      · rfl
      · split
        · rfl
        · next limited =>
          split
          · next elapsed =>
            have over_ : ¬ now < status.expiresAt := Nat.not_lt.mpr (Nat.le_trans elapsed later)
            rw [inForce_set_self, inForce, found]
            simp [limited, over_]
          · rfl
  · exact inForce_congr (expireIfElapsed_of_ne same)

theorem checkNotPaused_of_inForce (paused : inForce e.timestamp store domainId = true) :
    (checkNotPaused e store domainId : Outcome E Store) = .error (.panic "Domain is paused") := by
  have flagged := (isPaused_expireIfElapsed e store domainId).trans paused
  simp only [checkNotPaused, requireNotPaused, flagged, rejectIf_pos, bind_error]

/-- A call acts on the record of its own domain. -/
theorem exec_of_other (ok : exec e s c = .ok (u, s')) (other : c.domainId ≠ domainId) :
    s'.1 domainId = s.1 domainId := by
  cases c with
  | pauseDomain d authAddr duration =>
    simp only [exec, bind_eq_ok, Except.ok.injEq, Prod.mk.injEq] at ok
    obtain ⟨store, paused, -, rfl⟩ := ok
    obtain ⟨-, -, rfl⟩ := pauseDomain_eq_ok.mp paused
    exact Map.set_of_ne _ _ (Ne.symm other)
  | unpauseDomain d authAddr =>
    simp only [exec, bind_eq_ok, Except.ok.injEq, Prod.mk.injEq] at ok
    obtain ⟨store, unpaused, -, rfl⟩ := ok
    obtain ⟨-, old, -, -, rfl⟩ := unpauseDomain_eq_ok.mp unpaused
    exact Map.set_of_ne _ _ (Ne.symm other)
  | guarded d operation =>
    simp only [exec, bind_eq_ok, Except.ok.injEq, Prod.mk.injEq] at ok
    obtain ⟨store, passed, rest, -, -, rfl⟩ := ok
    obtain ⟨-, rfl⟩ := checkNotPaused_eq_ok.mp passed
    exact expireIfElapsed_of_ne (Ne.symm other)

/-- What a call makes of the guard at later times is what its switch says, if it has one. -/
theorem inForce_of_ok (ok : exec e s c = .ok (u, s')) (later : e.timestamp ≤ now) :
    inForce now s'.1 domainId =
      match switchOn domainId ⟨s, e, c, u⟩ with
      | some switch => switch.holds now
      | none => inForce now s.1 domainId := by
  by_cases own : c.domainId = domainId
  · subst own
    cases c with
    | pauseDomain d authAddr duration =>
      simp only [exec, bind_eq_ok, Except.ok.injEq, Prod.mk.injEq] at ok
      obtain ⟨store, paused, -, rfl⟩ := ok
      obtain ⟨-, -, rfl⟩ := pauseDomain_eq_ok.mp paused
      have spoken : switchOn d (⟨s, e, .pauseDomain d authAddr duration, u⟩ : Invocation R E σ) =
          some (.pause e.timestamp duration) := if_pos rfl
      simp only [Call.domainId, spoken]
      rw [inForce_set_self, Switch.holds]
      by_cases forever : duration = 0
      · simp [forever]
      · have positive : e.timestamp + duration ≠ 0 := by omega
        simp only [if_neg forever, Bool.true_and, beq_eq_false_iff_ne.mpr positive,
          beq_eq_false_iff_ne.mpr forever]
    | unpauseDomain d authAddr =>
      simp only [exec, bind_eq_ok, Except.ok.injEq, Prod.mk.injEq] at ok
      obtain ⟨store, unpaused, -, rfl⟩ := ok
      obtain ⟨-, old, -, -, rfl⟩ := unpauseDomain_eq_ok.mp unpaused
      have spoken : switchOn d (⟨s, e, .unpauseDomain d authAddr, u⟩ : Invocation R E σ) =
          some .unpause := if_pos rfl
      simp only [Call.domainId, spoken]
      exact inForce_set_self
    | guarded d operation =>
      simp only [exec, bind_eq_ok, Except.ok.injEq, Prod.mk.injEq] at ok
      obtain ⟨store, passed, rest, -, -, rfl⟩ := ok
      obtain ⟨-, rfl⟩ := checkNotPaused_eq_ok.mp passed
      exact inForce_expireIfElapsed later d
  · have silent : switchOn domainId ⟨s, e, c, u⟩ = none := by
      cases c with
      | pauseDomain d authAddr duration => exact if_neg own
      | unpauseDomain d authAddr => exact if_neg own
      | guarded d operation => rfl
    rw [silent]
    exact inForce_congr (exec_of_other ok own)

/-! ### Runs -/

/-- The guard decides what was last said of the domain. -/
theorem inForce_of_run (run : Run (host rest) h s) (ordered : TimesInOrder h)
    (past : ∀ r ∈ h, r.env.timestamp ≤ now) :
    inForce now s.1 domainId = pausedAt h domainId now := by
  induction run with
  | refl => rfl
  | step run ok ih =>
    obtain ⟨older, ordered'⟩ := List.pairwise_cons.mp ordered
    obtain ⟨newest, past'⟩ := List.forall_mem_cons.mp past
    rw [inForce_of_ok ok newest, pausedAt_cons, ih ordered' past']

/-- What the two switches are answered depends on the record of their own domain. -/
theorem accepted_congr (same : store c.domainId = s.1 c.domainId) {e : Env R} :
    (∃ u s', exec e (store, s.2) c = .ok (u, s')) → ∃ u s', exec e s c = .ok (u, s') := by
  rintro ⟨u, s', ok⟩
  cases c with
  | pauseDomain d authAddr duration =>
    simp only [exec, bind_eq_ok, Except.ok.injEq, Prod.mk.injEq] at ok
    obtain ⟨_, paused, -, -⟩ := ok
    obtain ⟨signed, room, -⟩ := pauseDomain_eq_ok.mp paused
    have paused' := (pauseDomain_eq_ok.mpr ⟨signed, room, rfl⟩ :
      (pauseDomain e s.1 d authAddr duration : Outcome E Store) = .ok _)
    exact ⟨(), _, bind_eq_ok.mpr ⟨_, paused', rfl⟩⟩
  | unpauseDomain d authAddr =>
    simp only [exec, bind_eq_ok, Except.ok.injEq, Prod.mk.injEq] at ok
    obtain ⟨_, unpaused, -, -⟩ := ok
    obtain ⟨signed, old, found, paused, -⟩ := unpauseDomain_eq_ok.mp unpaused
    have unpaused' := (unpauseDomain_eq_ok.mpr ⟨signed, old, same.symm.trans found, paused, rfl⟩ :
      (unpauseDomain e s.1 d authAddr : Outcome E Store) = .ok _)
    exact ⟨(), _, bind_eq_ok.mpr ⟨_, unpaused', rfl⟩⟩
  | guarded d operation =>
    simp only [exec, bind_eq_ok, Except.ok.injEq, Prod.mk.injEq] at ok
    obtain ⟨_, passed, rest, done, -, -⟩ := ok
    obtain ⟨open_, -⟩ := checkNotPaused_eq_ok.mp passed
    have open' : inForce e.timestamp s.1 d = false := (inForce_congr same).symm.trans open_
    have passed' := (checkNotPaused_eq_ok.mpr ⟨open', rfl⟩ :
      (checkNotPaused e s.1 d : Outcome E Store) = .ok _)
    exact ⟨(), _, bind_eq_ok.mpr ⟨_, passed', bind_eq_ok.mpr ⟨rest, done, rfl⟩⟩⟩

/-- At any time after a run, a guarded call is rejected by the guard if the last accepted pause or
unpause of its domain says so, and otherwise does what its operation does. A call on another domain
leaves the record of the domain alone, and whether a call is accepted depends on the record of its
own domain only. -/
theorem guarded_rejected_iff (run : Run (host rest : Contract R _ (Call R E σ) Unit E) h s)
    (ordered : TimesInOrder h) (past : ∀ r ∈ h, r.env.timestamp ≤ e.timestamp) (domainId : Nat) :
    (∀ operation : Env R → σ → Outcome E σ, pausedAt h domainId e.timestamp = true →
      exec e s (.guarded domainId operation) = .error (.panic "Domain is paused")) ∧
    (∀ (operation : Env R → σ → Outcome E σ) rest', operation e s.2 = .ok rest' →
      ((∃ t, exec e s (.guarded domainId operation) = .error t) ↔
        pausedAt h domainId e.timestamp = true)) ∧
    (∀ (c : Call R E σ) u s', exec e s c = .ok (u, s') → c.domainId ≠ domainId →
      s'.1 domainId = s.1 domainId) ∧
    ∀ (c : Call R E σ) store, c.domainId = domainId → store domainId = s.1 domainId →
      ((∃ u s', exec e (store, s.2) c = .ok (u, s')) ↔ ∃ u s', exec e s c = .ok (u, s')) := by
  have decides : inForce e.timestamp s.1 domainId = pausedAt h domainId e.timestamp :=
    inForce_of_run run ordered past
  have stopped : ∀ operation : Env R → σ → Outcome E σ, pausedAt h domainId e.timestamp = true →
      exec e s (.guarded domainId operation) = .error (.panic "Domain is paused") := by
    intro operation paused
    have guard : (checkNotPaused e s.1 domainId : Outcome E Store) =
        .error (.panic "Domain is paused") := checkNotPaused_of_inForce (decides.trans paused)
    simp only [exec, guard, bind_error]
  refine ⟨stopped, ?_, fun c u s' ok other => exec_of_other ok other, ?_⟩
  · intro operation rest' done
    constructor
    · rintro ⟨t, rejected⟩
      by_contra open_
      rw [Bool.not_eq_true, ← decides] at open_
      have guard : (checkNotPaused e s.1 domainId : Outcome E Store) =
          .ok (expireIfElapsed e s.1 domainId).2 := checkNotPaused_eq_ok.mpr ⟨open_, rfl⟩
      simp only [exec, guard, done, bind_ok, reduceCtorEq] at rejected
    · exact fun paused => ⟨_, stopped operation paused⟩
  · rintro c store rfl same
    exact ⟨accepted_congr same, accepted_congr (s := (store, s.2)) same.symm⟩

/-- Domain 5 was paused for an hour, found lifted by a call after that, and paused again for good. -/
def pausedAgain : List (Invocation Unit Unit Nat) × (Store × Nat) :=
  (host 0).play [(⟨100, 1, fun _ => true, ()⟩, .pauseDomain 5 ⟨0⟩ 3600),
    (⟨3700, 2, fun _ => true, ()⟩, .guarded 5 fun _ calls => .ok (calls + 1)),
    (⟨3800, 3, fun _ => true, ()⟩, .pauseDomain 5 ⟨0⟩ 0)] ([], (.empty, 0))

theorem guarded_rejected_iff_pausedAgain :
    exec ⟨9000, 4, fun _ => true, ()⟩ pausedAgain.2
        (.guarded 5 fun _ calls => .ok (calls + 1) : Call Unit Unit Nat) =
      .error (.panic "Domain is paused") := by
  have ordered : TimesInOrder pausedAgain.1 := by decide
  have past : ∀ r ∈ pausedAgain.1, r.env.timestamp ≤ 9000 := by decide
  obtain ⟨stopped, -⟩ := guarded_rejected_iff (e := ⟨9000, 4, fun _ => true, ()⟩)
    (Contract.play_steps .refl _ : Run (host 0) pausedAgain.1 pausedAgain.2) ordered past 5
  exact stopped _ rfl

end Talos.PauseControl
