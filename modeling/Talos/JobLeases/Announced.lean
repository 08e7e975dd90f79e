import Talos.JobLeases.Completion
import Mathlib.Algebra.Order.Ring.Nat

/-!
# Announced leases

A claim, a heartbeat and an extension answer with the expiry that they write. A claim starts a
lease of its own length, a heartbeat sets the expiry to five minutes from its clock, whatever was
there, and an extension adds to the expiry that it has read.
-/

namespace Talos.JobLeases

open Database

/-! ### Announcements -/

/-- The lease of the agent with this token runs until the expiry. -/
structure Announcement where
  agent : String
  token : ℕ
  expiry : ℕ
  deriving DecidableEq, Repr

def Statement.announcement (job : Job) : Statement → Option Announcement
  | .claim caller now ttlSeconds =>
      some ⟨caller, job.fencingToken + 1, now + ms ttlSeconds.value⟩
  | .heartbeat caller fencingToken now =>
      some ⟨caller, fencingToken, now + ms heartbeatExtendSeconds⟩
  | .extendLease caller fencingToken _ leaseExpiresAt extendSeconds =>
      some ⟨caller, fencingToken, leaseExpiresAt + ms extendSeconds.value⟩
  | .release _ _ | .result _ _ _ | .progress _ _ _ => none

/-- The agent releases the job, or claims it again. -/
def Statement.givesUp (agent : String) : Statement → Bool
  | .claim caller _ _ | .release caller _ => caller = agent
  | .heartbeat _ _ _ | .extendLease _ _ _ _ _ | .result _ _ _ | .progress _ _ _ => false

def State.announcement (nulls : NullEquality) (s : State) : Event → Option Announcement
  | .send r true => (s.effect nulls (.send r true)).bind (Statement.announcement s.job)
  | .send _ false | .tick _ | .arrive _ _ _ _ | .read _ | .check _ _ | .fail _ => none

def Config.announced (config : Config) : List Announcement :=
  match config.start with
  | .created => []
  | .leased agent earlierClaims ttlSeconds =>
      [⟨agent, earlierClaims + 1, config.startedAt + ms ttlSeconds.value⟩]

variable (config : Config)

/-- What agents were told in a run and have not given up since. -/
def standing : List (Transition State Event) → List Announcement
  | [] => config.announced
  | r :: earlier =>
      (r.pre.announcement config.nulls r.event).toList ++ (standing earlier).filter fun a =>
        (r.pre.effect config.nulls r.event).all fun statement => ¬ statement.givesUp a.agent

/-! ### What should hold of them -/

def Statement.claimer : Statement → Option String
  | .claim caller _ _ => some caller
  | .heartbeat _ _ _ | .extendLease _ _ _ _ _ | .release _ _ | .result _ _ _
  | .progress _ _ _ => none

/-- No other agent claims the job earlier, and a renewal announces no earlier expiry. -/
def Honours (a : Announcement) (r : Transition State Event) : Prop :=
  ∀ statement ∈ r.pre.effect config.nulls r.event,
    (∀ caller ∈ statement.claimer, caller ≠ a.agent → a.expiry ≤ r.pre.clock) ∧
    (statement.isClaim = false → ∀ b ∈ r.pre.announcement config.nulls r.event,
      b.token = a.token → a.expiry ≤ b.expiry)

def Honoured (earlier : List (Transition State Event)) (r : Transition State Event) : Prop :=
  ∀ a ∈ standing config earlier, Honours config a r

/-- What the step writes runs out within a day. -/
def WithinHorizon (r : Transition State Event) : Prop :=
  ∀ expiry ∈ r.post.job.leaseExpiresAt,
    r.pre.job.leaseExpiresAt = some expiry ∨ expiry ≤ r.pre.clock + ms maxLeaseSeconds

/-- A heartbeat finds five minutes at most, and an extension what it read and adds at most. -/
def Statement.Lengthens (job : Job) : Statement → Prop
  | .heartbeat _ _ now =>
      ∀ expiry ∈ job.leaseExpiresAt, expiry ≤ now + ms heartbeatExtendSeconds
  | .extendLease _ _ _ leaseExpiresAt extendSeconds =>
      ∀ expiry ∈ job.leaseExpiresAt, expiry ≤ leaseExpiresAt + ms extendSeconds.value
  | .claim _ _ _ | .release _ _ | .result _ _ _ | .progress _ _ _ => True

def Lengthening (nulls : NullEquality) (s : State) (event : Event) : Prop :=
  ∀ statement ∈ s.effect nulls event, statement.Lengthens s.job

instance (job : Job) : DecidablePred (Statement.Lengthens job)
  | .heartbeat _ _ _ => inferInstanceAs (Decidable (∀ expiry ∈ job.leaseExpiresAt, _ ≤ _))
  | .extendLease _ _ _ _ _ => inferInstanceAs (Decidable (∀ expiry ∈ job.leaseExpiresAt, _ ≤ _))
  | .claim _ _ _ | .release _ _ | .result _ _ _ | .progress _ _ _ => .isTrue trivial

instance (nulls : NullEquality) (s : State) : DecidablePred (Lengthening nulls s) :=
  fun event => inferInstanceAs (Decidable (∀ statement ∈ s.effect nulls event, _))

instance (earlier : List (Transition State Event)) : DecidablePred (Honoured config earlier) :=
  fun r => inferInstanceAs (Decidable (∀ a ∈ standing config earlier, ∀ statement ∈
    r.pre.effect config.nulls r.event, _ ∧ _))

/-! ### Clocks of requests -/

/-- A request read its clock before now, and an extension stays below the horizon. -/
def Statement.Timely (clock : ℕ) : Statement → Prop
  | .claim _ now _ | .heartbeat _ _ now => now ≤ clock
  | .extendLease _ _ now leaseExpiresAt extendSeconds =>
      now ≤ clock ∧ leaseExpiresAt + ms extendSeconds.value ≤ now + ms maxLeaseSeconds
  | .release _ _ | .result _ _ _ | .progress _ _ _ => True

def Call.Timely (clock : ℕ) : Call → Prop
  | .extending _ _ _ now => now ≤ clock
  | .sending statement => statement.Timely clock
  | .reporting _ _ _ | .submitting _ _ _ | .authorized _ _ _ _ => True

def Timely (s : State) : Prop := ∀ r, ∀ call ∈ s.calls r, call.Timely s.clock

section

variable {clock clock' : ℕ}

theorem Call.Timely.mono {call : Call} (timely : call.Timely clock) (le : clock ≤ clock') :
    call.Timely clock' := by
  cases call with
  | extending => exact Nat.le_trans timely le
  | sending statement =>
      cases statement with
      | claim | heartbeat => exact Nat.le_trans timely le
      | extendLease => exact ⟨Nat.le_trans timely.1 le, timely.2⟩
      | release | result | progress => trivial
  | reporting | submitting | authorized => trivial

theorem accept_timely {caller : String} {status : Option String} {request : Request} {call : Call}
    (mem : call ∈ accept clock caller status request) : call.Timely clock := by
  cases request with
  | claim | heartbeat | extendLease =>
      simp only [accept] at mem
      split at mem <;> cases mem
      exact Nat.le_refl clock
  | release =>
      simp only [accept] at mem
      split at mem <;> cases mem
      trivial
  | result | progress =>
      cases mem
      trivial

theorem checkExtension_ok {job : Job} {caller : String} {fencingToken now expiry : ℕ}
    {extendSeconds : Seconds}
    (ok : checkExtension job caller fencingToken extendSeconds now = .ok expiry) :
    expiry + ms extendSeconds.value ≤ now + ms maxLeaseSeconds := by
  unfold checkExtension at ok
  split at ok
  · cases ok
  · split at ok
    · cases ok
    · split_ifs at ok with expired other beyond
      cases ok
      exact Nat.le_of_not_lt beyond

theorem afterRead_timely {job : Job} {call call' : Call} (timely : call.Timely clock)
    (mem : call' ∈ afterRead clock job call) : call'.Timely clock := by
  cases call with
  | extending =>
      simp only [afterRead] at mem
      split at mem <;> cases mem
      next ok => exact ⟨timely, checkExtension_ok ok⟩
  | reporting =>
      simp only [afterRead] at mem
      split at mem <;> cases mem
      trivial
  | submitting =>
      simp only [afterRead] at mem
      split at mem <;> cases mem
      trivial
  | authorized | sending => cases mem

end

section

variable {config}
variable {h : List (Transition State Event)} {s s' : State} {event : Event}
  {statement : Statement} {a : Announcement}

theorem Timely.put {r : ℕ} {call : Option Call} (timely : Timely s)
    (new : ∀ c ∈ call, c.Timely s.clock) : Timely (s.put r call) := by
  intro r' c mem
  change Function.update s.calls r call r' = some c at mem
  by_cases same : r' = r
  · subst same
    rw [Function.update_self] at mem
    exact new c mem
  · rw [Function.update_of_ne same] at mem
    exact timely r' c mem

theorem Timely.close {r : ℕ} (timely : Timely s) : Timely (s.put r none) :=
  timely.put fun _ absent => absurd absent (Option.not_mem_none _)

theorem apply_calls : (apply config s statement).calls = s.calls ∧
    (apply config s statement).clock = s.clock := by
  unfold apply
  split <;> exact ⟨rfl, rfl⟩

theorem Timely.step (timely : Timely s) (ok : step config s event = some s') : Timely s' := by
  cases event with
  | tick milliseconds =>
      cases ok
      intro r call mem
      exact (timely r call mem).mono (Nat.le_add_right _ _)
  | arrive r caller status request =>
      simp only [JobLeases.step] at ok
      split at ok <;> cases ok
      exact timely.put fun _ mem => accept_timely mem
  | read r =>
      simp only [JobLeases.step] at ok
      split at ok
      · next call found =>
          split at ok <;> cases ok
          exact timely.put fun _ mem => afterRead_timely (timely r call found) mem
      · cases ok
  | check r status =>
      simp only [JobLeases.step] at ok
      split at ok
      · split at ok <;> cases ok
        · exact timely.close
        · refine timely.put fun c mem => ?_
          rw [← Option.some_inj.mp mem]
          trivial
      · cases ok
  | send r acknowledged =>
      simp only [JobLeases.step] at ok
      split at ok
      · next statement found =>
          have same : Timely (apply config s statement) := by
            intro r' call mem
            rw [apply_calls.1] at mem
            rw [apply_calls.2]
            exact timely r' call mem
          split at ok <;> cases ok
          · exact same
          · exact same.close
      · cases ok
  | fail r =>
      simp only [JobLeases.step] at ok
      split at ok <;> cases ok
      exact timely.close

theorem Timely.effect (timely : Timely s) (is : s.effect config.nulls event = some statement) :
    statement.Timely s.clock := by
  cases event with
  | send r acknowledged =>
      simp only [State.effect] at is
      split at is
      · next found =>
          split at is <;> cases is
          exact timely r _ found
      · cases is
  | tick | arrive | read | check | fail => cases is

/-! ### An announcement along a run -/

/-- The announced lease is there, or it has run out and the job was claimed since. -/
def Kept (a : Announcement) (clock : ℕ) (job : Job) : Prop :=
  (job.leasedBy = some a.agent ∧ job.fencingToken = a.token ∧
      ∃ expiry ∈ job.leaseExpiresAt, a.expiry ≤ expiry) ∨
    a.token < job.fencingToken ∧ a.expiry ≤ clock

/-- Another agent's claim finds that the lease has run out. -/
theorem Kept.claim {clock now : ℕ} {caller : String} {job : Job} {nulls : NullEquality}
    (kept : Kept a clock job) (le : now ≤ clock) (other : caller ≠ a.agent)
    (holds : (job.isClaimable nulls caller now).Holds) :
    a.expiry ≤ clock ∧ a.token < job.fencingToken + 1 := by
  rcases kept with ⟨holder, token, expiry, here, announced⟩ | ⟨token, gone⟩
  · refine ⟨?_, token ▸ Nat.lt_succ_self _⟩
    simp only [Job.isClaimable, Job.isLeasedBy, Truth.or_holds, sqlEq_some, sqlEq_none,
      sqlLt_holds] at holds
    rcases holds with own | ⟨-, free⟩ | ⟨expiry', here', now', is, expired⟩
    · exact absurd (Option.some_inj.mp (own.symm.trans holder)) other
    · cases holder.symm.trans free
    · cases here.symm.trans here'
      cases is
      exact (announced.trans expired.le).trans le
  · exact ⟨gone, Nat.lt_succ_of_lt token⟩

theorem Kept.set {clock : ℕ} {job : Job} {nulls : NullEquality} (kept : Kept a clock job)
    (holds : (statement.condition nulls job).Holds) (timely : statement.Timely clock)
    (lengthens : statement.Lengthens job) (keeps : statement.givesUp a.agent = false) :
    Kept a clock (statement.set job) := by
  cases statement with
  | claim caller now ttlSeconds =>
      have claimable := (Truth.and_holds.mp holds).2
      have := kept.claim timely (of_decide_eq_false keeps) claimable
      exact .inr ⟨this.2, this.1⟩
  | heartbeat caller fencingToken now =>
      rcases kept with ⟨holder, token, expiry, here, announced⟩ | gone
      · exact .inl ⟨holder, token, _, rfl, announced.trans (lengthens expiry here)⟩
      · exact .inr gone
  | extendLease caller fencingToken now leaseExpiresAt extendSeconds =>
      rcases kept with ⟨holder, token, expiry, here, announced⟩ | gone
      · exact .inl ⟨holder, token, _, rfl, announced.trans (lengthens expiry here)⟩
      · exact .inr gone
  | release caller fencingToken =>
      rcases kept with ⟨holder, -⟩ | gone
      · have leased := (Truth.and_holds.mp holds).1
        rw [Job.isLeasedBy, sqlEq_some, holder, Option.some_inj] at leased
        exact absurd leased.symm (of_decide_eq_false keeps)
      · exact .inr gone
  | result | progress => exact kept

/-- What a statement announces is what it writes. -/
theorem kept_of_announcement {clock : ℕ} {job : Job} {nulls : NullEquality}
    (holds : (statement.condition nulls job).Holds)
    (is : statement.announcement job = some a) : Kept a clock (statement.set job) := by
  cases statement with
  | claim =>
      cases is
      exact .inl ⟨rfl, rfl, _, rfl, le_refl _⟩
  | heartbeat | extendLease =>
      cases is
      simp only [Statement.condition, Job.isLeasedBy, Job.hasToken, Truth.and_holds, sqlEq_some,
        Option.some_inj, Int.natCast_inj] at holds
      exact .inl ⟨holds.1, holds.2.1, _, rfl, le_refl _⟩
  | release | result | progress => cases is

/-- A renewal is for the token of the job, and writes what it does not find earlier. -/
theorem renewal {job : Job} {nulls : NullEquality}
    (holds : (statement.condition nulls job).Holds) (renews : statement.isClaim = false)
    (is : statement.announcement job = some a) (lengthens : statement.Lengthens job) :
    job.fencingToken = a.token ∧ ∀ expiry ∈ job.leaseExpiresAt, expiry ≤ a.expiry := by
  cases statement with
  | heartbeat | extendLease =>
      cases is
      simp only [Statement.condition, Job.hasToken, Truth.and_holds, sqlEq_some, Option.some_inj,
        Int.natCast_inj] at holds
      exact ⟨holds.2.1, lengthens⟩
  | claim => cases renews
  | release | result | progress => cases is

theorem announcement_effect {nulls : NullEquality} (is : s.announcement nulls event = some a) :
    ∃ statement, s.effect nulls event = some statement ∧
      statement.announcement s.job = some a := by
  cases event with
  | send r acknowledged =>
      cases acknowledged with
      | true => exact Option.bind_eq_some_iff.mp is
      | false => cases is
  | tick | arrive | read | check | fail => cases is

/-- Every announcement that stands is kept. -/
structure Keeping (config : Config) (h : List (Transition State Event)) (s : State) : Prop where
  timely : Timely s
  kept : ∀ a ∈ standing config h, Kept a s.clock s.job

theorem Kept.later {clock clock' : ℕ} {job : Job} (kept : Kept a clock job)
    (le : clock ≤ clock') : Kept a clock' job :=
  kept.imp_right fun gone => ⟨gone.1, gone.2.trans le⟩

theorem keeping_init : Keeping config [] (machine config).init := by
  refine ⟨fun _ _ absent => absurd absent (Option.not_mem_none _), ?_⟩
  intro a mem
  change Kept a config.startedAt config.job
  rw [standing, Config.announced] at mem
  rw [Config.job]
  cases started : config.start with
  | created =>
      rw [started] at mem
      cases mem
  | leased agent earlierClaims ttlSeconds =>
      rw [started] at mem
      cases List.mem_singleton.mp mem
      exact .inl ⟨rfl, rfl, _, rfl, le_refl _⟩

theorem Keeping.step (keeping : Keeping config h s) (ok : step config s event = some s')
    (lengthens : Lengthening config.nulls s event) :
    Keeping config (⟨s, event, s'⟩ :: h) s' := by
  refine ⟨keeping.timely.step ok, ?_⟩
  intro a mem
  refine Kept.later ?_ (step_clock ok)
  rw [step_job ok]
  rcases List.mem_append.mp mem with new | old
  · obtain ⟨statement, is, announces⟩ := announcement_effect (Option.mem_toList.mp new)
    rw [is]
    exact kept_of_announcement (effect_condition _ is) announces
  · obtain ⟨before, keeps⟩ := List.mem_filter.mp old
    have kept := keeping.kept a before
    cases is : s.effect config.nulls event with
    | none => exact kept
    | some statement =>
        rw [is, Option.all_some] at keeps
        exact kept.set (effect_condition _ is) (keeping.timely.effect is) (lengthens statement is)
          (Bool.eq_false_iff.mpr (of_decide_eq_true keeps))

theorem Kept.honours (kept : Kept a s.clock s.job) (timely : Timely s)
    (lengthens : Lengthening config.nulls s event) :
    Honours config a ⟨s, event, s'⟩ := by
  intro statement is
  have holds := effect_condition config.nulls is
  refine ⟨?_, ?_⟩
  · intro caller claims other
    cases statement with
    | claim caller' now ttlSeconds =>
        cases claims
        exact (kept.claim (timely.effect is) other (Truth.and_holds.mp holds).2).1
    | heartbeat | extendLease | release | result | progress => cases claims
  · intro renews b announced same
    obtain ⟨statement', is', announces⟩ := announcement_effect announced
    cases is.symm.trans is'
    obtain ⟨token, found⟩ := renewal holds renews announces (lengthens statement is)
    rcases kept with ⟨-, -, expiry, here, announced⟩ | ⟨later, -⟩
    · exact announced.trans (found expiry here)
    · rw [token, same] at later
      exact absurd later (lt_irrefl _)

theorem withinHorizon (timely : Timely s) (ok : step config s event = some s') :
    WithinHorizon ⟨s, event, s'⟩ := by
  intro expiry mem
  change s'.job.leaseExpiresAt = some expiry at mem
  rw [step_job ok] at mem
  cases is : s.effect config.nulls event with
  | none =>
      rw [is] at mem
      exact .inl mem
  | some statement =>
      rw [is] at mem
      have timely := timely.effect is
      cases statement with
      | claim caller now ttlSeconds =>
          cases mem
          refine .inr (Nat.add_le_add timely ?_)
          exact Nat.mul_le_mul_right _ (ttlSeconds.le_hour.trans (by decide))
      | heartbeat caller fencingToken now =>
          cases mem
          exact .inr (Nat.add_le_add timely (by decide))
      | extendLease caller fencingToken now leaseExpiresAt extendSeconds =>
          cases mem
          exact .inr (timely.2.trans (Nat.add_le_add_right timely.1 _))
      | release => cases mem
      | result | progress => exact .inl mem

/-! ### What holds of announcements, and when -/

/-- In every run in which no renewal writes an earlier expiry than it finds, what agents were told
is honoured until they give it up; and a lease never runs more than a day from when it was set. -/
theorem honoured_of_lengthening (run : Run (machine config) h s)
    (lengthens : ∀ r ∈ h, Lengthening config.nulls r.pre r.event) :
    Throughout (Honoured config) h ∧ ∀ r ∈ h, WithinHorizon r := by
  constructor
  · exact run.throughout (C := fun r => Lengthening config.nulls r.pre r.event)
      (I := Keeping config) lengthens keeping_init
      (fun keeping ok lengthens => keeping.step ok lengthens)
      fun keeping _ lengthens a mem => (keeping.kept a mem).honours keeping.timely lengthens
  · intro r mem
    have timely : Timely r.pre := by
      obtain ⟨later, earlier, rfl⟩ := List.append_of_mem mem
      exact run.split.1.invariant (I := Timely) keeping_init.timely fun timely ok => timely.step ok
    exact withinHorizon timely (run.taken mem)

end

/-! ### A heartbeat that shortens the lease -/

def hour : Seconds := ⟨3600, by decide, by decide⟩

/-- A heartbeat five minutes after the claim, and an hour's extension. -/
def renewals : List Event :=
  .tick 200000 :: write 1 "provider" (.heartbeat 1) ++
    [.arrive 2 "provider" (some "Active") (.extendLease 1 hour), .read 2, .send 2 true]

theorem honoured_of_lengthening_renewals :
    (Throughout (Honoured (exampleConfig .unknown (.leased "provider" 0 defaultLeaseTtlSeconds)))
        (played .unknown (.leased "provider" 0 defaultLeaseTtlSeconds) renewals).1) ∧
      (played .unknown (.leased "provider" 0 defaultLeaseTtlSeconds) renewals).2.job.leaseExpiresAt =
        some 4101000 :=
  ⟨(honoured_of_lengthening (Machine.play_run _ _) (by decide)).1, by decide⟩

/-- The provider has an hour, renews, and loses the job after five minutes. -/
def shortened : List Event :=
  write 2 "provider" (.heartbeat 1) ++ .tick 300001 :: write 3 "other" (.claim none)

/-- Whether or not `leasedBy = NULL` finds a job that was never claimed. -/
theorem claimed_before_expiry :
    (Reachable (machine (exampleConfig .unknown (.leased "provider" 0 hour)))
        (played .unknown (.leased "provider" 0 hour) shortened).2 ∧
      ¬ Throughout (Honoured (exampleConfig .unknown (.leased "provider" 0 hour)))
        (played .unknown (.leased "provider" 0 hour) shortened).1 ∧
      (played .unknown (.leased "provider" 0 hour) shortened).2.job.leasedBy = some "other" ∧
      (played .unknown (.leased "provider" 0 hour) shortened).2.clock < 3601000) ∧
    Reachable (machine (exampleConfig .equal .created))
        (played .equal .created (write 1 "provider" (.claim (some hour)) ++ shortened)).2 ∧
      ¬ Throughout (Honoured (exampleConfig .equal .created))
        (played .equal .created (write 1 "provider" (.claim (some hour)) ++ shortened)).1 :=
  ⟨⟨⟨_, Machine.play_run _ _⟩, by decide⟩, ⟨_, Machine.play_run _ _⟩, by decide⟩

/-- An extension that read the expiry before a heartbeat renewed it. -/
example : ¬ Throughout (Honoured (exampleConfig .unknown (.leased "provider" 0 ⟨1, by decide,
      by decide⟩)))
    (played .unknown (.leased "provider" 0 ⟨1, by decide, by decide⟩)
      (.arrive 1 "provider" (some "Active") (.extendLease 1 ⟨1, by decide, by decide⟩) :: .read 1 ::
        write 2 "provider" (.heartbeat 1) ++ [.send 1 true])).1 := by
  decide +kernel

end Talos.JobLeases
