import Talos.Sdk.Webhooks
import Mathlib.Data.Rat.Floor
import Mathlib.Tactic.Linarith

/-!
# Webhook replay protection

An event is accepted while the clock is within the tolerance of its timestamp, on either
side. Its entry in the replay store lives from the acceptance for the TTL. So an event from
the future is accepted a whole tolerance before its timestamp and again a whole tolerance
after it, unless the TTL outlasts both (`accepted_once_iff`); the guard of `verify` asks
for one tolerance, the default adds a minute to it.
-/

namespace Talos.Sdk.Webhook

open Encoding
open Soroban (Map)

structure Attempt where
  options : VerifyOptions
  times : Times

/-- The attempts that are accepted. -/
def accepted (hmac : Hmac) (store : Option ReplayStore) : List Attempt → List Attempt
  | [] => []
  | attempt :: rest =>
      match verify hmac attempt.options attempt.times store with
      | (.ok _, store) => attempt :: accepted hmac store rest
      | (.error _, store) => accepted hmac store rest

/-- One attempt after the other, each at the store within `delay` of reading the clock. -/
def Sequential (delay : Nat) (now : Int) : List Attempt → Prop
  | [] => True
  | attempt :: rest =>
      now ≤ attempt.times.now ∧ attempt.times.now ≤ attempt.times.hasAt ∧
        attempt.times.hasAt ≤ attempt.times.now + delay ∧
        attempt.times.hasAt ≤ attempt.times.setAt ∧ Sequential delay attempt.times.setAt rest

/-- An event that a verification in time accepts. -/
structure Signed (hmac : Hmac) (event : VerifyOptions) (id : Utf16) (parsed : ParsedSignature) :
    Prop where
  named : event.eventId = some id
  nonempty : id ≠ []
  tolerant : 0 < event.toleranceSeconds
  configured : checkWindow event = .ok ()
  parses : parseSignatureHeader event.signatureHeader = .ok parsed
  valid : parsed.signatures.any (signatureMatches hmac event.secret parsed.timestamp
    (payloadToString event.payload)) = true

/-- An attempt at the event id and header again. -/
def isAgain (event : VerifyOptions) (attempt : Attempt) : Bool :=
  attempt.options.eventId = event.eventId ∧
    attempt.options.signatureHeader = event.signatureHeader

/-- With the event's tolerance and window. -/
def Configured (event : VerifyOptions) (attempt : Attempt) : Prop :=
  attempt.options.toleranceSeconds = event.toleranceSeconds ∧
    attempt.options.replayWindowSeconds = event.replayWindowSeconds

/-- No run of attempts accepts the event twice. -/
def NeverTwice (hmac : Hmac) (event : VerifyOptions) (delay : Nat) : Prop :=
  ∀ (store : ReplayStore) (now : Int) (attempts : List Attempt), Sequential delay now attempts →
    (∀ attempt ∈ attempts, Configured event attempt) →
    ((accepted hmac (some store) attempts).filter (isAgain event)).length ≤ 1

/-- The TTL outlasts the time in which the event is accepted. -/
def Outlasts (options : VerifyOptions) (delay : Nat) : Prop :=
  ∀ tolerance : ℚ, options.toleranceSeconds = (tolerance : Seconds) →
    (((2000 * ⌊tolerance⌋ + 999 + delay : ℤ) : ℚ) : WithTop ℚ) < expiryAt 0 (ttl options)

variable {hmac : Hmac} {event options : VerifyOptions} {parsed : ParsedSignature} {id : Utf16}
  {store : ReplayStore} {times : Times} {attempt : Attempt} {attempts : List Attempt} {delay : Nat} {now : Int}

/-! ### One attempt -/

/-- The clock is close enough to the timestamp. -/
def Timely (tolerance : Seconds) (timestamp : Nat) (clock : Int) : Prop :=
  checkTolerance tolerance timestamp (clock / 1000) = .ok ()

/-- The tolerance in whole seconds, on either side of the timestamp. -/
theorem timely_iff {tolerance : ℚ} {timestamp : Nat} {clock : Int} (positive : 0 < tolerance) :
    Timely (tolerance : Seconds) timestamp clock ↔
      1000 * (timestamp - ⌊tolerance⌋) ≤ clock ∧ clock ≤ 1000 * (timestamp + ⌊tolerance⌋) + 999 := by
  have old : (tolerance : Seconds) < seconds (clock / 1000 - timestamp) ↔
      ⌊tolerance⌋ < clock / 1000 - timestamp := by
    rw [seconds, WithTop.coe_lt_coe, Int.floor_lt]
  have new : (tolerance : Seconds) < seconds (timestamp - clock / 1000) ↔
      ⌊tolerance⌋ < timestamp - clock / 1000 := by
    rw [seconds, WithTop.coe_lt_coe, Int.floor_lt]
  have tolerant : (0 : Seconds) < (tolerance : Seconds) := by exact_mod_cast positive
  unfold Timely checkTolerance
  rw [if_pos tolerant]
  by_cases isOld : ⌊tolerance⌋ < clock / 1000 - timestamp
  · rw [if_pos (old.mpr isOld)]
    refine ⟨nofun, fun within => ?_⟩
    omega
  · rw [if_neg (mt old.mp isOld)]
    by_cases isNew : ⌊tolerance⌋ < timestamp - clock / 1000
    · rw [if_pos (new.mpr isNew)]
      refine ⟨nofun, fun within => ?_⟩
      omega
    · rw [if_neg (mt new.mp isNew)]
      refine ⟨fun _ => ?_, fun _ => rfl⟩
      omega

theorem verifyHeader_ok :
    verifyHeader hmac options now = .ok parsed ↔
      checkWindow options = .ok () ∧ parseSignatureHeader options.signatureHeader = .ok parsed ∧
        checkTolerance options.toleranceSeconds parsed.timestamp now = .ok () ∧
        parsed.signatures.any (signatureMatches hmac options.secret parsed.timestamp
          (payloadToString options.payload)) = true := by
  unfold verifyHeader
  rw [Soroban.bind_eq_ok]
  by_cases missing : options.signatureHeader = []
  · rw [if_pos missing, missing]
    constructor
    · rintro ⟨_, _, failed⟩
      cases failed
    · rintro ⟨_, parses, _⟩
      cases parses
  · rw [if_neg missing, Soroban.bind_eq_ok]
    constructor
    · rintro ⟨_, window, read, parses, rest⟩
      obtain ⟨_, tolerance, result⟩ := Soroban.bind_eq_ok.mp rest
      split at result
      · next valid =>
          cases result
          exact ⟨window, parses, tolerance, valid⟩
      · cases result
    · rintro ⟨window, parses, tolerance, valid⟩
      refine ⟨(), window, parsed, parses, Soroban.bind_eq_ok.mpr ⟨(), tolerance, if_pos valid⟩⟩

/-- An attempt leaves the store as it is, or is accepted and adds its entry. -/
theorem verify_cases (hmac : Hmac) (attempt : Attempt) (store : ReplayStore) :
    (∃ error, verify hmac attempt.options attempt.times (some store) = (.error error, some store)) ∨
      ∃ parsed id,
        verify hmac attempt.options attempt.times (some store) =
            (.ok parsed, some (store.add id (ttl attempt.options) attempt.times.setAt)) ∧
          verifyHeader hmac attempt.options (attempt.times.now / 1000) = .ok parsed ∧
          attempt.options.eventId = some id ∧ store.has id attempt.times.hasAt = false := by
  unfold verify
  cases verifyHeader hmac attempt.options (attempt.times.now / 1000) with
  | error error => exact .inl ⟨error, rfl⟩
  | ok parsed =>
      dsimp only
      unfold checkReplay
      split
      · exact .inl ⟨_, rfl⟩
      · exact .inl ⟨_, rfl⟩
      · next id _ named =>
          by_cases hasFails : attempt.times.hasFails = true
          · rw [if_pos hasFails]
            exact .inl ⟨_, rfl⟩
          rw [if_neg hasFails]
          by_cases replay : store.has id attempt.times.hasAt = true
          · rw [if_pos replay]
            exact .inl ⟨_, rfl⟩
          rw [if_neg replay]
          by_cases setFails : attempt.times.setFails = true
          · rw [if_pos setFails]
            exact .inl ⟨_, rfl⟩
          rw [if_neg setFails]
          exact .inr ⟨parsed, id, rfl, rfl, named, Bool.not_eq_true _ ▸ replay⟩

theorem verify_accepts (header : verifyHeader hmac options (times.now / 1000) = .ok parsed)
    (named : options.eventId = some id) (nonempty : id ≠ [])
    (works : times.hasFails = false ∧ times.setFails = false)
    (unseen : store.has id times.hasAt = false) :
    verify hmac options times (some store) =
      (.ok parsed, some (store.add id (ttl options) times.setAt)) := by
  obtain ⟨u, rest, rfl⟩ := List.exists_cons_of_ne_nil nonempty
  unfold verify checkReplay
  rw [header, named]
  dsimp only
  rw [works.1, works.2, unseen]
  rfl

/-! ### After an acceptance -/

theorem has_eq_true {expiry : WithTop ℚ} {clock : Int} (entry : store id = some expiry)
    (alive : ((clock : ℚ) : WithTop ℚ) < expiry) : store.has id clock = true := by
  rw [ReplayStore.has, entry]
  exact decide_eq_true alive

/-- The entry is there whenever the event's timestamp still passes. -/
def Outlives (event : VerifyOptions) (timestamp delay : Nat) (expiry : WithTop ℚ) : Prop :=
  ∀ clock time : Int, Timely event.toleranceSeconds timestamp clock → time ≤ clock + delay →
    ((time : ℚ) : WithTop ℚ) < expiry

/-- The event is not accepted from now on: its entry is kept for long enough, or the time
in which it is accepted is over. -/
inductive Spent (event : VerifyOptions) (id : Utf16) (timestamp delay : Nat)
    (store : ReplayStore) (now : Int) : Prop where
  | held (expiry : WithTop ℚ) (entry : store id = some expiry)
      (outlives : Outlives event timestamp delay expiry)
  | gone (late : ∀ clock, now ≤ clock → ¬ Timely event.toleranceSeconds timestamp clock)

theorem Spent.later (spent : Spent event id parsed.timestamp delay store now) {later : Int}
    (le : now ≤ later) : Spent event id parsed.timestamp delay store later := by
  cases spent with
  | held expiry entry outlives => exact .held expiry entry outlives
  | gone late => exact .gone fun clock after => late clock (Int.le_trans le after)

/-- An attempt after its acceptance does not change that. -/
theorem Spent.add (spent : Spent event id parsed.timestamp delay store now) {other : Utf16}
    (ttlSeconds : Seconds) {hasAt setAt : Int} (le : now ≤ hasAt) (le' : hasAt ≤ setAt)
    (unseen : store.has other hasAt = false) :
    Spent event id parsed.timestamp delay (store.add other ttlSeconds setAt) setAt := by
  cases spent with
  | gone late => exact .gone fun clock after => late clock (by omega)
  | held expiry entry outlives =>
      by_cases same : id = other
      · subst same
        -- the entry has expired at a time at which the event is accepted no more
        refine .gone fun clock after timely => ?_
        have alive := outlives clock clock timely (by omega)
        have gone : ¬ ((hasAt : ℚ) : WithTop ℚ) < expiry := fun alive =>
          absurd (has_eq_true entry alive) (by simp [unseen])
        have before : ((hasAt : ℚ) : WithTop ℚ) ≤ ((clock : ℚ) : WithTop ℚ) := by
          exact_mod_cast (by omega : hasAt ≤ clock)
        exact gone (lt_of_le_of_lt before alive)
      · refine .held expiry ?_ outlives
        exact (Map.set_of_ne _ _ same).trans entry

/-- An infinite tolerance is accepted with the default window only, which is infinite too. -/
theorem ttl_of_top (configured : checkWindow event = .ok ())
    (tolerance : event.toleranceSeconds = ⊤) : ttl event = ⊤ := by
  unfold checkWindow at configured
  unfold ttl
  rw [tolerance] at configured ⊢
  cases given : event.replayWindowSeconds with
  | none =>
      dsimp only
      rw [if_pos WithTop.top_pos]
      exact WithTop.top_add _
  | some window =>
      rw [given] at configured
      dsimp only at configured
      split at configured
      · cases configured
      · next finite =>
          have finite : window < ⊤ := lt_top_iff_ne_top.mpr fun top => finite (.inl top)
          rw [if_pos ⟨WithTop.top_pos, finite⟩] at configured
          cases configured

/-- The entry of an acceptance in time outlives the event. -/
theorem outlives_of_outlasts (signed : Signed hmac event id parsed) (outlasts : Outlasts event delay)
    {clock setAt : Int} (timely : Timely event.toleranceSeconds parsed.timestamp clock)
    (le : clock ≤ setAt) :
    Outlives event parsed.timestamp delay (expiryAt setAt (ttl event)) := by
  intro clock' time timely' before
  cases tolerance : event.toleranceSeconds using WithTop.recTopCoe with
  | top =>
      have endless : ttl event = ⊤ := ttl_of_top signed.configured tolerance
      rw [endless]
      exact WithTop.coe_lt_top _
  | coe q =>
      have outlasts := outlasts q tolerance
      have positive : 0 < q := by
        have tolerant := signed.tolerant
        rw [tolerance] at tolerant
        exact_mod_cast tolerant
      rw [tolerance] at timely timely'
      obtain ⟨early, -⟩ := (timely_iff positive).mp timely
      obtain ⟨-, late⟩ := (timely_iff positive).mp timely'
      have within : time ≤ setAt + (2000 * ⌊q⌋ + 999 + delay) := by omega
      cases lifetime : ttl event using WithTop.recTopCoe with
      | top => exact WithTop.coe_lt_top _
      | coe w =>
          rw [lifetime] at outlasts
          have enough : ((2000 * ⌊q⌋ + 999 + delay : ℤ) : ℚ) < (0 : ℤ) + 1000 * w :=
            WithTop.coe_lt_coe.mp outlasts
          refine WithTop.coe_lt_coe.mpr ?_
          have bound : (time : ℚ) ≤ (setAt + (2000 * ⌊q⌋ + 999 + delay) : ℤ) := by
            exact_mod_cast within
          push_cast at enough bound ⊢
          linarith

/-- The event is not accepted again. -/
theorem Spent.rejects (signed : Signed hmac event id parsed)
    (spent : Spent event id parsed.timestamp delay store now) (again : isAgain event attempt = true)
    (configured : Configured event attempt) (start : now ≤ attempt.times.now)
    (soon : attempt.times.hasAt ≤ attempt.times.now + delay) :
    ∃ error, verify hmac attempt.options attempt.times (some store) = (.error error, some store) := by
  obtain ⟨sameId, sameHeader⟩ := of_decide_eq_true again
  rcases verify_cases hmac attempt store with rejected | ⟨read, other, -, header, named, unseen⟩
  · exact rejected
  · obtain ⟨-, parses, timely, -⟩ := verifyHeader_ok.mp header
    rw [sameHeader, signed.parses] at parses
    cases parses
    rw [sameId, signed.named] at named
    cases named
    rw [configured.1] at timely
    cases spent with
    | gone late => exact absurd timely (late _ start)
    | held expiry entry outlives =>
        have alive := has_eq_true entry (outlives _ _ timely soon)
        rw [alive] at unseen
        cases unseen

/-! ### Runs -/

/-- A run after the acceptance accepts the event no more. -/
theorem Spent.none_accepted (signed : Signed hmac event id parsed)
    (spent : Spent event id parsed.timestamp delay store now)
    (ordered : Sequential delay now attempts)
    (configured : ∀ attempt ∈ attempts, Configured event attempt) :
    (accepted hmac (some store) attempts).filter (isAgain event) = [] := by
  induction attempts generalizing store now with
  | nil => rfl
  | cons attempt rest ih =>
      obtain ⟨start, atStore, soon, written, rest'⟩ := ordered
      have here := configured attempt List.mem_cons_self
      have later := fun a mem => configured a (List.mem_cons_of_mem _ mem)
      rcases verify_cases hmac attempt store with
        ⟨error, result⟩ | ⟨read, other, result, -, -, unseen⟩
      · rw [accepted, result]
        exact ih (spent.later (by omega)) rest' later
      · have first : ¬ isAgain event attempt = true := by
          intro again
          obtain ⟨error, rejected⟩ := spent.rejects signed again here start soon
          rw [result] at rejected
          cases rejected
        rw [accepted, result]
        dsimp only
        rw [List.filter_cons_of_neg first]
        exact ih (spent.add (ttl attempt.options) (by omega) written unseen) rest' later

theorem ttl_of_configured (configured : Configured event attempt) :
    ttl attempt.options = ttl event := by
  rw [ttl, ttl, configured.1, configured.2]

/-- An acceptance spends the event. -/
theorem spent_of_accepted (store : ReplayStore) (signed : Signed hmac event id parsed) (outlasts : Outlasts event delay)
    (again : isAgain event attempt = true) (configured : Configured event attempt)
    {read : ParsedSignature} {other : Utf16}
    (header : verifyHeader hmac attempt.options (attempt.times.now / 1000) = .ok read)
    (named : attempt.options.eventId = some other)
    (le : attempt.times.now ≤ attempt.times.setAt) :
    Spent event id parsed.timestamp delay
      (store.add other (ttl attempt.options) attempt.times.setAt) attempt.times.setAt := by
  obtain ⟨sameId, sameHeader⟩ := of_decide_eq_true again
  obtain ⟨-, parses, timely, -⟩ := verifyHeader_ok.mp header
  rw [sameHeader, signed.parses] at parses
  cases parses
  rw [sameId, signed.named] at named
  cases named
  rw [configured.1] at timely
  rw [ttl_of_configured configured]
  exact .held _ (Map.set_self ..) (outlives_of_outlasts signed outlasts timely le)

/-- With a TTL that outlasts the event no run accepts it twice. -/
theorem neverTwice_of_outlasts (signed : Signed hmac event id parsed)
    (outlasts : Outlasts event delay) : NeverTwice hmac event delay := by
  intro store now attempts ordered configured
  induction attempts generalizing store now with
  | nil => exact Nat.zero_le 1
  | cons attempt rest ih =>
      obtain ⟨start, atStore, soon, written, rest'⟩ := ordered
      have here := configured attempt List.mem_cons_self
      have later := fun a mem => configured a (List.mem_cons_of_mem _ mem)
      rcases verify_cases hmac attempt store with
        ⟨error, result⟩ | ⟨read, other, result, header, named, unseen⟩
      · rw [accepted, result]
        exact ih store _ rest' later
      · rw [accepted, result]
        dsimp only
        by_cases again : isAgain event attempt = true
        · have spent := spent_of_accepted store signed outlasts again here header named (by omega)
          rw [List.filter_cons_of_pos again, spent.none_accepted signed rest' later]
          exact Nat.le_refl 1
        · rw [List.filter_cons_of_neg again]
          exact ih _ _ rest' later

/-- An attempt whose requests to the store are made at one time. -/
def attemptAt (event : VerifyOptions) (now time : Int) : Attempt :=
  ⟨event, ⟨now, time, time, false, false⟩⟩

theorem attemptAt_accepts (signed : Signed hmac event id parsed) {clock time : Int}
    (timely : Timely event.toleranceSeconds parsed.timestamp clock)
    (unseen : store.has id time = false) :
    verify hmac (attemptAt event clock time).options (attemptAt event clock time).times
        (some store) =
      (.ok parsed, some (store.add id (ttl event) time)) :=
  verify_accepts (verifyHeader_ok.mpr ⟨signed.configured, signed.parses, timely, signed.valid⟩)
    signed.named signed.nonempty ⟨rfl, rfl⟩ unseen

/-- The entry of an acceptance is gone at the end of its TTL. -/
theorem has_expired {ttlSeconds : Seconds} {first last span : Int}
    (short : ¬ ((span : ℚ) : WithTop ℚ) < expiryAt 0 ttlSeconds) (le : first + span ≤ last) :
    (ReplayStore.add Map.empty id ttlSeconds first).has id last = false := by
  rw [ReplayStore.has, ReplayStore.add, Map.set_self]
  apply decide_eq_false
  intro alive
  cases ttlSeconds using WithTop.recTopCoe with
  | top => exact short (WithTop.coe_lt_top _)
  | coe w =>
      apply short
      have before : ((last : ℤ) : ℚ) < first + 1000 * w := WithTop.coe_lt_coe.mp alive
      have after : ((first + span : ℤ) : ℚ) ≤ last := by exact_mod_cast le
      refine WithTop.coe_lt_coe.mpr ?_
      push_cast at after ⊢
      linarith

/-- With a shorter TTL the event is accepted at the first and again at the last time of its
tolerance. -/
theorem accepted_twice (signed : Signed hmac event id parsed) (short : ¬ Outlasts event delay) :
    ¬ NeverTwice hmac event delay := by
  intro never
  obtain ⟨q, tolerance, short⟩ : ∃ q : ℚ, event.toleranceSeconds = (q : Seconds) ∧
      ¬ (((2000 * ⌊q⌋ + 999 + delay : ℤ) : ℚ) : WithTop ℚ) < expiryAt 0 (ttl event) := by
    simpa only [Outlasts, not_forall, exists_prop] using short
  have positive : 0 < q := by
    have tolerant := signed.tolerant
    rw [tolerance] at tolerant
    exact_mod_cast tolerant
  have whole : 0 ≤ ⌊q⌋ := Int.floor_nonneg.mpr positive.le
  obtain ⟨first, isFirst⟩ : ∃ first : Int, first = 1000 * (parsed.timestamp - ⌊q⌋) := ⟨_, rfl⟩
  obtain ⟨last, isLast⟩ : ∃ last : Int, last = 1000 * (parsed.timestamp + ⌊q⌋) + 999 := ⟨_, rfl⟩
  have early : Timely event.toleranceSeconds parsed.timestamp first := by
    rw [tolerance, timely_iff positive]
    omega
  have late : Timely event.toleranceSeconds parsed.timestamp last := by
    rw [tolerance, timely_iff positive]
    omega
  have unseen : ReplayStore.has Map.empty id first = false := rfl
  have accepts := attemptAt_accepts signed early unseen
  have gone : (ReplayStore.add Map.empty id (ttl event) first).has id (last + delay) = false :=
    has_expired short (by omega)
  have accepts' := attemptAt_accepts signed late gone
  have ordered : Sequential delay first
      [attemptAt event first first, attemptAt event last (last + delay)] := by
    refine ⟨le_refl first, le_refl first, ?_, le_refl first, ?_, ?_, le_refl _, le_refl _, trivial⟩
    all_goals
      simp only [attemptAt]
      omega
  have configured : ∀ attempt ∈ [attemptAt event first first, attemptAt event last (last + delay)],
      Configured event attempt := by
    simp [Configured, attemptAt]
  have once := never Map.empty first _ ordered configured
  have again : ∀ clock time, isAgain event (attemptAt event clock time) = true :=
    fun clock time => decide_eq_true ⟨rfl, rfl⟩
  rw [accepted, accepts] at once
  dsimp only at once
  rw [accepted, accepts'] at once
  dsimp only at once
  rw [accepted, List.filter_cons_of_pos (again _ _), List.filter_cons_of_pos (again _ _)] at once
  simp at once

/-- An event is never accepted twice if and only if the TTL outlasts its tolerance on both
sides of the timestamp and the way to the store. -/
theorem accepted_once_iff (signed : Signed hmac event id parsed) :
    NeverTwice hmac event delay ↔ Outlasts event delay := by
  constructor
  · intro never
    by_contra short
    exact accepted_twice signed short never
  · exact neverTwice_of_outlasts signed

/-- A code that contains its secret and content. -/
def plainMac : Hmac := fun secret content => utf8 (secret ++ content)

/-- "t=1000,v1=6b313030302e": the empty payload, signed with the secret "k" at 1000. -/
def signedHeader : Utf16 :=
  [116, 61, 49, 48, 48, 48, 44, 118, 49, 61,
    54, 98, 51, 49, 51, 48, 51, 48, 51, 48, 50, 101]

/-- The event "e" with the default tolerance and a window of 601 seconds. -/
def longWindow : VerifyOptions :=
  ⟨.text [], signedHeader, [[107]], defaultTolerance, some ((601 : ℚ) : Seconds), some [101]⟩

def signedOnce : ParsedSignature :=
  ⟨1000, [1], [(1, [54, 98, 51, 49, 51, 48, 51, 48, 51, 48, 50, 101])]⟩

theorem accepted_once_iff_longWindow : NeverTwice plainMac longWindow 0 := by
  have signed : Signed plainMac longWindow [101] signedOnce :=
    ⟨rfl, by decide, by decide, rfl, rfl, by decide⟩
  refine (accepted_once_iff signed).mpr fun tolerance same => ?_
  have whole : tolerance = (300 : ℤ) := (WithTop.coe_injective same).symm
  rw [whole, Int.floor_intCast]
  exact WithTop.coe_lt_coe.mpr (by norm_num)

/-- The event "e" with the defaults. -/
def defaultWindow : VerifyOptions := { longWindow with replayWindowSeconds := none }

/-- The first attempt comes 300 seconds before the timestamp, the second 361 seconds later. -/
def replayed : List Attempt :=
  [attemptAt defaultWindow 700000 700000, attemptAt defaultWindow 1061000 1061000]

theorem replay_accepted :
    Sequential 0 0 replayed ∧ (accepted plainMac (some Map.empty) replayed).length = 2 := by
  exact ⟨by simp [Sequential, replayed, attemptAt], by decide +kernel⟩

end Talos.Sdk.Webhook
