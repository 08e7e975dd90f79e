import Talos.Quota.Model
import Mathlib.Data.Finset.Card

/-!
# Admission

The upsert of a call counts it before the limit is checked, so the calls of a window are
numbered in the order of their upserts, and those up to the limit are admitted (`Tally`). The
count stops at the end of its column; by then the limit is reached.

The windows themselves tile the time from the first to the last that start at a valid date.
Elsewhere a date has no window, or one without an end (`last_date_endless`).
-/

namespace Talos.Quota

open Database Soroban

variable {s s' : State} {event : Event} {key : UsageKey} {config : QuotaConfig} {c c' : Nat}
  {call : Call} {l : Locals} {usage : Table UsageKey Int4} {configs : List QuotaConfigRow}

/-! ### The calls of a window -/

/-- The configuration that a call under way has read. -/
def Phase.read : Phase → Option QuotaConfig
  | .called | .returned .. | .threw _ => none
  | .resolved config => some config
  | .counting l => some l.config

/-- What a call that is over has bound. -/
def Phase.settled : Phase → Option Locals
  | .called | .resolved _ | .counting _ => none
  | .returned l _ | .threw l => some l

def Phase.ok : Phase → Bool
  | .called | .resolved _ | .counting _ | .threw _ => false
  | .returned _ result => result.ok

def Call.Concerns (call : Call) (key : UsageKey) : Prop :=
  call.talosId = key.talosId ∧ call.resource = key.resource

/-- The call is over, and its date was in the window of the key. -/
def Call.InWindow (call : Call) (key : UsageKey) : Prop :=
  call.Concerns key ∧ ∃ l ∈ call.phase.settled, l.windowStart = some key.windowStart

def State.Settled (s : State) (key : UsageKey) (c : Nat) : Prop :=
  ∃ call ∈ s.calls c, call.InWindow key

/-- The call has returned `ok`. -/
def State.ok (s : State) (c : Nat) : Bool := (s.calls c).any fun call => call.phase.ok

/-- The window of the key has not been used, and the calls of its agent and resource are over,
in other windows. -/
structure State.Fresh (s : State) (key : UsageKey) : Prop where
  unused : s.usage key = none
  earlier : ∀ c, ∀ call ∈ s.calls c, call.Concerns key →
    ∃ l ∈ call.phase.settled, l.windowStart ≠ some key.windowStart

/-! ### The count -/

def counted (usage : Table UsageKey Int4) (key : UsageKey) : Int :=
  (usage key).elim 0 fun count => count.val

/-- The count goes up by one, or is at the end of its column. -/
theorem upsert_cases (usage : Table UsageKey Int4) (key : UsageKey) :
    (∃ count : Int4, count.val = counted usage key + 1 ∧
        upsert usage key = some (usage.set key count, count)) ∨
      counted usage key = 2147483647 ∧ upsert usage key = none := by
  have bounds : -2147483648 ≤ counted usage key ∧ counted usage key ≤ 2147483647 := by
    unfold counted
    cases usage key with
    | none => decide
    | some count => exact count.property
  have next : nextCount usage key = counted usage key + 1 := by
    unfold nextCount counted
    cases usage key <;> rfl
  unfold upsert
  split
  · exact .inl ⟨_, next, rfl⟩
  · next full =>
      rw [next] at full
      exact .inr ⟨by omega, rfl⟩

theorem counted_set (usage : Table UsageKey Int4) (key : UsageKey) (count : Int4) :
    counted (usage.set key count) key = count.val := by
  rw [counted, Map.set_self]
  rfl

/-- Of the calls of a window, as many as the limit allows have been admitted. -/
structure Tally (limit : Int) (key : UsageKey) (s : State) (calls : Finset Nat) : Prop where
  settled : ∀ c, c ∈ calls ↔ s.Settled key c
  counts : counted s.usage key = min (calls.card : Int) 2147483647
  admits : ((calls.filter fun c => s.ok c).card : Int) = min (calls.card : Int) limit

/-- The calls of the agent and the resource that are under way have read one configuration. -/
structure Admitting (config : QuotaConfig) (key : UsageKey) (s : State) : Prop where
  configured : ∀ c, ∀ call ∈ s.calls c, call.Concerns key → ∀ read ∈ call.phase.read,
    read = config
  tally : ∃ calls, Tally config.maxCount.val key s calls

/-! ### Steps -/

theorem ok_put_of_ne (other : c' ≠ c) : (s.put c call).ok c' = s.ok c' := by
  unfold State.ok
  rw [s.put_of_ne call other]

theorem ok_put_self : (s.put c call).ok c = call.phase.ok := by
  unfold State.ok
  rw [s.put_self]
  rfl

theorem settled_put_of_ne (other : c' ≠ c) :
    (s.put c call).Settled key c' ↔ s.Settled key c' := by
  unfold State.Settled
  rw [s.put_of_ne call other]

theorem settled_put_self : (s.put c call).Settled key c ↔ call.InWindow key := by
  unfold State.Settled
  rw [s.put_self]
  simp only [Option.mem_some_iff, exists_eq_left']

theorem nothing_read (ended : call.phase.read = none) :
    call.Concerns key → ∀ read ∈ call.phase.read, read = config := by
  rintro - read reads
  rw [ended] at reads
  cases reads

theorem configured_put
    (configured : ∀ c, ∀ call ∈ s.calls c, call.Concerns key → ∀ read ∈ call.phase.read,
      read = config)
    (here : call.Concerns key → ∀ read ∈ call.phase.read, read = config) :
    ∀ c', ∀ call' ∈ (s.put c call).calls c', call'.Concerns key →
      ∀ read ∈ call'.phase.read, read = config := by
  intro c' call' found
  rcases Map.set_eq_some.mp found with ⟨-, rfl⟩ | ⟨-, found⟩
  · exact here
  · exact configured c' call' found

/-- A step of a call that is not over in the window. -/
theorem Tally.put {limit : Int} {calls : Finset Nat} (tally : Tally limit key s calls)
    (before : ¬ s.Settled key c) (after : ¬ call.InWindow key) :
    Tally limit key (s.put c call) calls := by
  have others : ∀ c' ∈ calls, c' ≠ c := fun c' mem same =>
    before (same ▸ (tally.settled c').mp mem)
  refine ⟨fun c' => ?_, tally.counts, ?_⟩
  · by_cases same : c' = c
    · subst same
      rw [tally.settled, settled_put_self]
      exact iff_of_false before after
    · rw [settled_put_of_ne same]
      exact tally.settled c'
  · have same : (calls.filter fun c' => (s.put c call).ok c') = calls.filter fun c' => s.ok c' :=
      Finset.filter_congr fun c' mem => by rw [ok_put_of_ne (others c' mem)]
    rw [same]
    exact tally.admits

/-- A call that is over in the window is counted, and admitted if there is room. -/
theorem Tally.insert {limit : Int} {calls : Finset Nat} (tally : Tally limit key s calls)
    (before : ¬ s.Settled key c) (after : call.InWindow key)
    (counts : counted usage key = min ((calls.card : Int) + 1) 2147483647)
    (admits : call.phase.ok = true ↔ (calls.card : Int) < limit) :
    Tally limit key (State.put { s with usage } c call) (insert c calls) := by
  have new : c ∉ calls := fun mem => before ((tally.settled c).mp mem)
  refine ⟨fun c' => ?_, ?_, ?_⟩
  · by_cases same : c' = c
    · subst same
      exact iff_of_true (Finset.mem_insert_self _ _) (settled_put_self.mpr after)
    · rw [Finset.mem_insert, settled_put_of_ne same]
      exact (or_iff_right same).trans (tally.settled c')
  · rw [Finset.card_insert_of_notMem new, Nat.cast_succ]
    exact counts
  · have same : (calls.filter fun c' => (State.put { s with usage } c call).ok c') =
        calls.filter fun c' => s.ok c' :=
      Finset.filter_congr fun c' mem => by
        have other : c' ≠ c := fun same => new (same ▸ mem)
        rw [ok_put_of_ne other]
        rfl
    have earlier := tally.admits
    rw [Finset.filter_insert, ok_put_self, same, Finset.card_insert_of_notMem new, Nat.cast_succ]
    split
    · next admitted =>
        have room := admits.mp admitted
        have notIn : c ∉ calls.filter fun c' => s.ok c' := fun mem =>
          new (Finset.mem_filter.mp mem).1
        rw [Finset.card_insert_of_notMem notIn, Nat.cast_succ]
        omega
    · next refused =>
        have full := mt admits.mpr refused
        omega

theorem Admitting.put (inv : Admitting config key s) (before : ¬ s.Settled key c)
    (after : ¬ call.InWindow key)
    (reads : call.Concerns key → ∀ read ∈ call.phase.read, read = config) :
    Admitting config key (s.put c call) := by
  obtain ⟨calls, tally⟩ := inv.tally
  exact ⟨configured_put inv.configured reads, calls, tally.put before after⟩

/-- Another row of the usage table. -/
theorem Admitting.other_row (inv : Admitting config key s) (same : usage key = s.usage key) :
    Admitting config key { s with usage } := by
  obtain ⟨calls, tally⟩ := inv.tally
  have stays : counted usage key = counted s.usage key := by rw [counted, same, counted]
  exact ⟨inv.configured, calls, tally.settled, stays.trans tally.counts, tally.admits⟩

theorem unsettled_of_phase (found : s.calls c = some call) (going : call.phase.settled = none) :
    ¬ s.Settled key c := by
  rintro ⟨call', found', -, l, settled, -⟩
  rw [found] at found'
  cases found'
  rw [going] at settled
  cases settled

theorem not_inWindow_of_going (going : call.phase.settled = none) : ¬ call.InWindow key := by
  rintro ⟨-, l, settled, -⟩
  rw [going] at settled
  cases settled

/-- The upsert of a call of the window. -/
theorem Admitting.increment_window (inv : Admitting config key s) (found : s.calls c = some call)
    (counting : call.phase = .counting l) (concerns : call.Concerns key)
    (window : l.windowStart = some key.windowStart) :
    Admitting config key (s.increment c call l) := by
  have read : l.config = config :=
    inv.configured c call found concerns l.config (by rw [counting]; rfl)
  have before : ¬ s.Settled key c := unsettled_of_phase found (by rw [counting]; rfl)
  have sameKey : (⟨call.talosId, call.resource, key.windowStart⟩ : UsageKey) = key := by
    rw [concerns.1, concerns.2]
  obtain ⟨calls, tally⟩ := inv.tally
  have counts := tally.counts
  have limit := config.maxCount.property
  unfold State.increment
  rw [window]
  dsimp only
  rw [sameKey]
  rcases upsert_cases s.usage key with ⟨count, value, done⟩ | ⟨full, failed⟩
  · have fits := count.property
    rw [done]
    refine ⟨configured_put inv.configured (nothing_read rfl), _,
      tally.insert before ⟨concerns, l, rfl, window⟩ ?_ ?_⟩
    · rw [counted_set]
      omega
    · change decide (count.val ≤ l.config.maxCount.val) = true ↔ _
      rw [decide_eq_true_eq, read]
      omega
  · rw [failed]
    refine ⟨configured_put inv.configured (nothing_read rfl), _,
      tally.insert before ⟨concerns, l, rfl, window⟩ ?_ ?_⟩
    · omega
    · refine iff_of_false Bool.false_ne_true ?_
      omega

/-- The upsert of another call. -/
theorem Admitting.increment_elsewhere (inv : Admitting config key s)
    (found : s.calls c = some call) (counting : call.phase = .counting l)
    (elsewhere : ¬ (call.Concerns key ∧ l.windowStart = some key.windowStart)) :
    Admitting config key (s.increment c call l) := by
  have before : ¬ s.Settled key c := unsettled_of_phase found (by rw [counting]; rfl)
  have threw : Admitting config key (s.put c { call with phase := .threw l }) := by
    refine inv.put before ?_ (nothing_read rfl)
    rintro ⟨concerns, _, ⟨rfl⟩, window⟩
    exact elsewhere ⟨concerns, window⟩
  unfold State.increment
  split
  · exact threw
  · next windowStart window =>
      split
      · exact threw
      · next usage count done =>
          have other : key ≠ ⟨call.talosId, call.resource, windowStart⟩ := by
            rintro rfl
            exact elsewhere ⟨⟨rfl, rfl⟩, window⟩
          rcases upsert_cases s.usage ⟨call.talosId, call.resource, windowStart⟩ with
            ⟨count', -, stored⟩ | ⟨-, failed⟩
          · rw [stored] at done
            cases done
            refine (inv.other_row (Map.set_of_ne _ _ other)).put before ?_ (nothing_read rfl)
            rintro ⟨concerns, _, ⟨rfl⟩, window⟩
            exact elsewhere ⟨concerns, window⟩
          · rw [failed] at done
            cases done

theorem Admitting.step (inv : Admitting config key s) (enabled : config.enabled = true)
    (ok : step s event = some s')
    (unchanged : resolveQuotaConfig s.configs key.talosId key.resource = config) :
    Admitting config key s' := by
  cases event with
  | configure configs =>
      cases ok
      obtain ⟨calls, tally⟩ := inv.tally
      exact ⟨inv.configured, calls, tally.settled, tally.counts, tally.admits⟩
  | call c talosId resource =>
      simp only [Quota.step] at ok
      split at ok
      · next absent =>
          cases ok
          refine inv.put ?_ (not_inWindow_of_going rfl) (nothing_read rfl)
          rintro ⟨call, found, -⟩
          rw [absent] at found
          cases found
      · cases ok
  | resolve c =>
      simp only [Quota.step] at ok
      split at ok
      · next talosId resource found =>
          cases ok
          refine inv.put (unsettled_of_phase found rfl) (not_inWindow_of_going rfl) ?_
          rintro ⟨rfl, rfl⟩ _ ⟨rfl⟩
          exact unchanged
      · cases ok
  | date c now =>
      simp only [Quota.step] at ok
      split at ok
      · split at ok
        · next talosId resource read found =>
            cases ok
            have same := inv.configured c _ found
            have before : ¬ s.Settled key c := unsettled_of_phase found rfl
            by_cases concerns : talosId = key.talosId ∧ resource = key.resource
            · cases same concerns read rfl
              rw [if_neg (by rw [enabled]; exact Bool.true_eq_false_eq_False)]
              refine inv.put before (not_inWindow_of_going rfl) ?_
              rintro - _ ⟨rfl⟩
              rfl
            · exact inv.put before (fun window => concerns window.1) fun mine =>
                absurd mine concerns
        · cases ok
      · cases ok
  | increment c =>
      simp only [Quota.step] at ok
      split at ok
      · next talosId resource l found =>
          cases ok
          by_cases window : Call.Concerns ⟨talosId, resource, .counting l⟩ key ∧
              l.windowStart = some key.windowStart
          · exact inv.increment_window found rfl window.1 window.2
          · exact inv.increment_elsewhere found rfl window
      · cases ok

/-- No call of the window is over before it starts. -/
theorem State.Fresh.admitting (fresh : s.Fresh key) (nonneg : 0 ≤ config.maxCount.val) :
    Admitting config key s := by
  have none : ∀ c, ¬ s.Settled key c := by
    rintro c ⟨call, found, concerns, l, settled, window⟩
    obtain ⟨l', settled', other⟩ := fresh.earlier c call found concerns
    cases settled.symm.trans settled'
    exact other window
  refine ⟨?_, ∅, fun c => iff_of_false (Finset.notMem_empty c) (none c), ?_, ?_⟩
  · intro c call found concerns read reads
    obtain ⟨l, settled, -⟩ := fresh.earlier c call found concerns
    cases phase : call.phase with
    | called | resolved _ | counting _ =>
        rw [phase] at settled
        cases settled
    | returned _ _ | threw _ =>
        rw [phase] at reads
        cases reads
  · rw [counted, fresh.unused]
    rfl
  · rw [Finset.filter_empty, Finset.card_empty]
    exact (min_eq_left nonneg).symm

/-! ### Runs -/

/-- From a window's first call on, while the configuration stays, the calls of the window are
tallied. -/
theorem Steps.admitting {t : State} {h : List (Transition State Event)} (fresh : s.Fresh key)
    (steps : Steps (quotas configs) s h t)
    (unchanged : ∀ r ∈ h, resolveQuotaConfig r.pre.configs key.talosId key.resource = config)
    (enabled : config.enabled = true) (nonneg : 0 ≤ config.maxCount.val) :
    Admitting config key t :=
  steps.invariant_along unchanged (fresh.admitting nonneg) fun inv ok unchanged =>
    inv.step enabled ok unchanged

/-- The window of a date from the first to the last starts at or before it, ends after it and
is followed by another; and of the calls of a new window the limit, or all of them, return
`ok`, in whatever order their steps are taken. -/
theorem quota_windows :
    (∀ t, -maxTime ≤ t ∧ t ≤ maxTime → ∀ size : WindowSize,
      (∃ start next, floorToWindow t size = some start ∧ start ≤ t ∧ t < next ∧
          IsWindow size start next) ↔
        size.grid.start size.first ≤ t ∧ t < size.grid.start size.last) ∧
    ∀ (configs : List QuotaConfigRow) (s t : State) (h : List (Transition State Event))
      (key : UsageKey) (config : QuotaConfig),
      s.Fresh key → Steps (quotas configs) s h t →
      (∀ r ∈ h, resolveQuotaConfig r.pre.configs key.talosId key.resource = config) →
      config.enabled = true → 0 ≤ config.maxCount.val →
      ∀ calls : Finset Nat, (∀ c, c ∈ calls ↔ t.Settled key c) →
        ((calls.filter fun c => t.ok c).card : Int) =
          min (calls.card : Int) config.maxCount.val := by
  refine ⟨fun t valid size => windows_tile valid size, ?_⟩
  intro configs s t h key config fresh steps unchanged enabled nonneg calls settled
  obtain ⟨tallied, tally⟩ := (Steps.admitting fresh steps unchanged enabled nonneg).tally
  have same : calls = tallied := Finset.ext fun c => (settled c).trans (tally.settled c).symm
  rw [same]
  exact tally.admits

/-- One job write an hour. -/
def hourlyJob : QuotaConfigRow where
  talosId := some "agent"
  resource := .jobWrites
  maxCount := ⟨1, by decide⟩
  windowSize := "hourly"
  enabled := true
  notes := none

def firstHour : UsageKey where
  talosId := "agent"
  resource := .jobWrites
  windowStart := 0

/-- Two calls in an hour, of which the second is the first to be counted. -/
def twoCalls : List Event :=
  [.call 0 "agent" .jobWrites, .call 1 "agent" .jobWrites, .resolve 0, .resolve 1, .date 0 0,
    .date 1 3599999, .increment 1, .increment 0]

theorem quota_windows_two_calls :
    (∃ start next, floorToWindow 0 .monthly = some start ∧ start ≤ 0 ∧ 0 < next ∧
      IsWindow .monthly start next) ∧
    ((({0, 1} : Finset Nat).filter fun c =>
      ((quotas [hourlyJob]).play twoCalls ([], (quotas [hourlyJob]).init)).2.ok c).card : Int) =
        min 2 1 := by
  refine ⟨(quota_windows.1 0 (by decide) .monthly).mpr (by decide), ?_⟩
  refine quota_windows.2 [hourlyJob] _ _ _ firstHour
    (resolveQuotaConfig [hourlyJob] "agent" .jobWrites) ⟨rfl, fun _ _ found => by cases found⟩
    ((quotas [hourlyJob]).play_run twoCalls) ?_ rfl (by decide) {0, 1} ?_
  · iterate 8 refine List.forall_mem_cons.mpr ⟨rfl, ?_⟩
    exact fun _ mem => absurd mem List.not_mem_nil
  · intro c
    match c with
    | 0 => exact iff_of_true (by decide) ⟨_, rfl, ⟨rfl, rfl⟩, _, rfl, rfl⟩
    | 1 => exact iff_of_true (by decide) ⟨_, rfl, ⟨rfl, rfl⟩, _, rfl, rfl⟩
    | n + 2 =>
        refine iff_of_false (by simp) ?_
        rintro ⟨call, found, -⟩
        cases found

/-- The last date has no next hour. -/
theorem last_date_endless :
    ¬ ∀ date, -maxTime ≤ date ∧ date ≤ maxTime → ∀ size : WindowSize,
      ∃ start next, floorToWindow date size = some start ∧
        nextWindowStart start size = some next ∧ start ≤ date ∧ date < next := by
  intro every
  obtain ⟨start, next, floor, following, -⟩ := every maxTime (by decide) .hourly
  have begins : floorToWindow maxTime .hourly = some maxTime := by decide
  have endless : nextWindowStart maxTime .hourly = none := by decide
  rw [begins] at floor
  cases floor
  rw [endless] at following
  cases following

end Talos.Quota
