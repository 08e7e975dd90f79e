import Talos.Purchases.Budget

/-!
# The budget as a cap

While purchases come one after the other, and what is settled is recorded, the payments of a month
that are settled are in the log or are the one in flight (`Tidy.covered`), and the price in flight
was compared with what is left (`Sound`). Then no month is over the budget.
-/

namespace Talos.Purchases

open Encoding Database

variable {config : Config} {s s' : State} {event : Event} {log entries : List Entry} {call : Call}

/-! ### Whole units -/

theorem IsUnits.exists_int {price : ℚ} (units : IsUnits price) :
    ∃ n : ℤ, price = n / 1000000 := by
  have whole : ((price * usdcUnitScale).num : ℚ) = price * usdcUnitScale :=
    (Rat.den_eq_one_iff _).mp units
  have scale : ((usdcUnitScale : ℕ) : ℚ) = 1000000 := by
    rw [usdcUnitScale, usdcDecimals]
    norm_num
  refine ⟨(price * usdcUnitScale).num, ?_⟩
  rw [whole, scale]
  field_simp

theorem total_units (units : ∀ e ∈ entries, IsUnits e.price) :
    ∃ n : ℤ, total entries = n / 1000000 := by
  induction entries with
  | nil => exact ⟨0, by simp [total]⟩
  | cons e rest ih =>
      obtain ⟨m, first⟩ := (units e List.mem_cons_self).exists_int
      obtain ⟨n, others⟩ := ih fun e mem => units e (List.mem_cons_of_mem _ mem)
      refine ⟨m + n, ?_⟩
      rw [total] at others ⊢
      rw [List.map_cons, List.sum_cons, others, first]
      push_cast
      ring

/-- The comparison of floats is right for whole units and budgets up to a hundred million. -/
theorem within_budget {spent recorded price : ℚ} {hundredths : ℕ} {m n : ℤ}
    (small : hundredths ≤ 10 ^ 10) (nonneg : 0 ≤ recorded) (nonneg' : 0 ≤ price)
    (units : recorded = m / 1000000) (units' : price = n / 1000000)
    (near : |spent - recorded| < halfUnit)
    (ok : ¬ toDouble ((hundredths : ℚ) / 100) < toDouble (spent + toDouble price)) :
    recorded + price ≤ hundredths / 100 := by
  by_contra above
  apply ok
  have step : (hundredths : ℚ) / 100 + 1 / 1000000 ≤ recorded + price := by
    rw [units, units'] at above ⊢
    have less : (hundredths : ℤ) * 10000 < m + n := by
      have scaled : ((hundredths : ℚ) * 10000) < m + n := by linarith [not_le.mp above]
      exact_mod_cast scaled
    have next : (hundredths : ℚ) * 10000 + 1 ≤ m + n := by exact_mod_cast less
    linarith
  have bound : (hundredths : ℚ) ≤ 10 ^ 10 := by exact_mod_cast small
  have half : halfUnit = 1 / 2000000 := by
    rw [halfUnit, usdcUnitScale, usdcDecimals]
    norm_num
  rw [half] at near
  have spentNear := abs_lt.mp near
  have priceNear := abs_le.mp (toDouble_error price)
  have budgetNear := abs_le.mp (toDouble_error ((hundredths : ℚ) / 100))
  have posBudget : (0 : ℚ) ≤ (hundredths : ℚ) / 100 := by positivity
  rw [abs_of_nonneg nonneg'] at priceNear
  rw [abs_of_nonneg posBudget] at budgetNear
  have sumPos : 0 ≤ spent + toDouble price := by linarith [spentNear.1, priceNear.1]
  have sumNear := abs_le.mp (toDouble_error (spent + toDouble price))
  rw [abs_of_nonneg sumPos] at sumNear
  linarith [spentNear.1, priceNear.1, budgetNear.2, sumNear.1]

/-! ### Totals -/

theorem total_cons (e : Entry) : total (e :: entries) = e.price + total entries := List.sum_cons

theorem total_filter_mono {p q : Entry → Bool} (nonneg : ∀ e ∈ entries, 0 ≤ e.price)
    (weaker : ∀ e, p e = true → q e = true) :
    total (entries.filter p) ≤ total (entries.filter q) := by
  induction entries with
  | nil => exact le_rfl
  | cons e rest ih =>
      have later := ih fun e mem => nonneg e (List.mem_cons_of_mem _ mem)
      have first := nonneg e List.mem_cons_self
      by_cases inP : p e = true
      · rw [List.filter_cons_of_pos inP, List.filter_cons_of_pos (weaker e inP), total_cons, total_cons]
        linarith
      · rw [List.filter_cons_of_neg inP]
        by_cases inQ : q e = true
        · rw [List.filter_cons_of_pos inQ, total_cons]
          linarith
        · rw [List.filter_cons_of_neg inQ]
          exact later

theorem total_nonneg (nonneg : ∀ e ∈ entries, 0 ≤ e.price) : 0 ≤ total entries :=
  List.sum_nonneg fun _ mem => by
    obtain ⟨e, isEntry, rfl⟩ := List.mem_map.mp mem
    exact nonneg e isEntry

theorem total_since_cons (t : ℕ) (e : Entry) :
    total (since t (e :: entries)) = (if t ≤ e.time then e.price else 0) + total (since t entries) := by
  rw [since, List.filter_cons]
  by_cases late : t ≤ e.time
  · rw [if_pos (decide_eq_true late), if_pos late, total_cons, since]
  · rw [if_neg (by simpa using late), if_neg late, zero_add, since]

/-! ### The invariant -/

/-- What a call owes to the log. -/
def Call.owed (call : Call) (t : ℕ) : ℚ :=
  match call.phase with
  | .submitted price (some settledAt) => if t ≤ settledAt then price else 0
  | .submitted _ none | .quoting _ | .signing _ => 0

/-- The price is within what the log has left of the budget. -/
def Affordable (config : Config) (s : State) (call : Call) (price : ℚ) : Prop :=
  IsUnits price ∧ 0 ≤ price ∧
    total (since (call.startedAt - month) s.log) + price ≤ config.gtmBudget.hundredths / 100

/-- The call in flight has read the log as it is. -/
structure Sound (config : Config) (s : State) (call : Call) : Prop where
  started : call.startedAt ≤ s.clock
  phase : match call.phase with
    | .quoting spentMonth =>
        |spentMonth - total (since (call.startedAt - month) s.log)| < halfUnit
    | .signing price => Affordable config s call price
    | .submitted price settledAt => Affordable config s call price ∧ ∀ t ∈ settledAt, t ≤ s.clock

structure Tidy (config : Config) (s : State) : Prop where
  single : s.calls = [] ∨ ∃ call, s.calls = [call]
  sound : ∀ call ∈ s.calls, Sound config s call
  covered : ∀ t, total (since t s.settled) ≤
    total (since t s.log) + (s.calls.map fun call => call.owed t).sum
  units : ∀ e ∈ s.log, IsUnits e.price
  nonneg : ∀ e ∈ s.log, 0 ≤ e.price
  nonneg' : ∀ e ∈ s.settled, 0 ≤ e.price
  capped : Capped config s

theorem Tidy.found (tidy : Tidy config s) {c : ℕ} (found : s.call c = some call) :
    s.calls = [call] ∧ call.id = c := by
  unfold State.call at found
  have hit := List.find?_some found
  have own : call.id = c := of_decide_eq_true hit
  have mem : call ∈ s.calls := List.mem_of_find?_eq_some found
  rcases tidy.single with none_ | ⟨only, single⟩
  · rw [none_] at mem
    cases mem
  · rw [single] at mem ⊢
    cases List.mem_singleton.mp mem
    exact ⟨rfl, own⟩

theorem Tidy.others (tidy : Tidy config s) {c : ℕ} (found : s.call c = some call) :
    (s.calls.filter fun other => other.id ≠ c) = [] := by
  obtain ⟨single, own⟩ := tidy.found found
  rw [single]
  simp [own]

theorem Tidy.here (tidy : Tidy config s) {c : ℕ} (found : s.call c = some call) :
    Sound config s call :=
  tidy.sound call (List.mem_of_find?_eq_some found)

/-- What was settled in the months that reach the present is in the log, but for what is owed. -/
theorem Tidy.settled_le (tidy : Tidy config s) (t : ℕ) :
    total (monthFrom t s.settled) ≤
      total (since t s.log) + (s.calls.map fun call => call.owed t).sum := by
  refine le_trans ?_ (tidy.covered t)
  refine total_filter_mono tidy.nonneg' fun e within => ?_
  exact decide_eq_true (of_decide_eq_true within).1

/-- A state with the same log and settlements is tidy if its only call is. -/
theorem Tidy.replace (tidy : Tidy config s) {calls : List Call} {late : List ℚ} {clock : ℕ}
    (single : calls = [] ∨ ∃ call, calls = [call])
    (sound : ∀ call ∈ calls, Sound config ⟨clock, s.log, calls, late, s.settled⟩ call)
    (owed : ∀ t, (s.calls.map fun call => call.owed t).sum ≤
      (calls.map fun call => call.owed t).sum) :
    Tidy config ⟨clock, s.log, calls, late, s.settled⟩ where
  single := single
  sound := sound
  covered t := (tidy.covered t).trans (add_le_add_right (owed t) _)
  units := tidy.units
  nonneg := tidy.nonneg
  nonneg' := tidy.nonneg'
  capped := tidy.capped

/-- A call that owes nothing goes. -/
theorem Tidy.without (tidy : Tidy config s) {c : ℕ} (found : s.call c = some call)
    (nothing : ∀ t, call.owed t = 0) (late : List ℚ) :
    Tidy config { s.remove c with late := late } := by
  obtain ⟨single, -⟩ := tidy.found found
  have empty : (s.remove c).calls = [] := tidy.others found
  refine tidy.replace (.inl empty) ?_ ?_
  · intro other mem
    rw [empty] at mem
    cases mem
  · intro t
    rw [empty, single]
    simp [nothing t]

/-- A call that owes nothing goes on. -/
theorem Tidy.next (tidy : Tidy config s) {c : ℕ} {next : Call} (found : s.call c = some call)
    (nothing : ∀ t, call.owed t = 0) (own : next.id = c) (sound : Sound config (s.put next) next)
    (nothing' : ∀ t, next.owed t = 0) : Tidy config (s.put next) := by
  obtain ⟨single, -⟩ := tidy.found found
  have only : (s.put next).calls = [next] := by
    change next :: s.calls.filter (fun other => other.id ≠ next.id) = [next]
    rw [own, tidy.others found]
  refine tidy.replace (.inr ⟨next, only⟩) ?_ ?_
  · intro other mem
    change other ∈ (s.put next).calls at mem
    rw [only] at mem
    cases List.mem_singleton.mp mem
    exact sound
  · intro t
    change _ ≤ ((s.put next).calls.map fun call => call.owed t).sum
    rw [only, single]
    simp [nothing t, nothing' t]

/-! ### Steps -/

theorem Tidy.tick (tidy : Tidy config s) (seconds : ℕ) :
    Tidy config { s with clock := s.clock + seconds } := by
  refine tidy.replace tidy.single (fun call mem => ?_) fun t => le_rfl
  obtain ⟨started, phase⟩ := tidy.sound call mem
  refine ⟨started.trans (Nat.le_add_right _ _), ?_⟩
  cases isPhase : call.phase with
  | quoting | signing =>
      rw [isPhase] at phase
      exact phase
  | submitted price settledAt =>
      rw [isPhase] at phase
      exact ⟨phase.1, fun t settled => (phase.2 t settled).trans (Nat.le_add_right _ _)⟩

theorem Tidy.start (tidy : Tidy config s) (c : ℕ) (careful : Careful config s (.start c)) :
    Tidy config (s.put ⟨c, s.clock, .quoting (s.spendingPeriod config)⟩) := by
  obtain ⟨none_, near⟩ := careful
  have only : (s.put ⟨c, s.clock, .quoting (s.spendingPeriod config)⟩).calls =
      [⟨c, s.clock, .quoting (s.spendingPeriod config)⟩] := by
    simp [State.put, none_]
  refine tidy.replace (.inr ⟨_, only⟩) ?_ ?_
  · intro call mem
    change call ∈ (s.put ⟨c, s.clock, .quoting (s.spendingPeriod config)⟩).calls at mem
    rw [only] at mem
    cases List.mem_singleton.mp mem
    exact ⟨le_rfl, near⟩
  · intro t
    change _ ≤ ((s.put ⟨c, s.clock, .quoting (s.spendingPeriod config)⟩).calls.map
      fun call => call.owed t).sum
    rw [only, none_]
    simp [Call.owed]

/-- The comparison with the budget is made with the log as it is. -/
theorem Tidy.affordable (tidy : Tidy config s)
    (small : config.gtmBudget.hundredths ≤ 10 ^ 10) {startedAt : ℕ} {spentMonth : ℚ} {units : ℕ}
    {response : ServiceResponse} (whole : IsUnits response.effective.exact)
    (near : |spentMonth - total (since (startedAt - month) s.log)| < halfUnit)
    (ok : quotedUnits (config.budget spentMonth) response = .ok units) :
    IsUnits response.effective.exact ∧ 0 ≤ response.effective.exact ∧
      total (since (startedAt - month) s.log) + response.effective.exact ≤
        config.gtmBudget.hundredths / 100 := by
  have nonneg : ∀ e ∈ since (startedAt - month) s.log, 0 ≤ e.price :=
    fun e mem => tidy.nonneg e (List.mem_of_mem_filter mem)
  have units : ∀ e ∈ since (startedAt - month) s.log, IsUnits e.price :=
    fun e mem => tidy.units e (List.mem_of_mem_filter mem)
  obtain ⟨m, recorded⟩ := total_units units
  obtain ⟨n, price⟩ := whole.exists_int
  exact ⟨whole, Price.exact_nonneg _, within_budget small (total_nonneg nonneg)
    (Price.exact_nonneg _) recorded price near (quotedUnits_eq_ok ok).1⟩

/-- A payment in flight is settled: it is owed to the log, and within the budget. -/
theorem Tidy.settle (tidy : Tidy config s) {c startedAt : ℕ} {price : ℚ}
    (found : s.call c = some ⟨c, startedAt, .submitted price none⟩) :
    Tidy config
      { s.put ⟨c, startedAt, .submitted price (some s.clock)⟩ with
        settled := ⟨s.clock, price⟩ :: s.settled } := by
  obtain ⟨single, -⟩ := tidy.found found
  obtain ⟨started, affordable, -⟩ := tidy.here found
  have only : (s.put ⟨c, startedAt, .submitted price (some s.clock)⟩).calls =
      [⟨c, startedAt, .submitted price (some s.clock)⟩] :=
    congrArg (List.cons _) (tidy.others found)
  have owes : ∀ t, ((s.put ⟨c, startedAt, .submitted price (some s.clock)⟩).calls.map
      fun call => call.owed t).sum = if t ≤ s.clock then price else 0 := by
    intro t
    rw [only]
    simp [Call.owed]
  have before : ∀ t, (s.calls.map fun call => call.owed t).sum = 0 := by
    intro t
    rw [single]
    simp [Call.owed]
  refine ⟨.inr ⟨_, only⟩, ?_, ?_, tidy.units, tidy.nonneg, ?_, ?_⟩
  · intro call mem
    change call ∈ (s.put ⟨c, startedAt, .submitted price (some s.clock)⟩).calls at mem
    rw [only] at mem
    cases List.mem_singleton.mp mem
    refine ⟨started, affordable, fun t settled => ?_⟩
    cases settled
    exact le_rfl
  · intro t
    change total (since t (⟨s.clock, price⟩ :: s.settled)) ≤ total (since t s.log) +
      ((s.put ⟨c, startedAt, .submitted price (some s.clock)⟩).calls.map
        fun call => call.owed t).sum
    have covered := tidy.covered t
    rw [before] at covered
    rw [total_since_cons, owes]
    linarith
  · intro e mem
    rcases List.mem_cons.mp mem with rfl | old
    · exact affordable.2.1
    · exact tidy.nonneg' e old
  · intro t
    change total (monthFrom t (⟨s.clock, price⟩ :: s.settled)) ≤ _
    unfold monthFrom
    rw [List.filter_cons]
    split
    · next inside =>
        obtain ⟨-, recent⟩ := of_decide_eq_true inside
        have settled := tidy.settled_le t
        rw [before] at settled
        have window : total (since t s.log) ≤ total (since (startedAt - month) s.log) := by
          refine total_filter_mono tidy.nonneg fun e late => ?_
          have reached : t ≤ e.time := of_decide_eq_true late
          exact decide_eq_true (by dsimp only at started recent; omega)
        have within := affordable.2.2
        rw [total_cons]
        unfold monthFrom at settled
        linarith
    · exact tidy.capped t

/-- A successful answer: what was owed is recorded. -/
theorem Tidy.record (tidy : Tidy config s) {c startedAt : ℕ} {price : ℚ} {settledAt : Option ℕ}
    (found : s.call c = some ⟨c, startedAt, .submitted price settledAt⟩) (late : List ℚ) :
    Tidy config
      { s.remove c with late := late, log := ⟨s.clock, price⟩ :: s.log } := by
  obtain ⟨single, -⟩ := tidy.found found
  obtain ⟨-, affordable, past⟩ := tidy.here found
  have empty : (s.remove c).calls = [] := tidy.others found
  have owes : ∀ t, (s.calls.map fun call => call.owed t).sum ≤
      if t ≤ s.clock then price else 0 := by
    intro t
    rw [single, List.map_singleton, List.sum_singleton]
    cases settledAt with
    | none =>
        change 0 ≤ _
        split
        · exact affordable.2.1
        · exact le_rfl
    | some at_ =>
        change (if t ≤ at_ then price else 0) ≤ _
        have before := past at_ rfl
        by_cases reached : t ≤ at_
        · rw [if_pos reached, if_pos (reached.trans before)]
        · rw [if_neg reached]
          split
          · exact affordable.2.1
          · exact le_rfl
  refine ⟨.inl empty, ?_, ?_, ?_, ?_, tidy.nonneg', tidy.capped⟩
  · intro call mem
    change call ∈ (s.remove c).calls at mem
    rw [empty] at mem
    cases mem
  · intro t
    change total (since t s.settled) ≤ total (since t (⟨s.clock, price⟩ :: s.log)) +
      ((s.remove c).calls.map fun call => call.owed t).sum
    rw [empty, total_since_cons, List.map_nil, List.sum_nil]
    linarith [tidy.covered t, owes t]
  · intro e mem
    rcases List.mem_cons.mp mem with rfl | old
    · exact affordable.1
    · exact tidy.units e old
  · intro e mem
    rcases List.mem_cons.mp mem with rfl | old
    · exact affordable.2.1
    · exact tidy.nonneg e old

theorem owed_eq_zero (unsettled : call.phase.settledAt = none) (t : ℕ) : call.owed t = 0 := by
  unfold Call.owed
  cases phase : call.phase with
  | quoting | signing => rfl
  | submitted price settledAt =>
      rw [phase] at unsettled
      cases unsettled
      rfl

theorem Tidy.step (tidy : Tidy config s) (small : config.gtmBudget.hundredths ≤ 10 ^ 10)
    (ok : step config s event = some s') (careful : Careful config s event) : Tidy config s' := by
  cases event with
  | tick seconds =>
      cases ok
      exact tidy.tick seconds
  | start c =>
      simp only [Purchases.step] at ok
      split at ok
      · cases ok
      · split at ok <;> cases ok
        · exact tidy
        · exact tidy.start c careful
  | respond c response =>
      simp only [Purchases.step] at ok
      split at ok
      · next id startedAt spentMonth found =>
          obtain ⟨-, rfl⟩ := tidy.found found
          have nothing : ∀ t, Call.owed ⟨id, startedAt, .quoting spentMonth⟩ t = 0 :=
            owed_eq_zero rfl
          obtain ⟨started, near⟩ := tidy.here found
          split at ok <;> cases ok
          · exact tidy.without found nothing s.late
          · next units accepted =>
              exact tidy.next found nothing rfl
                ⟨started, tidy.affordable small careful near accepted⟩ (fun t => owed_eq_zero rfl t)
      · cases ok
  | sign c =>
      simp only [Purchases.step] at ok
      split at ok
      · next id startedAt price found =>
          cases ok
          obtain ⟨-, rfl⟩ := tidy.found found
          obtain ⟨started, affordable⟩ := tidy.here found
          exact tidy.next found (fun t => owed_eq_zero rfl t) rfl
            ⟨started, affordable, fun t settled => nomatch settled⟩ (fun t => owed_eq_zero rfl t)
      · cases ok
  | settle c =>
      simp only [Purchases.step] at ok
      split at ok
      · next id startedAt price found =>
          cases ok
          obtain ⟨-, rfl⟩ := tidy.found found
          exact tidy.settle found
      · cases ok
  | settleLate price => exact careful.elim
  | answer c accepted =>
      simp only [Purchases.step] at ok
      split at ok
      · next id startedAt price settledAt found =>
          obtain ⟨-, rfl⟩ := tidy.found found
          cases accepted with
          | true =>
              cases ok
              exact tidy.record found _
          | false =>
              cases ok
              exact tidy.without found (owed_eq_zero (careful _ found)) _
      · cases ok
  | drop c =>
      simp only [Purchases.step, Option.map_eq_some_iff] at ok
      obtain ⟨call, found, rfl⟩ := ok
      obtain ⟨-, rfl⟩ := tidy.found found
      exact tidy.without found (owed_eq_zero (careful _ found)) _

theorem tidy_init (config : Config) : Tidy config (machine config).init where
  single := .inl rfl
  sound _ mem := nomatch mem
  covered t := by
    change (0 : ℚ) ≤ 0 + 0
    norm_num
  units _ mem := nomatch mem
  nonneg _ mem := nomatch mem
  nonneg' _ mem := nomatch mem
  capped t := by
    change (0 : ℚ) ≤ _
    positivity

/-- In every run of careful steps with a budget up to a hundred million, at most the budget is
settled in thirty days. -/
theorem capped_of_careful (small : config.gtmBudget.hundredths ≤ 10 ^ 10)
    {h : List (Transition State Event)} (run : Run (machine config) h s)
    (careful : ∀ r ∈ h, Careful config r.pre r.event) : Capped config s :=
  (run.invariant_along (C := fun r => Careful config r.pre r.event) careful (tidy_init config)
    fun tidy ok careful => tidy.step small ok careful).capped

/-! ### Two purchases at once -/

def exampleConfig : Config where
  gtmBudget := tenDollars
  approvalThreshold := 10
  sum := List.sum

def quote (price : ℕ) : ServiceResponse where
  statusCode := 402
  price := .int price
  payee := "G-PAYEE"
  quoteAmount := none
  expiryError := none

def played (events : List Event) : List (Transition State Event) × State :=
  (machine exampleConfig).play events ([], (machine exampleConfig).init)

def oneByOne : List Event :=
  [.start 1, .respond 1 (quote 6), .sign 1, .settle 1, .answer 1 true, .start 2, .respond 2 (quote 6),
    .start 3, .respond 3 (quote 4), .sign 3, .settle 3, .answer 3 true]

theorem capped_of_careful_oneByOne :
    (played oneByOne).2.settled.length = 2 ∧ Capped exampleConfig (played oneByOne).2 :=
  ⟨by decide +kernel,
    capped_of_careful (by decide) (Machine.play_run _ _) (by decide +kernel)⟩

def atOnce : List Event :=
  [.start 1, .start 2, .respond 1 (quote 6), .respond 2 (quote 6), .sign 1, .sign 2, .settle 1,
    .settle 2, .answer 1 true, .answer 2 true]

/-- Of a budget of 10, two purchases of 6 are settled: the second read the log before the first
was recorded. -/
theorem over_budget :
    Reachable (machine exampleConfig) (played atOnce).2 ∧
      ¬ Capped exampleConfig (played atOnce).2 := by
  refine ⟨⟨_, Machine.play_run _ _⟩, fun capped => ?_⟩
  have twelve : total (monthFrom 0 (played atOnce).2.settled) = 12 := by decide +kernel
  have ten := capped 0
  rw [twelve] at ten
  exact absurd ten (by decide +kernel)

end Talos.Purchases
