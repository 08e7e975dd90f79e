import Talos.Revenue.Distribute
import Mathlib.Tactic.FieldSimp
import Mathlib.Tactic.Ring

/-!
# Revenue that is shared once

The payouts of one call come to at most the investors' share of the revenue that it reads,
and each patron is in them once. What was paid is not subtracted from the revenue, and a
distribution is recorded after it is paid; so this is a bound for a Talos only while all
transfers are those of one call (`Alone`).
-/

namespace Talos.Revenue.Distribute

open Database Soroban

variable {treasury : Treasury} {operator : Operator} {s s' : State} {event : Event}

/-- A transfer is applied when all transfers so far are of its call. -/
def Alone (s : State) : Event → Prop
  | .transfer _ (.rejected _) => True
  | .transfer id _ => ∀ t ∈ s.sent, t.call = id
  | _ => True

instance (s : State) : DecidablePred (Alone s)
  | .transfer _ (.rejected _) => inferInstanceAs (Decidable True)
  | .transfer id (.applied _) | .transfer id (.lost _) =>
      inferInstanceAs (Decidable (∀ t ∈ s.sent, t.call = id))
  | .recordRevenue _ | .post .. | .lookUp _ | .readRevenue _ | .record .. | .recordFailure ..
  | .crash _ => inferInstanceAs (Decidable True)

/-! ### The payouts -/

theorem payout_le (patron : Patron) {d : ℚ} (total : Nat) :
    (patron.payout d total).amount ≤ d * (patron.pulseAmount / total) := by
  rw [Patron.payout, div_le_iff₀ (by norm_num)]
  exact Int.floor_le _

/-- Parts of an amount in proportion to what the patrons hold. -/
theorem payoutsOf_sum_le (patrons : List Patron) {d : ℚ} (nonneg : 0 ≤ d) (total : Nat) :
    ((payoutsOf patrons d total).map Payout.amount).sum ≤ d * (totalPulse patrons / total) := by
  induction patrons with
  | nil => simp [payoutsOf, totalPulse]
  | cons patron rest ih =>
      have held : ((totalPulse (patron :: rest) : Nat) : ℚ) =
          patron.pulseAmount + totalPulse rest := by
        rw [totalPulse, List.map_cons, List.sum_cons, Nat.cast_add]
        rfl
      have split : d * ((totalPulse (patron :: rest) : Nat) / total) =
          d * (patron.pulseAmount / total) + d * (totalPulse rest / total) := by
        rw [held, add_div, mul_add]
      have part : 0 ≤ d * ((patron.pulseAmount : ℚ) / total) := by positivity
      rw [split, payoutsOf, List.map_cons, List.filter_cons]
      split_ifs
      · rw [List.map_cons, List.sum_cons]
        exact add_le_add (payout_le patron total) ih
      · exact ih.trans (le_add_of_nonneg_left part)

theorem payouts_sum_le {totalRevenue : ℚ} (pos : 0 ≤ totalRevenue) :
    ((treasury.payouts totalRevenue).map Payout.amount).sum ≤
      totalRevenue * treasury.share / 100 := by
  have share : 0 ≤ treasury.share := Nat.cast_nonneg _
  have nonneg : 0 ≤ treasury.distributableAmount totalRevenue :=
    div_nonneg (mul_nonneg pos share) (by norm_num)
  refine (payoutsOf_sum_le treasury.activePatrons nonneg _).trans ?_
  refine (mul_le_of_le_one_right nonneg ?_).trans_eq rfl
  exact div_self_le_one _

theorem payouts_nodup (treasury : Treasury) (totalRevenue : ℚ) :
    ((treasury.payouts totalRevenue).map Payout.patron).Nodup := by
  have active : (treasury.activePatrons.map Patron.stellarPublicKey).Nodup :=
    treasury.unique.sublist (List.filter_sublist.map _)
  refine active.sublist ?_
  refine (List.filter_sublist.map _).trans ?_
  rw [List.map_map]
  exact List.Sublist.refl _

/-! ### What a call has paid and owes -/

/-- What a call has still to pay. -/
def Phase.owed : Phase → List Payout
  | .transferring _ remaining _ _ => remaining
  | _ => []

/-- The phases of a call before its transfers. -/
def Phase.Early : Phase → Prop
  | .lookingUp | .readingRevenue => True
  | _ => False

def owedBy (call : Option (Call × Phase)) : List Payout := call.elim [] fun c => c.2.owed

/-- The transfers of a call. -/
def State.paid (s : State) (id : CallId) : List Sent := s.sent.filter fun t => t.call = id

/-- What a call has paid and owes comes to no more than the share of the revenue, and each
patron is in it once. -/
structure Budget (limit : ℚ) (paid : List Sent) (owed : List Payout) : Prop where
  nonneg : ∀ p ∈ owed, 0 ≤ p.amount
  within : (paid.map Sent.amount).sum + (owed.map Payout.amount).sum ≤ limit
  once : (paid.map Sent.patron ++ owed.map Payout.patron).Nodup

namespace Budget

variable {limit : ℚ} {paid : List Sent} {owed : List Payout} {p : Payout}

theorem raise (budget : Budget limit paid owed) {limit' : ℚ} (le : limit ≤ limit') :
    Budget limit' paid owed :=
  ⟨budget.nonneg, budget.within.trans le, budget.once⟩

theorem drop (budget : Budget limit paid (p :: owed)) : Budget limit paid owed where
  nonneg := fun q mem => budget.nonneg q (List.mem_cons_of_mem _ mem)
  within := by
    have within := budget.within
    rw [List.map_cons, List.sum_cons] at within
    have pos := budget.nonneg p List.mem_cons_self
    exact (add_le_add_right (le_add_of_nonneg_left pos) _).trans within
  once := budget.once.sublist ((List.sublist_cons_self _ _).append_left _)

theorem pay (budget : Budget limit paid (p :: owed)) (id : CallId)
    (distributionId : DistributionId) :
    Budget limit (⟨id, distributionId, p.patron, p.amount⟩ :: paid) owed where
  nonneg := fun q mem => budget.nonneg q (List.mem_cons_of_mem _ mem)
  within := by
    have within := budget.within
    rw [List.map_cons, List.sum_cons, ← add_assoc, add_comm _ p.amount] at within
    rw [List.map_cons, List.sum_cons]
    exact within
  once := List.perm_middle.nodup_iff.mp budget.once

theorem clear (budget : Budget limit paid owed) : Budget limit paid [] := by
  induction owed with
  | nil => exact budget
  | cons p rest ih => exact ih budget.drop

end Budget

/-- The limit of what is sent. -/
def Treasury.limit (treasury : Treasury) (s : State) : ℚ := s.peak * treasury.share / 100

theorem budget_payouts {totalRevenue : ℚ} (pos : 0 ≤ totalRevenue) {limit : ℚ}
    (le : totalRevenue * treasury.share / 100 ≤ limit) :
    Budget limit [] (treasury.payouts totalRevenue) where
  nonneg := by
    intro p mem
    have least := of_decide_eq_true (List.mem_filter.mp mem).2
    exact le_trans (by norm_num) least
  within := by
    rw [List.map_nil, List.sum_nil, zero_add]
    exact (payouts_sum_le pos).trans le
  once := payouts_nodup treasury totalRevenue

/-- Each call keeps its budget, pays nothing before its transfers, and no call comes before it
is posted. -/
structure Shared (treasury : Treasury) (s : State) : Prop where
  peak_nonneg : 0 ≤ s.peak
  revenue : s.revenues.sum ≤ s.peak
  budget : ∀ id, Budget (treasury.limit s) (s.paid id) (owedBy (s.calls id))
  early : ∀ {id call}, s.calls id = some call → call.2.Early → s.paid id = []
  posted : ∀ {id}, s.started ≤ id → s.calls id = none ∧ s.paid id = []

/-! ### Steps -/

/-- A step of a call that sends some transfers and changes what it owes. -/
structure Moves (s s' : State) (id : CallId) (sends : List Sent) (owed : List Payout) : Prop where
  calls : ∃ call, s'.calls = Function.update s.calls id call ∧ owedBy call = owed ∧
    ∀ c ∈ call, c.2.Early → sends = [] ∧ ∃ c' ∈ s.calls id, c'.2.Early
  sent : s'.sent = sends ++ s.sent
  own : ∀ t ∈ sends, t.call = id
  peak : s'.peak = s.peak
  revenues : s'.revenues = s.revenues
  started : s'.started = s.started

theorem Moves.paid {id : CallId} {sends : List Sent} {owed : List Payout}
    (moves : Moves s s' id sends owed) (id' : CallId) :
    s'.paid id' = if id' = id then sends ++ s.paid id' else s.paid id' := by
  rw [State.paid, State.paid, moves.sent, List.filter_append]
  split
  · next same =>
      subst same
      rw [List.filter_eq_self.mpr fun t mem => decide_eq_true (moves.own t mem)]
  · next other =>
      have none : sends.filter (fun t => t.call = id') = [] := by
        rw [List.filter_eq_nil_iff]
        intro t mem hit
        exact other ((of_decide_eq_true hit).symm.trans (moves.own t mem))
      rw [none, List.nil_append]

theorem Shared.moves (shared : Shared treasury s) {id : CallId} {sends : List Sent}
    {owed : List Payout} {c : Call × Phase} (here : s.calls id = some c)
    (moves : Moves s s' id sends owed)
    (budget : Budget (treasury.limit s) (sends ++ s.paid id) owed) : Shared treasury s' := by
  obtain ⟨call, calls, owes, early⟩ := moves.calls
  have limit : treasury.limit s' = treasury.limit s := by
    rw [Treasury.limit, moves.peak, Treasury.limit]
  refine ⟨moves.peak ▸ shared.peak_nonneg, ?_, fun id' => ?_, ?_, ?_⟩
  · rw [moves.revenues, moves.peak]
    exact shared.revenue
  · rw [limit, moves.paid, calls]
    by_cases same : id' = id
    · subst same
      rw [if_pos rfl, Function.update_self, owes]
      exact budget
    · rw [if_neg same, Function.update_of_ne same]
      exact shared.budget id'
  · intro id' c' found isEarly
    rw [calls] at found
    rw [moves.paid]
    by_cases same : id' = id
    · subst same
      rw [Function.update_self] at found
      obtain ⟨none, c'', before, wasEarly⟩ := early c' found isEarly
      rw [if_pos rfl, none, shared.early before wasEarly]
      rfl
    · rw [Function.update_of_ne same] at found
      rw [if_neg same]
      exact shared.early found isEarly
  · intro id' le
    rw [moves.started] at le
    obtain ⟨absent, unpaid⟩ := shared.posted le
    have other : id' ≠ id := by
      rintro rfl
      cases absent.symm.trans here
    rw [moves.paid, if_neg other, calls, Function.update_of_ne other]
    exact ⟨absent, unpaid⟩

/-- What a step writes before its call moves on. -/
structure Sends (s written : State) (id : CallId) (sends : List Sent) : Prop where
  calls : written.calls = s.calls
  sent : written.sent = sends ++ s.sent
  own : ∀ t ∈ sends, t.call = id
  peak : written.peak = s.peak
  revenues : written.revenues = s.revenues
  started : written.started = s.started

section

variable {id : CallId} {call : Call} {total : ℚ} {transfers : List Transfer}
  {errors : List Failure} {sends : List Sent} {written : State}

theorem sends_none {dividends : Table DistributionId DividendRow} :
    Sends s { s with dividends := dividends } id [] :=
  ⟨rfl, rfl, fun _ mem => (nomatch mem), rfl, rfl, rfl⟩

theorem sends_one {payout : Payout} :
    Sends s (s.send id call payout) id
      [⟨id, call.distributionId, payout.patron, payout.amount⟩] := by
  refine ⟨rfl, rfl, fun t mem => ?_, rfl, rfl, rfl⟩
  rw [List.mem_singleton.mp mem]

theorem Sends.goto (writes : Sends s written id sends) {phase : Phase}
    (early : phase.Early → sends = [] ∧ ∃ c ∈ s.calls id, c.2.Early) :
    Moves s (written.goto id call phase) id sends phase.owed where
  calls := by
    refine ⟨some (call, phase), congrArg (Function.update · id _) writes.calls, rfl, ?_⟩
    intro c same isEarly
    cases same
    exact early isEarly
  sent := writes.sent
  own := writes.own
  peak := writes.peak
  revenues := writes.revenues
  started := writes.started

theorem Sends.stop (writes : Sends s written id sends) : Moves s (written.stop id) id sends [] where
  calls := ⟨none, congrArg (Function.update · id _) writes.calls, rfl, fun _ same => nomatch same⟩
  sent := writes.sent
  own := writes.own
  peak := writes.peak
  revenues := writes.revenues
  started := writes.started

theorem Sends.respond (writes : Sends s written id sends) {response : Response} :
    Moves s (written.respond id response) id sends [] where
  calls := writes.stop.calls
  sent := writes.sent
  own := writes.own
  peak := writes.peak
  revenues := writes.revenues
  started := writes.started

theorem Sends.transferNext (writes : Sends s written id sends) (remaining : List Payout) :
    Moves s (written.transferNext id call total remaining transfers errors) id sends
      remaining := by
  unfold State.transferNext
  split
  · unfold State.afterTransfers
    split
    · exact writes.goto nofun
    · split
      · exact writes.goto nofun
      · exact writes.respond
  · exact writes.goto nofun

end

theorem Shared.clear (shared : Shared treasury s) {id : CallId} {c : Call × Phase}
    (here : s.calls id = some c) (moves : Moves s s' id [] []) : Shared treasury s' :=
  shared.moves here moves (shared.budget id).clear

theorem Shared.lookUp (shared : Shared treasury s) {id : CallId} {call : Call}
    (here : s.calls id = some (call, .lookingUp)) :
    Shared treasury (s.lookUp treasury operator id call) := by
  unfold State.lookUp
  split
  · exact shared.clear here sends_none.respond
  · split
    · exact shared.clear here sends_none.respond
    · exact shared.clear here (sends_none.goto fun _ => ⟨rfl, _, here, trivial⟩)

theorem Shared.readRevenue (shared : Shared treasury s) {id : CallId} {call : Call}
    (here : s.calls id = some (call, .readingRevenue)) :
    Shared treasury (s.readRevenue treasury operator id call) := by
  unfold State.readRevenue
  dsimp only
  split
  · exact shared.clear here sends_none.respond
  · next some =>
      split
      · exact shared.clear here sends_none.respond
      · split
        · exact shared.clear here sends_none.respond
        · split
          · exact shared.clear here sends_none.respond
          · refine shared.moves here (sends_none.transferNext _) ?_
            rw [List.nil_append, shared.early here trivial]
            refine budget_payouts (not_le.mp some).le ?_
            have share : 0 ≤ treasury.share := Nat.cast_nonneg _
            rw [Treasury.limit]
            gcongr
            exact shared.revenue

theorem Shared.record (shared : Shared treasury s) {id : CallId} {call : Call} {phase : Phase}
    (here : s.calls id = some (call, phase)) (totalRevenue : ℚ) (transfers : List Transfer)
    (errors : List Failure) (error : Option String) :
    Shared treasury (s.record treasury id call totalRevenue transfers errors error) := by
  unfold State.record
  split
  · exact shared.clear here sends_none.respond
  · exact shared.clear here (sends_none.goto nofun)
  · exact shared.clear here (sends_none.goto nofun)

theorem Shared.recordFailure (shared : Shared treasury s) {id : CallId} {call : Call}
    {phase : Phase} (here : s.calls id = some (call, phase)) (totalRevenue : ℚ)
    (transfers : List Transfer) (errors : List Failure) (lastError : String)
    (error : Option String) :
    Shared treasury
      (s.recordFailure treasury id call totalRevenue transfers errors lastError error) := by
  unfold State.recordFailure
  dsimp only
  split
  · exact shared.clear here sends_none.respond
  · exact shared.clear here sends_none.respond
  · exact shared.clear here sends_none.respond

theorem Shared.advance (shared : Shared treasury s) {id : CallId} {call : Call} {phase : Phase}
    (here : s.calls id = some (call, phase))
    (taken : advance treasury operator s id call phase event = some s') : Shared treasury s' := by
  unfold Distribute.advance at taken
  split at taken
  · cases taken
    exact shared.lookUp here
  · cases taken
    exact shared.readRevenue here
  · next totalRevenue payout rest transfers errors _ outcome =>
      have budget : Budget (treasury.limit s) (s.paid id) (payout :: rest) := by
        have budget := shared.budget id
        rw [here] at budget
        exact budget
      cases outcome with
      | applied txHash =>
          cases taken
          exact shared.moves here (sends_one.transferNext rest) (budget.pay id _)
      | lost error =>
          cases taken
          exact shared.moves here (sends_one.transferNext rest) (budget.pay id _)
      | rejected error =>
          cases taken
          exact shared.moves here (sends_none.transferNext rest) budget.drop
  · cases taken
    exact shared.record here _ _ _ _
  · cases taken
    exact shared.recordFailure here _ _ _ _ _
  · cases taken
    exact shared.clear here sends_none.stop
  · cases taken

theorem Shared.recordRevenue (shared : Shared treasury s) (amount : ℚ) :
    Shared treasury (s.recordRevenue amount) where
  peak_nonneg := le_max_of_le_left shared.peak_nonneg
  revenue := le_max_right _ _
  budget := by
    intro id
    have share : 0 ≤ treasury.share := Nat.cast_nonneg _
    refine (shared.budget id).raise ?_
    rw [Treasury.limit, Treasury.limit]
    gcongr
    exact le_max_left _ _
  early := shared.early
  posted := shared.posted

/-- A call that is posted has nothing to pay yet. -/
theorem Shared.post (shared : Shared treasury s) {call : Option (Call × Phase)}
    (idle : owedBy call = [])
    (calls : s'.calls = Function.update s.calls s.started call) (sent : s'.sent = s.sent)
    (peak : s'.peak = s.peak) (revenues : s'.revenues = s.revenues)
    (started : s'.started = s.started + 1) : Shared treasury s' := by
  have paid : ∀ id, s'.paid id = s.paid id := by
    intro id
    rw [State.paid, sent, State.paid]
  have limit : treasury.limit s' = treasury.limit s := by
    rw [Treasury.limit, peak, Treasury.limit]
  have budget := shared.budget s.started
  refine ⟨peak ▸ shared.peak_nonneg, ?_, fun id => ?_, fun {id c} found early => ?_,
    fun {id} le => ?_⟩
  · rw [revenues, peak]
    exact shared.revenue
  · rw [limit, paid, calls]
    by_cases same : id = s.started
    · subst same
      rw [Function.update_self, idle]
      exact budget.clear
    · rw [Function.update_of_ne same]
      exact shared.budget id
  · rw [paid]
    by_cases same : id = s.started
    · subst same
      exact (shared.posted le_rfl).2
    · rw [calls, Function.update_of_ne same] at found
      exact shared.early found early
  · rw [started] at le
    have later : s.started ≤ id := Nat.le_of_succ_le le
    have other : id ≠ s.started := Nat.ne_of_gt le
    rw [paid, calls, Function.update_of_ne other]
    exact shared.posted later

theorem step_shared (shared : Shared treasury s) (ok : step treasury operator s event = some s') :
    Shared treasury s' := by
  unfold step at ok
  split at ok
  · cases ok
    exact shared.recordRevenue _
  · next request created =>
      cases ok
      unfold State.receive
      dsimp only
      split
      · exact shared.post rfl rfl rfl rfl rfl rfl
      · exact shared.post rfl rfl rfl rfl rfl rfl
  · split at ok
    · cases ok
    · split at ok
      · cases ok
      · next call phase here => exact shared.advance here ok

/-! ### One call -/

/-- All transfers are those of one call. -/
def OneCall (s : State) : Prop := ∀ t ∈ s.sent, ∀ t' ∈ s.sent, t.call = t'.call

theorem transferNext_sent (s : State) (id : CallId) (call : Call) (total : ℚ)
    (remaining : List Payout) (transfers : List Transfer) (errors : List Failure) :
    (s.transferNext id call total remaining transfers errors).sent = s.sent :=
  (sends_none.transferNext (s := s) remaining).sent

theorem readRevenue_sent (s : State) (id : CallId) (call : Call) :
    (s.readRevenue treasury operator id call).sent = s.sent := by
  unfold State.readRevenue
  dsimp only
  split
  · rfl
  · split
    · rfl
    · split
      · rfl
      · split
        · rfl
        · exact transferNext_sent ..

theorem advance_sent {id : CallId} {call : Call} {phase : Phase} (same : event.call = some id)
    (taken : advance treasury operator s id call phase event = some s') :
    s'.sent = s.sent ∨ ∃ outcome t, event = .transfer id outcome ∧
      (∀ error, outcome ≠ .rejected error) ∧ s'.sent = t :: s.sent ∧ t.call = id := by
  unfold advance at taken
  split at taken
  · cases taken
    unfold State.lookUp
    split
    · exact .inl rfl
    · split
      · exact .inl rfl
      · exact .inl rfl
  · cases taken
    exact .inl (readRevenue_sent s id call)
  · next payout rest _ _ _ outcome =>
      cases same
      cases outcome with
      | applied txHash =>
          cases taken
          exact .inr ⟨_, _, rfl, nofun, transferNext_sent .., rfl⟩
      | lost error =>
          cases taken
          exact .inr ⟨_, _, rfl, nofun, transferNext_sent .., rfl⟩
      | rejected error =>
          cases taken
          exact .inl (transferNext_sent ..)
  · cases taken
    unfold State.record
    split
    · exact .inl rfl
    · exact .inl rfl
    · exact .inl rfl
  · cases taken
    unfold State.recordFailure
    dsimp only
    split
    · exact .inl rfl
    · exact .inl rfl
    · exact .inl rfl
  · cases taken
    exact .inl rfl
  · cases taken

/-- A step sends nothing, or one transfer of the call that it is about. -/
theorem step_sent (ok : step treasury operator s event = some s') :
    s'.sent = s.sent ∨ ∃ id outcome t, event = .transfer id outcome ∧
      (∀ error, outcome ≠ .rejected error) ∧ s'.sent = t :: s.sent ∧ t.call = id := by
  unfold step at ok
  split at ok
  · cases ok
    exact .inl rfl
  · next request created =>
      cases ok
      unfold State.receive
      dsimp only
      split
      · exact .inl rfl
      · exact .inl rfl
  · split at ok
    · cases ok
    · next id same =>
        split at ok
        · cases ok
        · exact (advance_sent same ok).imp_right fun sends => ⟨id, sends⟩

theorem step_oneCall (one : OneCall s) (ok : step treasury operator s event = some s')
    (alone : Alone s event) : OneCall s' := by
  rcases step_sent ok with same | ⟨id, outcome, sent, rfl, goes, more, own⟩
  · intro t mem t' mem'
    rw [same] at mem mem'
    exact one t mem t' mem'
  · have others : ∀ t ∈ s.sent, t.call = id := by
      cases outcome with
      | applied _ => exact alone
      | lost _ => exact alone
      | rejected error => exact absurd rfl (goes error)
    have all : ∀ t ∈ s'.sent, t.call = id := by
      intro t mem
      rw [more] at mem
      rcases List.mem_cons.mp mem with rfl | before
      · exact own
      · exact others t before
    intro t mem t' mem'
    rw [all t mem, all t' mem']

theorem shared_init : Shared treasury (machine treasury operator).init where
  peak_nonneg := le_rfl
  revenue := le_rfl
  budget := by
    intro id
    refine ⟨fun _ mem => (nomatch mem), ?_, List.nodup_nil⟩
    change (0 : ℚ) + 0 ≤ 0 * treasury.share / 100
    rw [zero_mul, zero_div, add_zero]
  early := fun absent => nomatch absent
  posted := fun _ => ⟨rfl, rfl⟩

/-- The transfers of all calls are those of one, or there are none. -/
theorem OneCall.paid (one : OneCall s) : s.sent = [] ∨ ∃ id, s.paid id = s.sent := by
  cases sent : s.sent with
  | nil => exact .inl rfl
  | cons t rest =>
      refine .inr ⟨t.call, ?_⟩
      rw [State.paid, ← sent, List.filter_eq_self]
      intro t' mem
      exact decide_eq_true (one t' mem t (sent ▸ List.mem_cons_self))

/-- Along a run whose transfers are all those of one call, no more is sent than the share of
the largest revenue, and no patron is paid twice under one distribution. -/
theorem sent_le_share {log : List (Transition State Event)}
    (run : Run (machine treasury operator) log s) (alone : ∀ r ∈ log, Alone r.pre r.event) :
    (s.sent.map Sent.amount).sum ≤ s.peak * treasury.share / 100 ∧
      ∀ id, ((s.sent.filter fun t => t.distributionId = id).map Sent.patron).Nodup := by
  have shared : Shared treasury s :=
    run.invariant shared_init fun shared ok => step_shared shared ok
  have one : OneCall s :=
    run.invariant_along alone (fun _ mem => nomatch mem) fun one ok alone =>
      step_oneCall one ok alone
  rcases one.paid with none | ⟨id, all⟩
  · rw [none]
    have share : 0 ≤ treasury.share := Nat.cast_nonneg _
    have peak := shared.peak_nonneg
    refine ⟨?_, fun _ => List.nodup_nil⟩
    rw [List.map_nil, List.sum_nil]
    positivity
  · have budget := (shared.budget id).clear
    rw [all] at budget
    refine ⟨?_, fun id => ?_⟩
    · have within := budget.within
      rw [List.map_nil, List.sum_nil, add_zero] at within
      exact within
    · have once := budget.once
      rw [List.map_nil, List.append_nil] at once
      exact once.sublist (List.filter_sublist.map _)

/-! ### Runs on an example -/

def exampleTreasury : Treasury where
  creatorPublicKey := "G-CREATOR"
  investorShare := none
  patrons := [⟨"G-FIRST", 60, true⟩, ⟨"G-SECOND", 40, true⟩]
  unique := by decide

def exampleOperator : Operator := ⟨"G-OPERATOR", true⟩

/-- The steps of a call up to its transfers, and those of the transfers. -/
def starts (id : CallId) (distributionId : Option DistributionId) : List Event :=
  [.post ⟨some "G-CREATOR", distributionId⟩ ("created-" ++ toString id), .lookUp id, .readRevenue id]

def transfers (id : CallId) : List Event :=
  [.transfer id (.applied "first"), .transfer id (.applied "second"), .record id none]

def played (events : List Event) : List (Transition State Event) × State :=
  (machine exampleTreasury exampleOperator).play events
    ([], (machine exampleTreasury exampleOperator).init)

/-- One distribution, asked for twice. -/
def askedTwice : List Event :=
  .recordRevenue 100 :: starts 0 (some "march") ++ transfers 0 ++ starts 1 (some "march")

/-- Two distributions of one revenue, without identifiers. -/
def distributedTwice : List Event :=
  .recordRevenue 100 :: starts 0 none ++ transfers 0 ++ starts 1 none ++ transfers 1

/-- Two calls with one identifier that both find no record. -/
def overlapping : List Event :=
  .recordRevenue 100 :: starts 0 (some "march") ++ starts 1 (some "march") ++ transfers 0 ++
    transfers 1

theorem sent_le_share_asked :
    ((played askedTwice).2.sent.map Sent.amount).sum ≤ 25 ∧
      ((played askedTwice).2.sent.map Sent.amount).sum = 25 := by
  obtain ⟨le, _⟩ := sent_le_share
    (Machine.play_run (machine exampleTreasury exampleOperator) askedTwice) (by decide +kernel)
  refine ⟨le.trans_eq ?_, ?_⟩
  · decide +kernel
  · decide +kernel

theorem sent_twice :
    (Reachable (machine exampleTreasury exampleOperator) (played distributedTwice).2 ∧
      (played distributedTwice).2.peak * exampleTreasury.share / 100 = 25 ∧
      ((played distributedTwice).2.sent.map Sent.amount).sum = 50) ∧
    Reachable (machine exampleTreasury exampleOperator) (played overlapping).2 ∧
      ((played overlapping).2.sent.filter fun t => t.distributionId = "march").map Sent.patron =
        ["G-SECOND", "G-FIRST", "G-SECOND", "G-FIRST"] := by
  refine ⟨⟨⟨_, Machine.play_run _ _⟩, ?_⟩, ⟨_, Machine.play_run _ _⟩, ?_⟩
  · decide +kernel
  · decide +kernel

end Talos.Revenue.Distribute
