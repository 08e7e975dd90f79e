import Talos.TokenSales.Effects

/-!
# What a patron holds

The holding of a patron is read, and written as an absolute value when the purchase is
completed; below the minimum of the Talos no row is written, and what was bought before is
not looked up. So holdings are the sums of the completed purchases only while each commit
finds the holding it has read and no earlier purchase without a row (`Sound`).
-/

namespace Talos.TokenSales

open Database Soroban

variable {operator : Operator} {talos : TalosRow} {s s' : State} {event : Event}

/-- What a purchase adds to the completed purchases of a buyer. -/
def boughtBy (talosId : TalosId) (buyer : PublicKey) (row : PurchaseRow) : ℚ :=
  if row.status = .completed ∧ row.talosId = talosId ∧ row.buyerPublicKey = buyer then row.amount
  else 0

/-- The sum of the completed purchases of a buyer; `keys` are those of all purchases. -/
def State.bought (s : State) (keys : Finset TxHash) (talosId : TalosId) (buyer : PublicKey) : ℚ :=
  Map.sumOver (boughtBy talosId buyer) s.purchases keys

def TalosRow.minForPatron (talos : TalosRow) : ℚ := (talos.minPatronPulse.getD 100 : Nat)

/-- The holding of a buyer of completed purchases. -/
def TalosRow.holding (talos : TalosRow) (bought : ℚ) : Option ℚ :=
  if 0 < bought ∧ talos.minForPatron ≤ bought then some bought else none

theorem minForPatron_eq {p : Purchase}
    (same : p.talos.minPatronPulse = talos.minPatronPulse) :
    p.minForPatron = talos.minForPatron := by
  rw [Purchase.minForPatron, same, TalosRow.minForPatron]

/-! ### Sums of completed purchases -/

theorem boughtBy_of_ne {row : PurchaseRow} (other : row.status ≠ .completed) (talosId : TalosId)
    (buyer : PublicKey) : boughtBy talosId buyer row = 0 :=
  if_neg fun ⟨completed, _⟩ => other completed

theorem boughtBy_nonneg {row : PurchaseRow} (pos : 0 < row.amount) (talosId : TalosId)
    (buyer : PublicKey) : 0 ≤ boughtBy talosId buyer row := by
  unfold boughtBy
  split
  · exact pos.le
  · exact le_rfl

theorem bought_nonneg (pos : ∀ {h row}, s.purchases h = some row → 0 < row.amount)
    (keys : Finset TxHash) (talosId : TalosId) (buyer : PublicKey) :
    0 ≤ s.bought keys talosId buyer := by
  apply Finset.sum_nonneg
  intro h _
  cases found : s.purchases h with
  | none => exact le_rfl
  | some row => exact boughtBy_nonneg (pos found) talosId buyer

/-- A buyer of a completed purchase has bought something. -/
theorem bought_pos (pos : ∀ {h row}, s.purchases h = some row → 0 < row.amount)
    {keys : Finset TxHash} (all : s.purchases.Keys keys) {h : TxHash} {row : PurchaseRow}
    (found : s.purchases h = some row) (completed : row.status = .completed) :
    0 < s.bought keys row.talosId row.buyerPublicKey := by
  have mem : h ∈ keys := (all h).mpr fun absent => nomatch absent.symm.trans found
  refine lt_of_lt_of_le (pos found) ?_
  have one : ((s.purchases h).map (boughtBy row.talosId row.buyerPublicKey)).getD 0 =
      row.amount := by
    rw [found, Option.map_some, Option.getD_some, boughtBy, if_pos ⟨completed, rfl, rfl⟩]
  rw [← one]
  refine Finset.single_le_sum
    (f := fun h => ((s.purchases h).map (boughtBy row.talosId row.buyerPublicKey)).getD 0)
    (fun h _ => ?_) mem
  cases found : s.purchases h with
  | none => exact le_rfl
  | some row => exact boughtBy_nonneg (pos found) _ _

theorem bought_opens {keys : Finset TxHash} (all : s.purchases.Keys keys) {h : TxHash}
    {row : PurchaseRow} (written : s'.purchases = s.purchases.set h row)
    (open_ : row.status ≠ .completed)
    (before : ∀ r, s.purchases h = some r → r.status ≠ .completed) (talosId : TalosId)
    (buyer : PublicKey) :
    s'.bought (insert h keys) talosId buyer = s.bought keys talosId buyer := by
  unfold State.bought
  rw [written]
  cases found : s.purchases h with
  | none =>
      have fresh : h ∉ keys := fun mem => (all h).mp mem found
      rw [Map.sumOver_set _ _ fresh, boughtBy_of_ne open_, add_zero]
  | some r =>
      have mem : h ∈ keys := (all h).mpr fun absent => nomatch absent.symm.trans found
      have replaced := Map.sumOver_replace (boughtBy talosId buyer) found row mem
      rw [boughtBy_of_ne open_, boughtBy_of_ne (before r found), add_zero, add_zero] at replaced
      rw [Finset.insert_eq_of_mem mem]
      exact replaced

theorem bought_completes {keys : Finset TxHash} (all : s.purchases.Keys keys) {h : TxHash}
    {row row' : PurchaseRow} (found : s.purchases h = some row) (pending : row.status = .pending)
    (written : s'.purchases = s.purchases.set h row') (talosId : TalosId) (buyer : PublicKey) :
    s'.bought (insert h keys) talosId buyer =
      s.bought keys talosId buyer + boughtBy talosId buyer row' := by
  have mem : h ∈ keys := (all h).mpr fun absent => nomatch absent.symm.trans found
  have other : row.status ≠ .completed := by
    rw [pending]
    exact (nomatch ·)
  have replaced := Map.sumOver_replace (boughtBy talosId buyer) found row' mem
  rw [boughtBy_of_ne other, add_zero] at replaced
  rw [Finset.insert_eq_of_mem mem, State.bought, written]
  exact replaced

/-! ### The holdings -/

/-- The requests for a Talos read one minimum. -/
def Event.Of (talos : TalosRow) : Event → Prop
  | .post _ request => ∀ read ∈ request.talos, read.id = talos.id →
      read.minPatronPulse = talos.minPatronPulse
  | _ => True

instance (talos : TalosRow) : DecidablePred (Event.Of talos)
  | .post _ request => inferInstanceAs (Decidable (∀ read ∈ request.talos, read.id = talos.id →
      read.minPatronPulse = talos.minPatronPulse))
  | .claim _ | .verify .. | .checkAccount .. | .submit .. | .readPatron _ | .commit _
  | .respond _ | .markFailed _ | .crash _ => inferInstanceAs (Decidable True)

/-- What a commit relies on: the row that it completes is that of its purchase, and for the
Talos that the holding is the one that was read, or will be refused as a second row, and that
without one the purchases so far, with this one, either are this one or stay below the
minimum. -/
structure Sound (talos : TalosRow) (s : State) (p : Purchase) (existingPatron : Option ℚ) :
    Prop where
  own : ∀ {row}, s.purchases p.txHash = some row →
    row.talosId = p.talos.id ∧ row.buyerPublicKey = p.buyerPublicKey ∧ row.amount = p.amount
  current : p.talos.id = talos.id →
    s.patrons (p.talos.id, p.buyerPublicKey) = existingPatron ∨
      existingPatron = none ∧ p.becomesPatron none = true
  counted : p.talos.id = talos.id → s.patrons (p.talos.id, p.buyerPublicKey) = none →
    ∀ keys, s.purchases.Keys keys →
      s.bought keys p.talos.id p.buyerPublicKey = 0 ∨
        s.bought keys p.talos.id p.buyerPublicKey + p.amount < p.minForPatron

def Event.Sound (talos : TalosRow) (s : State) : Event → Prop
  | .claim id => ¬ RetriesOther s (.claim id)
  | .commit id => ∀ {p mitosTxHash existingPatron},
      s.requests id = some (p, .committing mitosTxHash existingPatron) →
      TokenSales.Sound talos s p existingPatron
  | _ => True

/-- The holdings of the patrons of a Talos are what they have bought. -/
structure Tallied (talos : TalosRow) (s : State) : Prop where
  exclusive : s.custody.forget.Exclusive
  rows : ∀ {h row}, s.purchases h = some row → 0 < row.amount
  requests : ∀ {id p phase}, s.requests id = some (p, phase) →
    0 < p.amount ∧ (p.talos.id = talos.id → p.talos.minPatronPulse = talos.minPatronPulse)
  tally : ∃ keys, s.purchases.Keys keys ∧
    ∀ buyer, s.patrons (talos.id, buyer) = talos.holding (s.bought keys talos.id buyer)

theorem holding_of_le {bought : ℚ} (pos : 0 < bought) (least : talos.minForPatron ≤ bought) :
    talos.holding bought = some bought := if_pos ⟨pos, least⟩

theorem holding_of_lt {bought : ℚ} (below : bought < talos.minForPatron) :
    talos.holding bought = none := if_neg fun ⟨_, least⟩ => absurd least (not_le.mpr below)

theorem holding_eq_some {bought pulse : ℚ} (held : talos.holding bought = some pulse) :
    pulse = bought ∧ 0 < bought ∧ talos.minForPatron ≤ bought := by
  unfold TalosRow.holding at held
  split at held
  · next bounds =>
      cases held
      exact ⟨rfl, bounds⟩
  · cases held

/-- The holding after a purchase is written is that of what was bought with it. -/
theorem writePatron_holding {p : Purchase} {existingPatron : Option ℚ} {written : State}
    (ok : s.writePatron p existingPatron = some written) {bought : ℚ} (nonneg : 0 ≤ bought)
    (least : p.minForPatron = talos.minForPatron) (pos : 0 < p.amount)
    (held : s.patrons (p.talos.id, p.buyerPublicKey) = talos.holding bought)
    (current : s.patrons (p.talos.id, p.buyerPublicKey) = existingPatron ∨
      existingPatron = none ∧ p.becomesPatron none = true)
    (counted : s.patrons (p.talos.id, p.buyerPublicKey) = none →
      bought = 0 ∨ bought + p.amount < p.minForPatron) :
    written.patrons (p.talos.id, p.buyerPublicKey) = talos.holding (bought + p.amount) := by
  unfold State.writePatron at ok
  split at ok
  · next pulse =>
      rcases current with stored | ⟨absent, _⟩
      · obtain ⟨rfl, bought_pos, min_le⟩ := holding_eq_some (held.symm.trans stored)
        split at ok
        · cases ok
          rw [holding_of_le (add_pos bought_pos pos)
            (min_le.trans (le_add_of_nonneg_right pos.le))]
          dsimp only
          rw [Function.update_self, stored]
          rfl
        · cases ok
      · cases absent
  · have alone : p.newPulseAmount none = p.amount := zero_add p.amount
    have becomes : p.becomesPatron none = true ↔ talos.minForPatron ≤ p.amount := by
      rw [Purchase.becomesPatron, decide_eq_true_iff, alone, least]
    split at ok
    · next short =>
        cases ok
        have short : ¬ p.becomesPatron none = true := by
          rw [Bool.not_eq_true]
          exact Bool.not_eq_true' _ |>.mp short
        have stored := current.resolve_right fun refused => short refused.2
        have below : p.amount < talos.minForPatron := not_le.mp fun le => short (becomes.mpr le)
        rw [stored]
        symm
        apply holding_of_lt
        rcases counted stored with rfl | below'
        · rw [zero_add]
          exact below
        · rw [← least]
          exact below'
    · next reaches =>
        have reaches : talos.minForPatron ≤ p.amount := by
          apply becomes.mp
          rwa [Bool.not_eq_true', Bool.not_eq_false] at reaches
        split at ok
        · obtain ⟨patrons, inserted, rfl⟩ := Option.map_eq_some_iff.mp ok
          obtain ⟨absent, rfl⟩ := Table.insert_eq_some.mp inserted
          dsimp only
          rw [Map.set_self, alone]
          rcases counted absent with rfl | below
          · rw [zero_add, holding_of_le pos reaches]
          · rw [least] at below
            have reached := reaches.trans (le_add_of_nonneg_left nonneg)
            exact absurd below (not_lt.mpr reached)
        · cases ok

/-- Only the row of the buyer is written. -/
theorem writePatron_frame {p : Purchase} {existingPatron : Option ℚ} {written : State}
    (ok : s.writePatron p existingPatron = some written) {key : TalosId × PublicKey}
    (other : key ≠ (p.talos.id, p.buyerPublicKey)) : written.patrons key = s.patrons key := by
  unfold State.writePatron at ok
  split at ok
  · split at ok
    · cases ok
      exact Function.update_of_ne other _ _
    · cases ok
  · split at ok
    · cases ok
      rfl
    · split at ok
      · obtain ⟨patrons, inserted, rfl⟩ := Option.map_eq_some_iff.mp ok
        obtain ⟨_, rfl⟩ := Table.insert_eq_some.mp inserted
        exact Function.update_of_ne other _ _
      · cases ok

theorem step_rows (writes : Writes s s' event) (tallied : Tallied talos s)
    {h : TxHash} {row : PurchaseRow} (found : s'.purchases h = some row) : 0 < row.amount := by
  cases writes with
  | nothing purchases _ =>
      rw [purchases] at found
      exact tallied.rows found
  | @opens h' row' purchases _ _ before new =>
      rw [purchases] at found
      rcases Map.set_eq_some.mp found with ⟨rfl, rfl⟩ | ⟨_, found⟩
      · cases stored : s.purchases h with
        | none =>
            obtain ⟨p, phase, here, amount⟩ := new stored
            rw [amount]
            exact (tallied.requests here).1
        | some r =>
            rw [(before r stored).2]
            exact tallied.rows stored
      · exact tallied.rows found
  | completes _ _ stored _ _ purchases _ =>
      rw [purchases] at found
      rcases Map.set_eq_some.mp found with ⟨rfl, rfl⟩ | ⟨_, found⟩
      · have pos := tallied.rows stored
        exact pos
      · exact tallied.rows found

theorem step_tally (writes : Writes s s' event) (tallied : Tallied talos s)
    (sound : event.Sound talos s) :
    ∃ keys, s'.purchases.Keys keys ∧
      ∀ buyer, s'.patrons (talos.id, buyer) = talos.holding (s'.bought keys talos.id buyer) := by
  obtain ⟨keys, all, tally⟩ := tallied.tally
  cases writes with
  | nothing purchases patrons =>
      refine ⟨keys, purchases ▸ all, fun buyer => ?_⟩
      rw [patrons, tally buyer, State.bought, State.bought, purchases]
  | @opens h row purchases patrons open_ before _ =>
      refine ⟨insert h keys, purchases ▸ all.set h row, fun buyer => ?_⟩
      rw [patrons, tally buyer,
        bought_opens all purchases open_ (fun r found => (before r found).1)]
  | @completes id p _ existingPatron row written body commit here found pending ok purchases
      patrons =>
      subst commit
      refine ⟨insert p.txHash keys, purchases ▸ all.set _ _, fun buyer => ?_⟩
      obtain ⟨own, current, counted⟩ := sound here
      obtain ⟨sameTalos, sameBuyer, sameAmount⟩ := own found
      rw [patrons, bought_completes all found pending purchases]
      by_cases mine : (talos.id, buyer) = (p.talos.id, p.buyerPublicKey)
      · obtain ⟨same, rfl⟩ := Prod.mk.inj mine
        obtain ⟨pos, minimum⟩ := tallied.requests here
        have added : boughtBy talos.id p.buyerPublicKey (row.completed body) = p.amount := by
          rw [boughtBy, if_pos ⟨rfl, sameTalos.trans same.symm, sameBuyer⟩]
          exact sameAmount
        rw [added, same]
        rw [same] at tally
        refine writePatron_holding ok (bought_nonneg tallied.rows keys _ _)
          (minForPatron_eq (minimum same.symm)) pos (tally _) (current same.symm) ?_
        exact fun absent => counted same.symm absent keys all
      · have added : boughtBy talos.id buyer (row.completed body) = 0 := by
          refine if_neg fun ⟨_, ofTalos, ofBuyer⟩ => mine ?_
          rw [← ofTalos, ← ofBuyer, ← sameTalos, ← sameBuyer]
          rfl
        rw [added, add_zero, writePatron_frame ok mine]
        exact tally buyer

theorem step_tallied (tallied : Tallied talos s) (ok : step operator s event = some s')
    (of : event.Of talos) (sound : event.Sound talos s) : Tallied talos s' := by
  have first : ¬ RetriesOther s event := by
    cases event with
    | claim id => exact sound
    | _ => exact id
  have writes := step_writes ok first tallied.exclusive.held
  refine ⟨?_, step_rows writes tallied, ?_, step_tally writes tallied sound⟩
  · rcases step_forget ok first tallied.exclusive.held with same | moved
    · rw [same]
      exact tallied.exclusive
    · exact moved.exclusive tallied.exclusive
  · intro id p phase after
    rcases step_requests ok after with ⟨before, here⟩ | ⟨request, rfl, accepted⟩
    · exact tallied.requests here
    · obtain ⟨pos, found⟩ := amount_pos accepted
      exact ⟨pos, of p.talos found⟩

theorem tallied_init : Tallied talos (machine operator).init where
  exclusive := (@kept_init operator).exclusive.forget
  rows := fun absent => nomatch absent
  requests := fun absent => nomatch absent
  tally := by
    refine ⟨∅, Map.Keys.empty, fun buyer => ?_⟩
    rw [State.bought, Map.sumOver_empty]
    exact (if_neg fun pos => absurd pos.1 (lt_irrefl 0)).symm

/-- Along a run that is sound for a Talos, a buyer of completed purchases has a patron row if
and only if they come to the minimum, and then holds their sum. -/
theorem holding_eq_bought {log : List (Transition State Event)}
    (run : Run (machine operator) log s) (of : ∀ r ∈ log, r.event.Of talos)
    (sound : ∀ r ∈ log, r.event.Sound talos r.pre) :
    (∃ keys, s.purchases.Keys keys) ∧ ∀ keys, s.purchases.Keys keys → ∀ buyer,
      (∃ h row, s.purchases h = some row ∧ row.status = .completed ∧ row.talosId = talos.id ∧
        row.buyerPublicKey = buyer) →
      s.patrons (talos.id, buyer) =
        if talos.minForPatron ≤ s.bought keys talos.id buyer then
          some (s.bought keys talos.id buyer)
        else none := by
  have tallied : Tallied talos s :=
    run.invariant_along (C := fun r => r.event.Of talos ∧ r.event.Sound talos r.pre)
      (fun r mem => ⟨of r mem, sound r mem⟩) tallied_init
      fun tallied ok safe => step_tallied tallied ok safe.1 safe.2
  obtain ⟨keys, all, tally⟩ := tallied.tally
  refine ⟨⟨keys, all⟩, fun keys' all' buyer => ?_⟩
  rintro ⟨h, row, found, completed, ofTalos, rfl⟩
  obtain rfl : keys' = keys := by
    ext k
    rw [all k, all' k]
  have pos := bought_pos tallied.rows all found completed
  rw [ofTalos] at pos
  rw [tally, TalosRow.holding]
  simp only [pos, true_and]

/-! ### Checking a run -/

/-- The check of a step when the purchases are among those of some requests. -/
def Event.checks (posted : List (RequestId × Purchase)) (s : State) : Event → Bool
  | .claim id => !decide (RetriesOther s (.claim id))
  | .commit id =>
      match s.requests id with
      | some (p, .committing _ existingPatron) =>
          let bought := s.bought (s.keysIn posted) p.talos.id p.buyerPublicKey
          ((s.purchases p.txHash).all fun row =>
            row.talosId = p.talos.id ∧ row.buyerPublicKey = p.buyerPublicKey ∧
              row.amount = p.amount) &&
            decide (s.patrons (p.talos.id, p.buyerPublicKey) = existingPatron) &&
            decide (s.patrons (p.talos.id, p.buyerPublicKey) = none →
              bought = 0 ∨ bought + p.amount < p.minForPatron)
      | _ => true
  | _ => true

theorem sound_of_checks {posted : List (RequestId × Purchase)}
    (all : s.purchases.Keys (s.keysIn posted))
    (checks : event.checks posted s = true) : event.Sound talos s := by
  cases event with
  | claim id => exact of_decide_eq_false (Bool.not_eq_true' _ |>.mp checks)
  | commit id =>
      intro p mitosTxHash existingPatron here
      simp only [Event.checks, here, Bool.and_eq_true, decide_eq_true_eq] at checks
      obtain ⟨⟨own, current⟩, counted⟩ := checks
      refine ⟨fun found => ?_, fun _ => .inl current, ?_⟩
      · rw [found, Option.all_some] at own
        exact of_decide_eq_true own
      · intro _ absent keys all'
        obtain rfl : keys = s.keysIn posted := by
          ext k
          rw [all k, all' k]
        exact counted absent
  | post _ _ | verify _ _ | checkAccount _ _ | submit _ _ | readPatron _ | respond _
  | markFailed _ | crash _ => trivial

/-! ### Runs on an example -/

/-- Purchases of 100 tokens, the minimum, and of 60 more. -/
def boughtMore : List Event := buys 0 "first" 100 ++ buys 1 "second" 60

/-- Two purchases of 60 tokens. -/
def boughtTwice : List Event := buys 0 "first" 60 ++ buys 1 "second" 60

def exampleKeys (events : List Event) : Finset TxHash :=
  (played events).2.keysIn (postedIn (played events).1)

theorem holding_eq_bought_more :
    (played boughtMore).2.bought (exampleKeys boughtMore) "talos" "G-BUYER" = 160 ∧
      (played boughtMore).2.patrons ("talos", "G-BUYER") = some 160 := by
  have run := Machine.play_run (machine exampleOperator) boughtMore
  have bought : (played boughtMore).2.bought (exampleKeys boughtMore) "talos" "G-BUYER" = 160 := by
    decide +kernel
  have checks : ∀ r ∈ (played boughtMore).1,
      r.event.checks (postedIn (played boughtMore).1) r.pre = true := by
    decide +kernel
  have completed : ∃ row ∈ (played boughtMore).2.purchases "first", row.status = .completed ∧
      row.talosId = "talos" ∧ row.buyerPublicKey = "G-BUYER" := by
    decide +kernel
  obtain ⟨row, found, status⟩ := completed
  have held := (@holding_eq_bought _ exampleTalos _ _ run (by decide +kernel)
    fun r mem => sound_of_checks (run_pre_keys run mem) (checks r mem)).2 _
    (run_keys run) "G-BUYER" ⟨"first", row, found, status⟩
  refine ⟨bought, held.trans ?_⟩
  change (if _ ≤ (played boughtMore).2.bought (exampleKeys boughtMore) "talos" "G-BUYER" then
    some ((played boughtMore).2.bought (exampleKeys boughtMore) "talos" "G-BUYER") else none) = _
  rw [bought]
  decide +kernel

theorem bought_without_holding :
    Reachable (machine exampleOperator) (played boughtTwice).2 ∧
      (∀ id, (played boughtTwice).2.requests id = none) ∧
      (played boughtTwice).2.purchases.Keys (exampleKeys boughtTwice) ∧
      (played boughtTwice).2.bought (exampleKeys boughtTwice) "talos" "G-BUYER" = 120 ∧
      exampleTalos.minForPatron = 100 ∧
      (played boughtTwice).2.patrons ("talos", "G-BUYER") = none := by
  have run := Machine.play_run (machine exampleOperator) boughtTwice
  have done : ∀ request ∈ postedIn (played boughtTwice).1,
      (played boughtTwice).2.requests request.1 = none := by
    decide +kernel
  refine ⟨⟨_, run⟩, fun id => ?_, run_keys run, ?_⟩
  · cases flying : (played boughtTwice).2.requests id with
    | none => rfl
    | some request =>
        have posted := (run_posted run).2 id request.1 request.2 flying
        cases (done _ posted).symm.trans flying
  · decide +kernel

end Talos.TokenSales
