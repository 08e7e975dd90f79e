import Talos.Reconciler.Scheduler

/-!
# Polls of an included transaction

What becomes of a record whose transaction a poll has found on the ledger. The gap to the submission
ledger is checked first, by design: a poll past the gap expires the record, found or not and however
deep. Within the gap the record waits for the confirmation depth and is confirmed.
-/

namespace Talos.Reconciler

/-- What one look at the network brings. -/
structure Poll where
  result : Option HorizonPollResult
  currentLedger : Int
  now : Int

variable {config : ReconcilerConfig} {record : TxRecord} {poll first : Poll} {L : Int}

/-- The record after a poll: the proposed update is persisted. -/
def TxRecord.polled (config : ReconcilerConfig) (record : TxRecord) (poll : Poll) : TxRecord :=
  match computeTransition record poll.result poll.currentLedger config poll.now with
  | none => record
  | some update => record.written record update poll.now

def TxRecord.afterPolls (config : ReconcilerConfig) (record : TxRecord) (polls : List Poll) :
    TxRecord := polls.foldl (TxRecord.polled config) record

/-- The poll is past the ledger gap of the record. -/
def PastGap (config : ReconcilerConfig) (record : TxRecord) (poll : Poll) : Prop :=
  isLedgerExpired record poll.currentLedger config.maxLedgerGap = true

instance : Decidable (PastGap config record poll) := inferInstanceAs (Decidable (_ = true))

/-- The poll sees the ledger `L` at the confirmation depth. -/
def Deep (config : ReconcilerConfig) (L : Int) (poll : Poll) : Prop :=
  L + config.confirmationDepth ≤ poll.currentLedger

instance : Decidable (Deep config L poll) := inferInstanceAs (Decidable (_ ≤ _))

/-! ### One poll -/

/-- No poll changes what the gap is counted from, nor the wall-clock limit. -/
theorem polled_fixed (config : ReconcilerConfig) (record : TxRecord) (poll : Poll) :
    (record.polled config poll).ledgerSubmitted = record.ledgerSubmitted ∧
    (record.polled config poll).expiresAt = record.expiresAt := by
  unfold TxRecord.polled
  cases computeTransition record poll.result poll.currentLedger config poll.now with
  | none => exact ⟨rfl, rfl⟩
  | some update => exact ⟨rfl, rfl⟩

theorem pastGap_congr {record' : TxRecord}
    (same : record'.ledgerSubmitted = record.ledgerSubmitted) :
    PastGap config record' poll ↔ PastGap config record poll := by
  rw [PastGap, PastGap, isLedgerExpired, isLedgerExpired, same]

/-- A settled record is not polled any further. -/
theorem polled_terminal (terminal : isTerminal record = true) :
    record.polled config poll = record := by
  unfold TxRecord.polled computeTransition
  rw [if_pos terminal]

theorem isWallClockExpired_of_none {now : Int} (noExpiry : record.expiresAt = none) :
    ¬ isWallClockExpired record now = true := by
  rw [isWallClockExpired, noExpiry]
  exact Bool.false_ne_true

/-- A pending record is moved as `transitionFromPending` proposes. -/
theorem polled_pending {result : HorizonPollResult} (pending : record.finalityStatus = .pending)
    (answered : poll.result = some result) : record.polled config poll =
      (transitionFromPending record result poll.currentLedger config poll.now).elim record
        fun update => record.written record update poll.now := by
  have active : ¬ isTerminal record = true := by
    rw [isTerminal, pending]
    decide
  unfold TxRecord.polled computeTransition
  rw [if_neg active, pending, answered]
  dsimp only
  cases transitionFromPending record result poll.currentLedger config poll.now with
  | none => rfl
  | some update => rfl

/-- A confirming record is moved as `transitionFromConfirming` proposes, whatever the poll found. -/
theorem polled_confirming (confirming : record.finalityStatus = .confirming) :
    record.polled config poll =
      (transitionFromConfirming record poll.currentLedger config poll.now).elim record
        fun update => record.written record update poll.now := by
  have active : ¬ isTerminal record = true := by
    rw [isTerminal, confirming]
    decide
  unfold TxRecord.polled computeTransition
  rw [if_neg active, confirming]
  dsimp only
  cases transitionFromConfirming record poll.currentLedger config poll.now with
  | none => rfl
  | some update => rfl

/-- The record waits for the confirmation of its inclusion in ledger `L`. -/
structure Included (L : Int) (record : TxRecord) : Prop where
  noExpiry : record.expiresAt = none
  confirming : record.finalityStatus = .confirming
  ledger : record.confirmedLedger = some L

/-- The poll that finds the transaction. -/
theorem polled_found (config : ReconcilerConfig) (noExpiry : record.expiresAt = none)
    (pending : record.finalityStatus = .pending) (found : poll.result = some (.confirmed L)) :
    (PastGap config record poll → (record.polled config poll).finalityStatus = .expired) ∧
    (¬ PastGap config record poll → Included L (record.polled config poll)) := by
  rw [polled_pending pending found, transitionFromPending, if_neg (not_not_intro pending),
    if_neg (isWallClockExpired_of_none noExpiry)]
  unfold PastGap
  constructor
  · intro past
    rw [if_pos past]
    rfl
  · intro within
    rw [if_neg within]
    exact ⟨noExpiry, rfl, rfl⟩

/-- A poll of a record whose transaction has been found. -/
theorem Included.polled (included : Included L record) (config : ReconcilerConfig) (poll : Poll) :
    (PastGap config record poll → (record.polled config poll).finalityStatus = .expired) ∧
    (¬ PastGap config record poll → Deep config L poll →
      (record.polled config poll).finalityStatus = .confirmed) ∧
    (¬ PastGap config record poll → ¬ Deep config L poll →
      Included L (record.polled config poll)) := by
  have gap : (record.ledgerSubmitted.any (· ≠ 0) &&
      isLedgerExpired record poll.currentLedger config.maxLedgerGap) = true ↔
        PastGap config record poll := by
    rw [PastGap, isLedgerExpired]
    cases record.ledgerSubmitted with
    | none => rfl
    | some submitted => simp
  have depth :
      record.confirmedLedger.any (poll.currentLedger ≥ · + config.confirmationDepth) = true ↔
        Deep config L poll := by
    rw [included.ledger, Deep, Option.any_some, decide_eq_true_eq]
  rw [polled_confirming included.confirming, transitionFromConfirming,
    if_neg (not_not_intro included.confirming),
    if_neg (isWallClockExpired_of_none included.noExpiry)]
  refine ⟨?_, ?_, ?_⟩
  · intro past
    rw [if_pos (gap.mpr past)]
    rfl
  · intro within deep
    rw [if_neg (mt gap.mp within), if_pos (depth.mpr deep)]
    rfl
  · intro within shallow
    rw [if_neg (mt gap.mp within), if_neg (mt depth.mp shallow)]
    exact ⟨included.noExpiry, included.confirming, included.ledger⟩

/-! ### A run of polls -/

theorem afterPolls_append (before after : List Poll) :
    record.afterPolls config (before ++ after) =
      (record.afterPolls config before).afterPolls config after :=
  List.foldl_append

theorem afterPolls_cons (poll : Poll) (rest : List Poll) :
    record.afterPolls config (poll :: rest) = (record.polled config poll).afterPolls config rest :=
  rfl

theorem afterPolls_fixed (config : ReconcilerConfig) (polls : List Poll) (record : TxRecord) :
    (record.afterPolls config polls).ledgerSubmitted = record.ledgerSubmitted ∧
    (record.afterPolls config polls).expiresAt = record.expiresAt := by
  induction polls generalizing record with
  | nil => exact ⟨rfl, rfl⟩
  | cons poll rest ih =>
    obtain ⟨submitted, expires⟩ := ih (record.polled config poll)
    obtain ⟨submitted', expires'⟩ := polled_fixed config record poll
    exact ⟨submitted.trans submitted', expires.trans expires'⟩

theorem afterPolls_terminal (terminal : isTerminal record = true) (polls : List Poll) :
    record.afterPolls config polls = record := by
  induction polls with
  | nil => rfl
  | cons poll rest ih => rw [afterPolls_cons, polled_terminal terminal, ih]

/-- Polls within the gap that are not deep enough leave the record waiting. -/
theorem Included.afterPolls {polls : List Poll} (included : Included L record)
    (waiting : ∀ poll ∈ polls, ¬ PastGap config record poll ∧ ¬ Deep config L poll) :
    Included L (record.afterPolls config polls) := by
  induction polls generalizing record with
  | nil => exact included
  | cons poll rest ih =>
    obtain ⟨within, shallow⟩ := waiting poll (List.mem_cons_self ..)
    apply ih ((included.polled config poll).2.2 within shallow)
    intro later mem
    rw [pastGap_congr (polled_fixed config record poll).1]
    exact waiting later (List.mem_cons_of_mem _ mem)

/-- Once a poll has settled the record, the polls after it change nothing. -/
theorem afterPolls_settled {status : FinalityStatus} {before after : List Poll}
    (settled : ((record.afterPolls config before).polled config poll).finalityStatus = status)
    (terminal : status ∈ terminalStates) :
    (record.afterPolls config (before ++ poll :: after)).finalityStatus = status := by
  rw [afterPolls_append, afterPolls_cons, afterPolls_terminal _ after, settled]
  rw [isTerminal, settled]
  exact decide_eq_true terminal

/-- A record whose transaction is found waits through the polls within the gap that are not deep
enough. The first other poll settles it: past the gap the record is expired, otherwise it is
confirmed. The poll that finds the transaction may itself be past the gap. -/
theorem found_is_settled {earlier : List Poll} (noExpiry : record.expiresAt = none)
    (pending : (record.afterPolls config earlier).finalityStatus = .pending)
    (found : first.result = some (.confirmed L)) :
    (PastGap config record first → ∀ rest,
      (record.afterPolls config (earlier ++ first :: rest)).finalityStatus = .expired) ∧
    (¬ PastGap config record first → ∀ rest,
      (∀ poll ∈ rest, ¬ PastGap config record poll ∧ ¬ Deep config L poll) →
      (record.afterPolls config (earlier ++ first :: rest)).finalityStatus = .confirming ∧
      ∀ poll after,
        (PastGap config record poll →
          (record.afterPolls config (earlier ++ first :: rest ++ poll :: after)).finalityStatus =
            .expired) ∧
        (¬ PastGap config record poll → Deep config L poll →
          (record.afterPolls config (earlier ++ first :: rest ++ poll :: after)).finalityStatus =
            .confirmed)) := by
  obtain ⟨submitted, expires⟩ := afterPolls_fixed config earlier record
  obtain ⟨late, inTime⟩ := polled_found config (expires.trans noExpiry) pending found
  rw [pastGap_congr submitted] at late inTime
  constructor
  · intro past rest
    exact afterPolls_settled (late past) (by decide)
  · intro within rest waiting
    have start : (record.afterPolls config (earlier ++ [first])).ledgerSubmitted =
        record.ledgerSubmitted := (afterPolls_fixed config _ record).1
    have included : Included L (record.afterPolls config (earlier ++ first :: rest)) := by
      rw [List.append_cons, afterPolls_append]
      apply Included.afterPolls
      · rw [afterPolls_append]
        exact inTime within
      · intro poll mem
        rw [pastGap_congr start]
        exact waiting poll mem
    have same := (afterPolls_fixed config (earlier ++ first :: rest) record).1
    refine ⟨included.confirming, fun poll after => ?_⟩
    obtain ⟨expired, confirmed, _⟩ := included.polled config poll
    rw [pastGap_congr same] at expired confirmed
    constructor
    · intro past
      exact afterPolls_settled (expired past) (by decide)
    · intro fresh deep
      exact afterPolls_settled (confirmed fresh deep) (by decide)

/-- A payment submitted in ledger 100, without a wall-clock limit. -/
def tracked : TxRecord := newRecord 1 ⟨"abc", .other, none, some 100, none⟩ 0

/-- Expiry after 120 ledgers, confirmation one ledger after the inclusion. -/
def gapConfig : ReconcilerConfig := ⟨120, 10, 50, 1, none⟩

/-- A poll that finds the payment in ledger 105. -/
def sighting (currentLedger : Int) : Poll := ⟨some (.confirmed 105), currentLedger, 0⟩

def absent : Poll := ⟨some .notFound, 101, 0⟩

theorem found_is_settled_tracked :
    (tracked.afterPolls gapConfig [absent, sighting 105, sighting 106]).finalityStatus =
      .confirmed := by
  have settled := @found_is_settled gapConfig tracked (sighting 105) 105 [absent] rfl rfl rfl
  exact ((settled.2 (by decide) [] nofun).2 (sighting 106) []).2 (by decide) (by decide)

/-- Found in ledger 221 only, the payment is expired; and so it is when it is found in time and next
polled in ledger 221, well behind the confirmation depth. -/
theorem found_then_expired :
    tracked.expiresAt = none ∧ (sighting 221).result = some (.confirmed 105) ∧
    (tracked.afterPolls gapConfig [sighting 221]).finalityStatus = .expired ∧
    (tracked.afterPolls gapConfig [sighting 105]).finalityStatus = .confirming ∧
    Deep gapConfig 105 (sighting 221) ∧
    (tracked.afterPolls gapConfig [sighting 105, sighting 221]).finalityStatus = .expired :=
  ⟨rfl, rfl, rfl, rfl, by decide, rfl⟩

end Talos.Reconciler
