import Talos.Telegram.Queue
import Mathlib.Tactic.Linarith

/-!
# The pacing of the send queue

A call revises rows and then does at most one more thing (`perform_cases`). What the rows show of
the attempts is enough for the order, the interval and the blocks (`Paced`): the newest attempt of
a chat is always shown. It is not enough for the attempts of a minute, because a row shows its last
attempt only: these are counted right while no row is attempted twice in a minute (`Counted`).
-/

namespace Talos.Telegram

open Database

variable {config : QueueConfig} {s s' : State} {call : Call} {event : Event} {row head : Row}
  {rows : List Row}

/-! ### What should hold -/

/-- Two attempts of a chat are at least the interval apart. -/
def SpacedBy (interval : ℚ) (attempts : List Attempt) : Prop :=
  attempts.Pairwise fun later earlier =>
    later.chatId = earlier.chatId → earlier.time + interval ≤ later.time

/-- The attempts of a chat in the window that begins at a time. -/
def inWindow (chatId : String) (t : ℚ) (attempts : List Attempt) : List Attempt :=
  attempts.filter fun a => a.chatId = chatId ∧ t ≤ a.time ∧ a.time < t + rateWindowSeconds

def Limited (most : ℕ) (attempts : List Attempt) : Prop :=
  ∀ chatId t, (inWindow chatId t attempts).length ≤ most

/-- Rows are attempted for the first time in the order of their ids. -/
def FirstInOrder : List Attempt → Prop
  | [] => True
  | a :: older =>
      (a.row ∉ older.map (·.row) → ∀ b ∈ older, b.row < a.row) ∧ FirstInOrder older

def finals : List SendState := [.sent, .failed, .indeterminate]

/-- The attempt that a transition begins. -/
def Begins (r : Transition State Event) (a : Attempt) : Prop :=
  r.post.attempts = a :: r.pre.attempts

/-- The discipline of the queue in a run and in the state it has reached. -/
structure Disciplined (config : QueueConfig) (h : List (Transition State Event)) (s : State) :
    Prop where
  oneSending : (s.store.rows.filter fun row => row.state = .sending).length ≤ 1
  inOrder : FirstInOrder s.attempts
  final : ∀ r ∈ h, ∀ row ∈ r.pre.store.rows, row.state ∈ finals →
    (s.attempts.filter fun a => a.row = row.id) = r.pre.attempts.filter fun a => a.row = row.id
  spaced : SpacedBy config.minIntervalSeconds s.attempts
  limited : Limited config.maxPerMinute s.attempts
  notBlocked : ∀ r ∈ h, ∀ a, Begins r a → ∀ b ∈ r.pre.blocks, b.1 = a.chatId → b.2 ≤ a.time

/-- The first pending row, if a call would claim it, is not to be attempted again within a minute of
its last attempt. -/
def Rested (config : QueueConfig) (s : State) (event : Event) : Prop :=
  match event.call with
  | .claimNext _ => ∀ head ∈ headRow (expireLocked config event.now s.store.rows),
      ∀ t ∈ head.lastAttemptAt, t + rateWindowSeconds ≤ event.now ∨ event.now < head.nextAttemptAt
  | _ => True

instance (s : State) : DecidablePred (Rested config s)
  | ⟨now, .claimNext _⟩ =>
      inferInstanceAs (Decidable (∀ head ∈ headRow (expireLocked config now s.store.rows), _))
  | ⟨_, .enqueue _⟩ | ⟨_, .markSent ..⟩ | ⟨_, .markFailed ..⟩ | ⟨_, .markIndeterminate ..⟩
  | ⟨_, .markRetry ..⟩ | ⟨_, .blockChat ..⟩ | ⟨_, .prune⟩ => inferInstanceAs (Decidable True)

/-! ### Waiting -/

theorem le_foldl_max (waits : List ℚ) (init : ℚ) :
    init ≤ waits.foldl max init ∧ ∀ w ∈ waits, w ≤ waits.foldl max init := by
  induction waits generalizing init with
  | nil => exact ⟨le_rfl, fun _ mem => nomatch mem⟩
  | cons w rest ih =>
      obtain ⟨start, each⟩ := ih (max init w)
      refine ⟨(le_max_left _ _).trans start, fun v mem => ?_⟩
      rcases List.mem_cons.mp mem with rfl | later
      · exact (le_max_right _ _).trans start
      · exact each v later

theorem mem_recent {now t : ℚ} {chatId : String} : t ∈ recent now chatId rows ↔
    ∃ row ∈ rows, row.chatId = chatId ∧ row.lastAttemptAt = some t ∧ now - rateWindowSeconds < t := by
  simp only [recent, List.mem_insertionSort, List.mem_filterMap, List.mem_filter,
    decide_eq_true_eq, Option.filter_eq_some_iff]
  constructor
  · rintro ⟨row, ⟨mem, chat⟩, last, inside⟩
    exact ⟨row, mem, chat, last, inside⟩
  · rintro ⟨row, mem, chat, last, inside⟩
    exact ⟨row, ⟨mem, chat⟩, last, inside⟩

/-- Rows of a chat that show an attempt after a time. -/
def shownAfter (chatId : String) (t : ℚ) (row : Row) : Bool :=
  row.chatId = chatId ∧ row.lastAttemptAt.any (t < ·)

theorem shownAfter_eq_true {chatId : String} {t : ℚ} : shownAfter chatId t row = true ↔
    row.chatId = chatId ∧ ∃ last, row.lastAttemptAt = some last ∧ t < last := by
  unfold shownAfter
  cases row.lastAttemptAt <;> simp

theorem length_recent (now : ℚ) (chatId : String) :
    (recent now chatId rows).length = rows.countP (shownAfter chatId (now - rateWindowSeconds)) := by
  rw [recent, List.length_insertionSort, List.length_filterMap_eq_countP, List.countP_filter]
  refine List.countP_congr fun row _ => ?_
  simp only [shownAfter, Bool.and_eq_true, decide_eq_true_eq, Option.isSome_filter, and_comm]

theorem le_getLast {times : List ℚ} (sorted : times.Pairwise (· ≤ ·)) {last : ℚ}
    (newest : times.getLast? = some last) : ∀ t ∈ times, t ≤ last := by
  obtain ⟨before, rfl⟩ := List.getLast?_eq_some_iff.mp newest
  intro t mem
  rcases List.mem_append.mp mem with earlier | own
  · exact (List.pairwise_append.mp sorted).2.2 t earlier last List.mem_cons_self
  · exact (List.mem_singleton.mp own).le

/-- What it takes for a row to be attempted. -/
theorem waitLocked_nonpos {now : ℚ} {store : Store} (ready : ¬ 0 < waitLocked config now store head) :
    head.nextAttemptAt ≤ now ∧
      (∀ until_ ∈ store.blockedUntil head.chatId, until_ ≤ now) ∧
      (∀ t ∈ recent now head.chatId store.rows, t + config.minIntervalSeconds ≤ now) ∧
      (recent now head.chatId store.rows).length < config.maxPerMinute := by
  unfold waitLocked at ready
  dsimp only at ready
  set times := recent now head.chatId store.rows with isTimes
  have due := fun w mem => ((le_foldl_max _ 0).2 w mem).trans (not_lt.mp ready)
  refine ⟨?_, ?_, ?_, ?_⟩
  · exact sub_nonpos.mp (due _ (by simp))
  · intro until_ blocked
    rw [Option.mem_def.mp blocked] at due
    exact sub_nonpos.mp (due (until_ - now) (by simp))
  · intro t mem
    cases newest : times.getLast? with
    | none =>
        rw [List.getLast?_eq_none_iff.mp newest] at mem
        cases mem
    | some last =>
        rw [newest] at due
        have first := due (last + config.minIntervalSeconds - now) (by simp)
        have below := le_getLast (List.pairwise_insertionSort _ _) newest t mem
        linarith
  · by_contra full
    have reached : config.maxPerMinute ≤ times.length := not_lt.mp full
    have pos : 0 < times.length := Nat.lt_of_lt_of_le config.limits_pos.1 reached
    obtain ⟨last, newest⟩ := Option.isSome_iff_exists.mp
      (List.getLast?_isSome.mpr (List.ne_nil_of_length_pos pos))
    have inside : times.length - config.maxPerMinute < times.length :=
      Nat.sub_lt pos config.limits_pos.1
    rw [newest, List.getElem?_eq_getElem inside] at due
    dsimp only at due
    rw [if_pos reached] at due
    have second := due (times[times.length - config.maxPerMinute] + rateWindowSeconds - now)
      (by simp)
    obtain ⟨_, _, _, _, shown⟩ := mem_recent.mp (List.getElem_mem inside)
    linarith

/-! ### What a call does -/

/-- What a call may do to a row that it does not claim: a row that was claimed may become anything
else, one that is pending may only fail. -/
structure Changed (now : ℚ) (row row' : Row) : Prop where
  id : row'.id = row.id
  chatId : row'.chatId = row.chatId
  last : row'.lastAttemptAt = row.lastAttemptAt
  state : row'.state = row.state ∨ row.state = .sending ∧ row'.state ≠ .sending ∨
    row.state = .pending ∧ row'.state = .failed
  updated : row'.updatedAt = row.updatedAt ∨ row'.updatedAt = now

theorem Changed.same (now : ℚ) (row : Row) : Changed now row row :=
  ⟨rfl, rfl, rfl, .inl rfl, .inl rfl⟩

def State.withRows (s : State) (rows : List Row) : State :=
  { s with store := { s.store with rows := rows } }

def State.insert (s : State) (message : Message) : State :=
  { s with
    store :=
      { s.store with
        rows := s.store.rows ++ [message.row s.store.nextId s.clock]
        nextId := s.store.nextId + 1 } }

def State.claim (config : QueueConfig) (s : State) (head : Row) : State :=
  { s.withRows (update s.store.rows (fun row => row.id = head.id ∧ row.state = .pending)
      (Row.claimed config s.clock)) with
    attempts := ⟨head.id, head.chatId, s.clock⟩ :: s.attempts }

/-- What a call does after its revision of the rows. -/
inductive Next (config : QueueConfig) (s : State) : Call → State → Prop where
  | stay {call : Call} : Next config s call s
  | insert {message : Message} : Next config s (.enqueue message) (s.insert message)
  | claim {onlyId : Option ℕ} {head : Row} :
      (∀ row ∈ s.store.rows, row.state ≠ .sending) → headRow s.store.rows = some head →
      ¬ 0 < waitLocked config s.clock s.store head →
      Next config s (.claimNext onlyId) (s.claim config head)
  | block {chatId : String} {seconds : ℚ} :
      Next config s (.blockChat chatId seconds)
        { s with
          store := blockChat s.clock chatId seconds s.store
          blocks := (chatId, s.clock + clampDelay seconds) :: s.blocks }
  | prune : Next config s .prune { s with store := prune config s.clock s.store }

/-- The revision of the rows: a claim begins with the stale ones. -/
structure Revises (config : QueueConfig) (s : State) (call : Call) (f : Row → Row) : Prop where
  each : ∀ row ∈ s.store.rows, Changed s.clock row (f row)
  stale : ∀ onlyId, call = .claimNext onlyId →
    s.store.rows.map f = expireLocked config s.clock s.store.rows

theorem expire_each (now : ℚ) (rows : List Row) :
    ∃ f, rows.map f = expireLocked config now rows ∧ ∀ row ∈ rows, Changed now row (f row) := by
  refine ⟨_, (List.map_map ..).symm, fun row _ => ?_⟩
  dsimp only [Function.comp_apply]
  by_cases expired : Row.leaseExpired now row = true
  · have sending : row.state = .sending := (of_decide_eq_true expired).1
    rw [if_pos expired, if_neg (by simp [Row.tooOld])]
    exact ⟨rfl, rfl, rfl, .inr (.inl ⟨sending, nofun⟩), .inr rfl⟩
  · rw [if_neg expired]
    by_cases old : Row.tooOld config now row = true
    · have pending : row.state = .pending := (of_decide_eq_true old).1
      rw [if_pos old]
      exact ⟨rfl, rfl, rfl, .inr (.inr ⟨pending, rfl⟩), .inr rfl⟩
    · rw [if_neg old]
      exact .same now row

theorem stay_cases (call : Call) (other : ∀ onlyId, call ≠ .claimNext onlyId) :
    ∃ f, Revises config s call f ∧ Next config (s.withRows (s.store.rows.map f)) call s := by
  refine ⟨id, ⟨fun row _ => .same _ row, fun onlyId same => absurd same (other onlyId)⟩, ?_⟩
  rw [List.map_id]
  exact .stay

/-- A claimed row that is finished or returned to the queue. -/
theorem release_cases {call : Call} {p : Row → Bool} {f : Row → Row}
    (other : ∀ onlyId, call ≠ .claimNext onlyId)
    (changes : ∀ row ∈ s.store.rows, p row = true → Changed s.clock row (f row)) :
    ∃ g, Revises config s call g ∧
      Next config (s.withRows (s.store.rows.map g)) call (s.withRows (update s.store.rows p f)) := by
  refine ⟨_, ⟨fun row mem => ?_, fun onlyId same => absurd same (other onlyId)⟩, .stay⟩
  by_cases hit : p row = true
  · rw [if_pos hit]
    exact changes row mem hit
  · rw [if_neg hit]
    exact .same _ row

theorem finish_cases {itemId : ℕ} {state : SendState} {code : Option String} {messageId : Option ℤ}
    (other : ∀ onlyId, call ≠ .claimNext onlyId) (moves : state ≠ .sending) :
    ∃ f, Revises config s call f ∧ Next config (s.withRows (s.store.rows.map f)) call
      (s.after (finish s.clock itemId state code messageId s.store)) := by
  unfold finish
  cases code.forM checkCode with
  | error _ => exact stay_cases call other
  | ok _ =>
      dsimp only [bind, Except.bind]
      split
      · refine release_cases other fun row _ hit => ?_
        have sending : row.state = .sending := (of_decide_eq_true hit).2
        exact ⟨rfl, rfl, rfl, .inr (.inl ⟨sending, moves⟩), .inr rfl⟩
      · exact stay_cases call other

theorem eq_of_id (ids : rows.Pairwise fun row row' => row.id < row'.id) (mem : row ∈ rows)
    (mem' : head ∈ rows) (same : row.id = head.id) : row = head := by
  by_contra other
  have apart := List.pairwise_iff_getElem.mp ids
  obtain ⟨i, small, rfl⟩ := List.getElem_of_mem mem
  obtain ⟨j, small', rfl⟩ := List.getElem_of_mem mem'
  rcases Nat.lt_trichotomy i j with less | equal | more
  · exact absurd (apart i j small small' less) (by omega)
  · subst equal
    exact other rfl
  · exact absurd (apart j i small' small more) (by omega)

theorem retried_state (now delaySeconds : ℚ) (code : String) (consumeAttempt : Bool) (row : Row) :
    (Row.retried config now delaySeconds code consumeAttempt row).state ≠ .sending := by
  intro same
  simp only [Row.retried] at same
  split_ifs at same

theorem retry_cases (ids : s.store.rows.Pairwise fun row row' => row.id < row'.id) {itemId : ℕ}
    {delaySeconds : ℚ} {code : String} {consumeAttempt : Bool}
    (other : ∀ onlyId, call ≠ .claimNext onlyId) :
    ∃ f, Revises config s call f ∧ Next config (s.withRows (s.store.rows.map f)) call
      (s.after (markRetry config s.clock itemId delaySeconds code consumeAttempt s.store)) := by
  unfold markRetry
  cases checkCode code with
  | error _ => exact stay_cases call other
  | ok _ =>
      dsimp only [bind, Except.bind]
      split
      · next claimed found =>
          split
          · next sending =>
              refine release_cases other fun row mem hit => ?_
              have own := List.find?_some found
              cases eq_of_id ids mem (List.mem_of_find?_eq_some found)
                ((of_decide_eq_true hit).trans (of_decide_eq_true own).symm)
              exact ⟨rfl, rfl, rfl, .inr (.inl ⟨sending, retried_state _ _ _ _ _⟩), .inr rfl⟩
          · exact stay_cases call other
      · exact stay_cases call other

theorem enqueue_cases (message : Message) :
    ∃ f, Revises config s (.enqueue message) f ∧
      Next config (s.withRows (s.store.rows.map f)) (.enqueue message)
        (s.after ((enqueue config s.clock message s.store).map Prod.snd)) := by
  unfold enqueue
  cases message.check with
  | error _ => exact stay_cases _ nofun
  | ok _ =>
      dsimp only [bind, Except.bind]
      split
      · split <;> exact stay_cases _ nofun
      · split
        · exact stay_cases _ nofun
        · obtain ⟨f, same, each⟩ := @expire_each config s.clock s.store.rows
          refine ⟨f, ⟨each, nofun⟩, ?_⟩
          rw [same]
          exact .insert

theorem claim_cases (onlyId : Option ℕ) :
    ∃ f, Revises config s (.claimNext onlyId) f ∧
      Next config (s.withRows (s.store.rows.map f)) (.claimNext onlyId)
        (s.perform config (.claimNext onlyId)) := by
  obtain ⟨f, same, each⟩ := @expire_each config s.clock s.store.rows
  refine ⟨f, ⟨each, fun _ _ => same⟩, ?_⟩
  unfold State.perform claimNext
  rw [same]
  dsimp only
  split
  · exact .stay
  · next idle =>
      split
      · exact .stay
      · next head isHead =>
          split
          · exact .stay
          · next ready =>
              refine .claim ?_ isHead fun late => ready (.inr late)
              intro row mem sending
              exact idle (List.any_eq_true.mpr ⟨row, mem, decide_eq_true sending⟩)

/-- A call revises the rows, and then does at most one more thing. -/
theorem perform_cases (ids : s.store.rows.Pairwise fun row row' => row.id < row'.id)
    (call : Call) :
    ∃ f, Revises config s call f ∧
      Next config (s.withRows (s.store.rows.map f)) call (s.perform config call) := by
  have unchanged : ∀ {call s'}, (∀ onlyId, call ≠ .claimNext onlyId) → Next config s call s' →
      ∃ f, Revises config s call f ∧ Next config (s.withRows (s.store.rows.map f)) call s' := by
    intro call s' other next
    refine ⟨id, ⟨fun row _ => .same _ row, fun onlyId same => absurd same (other onlyId)⟩, ?_⟩
    rw [List.map_id]
    exact next
  cases call with
  | enqueue message => exact enqueue_cases message
  | claimNext onlyId => exact claim_cases onlyId
  | markSent | markFailed | markIndeterminate => exact finish_cases nofun nofun
  | markRetry => exact retry_cases ids nofun
  | blockChat chatId seconds => exact unchanged nofun .block
  | prune => exact unchanged nofun .prune

/-! ### What the rows show -/

/-- The newest attempt of a chat is shown by a row, or is more than a minute old. -/
structure Paced (config : QueueConfig) (s : State) : Prop where
  ids : s.store.rows.Pairwise fun row row' => row.id < row'.id
  below : ∀ row ∈ s.store.rows, row.id < s.store.nextId
  one : (s.store.rows.filter fun row => row.state = .sending).length ≤ 1
  last : ∀ row ∈ s.store.rows, ∀ t ∈ row.lastAttemptAt, t ≤ row.updatedAt
  updated : ∀ row ∈ s.store.rows, row.updatedAt ≤ s.clock
  attempted : ∀ row ∈ s.store.rows, row.state = .sending → row.id ∈ s.attempts.map (·.row)
  attemptBelow : ∀ a ∈ s.attempts, a.row < s.store.nextId
  waiting : ∀ a ∈ s.attempts, ∀ row ∈ s.store.rows, row.state = .pending →
    row.id ∉ s.attempts.map (·.row) → a.row < row.id
  shown : ∀ a ∈ s.attempts, (∃ row ∈ s.store.rows, row.chatId = a.chatId ∧
    ∃ t ∈ row.lastAttemptAt, a.time ≤ t) ∨ a.time + rateWindowSeconds ≤ s.clock
  blocked : ∀ b ∈ s.blocks, (∃ until_ ∈ s.store.blockedUntil b.1, b.2 ≤ until_) ∨ b.2 ≤ s.clock
  inOrder : FirstInOrder s.attempts
  spaced : SpacedBy config.minIntervalSeconds s.attempts

theorem Paced.tick (paced : Paced config s) {now : ℚ} (later : s.clock ≤ now) :
    Paced config { s with clock := now } where
  ids := paced.ids
  below := paced.below
  one := paced.one
  last := paced.last
  updated row mem := (paced.updated row mem).trans later
  attempted := paced.attempted
  attemptBelow := paced.attemptBelow
  waiting := paced.waiting
  shown a mem := (paced.shown a mem).imp_right fun old => old.trans later
  blocked b mem := (paced.blocked b mem).imp_right fun past => past.trans later
  inOrder := paced.inOrder
  spaced := paced.spaced

theorem Changed.sending {now : ℚ} {row' : Row} (changed : Changed now row row')
    (sending : row'.state = .sending) : row.state = .sending := by
  rcases changed.state with same | ⟨before, -⟩ | ⟨-, failed⟩
  · exact same.symm.trans sending
  · exact before
  · cases failed.symm.trans sending

theorem Paced.revise (paced : Paced config s) {f : Row → Row}
    (each : ∀ row ∈ s.store.rows, Changed s.clock row (f row)) :
    Paced config (s.withRows (s.store.rows.map f)) where
  ids := by
    refine List.pairwise_map.mpr (paced.ids.imp_of_mem fun mem mem' less => ?_)
    rw [(each _ mem).id, (each _ mem').id]
    exact less
  below row mem := by
    obtain ⟨row, isRow, rfl⟩ := List.mem_map.mp mem
    rw [(each row isRow).id]
    exact paced.below row isRow
  one := by
    refine le_trans ?_ paced.one
    change ((s.store.rows.map f).filter _).length ≤ _
    rw [List.filter_map, List.length_map, ← List.countP_eq_length_filter,
      ← List.countP_eq_length_filter]
    refine List.countP_mono_left fun row mem sending => ?_
    exact decide_eq_true ((each row mem).sending (of_decide_eq_true sending))
  last row mem t shown := by
    obtain ⟨row, isRow, rfl⟩ := List.mem_map.mp mem
    rw [(each row isRow).last] at shown
    have before := paced.last row isRow t shown
    rcases (each row isRow).updated with same | now
    · rw [same]
      exact before
    · rw [now]
      exact before.trans (paced.updated row isRow)
  updated row mem := by
    obtain ⟨row, isRow, rfl⟩ := List.mem_map.mp mem
    rcases (each row isRow).updated with same | now
    · rw [same]
      exact paced.updated row isRow
    · rw [now]
      exact le_rfl
  attempted row mem sending := by
    obtain ⟨row, isRow, rfl⟩ := List.mem_map.mp mem
    rw [(each row isRow).id]
    exact paced.attempted row isRow ((each row isRow).sending sending)
  attemptBelow := paced.attemptBelow
  waiting a isAttempt row mem pending fresh := by
    obtain ⟨row, isRow, rfl⟩ := List.mem_map.mp mem
    rw [(each row isRow).id] at fresh ⊢
    refine paced.waiting a isAttempt row isRow ?_ fresh
    rcases (each row isRow).state with same | ⟨before, -⟩ | ⟨before, -⟩
    · exact same.symm.trans pending
    · exact absurd (paced.attempted row isRow before) fresh
    · exact before
  shown a isAttempt := by
    refine (paced.shown a isAttempt).imp_left ?_
    rintro ⟨row, isRow, chat, t, last, le⟩
    refine ⟨f row, List.mem_map_of_mem isRow, ?_, t, ?_, le⟩
    · rw [(each row isRow).chatId]
      exact chat
    · rw [(each row isRow).last]
      exact last
  blocked := paced.blocked
  inOrder := paced.inOrder
  spaced := paced.spaced

theorem Paced.insert (paced : Paced config s) (message : Message) :
    Paced config (s.insert message) where
  ids := by
    refine List.pairwise_append.mpr ⟨paced.ids, List.pairwise_singleton _ _, ?_⟩
    intro row mem new isNew
    rw [List.mem_singleton.mp isNew]
    exact paced.below row mem
  below row mem := by
    rcases List.mem_append.mp mem with old | new
    · exact (paced.below row old).trans (Nat.lt_succ_self _)
    · rw [List.mem_singleton.mp new]
      exact Nat.lt_succ_self _
  one := by
    change ((s.store.rows ++ [message.row s.store.nextId s.clock]).filter _).length ≤ 1
    rw [List.filter_append]
    exact (List.append_nil _).symm ▸ paced.one
  last row mem t shown := by
    rcases List.mem_append.mp mem with old | new
    · exact paced.last row old t shown
    · rw [List.mem_singleton.mp new] at shown
      cases shown
  updated row mem := by
    rcases List.mem_append.mp mem with old | new
    · exact paced.updated row old
    · rw [List.mem_singleton.mp new]
      exact le_rfl
  attempted row mem sending := by
    rcases List.mem_append.mp mem with old | new
    · exact paced.attempted row old sending
    · rw [List.mem_singleton.mp new] at sending
      cases sending
  attemptBelow a mem := (paced.attemptBelow a mem).trans (Nat.lt_succ_self _)
  waiting a isAttempt row mem pending fresh := by
    rcases List.mem_append.mp mem with old | new
    · exact paced.waiting a isAttempt row old pending fresh
    · rw [List.mem_singleton.mp new]
      exact paced.attemptBelow a isAttempt
  shown a isAttempt := by
    refine (paced.shown a isAttempt).imp_left ?_
    rintro ⟨row, isRow, rest⟩
    exact ⟨row, List.mem_append_left _ isRow, rest⟩
  blocked := paced.blocked
  inOrder := paced.inOrder
  spaced := paced.spaced

theorem Paced.block (paced : Paced config s) (chatId : String) (seconds : ℚ) :
    Paced config
      { s with
        store := blockChat s.clock chatId seconds s.store
        blocks := (chatId, s.clock + clampDelay seconds) :: s.blocks } where
  ids := paced.ids
  below := paced.below
  one := paced.one
  last := paced.last
  updated := paced.updated
  attempted := paced.attempted
  attemptBelow := paced.attemptBelow
  waiting := paced.waiting
  shown := paced.shown
  blocked b mem := by
    by_cases own : b.1 = chatId
    · have now : (blockChat s.clock chatId seconds s.store).blockedUntil b.1 = some
          ((s.store.blockedUntil chatId).elim (s.clock + clampDelay seconds)
            (max · (s.clock + clampDelay seconds))) := by
        rw [own]
        exact Function.update_self _ _ _
      rcases List.mem_cons.mp mem with rfl | old
      · refine .inl ⟨_, now, ?_⟩
        cases s.store.blockedUntil chatId with
        | none => exact le_rfl
        | some before => exact le_max_right _ _
      · refine (paced.blocked b old).imp_left ?_
        rintro ⟨until_, before, le⟩
        refine ⟨_, now, ?_⟩
        rw [own, Option.mem_def] at before
        rw [before]
        exact le.trans (le_max_left _ _)
    · rcases List.mem_cons.mp mem with rfl | old
      · exact absurd rfl own
      · refine (paced.blocked b old).imp_left ?_
        rintro ⟨until_, before, le⟩
        exact ⟨until_, (Function.update_of_ne own _ _).trans before, le⟩
  inOrder := paced.inOrder
  spaced := paced.spaced

/-- The first pending row has the smallest id of those that are pending. -/
theorem headRow_first (ids : rows.Pairwise fun row row' => row.id < row'.id)
    (isHead : headRow rows = some head) :
    head ∈ rows ∧ head.state = .pending ∧
      ∀ row ∈ rows, row.state = .pending → row.id ≠ head.id → head.id < row.id := by
  obtain ⟨pending, before, after, rfl, none_⟩ := List.find?_eq_some_iff_append.mp isHead
  refine ⟨List.mem_append_right _ List.mem_cons_self, of_decide_eq_true pending, ?_⟩
  intro row mem isPending other
  rcases List.mem_append.mp mem with early | late
  · have not := none_ row early
    simp [isPending] at not
  · rcases List.mem_cons.mp late with rfl | later
    · exact absurd rfl other
    · exact List.rel_of_pairwise_cons (List.pairwise_append.mp ids).2.1 later

theorem length_le_one_of_id {id : ℕ} (ids : rows.Pairwise fun row row' => row.id < row'.id)
    (same : ∀ row ∈ rows, row.id = id) : rows.length ≤ 1 := by
  match rows with
  | [] => exact Nat.zero_le 1
  | [_] => exact le_rfl
  | first :: second :: _ =>
      have less := List.rel_of_pairwise_cons ids List.mem_cons_self
      have here := same first List.mem_cons_self
      have there := same second (List.mem_cons_of_mem _ List.mem_cons_self)
      omega

/-- The rows after a claim. -/
theorem mem_claim (mem : row ∈ (s.claim config head).store.rows) :
    (∃ before ∈ s.store.rows, before.id = head.id ∧ before.state = .pending ∧
      row = before.claimed config s.clock) ∨
    row ∈ s.store.rows ∧ ¬ (row.id = head.id ∧ row.state = .pending) := by
  obtain ⟨before, isRow, rfl⟩ := List.mem_map.mp mem
  by_cases hit : before.id = head.id ∧ before.state = .pending
  · left
    exact ⟨before, isRow, hit.1, hit.2, if_pos (decide_eq_true hit)⟩
  · right
    rw [if_neg (by simpa using hit)]
    exact ⟨isRow, hit⟩

theorem claim_ids (ids : s.store.rows.Pairwise fun row row' => row.id < row'.id) :
    (s.claim config head).store.rows.Pairwise fun row row' => row.id < row'.id := by
  have kept : ∀ row : Row, (if decide (row.id = head.id ∧ row.state = .pending) then
      row.claimed config s.clock else row).id = row.id := by
    intro row
    split <;> rfl
  refine List.pairwise_map.mpr (ids.imp fun {row row'} less => ?_)
  rw [kept, kept]
  exact less

theorem Paced.claim (paced : Paced config s) (short : config.minIntervalSeconds ≤ rateWindowSeconds)
    (idle : ∀ row ∈ s.store.rows, row.state ≠ .sending) (isHead : headRow s.store.rows = some head)
    (ready : ¬ 0 < waitLocked config s.clock s.store head) : Paced config (s.claim config head) := by
  obtain ⟨here, pending, first⟩ := headRow_first paced.ids isHead
  obtain ⟨-, -, interval, -⟩ := waitLocked_nonpos ready
  have claimed : head.claimed config s.clock ∈ (s.claim config head).store.rows :=
    List.mem_map.mpr ⟨head, here, if_pos (decide_eq_true ⟨rfl, pending⟩)⟩
  refine ⟨claim_ids paced.ids, ?_, ?_, ?_, ?_, ?_, ?_, ?_, ?_, paced.blocked, ?_, ?_⟩
  · intro row mem
    rcases mem_claim mem with ⟨before, isRow, -, -, rfl⟩ | ⟨isRow, -⟩
    · exact paced.below before isRow
    · exact paced.below row isRow
  · refine @length_le_one_of_id _ head.id ((claim_ids paced.ids).filter _) fun row mem => ?_
    obtain ⟨isRow, sending⟩ := List.mem_filter.mp mem
    rcases mem_claim isRow with ⟨before, -, own, -, rfl⟩ | ⟨old, -⟩
    · exact own
    · exact absurd (of_decide_eq_true sending) (idle row old)
  · intro row mem t shown
    rcases mem_claim mem with ⟨before, -, -, -, rfl⟩ | ⟨isRow, -⟩
    · cases shown
      exact le_rfl
    · exact paced.last row isRow t shown
  · intro row mem
    rcases mem_claim mem with ⟨before, -, -, -, rfl⟩ | ⟨isRow, -⟩
    · exact le_rfl
    · exact paced.updated row isRow
  · intro row mem sending
    rcases mem_claim mem with ⟨before, -, own, -, rfl⟩ | ⟨old, -⟩
    · exact List.mem_cons.mpr (.inl own)
    · exact absurd sending (idle row old)
  · intro a mem
    rcases List.mem_cons.mp mem with rfl | old
    · exact paced.below head here
    · exact paced.attemptBelow a old
  · intro a isAttempt row mem isPending fresh
    rcases mem_claim mem with ⟨before, -, -, -, rfl⟩ | ⟨isRow, other⟩
    · cases isPending
    · rcases List.mem_cons.mp isAttempt with rfl | old
      · exact first row isRow isPending fun same => other ⟨same, isPending⟩
      · exact paced.waiting a old row isRow isPending fun seen =>
          fresh (List.mem_cons_of_mem _ seen)
  · intro a mem
    rcases List.mem_cons.mp mem with rfl | old
    · exact .inl ⟨_, claimed, rfl, s.clock, rfl, le_rfl⟩
    · refine (paced.shown a old).imp_left ?_
      rintro ⟨row, isRow, chat, t, last, le⟩
      by_cases hit : row.id = head.id ∧ row.state = .pending
      · refine ⟨row.claimed config s.clock,
          List.mem_map.mpr ⟨row, isRow, if_pos (decide_eq_true hit)⟩, chat, s.clock, rfl, ?_⟩
        exact le.trans ((paced.last row isRow t last).trans (paced.updated row isRow))
      · exact ⟨row, List.mem_map.mpr ⟨row, isRow, if_neg (by simpa using hit)⟩, chat, t, last, le⟩
  · refine ⟨fun fresh b old => ?_, paced.inOrder⟩
    exact paced.waiting b old head here pending fresh
  · refine List.pairwise_cons.mpr ⟨fun a old chat => ?_, paced.spaced⟩
    change a.time + config.minIntervalSeconds ≤ s.clock
    rcases paced.shown a old with ⟨row, isRow, own, t, last, le⟩ | aged
    · by_cases young : s.clock - rateWindowSeconds < t
      · have waited := interval t (mem_recent.mpr ⟨row, isRow, own.trans chat.symm, last, young⟩)
        linarith
      · linarith
    · linarith

theorem Paced.prune (paced : Paced config s) :
    Paced config { s with store := prune config s.clock s.store } where
  ids := paced.ids.filter _
  below row mem := paced.below row (List.mem_of_mem_filter mem)
  one := by
    refine le_trans ?_ paced.one
    exact (List.filter_sublist.filter _).length_le
  last row mem := paced.last row (List.mem_of_mem_filter mem)
  updated row mem := paced.updated row (List.mem_of_mem_filter mem)
  attempted row mem := paced.attempted row (List.mem_of_mem_filter mem)
  attemptBelow := paced.attemptBelow
  waiting a isAttempt row mem := paced.waiting a isAttempt row (List.mem_of_mem_filter mem)
  shown a isAttempt := by
    rcases paced.shown a isAttempt with ⟨row, isRow, chat, t, last, le⟩ | old
    · by_cases kept : row ∈ (Telegram.prune config s.clock s.store).rows
      · exact .inl ⟨row, kept, chat, t, last, le⟩
      · right
        have dropped : row.updatedAt < s.clock - config.retentionSeconds := by
          by_contra young
          refine kept (List.mem_filter.mpr ⟨isRow, ?_⟩)
          simp [young]
        have before := paced.last row isRow t last
        have covers := config.retention_covers
        have positive : (0 : ℚ) ≤ rateWindowSeconds := by
          rw [rateWindowSeconds]
          norm_num
        change a.time + rateWindowSeconds ≤ s.clock
        linarith
    · exact .inr old
  blocked b mem := by
    rcases paced.blocked b mem with ⟨until_, before, le⟩ | past
    · by_cases kept : s.clock - config.retentionSeconds ≤ until_
      · exact .inl ⟨until_, Option.filter_eq_some_iff.mpr ⟨before, decide_eq_true kept⟩, le⟩
      · right
        have covers := config.retention_covers
        have positive : (0 : ℚ) ≤ rateWindowSeconds := by
          rw [rateWindowSeconds]
          norm_num
        change b.2 ≤ s.clock
        linarith
    · exact .inr past
  inOrder := paced.inOrder
  spaced := paced.spaced

theorem Paced.next (paced : Paced config s) (short : config.minIntervalSeconds ≤ rateWindowSeconds)
    (next : Next config s call s') : Paced config s' := by
  cases next with
  | stay => exact paced
  | insert => exact paced.insert _
  | claim idle isHead ready => exact paced.claim short idle isHead ready
  | block => exact paced.block _ _
  | prune => exact paced.prune

/-! ### The attempts of a minute -/

def attemptedAfter (chatId : String) (t : ℚ) (a : Attempt) : Bool := a.chatId = chatId ∧ t < a.time

/-- The rows show all attempts of the last minute. -/
def Counted (s : State) : Prop :=
  ∀ chatId t, s.clock ≤ t + rateWindowSeconds →
    s.attempts.countP (attemptedAfter chatId t) ≤ s.store.rows.countP (shownAfter chatId t)

theorem Counted.tick (counted : Counted s) {now : ℚ} (later : s.clock ≤ now) :
    Counted { s with clock := now } :=
  fun chatId t young => counted chatId t (later.trans young)

theorem Counted.revise (counted : Counted s) {f : Row → Row}
    (each : ∀ row ∈ s.store.rows, Changed s.clock row (f row)) :
    Counted (s.withRows (s.store.rows.map f)) := by
  intro chatId t young
  refine (counted chatId t young).trans (Nat.le_of_eq ?_)
  change _ = (s.store.rows.map f).countP _
  rw [List.countP_map]
  refine List.countP_congr fun row mem => ?_
  rw [Function.comp_apply, shownAfter, shownAfter, (each row mem).chatId, (each row mem).last]

theorem claim_rows (ids : s.store.rows.Pairwise fun row row' => row.id < row'.id)
    (isHead : headRow s.store.rows = some head) :
    ∃ before after, s.store.rows = before ++ head :: after ∧
      (s.claim config head).store.rows = before ++ head.claimed config s.clock :: after := by
  obtain ⟨pending, before, after, same, none_⟩ := List.find?_eq_some_iff_append.mp isHead
  refine ⟨before, after, same, ?_⟩
  have isPending : head.state = .pending := of_decide_eq_true pending
  rw [same] at ids
  have early : ∀ row ∈ before, decide (row.id = head.id ∧ row.state = .pending) = false := by
    intro row mem
    have not := none_ row mem
    refine decide_eq_false fun hit => ?_
    simp [hit.2] at not
  have late : ∀ row ∈ after, decide (row.id = head.id ∧ row.state = .pending) = false := by
    intro row mem
    have less := List.rel_of_pairwise_cons (List.pairwise_append.mp ids).2.1 mem
    exact decide_eq_false fun hit => absurd hit.1 (Nat.ne_of_gt less)
  change update s.store.rows _ _ = _
  rw [same, update, List.map_append, List.map_cons, if_pos (decide_eq_true ⟨rfl, isPending⟩)]
  congr 1
  · conv_rhs => rw [← List.map_id before]
    refine List.map_congr_left fun row mem => ?_
    rw [early row mem]
    rfl
  · congr 1
    conv_rhs => rw [← List.map_id after]
    refine List.map_congr_left fun row mem => ?_
    rw [late row mem]
    rfl

theorem Counted.claim (counted : Counted s)
    (ids : s.store.rows.Pairwise fun row row' => row.id < row'.id)
    (isHead : headRow s.store.rows = some head)
    (rested : ∀ t ∈ head.lastAttemptAt, t + rateWindowSeconds ≤ s.clock) :
    Counted (s.claim config head) := by
  intro chatId t young
  obtain ⟨before, after, rows, rows'⟩ := @claim_rows config s head ids isHead
  have hidden : shownAfter chatId t head = false := by
    refine Bool.eq_false_iff.mpr fun shown => ?_
    obtain ⟨-, last, isLast, less⟩ := shownAfter_eq_true.mp shown
    have old := rested last isLast
    change s.clock ≤ t + rateWindowSeconds at young
    linarith
  have all := counted chatId t young
  rw [rows, List.countP_append, List.countP_cons, hidden] at all
  rw [rows', List.countP_append, List.countP_cons]
  change (⟨head.id, head.chatId, s.clock⟩ :: s.attempts).countP _ ≤ _
  rw [List.countP_cons]
  have same : attemptedAfter chatId t ⟨head.id, head.chatId, s.clock⟩ =
      shownAfter chatId t (head.claimed config s.clock) := by
    simp [attemptedAfter, shownAfter, Row.claimed]
  rw [same]
  simp only [Bool.false_eq_true, if_false] at all
  omega

theorem Counted.insert (counted : Counted s) (message : Message) : Counted (s.insert message) := by
  intro chatId t young
  refine (counted chatId t young).trans ?_
  change _ ≤ (s.store.rows ++ _).countP _
  rw [List.countP_append]
  exact Nat.le_add_right _ _

theorem Counted.prune (counted : Counted s) (paced : Paced config s) :
    Counted { s with store := prune config s.clock s.store } := by
  intro chatId t young
  refine (counted chatId t young).trans (Nat.le_of_eq ?_)
  change _ = (s.store.rows.filter _).countP _
  rw [List.countP_filter]
  refine List.countP_congr fun row mem => ?_
  rw [Bool.and_eq_true]
  refine ⟨fun shown => ⟨shown, ?_⟩, And.left⟩
  obtain ⟨-, last, isLast, less⟩ := shownAfter_eq_true.mp shown
  have updated := paced.last row mem last isLast
  have covers := config.retention_covers
  have positive : (0 : ℚ) ≤ rateWindowSeconds := by
    rw [rateWindowSeconds]
    norm_num
  change s.clock ≤ t + rateWindowSeconds at young
  have kept : ¬ row.updatedAt < s.clock - config.retentionSeconds := by linarith
  simp [kept]

/-- A window that a claim falls into has room for it. -/
theorem limited_claim (limited : Limited config.maxPerMinute s.attempts) (counted : Counted s)
    (ready : ¬ 0 < waitLocked config s.clock s.store head) :
    Limited config.maxPerMinute (s.claim config head).attempts := by
  obtain ⟨-, -, -, room⟩ := waitLocked_nonpos ready
  rw [length_recent] at room
  intro chatId t
  change (List.filter _ (_ :: s.attempts)).length ≤ _
  rw [List.filter_cons]
  split
  · next inside =>
      obtain ⟨chat, -, within⟩ := of_decide_eq_true inside
      change s.clock < _ at within
      have shown := counted chatId (s.clock - rateWindowSeconds) (by linarith)
      have fewer : (s.attempts.filter fun a => a.chatId = chatId ∧ t ≤ a.time ∧
          a.time < t + rateWindowSeconds).length ≤
          s.attempts.countP (attemptedAfter chatId (s.clock - rateWindowSeconds)) := by
        rw [← List.countP_eq_length_filter]
        refine List.countP_mono_left fun a _ isIn => ?_
        obtain ⟨own, from_, -⟩ := of_decide_eq_true isIn
        exact decide_eq_true ⟨own, by linarith⟩
      change head.chatId = chatId at chat
      rw [chat] at room
      rw [List.length_cons]
      omega
  · exact limited chatId t

/-! ### Runs -/

theorem paced_init (config : QueueConfig) (start : ℚ) :
    Paced config (machine config start).init where
  ids := .nil
  below _ mem := nomatch mem
  one := Nat.zero_le 1
  last _ mem := nomatch mem
  updated _ mem := nomatch mem
  attempted _ mem := nomatch mem
  attemptBelow _ mem := nomatch mem
  waiting _ mem := nomatch mem
  shown _ mem := nomatch mem
  blocked _ mem := nomatch mem
  inOrder := trivial
  spaced := .nil

theorem step_cases (paced : Paced config s) (ok : step config s event = some s') :
    s.clock ≤ event.now ∧ ∃ f, Revises config { s with clock := event.now } event.call f ∧
      Next config (State.withRows { s with clock := event.now } (s.store.rows.map f)) event.call
        s' := by
  unfold step at ok
  split at ok
  · next later =>
      cases ok
      exact ⟨later, perform_cases (s := { s with clock := event.now }) paced.ids event.call⟩
  · cases ok

theorem Paced.step (paced : Paced config s) (short : config.minIntervalSeconds ≤ rateWindowSeconds)
    (ok : step config s event = some s') : Paced config s' := by
  obtain ⟨later, f, revises, next⟩ := step_cases paced ok
  exact ((paced.tick later).revise revises.each).next short next

/-- A claimed row is due. -/
theorem Rested.claimed {now : ℚ} {f : Row → Row} {onlyId : Option ℕ} {s : State}
    (rested : Rested config s ⟨now, .claimNext onlyId⟩)
    (revises : Revises config { s with clock := now } (.claimNext onlyId) f)
    (isHead : headRow (s.store.rows.map f) = some head)
    (ready : ¬ 0 < waitLocked config now
      { s.store with rows := s.store.rows.map f } head) :
    ∀ t ∈ head.lastAttemptAt, t + rateWindowSeconds ≤ now := by
  have stale : s.store.rows.map f = expireLocked config now s.store.rows :=
    revises.stale onlyId rfl
  intro t last
  rw [stale] at isHead
  rcases rested head isHead t last with old | early
  · exact old
  · exact absurd (waitLocked_nonpos ready).1 (not_le.mpr early)

theorem step_counted (paced : Paced config s) (counted : Counted s)
    (limited : Limited config.maxPerMinute s.attempts) (rested : Rested config s event)
    (ok : step config s event = some s') :
    Counted s' ∧ Limited config.maxPerMinute s'.attempts := by
  obtain ⟨now, call⟩ := event
  obtain ⟨later, f, revises, next⟩ := step_cases paced ok
  have before := (counted.tick later).revise revises.each
  have pacedBefore := (paced.tick later).revise revises.each
  cases next with
  | stay => exact ⟨before, limited⟩
  | insert => exact ⟨before.insert _, limited⟩
  | claim idle isHead ready =>
      exact ⟨before.claim pacedBefore.ids isHead (rested.claimed revises isHead ready),
        limited_claim limited before ready⟩
  | block => exact ⟨before, limited⟩
  | prune => exact ⟨before.prune pacedBefore, limited⟩

/-- A row that is in a final state, or is deleted. -/
def Closed (id : ℕ) (s : State) : Prop :=
  id < s.store.nextId ∧ ∀ row ∈ s.store.rows, row.id = id → row.state ∈ finals

theorem Changed.final {now : ℚ} {row' : Row} (changed : Changed now row row')
    (final : row.state ∈ finals) : row'.state ∈ finals := by
  rcases changed.state with same | ⟨sending, -⟩ | ⟨pending, -⟩
  · rw [same]
    exact final
  · rw [sending] at final
    exact absurd final (by decide)
  · rw [pending] at final
    exact absurd final (by decide)

/-- A closed row is not attempted. -/
theorem step_closed (paced : Paced config s) {id : ℕ} (closed : Closed id s)
    (ok : step config s event = some s') :
    Closed id s' ∧ (s'.attempts.filter fun a => a.row = id) = s.attempts.filter fun a => a.row = id := by
  obtain ⟨now, call⟩ := event
  obtain ⟨later, f, revises, next⟩ := step_cases paced ok
  have before : Closed id (State.withRows { s with clock := now } (s.store.rows.map f)) := by
    refine ⟨closed.1, fun row mem own => ?_⟩
    obtain ⟨row, isRow, rfl⟩ := List.mem_map.mp mem
    have changed := revises.each row isRow
    exact changed.final (closed.2 row isRow (changed.id.symm.trans own))
  cases next with
  | stay => exact ⟨before, rfl⟩
  | insert =>
      refine ⟨⟨before.1.trans (Nat.lt_succ_self _), fun row mem own => ?_⟩, rfl⟩
      rcases List.mem_append.mp mem with old | new
      · exact before.2 row old own
      · rw [List.mem_singleton.mp new] at own
        exact absurd own (Nat.ne_of_gt before.1)
  | @claim onlyId head idle isHead ready =>
      have pacedBefore := (paced.tick later).revise revises.each
      obtain ⟨here, pending, -⟩ := headRow_first pacedBefore.ids isHead
      have other : head.id ≠ id := by
        intro own
        have final := before.2 head here own
        rw [pending] at final
        exact absurd final (by decide)
      refine ⟨⟨before.1, fun row mem own => ?_⟩, ?_⟩
      · rcases mem_claim mem with ⟨_, -, same, -, rfl⟩ | ⟨isRow, -⟩
        · exact absurd (same.symm.trans own) other
        · exact before.2 row isRow own
      · exact List.filter_cons_of_neg (by simpa using other)
  | block => exact ⟨before, rfl⟩
  | prune =>
      exact ⟨⟨before.1, fun row mem own => before.2 row (List.mem_of_mem_filter mem) own⟩, rfl⟩

/-- An attempt begins after all blocks of its chat. -/
theorem step_notBlocked (paced : Paced config s) (ok : step config s event = some s') {a : Attempt}
    (begins : s'.attempts = a :: s.attempts) :
    ∀ b ∈ s.blocks, b.1 = a.chatId → b.2 ≤ a.time := by
  obtain ⟨now, call⟩ := event
  obtain ⟨later, f, revises, next⟩ := step_cases paced ok
  have pacedBefore := (paced.tick later).revise revises.each
  have none_ : ∀ {attempts : List Attempt}, attempts ≠ a :: attempts :=
    fun same => absurd (congrArg List.length same) (by simp)
  intro b mem chat
  cases next with
  | stay | insert | block | prune => exact absurd begins none_
  | claim idle isHead ready =>
      cases (List.cons.inj begins).1
      obtain ⟨-, open_, -, -⟩ := waitLocked_nonpos ready
      rcases pacedBefore.blocked b mem with ⟨until_, blocked, le⟩ | past
      · rw [chat] at blocked
        exact le.trans (open_ until_ blocked)
      · exact past

/-- In every run in which no row is attempted again within a minute, with an interval of at most
a minute, the queue keeps its discipline. -/
theorem disciplined_of_rested (short : config.minIntervalSeconds ≤ rateWindowSeconds) {start : ℚ}
    {h : List (Transition State Event)} (run : Run (machine config start) h s)
    (rested : ∀ r ∈ h, Rested config r.pre r.event) : Disciplined config h s := by
  have paced : ∀ {h s}, Run (machine config start) h s → Paced config s :=
    fun run => run.invariant (paced_init config start) fun paced ok => paced.step short ok
  have counted : Paced config s ∧ Counted s ∧ Limited config.maxPerMinute s.attempts :=
    run.invariant_along (C := fun r => Rested config r.pre r.event)
      (I := fun s => Paced config s ∧ Counted s ∧ Limited config.maxPerMinute s.attempts) rested
      ⟨paced_init config start, fun _ _ _ => Nat.zero_le _, fun _ _ => Nat.zero_le _⟩
      fun ⟨paced, counted, limited⟩ ok rested =>
        ⟨paced.step short ok, step_counted paced counted limited rested ok⟩
  refine ⟨counted.1.one, counted.1.inOrder, ?_, counted.1.spaced, counted.2.2, ?_⟩
  · intro r mem row isRow final
    obtain ⟨later, earlier, rfl⟩ := List.append_of_mem mem
    obtain ⟨before, taken, after⟩ := run.split
    have pacedBefore := paced before
    have closed : Closed row.id r.pre := by
      refine ⟨pacedBefore.below row isRow, fun other isOther same => ?_⟩
      rw [eq_of_id pacedBefore.ids isOther isRow same]
      exact final
    have first := step_closed pacedBefore closed taken
    have all := after.invariant (I := fun t => Paced config t ∧ Closed row.id t ∧
        (t.attempts.filter fun a => a.row = row.id) =
          r.pre.attempts.filter fun a => a.row = row.id)
      ⟨pacedBefore.step short taken, first⟩ fun ⟨paced, closed, same⟩ ok =>
        ⟨paced.step short ok, (step_closed paced closed ok).1,
          (step_closed paced closed ok).2.trans same⟩
    exact all.2.2
  · intro r mem a begins
    obtain ⟨later, earlier, rfl⟩ := List.append_of_mem mem
    obtain ⟨before, taken, -⟩ := run.split
    exact step_notBlocked (paced before) taken begins

/-! ### Three attempts of one row -/

def exampleConfig : QueueConfig := { maxPerMinute := 2 }

def exampleMessage (text : String) : Message := ⟨"chat", "post", text, none, none⟩

def played (events : List Event) : List (Transition State Event) × State :=
  (machine exampleConfig 0).play events ([], (machine exampleConfig 0).init)

/-- Two messages, the second retried after a minute. -/
def patient : List Event :=
  [⟨0, .enqueue (exampleMessage "first")⟩, ⟨0, .enqueue (exampleMessage "second")⟩,
    ⟨1, .claimNext none⟩, ⟨1, .markSent 1 (some 7)⟩, ⟨2, .claimNext none⟩,
    ⟨3, .blockChat "chat" 60⟩, ⟨3, .markRetry 2 60 "rate_limited" false⟩, ⟨30, .claimNext none⟩,
    ⟨63, .claimNext none⟩, ⟨64, .markSent 2 (some 8)⟩]

theorem disciplined_of_rested_patient :
    (played patient).2.attempts.length = 3 ∧
      Disciplined exampleConfig (played patient).1 (played patient).2 :=
  ⟨by decide +kernel, disciplined_of_rested (by decide +kernel) (Machine.play_run _ _)
    (by decide +kernel)⟩

/-- One message that is retried after two seconds. -/
def impatient : List Event :=
  [⟨0, .enqueue (exampleMessage "first")⟩, ⟨1, .claimNext none⟩,
    ⟨1, .markRetry 1 2 "server_error" true⟩, ⟨3, .claimNext none⟩,
    ⟨3, .markRetry 1 2 "server_error" true⟩, ⟨5, .claimNext none⟩]

/-- Of two attempts a minute, three are made: the row shows the last one only. -/
theorem not_disciplined :
    Reachable (machine exampleConfig 0) (played impatient).2 ∧
      ¬ Disciplined exampleConfig (played impatient).1 (played impatient).2 := by
  refine ⟨⟨_, Machine.play_run _ _⟩, fun disciplined => ?_⟩
  have three : (inWindow "chat" 0 (played impatient).2.attempts).length = 3 := by decide +kernel
  have two := disciplined.limited "chat" 0
  rw [three] at two
  exact absurd two (by decide)

end Talos.Telegram
