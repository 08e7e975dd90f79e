import Talos.Redis

/-!
# The rate-limit stores

Both stores count the calls under a key and say when the count starts anew.
`MemoryRateLimitStore` keeps the end of a window beside its count and starts a new window
at the first call after it. `RedisRateLimitStore` sends INCR and PEXPIREAT in one
pipeline, and PTTL when the key was there before. Without Redis it falls back to its own
memory store, or denies.

A call takes place at one instant, in milliseconds.
-/

namespace Talos.RateLimit

open Soroban (Map)

structure Call where
  key : String
  windowMs : Int
  now : Int
  deriving DecidableEq

structure Result where
  count : Int
  resetAt : Int
  deriving DecidableEq

/-! ### In memory -/

structure MemWindow where
  count : Int
  resetAt : Int
  deriving DecidableEq

abbrev Windows := Map String MemWindow

/-- The window of a key, unless it has ended. -/
def Windows.live (windows : Windows) (now : Int) (key : String) : Option MemWindow :=
  (windows key).filter fun win => now ≤ win.resetAt

/-- `MemoryRateLimitStore.increment`. -/
def memoryIncrement (windows : Windows) (call : Call) : Result × Windows :=
  let win := match windows.live call.now call.key with
    | none => ⟨1, call.now + call.windowMs⟩
    | some win => { win with count := win.count + 1 }
  (⟨win.count, win.resetAt⟩, windows.set call.key win)

/-- The interval that deletes ended windows. -/
def prune (windows : Windows) (now : Int) : Windows :=
  fun key => (windows key).filter fun win => ¬ win.resetAt < now

/-! ### In Redis -/

structure RedisStore where
  keys : Redis.Keys
  fallback : Windows
  failClosed : Bool

/-- The requests of a call that fail: the pipeline, or PTTL. -/
structure Faults where
  incrWithExpire : Bool
  pttl : Bool
  deriving DecidableEq

def Faults.none : Faults := ⟨false, false⟩

def maxSafeInteger : Int := 9007199254740991

/-- `RedisRateLimitStore.increment`. -/
def redisIncrement (faults : Faults) (store : RedisStore) (call : Call) : Result × RedisStore :=
  let resetAt := call.now + call.windowMs
  if faults.incrWithExpire then
    if store.failClosed then (⟨maxSafeInteger, resetAt⟩, store)
    else
      let (result, fallback) := memoryIncrement store.fallback call
      (result, { store with fallback := fallback })
  else
    let (count, keys) := Redis.incr store.keys call.now call.key
    let keys := Redis.pexpireat keys call.now call.key resetAt
    if count = 1 then (⟨count, resetAt⟩, { store with keys := keys })
    else
      let ttlMs := if faults.pttl then call.windowMs else Redis.pttl keys call.now call.key
      (⟨count, if ttlMs > 0 then call.now + ttlMs else resetAt⟩, { store with keys := keys })

/-! ### Sequences of calls -/

def memoryResults (windows : Windows) : List Call → List Result
  | [] => []
  | call :: calls =>
      let (result, windows) := memoryIncrement windows call
      result :: memoryResults windows calls

/-- While Redis answers. -/
def redisResults (store : RedisStore) : List Call → List Result
  | [] => []
  | call :: calls =>
      let (result, store) := redisIncrement .none store call
      result :: redisResults store calls

end Talos.RateLimit

/-!
## The windows of the two stores

PEXPIREAT is sent with every call, so in Redis each call moves the end of the window,
while in memory a window ends where its first call has put it. The stores give the same
results exactly for the sequences in which no call would move the end of the window it
falls into (`same_iff`): with one window length, calls under a key that are made in the
same millisecond or further apart than the window.
-/

namespace Talos.RateLimit

open Soroban (Map)

variable {windows : Windows} {store : RedisStore} {last started : Map String Call}
  {call p : Call} {calls : List Call} {now : Int}

/-- The end of the window that a call would start. -/
def Call.resetAt (call : Call) : Int := call.now + call.windowMs

/-- A call that falls into the window of the call before it under its key finds that
window open in Redis and ends it at the same time. -/
def Joins (p call : Call) : Prop :=
  call.now ≤ p.resetAt → p.now < p.resetAt ∧ call.resetAt = p.resetAt

/-- No call of the sequence moves the end of a window. `last` holds the last call of each
key before. -/
def Aligned (last : Map String Call) : List Call → Prop
  | [] => True
  | call :: calls =>
      (∀ p ∈ last call.key, Joins p call) ∧ Aligned (last.set call.key call) calls

/-- The clock does not go back. -/
def Chronological (now : Int) : List Call → Prop
  | [] => True
  | call :: calls => now ≤ call.now ∧ Chronological call.now calls

/-- Every call that is counted in a window comes before the end that the window was given
when it started. `started` holds the call that started the window of each key. -/
def Fixed (started : Map String Call) : List Call → List Result → Prop
  | call :: calls, result :: results =>
      if result.count = 1 then Fixed (started.set call.key call) calls results
      else (∀ p ∈ started call.key, call.now ≤ p.resetAt) ∧ Fixed started calls results
  | _, _ => True

/-! ### One call -/

theorem memoryIncrement_of_none (absent : windows.live call.now call.key = none) :
    memoryIncrement windows call =
      (⟨1, call.resetAt⟩, windows.set call.key ⟨1, call.resetAt⟩) := by
  rw [memoryIncrement, absent]
  rfl

theorem memoryIncrement_of_some {win : MemWindow}
    (found : windows.live call.now call.key = some win) :
    memoryIncrement windows call =
      (⟨win.count + 1, win.resetAt⟩, windows.set call.key ⟨win.count + 1, win.resetAt⟩) := by
  rw [memoryIncrement, found]

/-- The reset time answered with Redis is that of the call itself. -/
theorem redisIncrement_eq (store : RedisStore) (call : Call) :
    redisIncrement .none store call =
      (⟨(Redis.incr store.keys call.now call.key).1, call.resetAt⟩,
        { store with
          keys := Redis.pexpireat (Redis.incr store.keys call.now call.key).2 call.now call.key
            call.resetAt }) := by
  unfold redisIncrement
  simp only [Faults.none, Bool.false_eq_true, if_false, Redis.pttl_incr_pexpireat]
  split
  · rfl
  · have ends : call.now + (call.now + call.windowMs - call.now) = call.resetAt := by
      unfold Call.resetAt
      omega
    by_cases later : call.now < call.now + call.windowMs
    · rw [if_pos later, if_pos (by omega), ends]
      rfl
    · rw [if_neg later, if_neg (by omega)]
      rfl

/-! ### The windows in memory -/

/-- The window of a key ends where the call that started it has put its end. -/
def Starts (windows : Windows) (started : Map String Call) : Prop :=
  ∀ key win, windows key = some win →
    1 ≤ win.count ∧ ∀ p ∈ started key, p.resetAt = win.resetAt

theorem Windows.live_eq_some {key : String} {win : MemWindow} :
    windows.live now key = some win ↔ windows key = some win ∧ now ≤ win.resetAt := by
  rw [Windows.live, Option.filter_eq_some_iff]
  simp

/-- In memory every window ends by the time it was given at its start. -/
theorem memory_fixed (starts : Starts windows started) :
    Fixed started calls (memoryResults windows calls) := by
  induction calls generalizing windows started with
  | nil => exact trivial
  | cons call calls ih =>
      unfold memoryResults
      cases found : windows.live call.now call.key with
      | none =>
          rw [memoryIncrement_of_none found]
          apply ih
          intro key win stored
          obtain ⟨same, rfl⟩ | ⟨other, before⟩ := Map.set_eq_some.mp stored
          · subst same
            simp
          · rw [Map.set_of_ne _ _ other]
            exact starts key win before
      | some win =>
          rw [memoryIncrement_of_some found]
          obtain ⟨stored, within⟩ := Windows.live_eq_some.mp found
          obtain ⟨counted, ends⟩ := starts call.key win stored
          have more : ¬ win.count + 1 = 1 := by omega
          unfold Fixed
          rw [if_neg more]
          refine ⟨fun p held => (ends p held).symm ▸ within, ih fun key w held => ?_⟩
          obtain ⟨rfl, rfl⟩ | ⟨-, before⟩ := Map.set_eq_some.mp held
          · exact ⟨by simp only; omega, ends⟩
          · exact starts key w before

/-- The interval does not change what a call at its time or later answers. -/
theorem prune_live {key : String} (later : now ≤ call.now) :
    (prune windows now).live call.now key = windows.live call.now key := by
  rw [Windows.live, Windows.live, prune, Option.filter_filter]
  congr 1
  funext win
  by_cases within : call.now ≤ win.resetAt
  · simp [within]
    omega
  · simp [within]

/-! ### Both stores -/

/-- What the stores hold under a key, by the last call. -/
inductive Agrees : Option Call → Option MemWindow → Option Redis.Entry → Prop where
  | fresh : Agrees none none none
  | used (p : Call) (n : Int) (counted : 1 ≤ n) :
      Agrees (some p) (some ⟨n, p.resetAt⟩)
        (if p.now < p.resetAt then some ⟨n, some p.resetAt⟩ else none)

structure Agree (windows : Windows) (keys : Redis.Keys) (last : Map String Call) (now : Int) :
    Prop where
  stores : ∀ key, Agrees (last key) (windows key) (keys key)
  past : ∀ key p, last key = some p → p.now ≤ now

/-- Outside the window of the last call the key counts from one in both stores. -/
theorem Agree.opens (agree : Agree windows store.keys last now)
    (outside : ∀ p ∈ last call.key, p.resetAt < call.now) :
    windows.live call.now call.key = none ∧ store.keys.live call.now call.key = none := by
  have stores := agree.stores call.key
  generalize lastCall : last call.key = c at stores
  generalize window : windows call.key = w at stores
  generalize entry : store.keys call.key = e at stores
  cases stores with
  | fresh => exact ⟨by rw [Windows.live, window]; rfl, Redis.live_of_none entry⟩
  | used p n counted =>
      have past : p.resetAt < call.now := outside p lastCall
      constructor
      · rw [Windows.live, window]
        exact Option.filter_some_neg (by simpa using past)
      · by_cases kept : p.now < p.resetAt
        · exact Redis.live_of_lt (entry.trans (if_pos kept)) past
        · exact Redis.live_of_none (entry.trans (if_neg kept))

/-- In the window of the last call the memory store counts on, and Redis does if the key
was kept. -/
theorem Agree.within (agree : Agree windows store.keys last now)
    (held : last call.key = some p) (le : call.now ≤ p.resetAt) :
    ∃ n, 1 ≤ n ∧ windows.live call.now call.key = some ⟨n, p.resetAt⟩ ∧
      store.keys.live call.now call.key =
        if p.now < p.resetAt then some ⟨n, some p.resetAt⟩ else none := by
  have stores := agree.stores call.key
  rw [held] at stores
  generalize window : windows call.key = w at stores
  generalize entry : store.keys call.key = e at stores
  cases stores with
  | used _ n counted =>
      refine ⟨n, counted, Windows.live_eq_some.mpr ⟨window, le⟩, ?_⟩
      by_cases kept : p.now < p.resetAt
      · rw [if_pos kept] at entry ⊢
        exact Redis.live_of_le entry le
      · rw [if_neg kept] at entry ⊢
        exact Redis.live_of_none entry

/-- Where the stores agree, a call has the same result in both if and only if it does not
move the end of a window. -/
theorem step_iff (agree : Agree windows store.keys last now) :
    (redisIncrement .none store call).1 = (memoryIncrement windows call).1 ↔
      ∀ p ∈ last call.key, Joins p call := by
  rw [redisIncrement_eq]
  by_cases outside : ∀ p ∈ last call.key, p.resetAt < call.now
  · obtain ⟨window, entry⟩ := agree.opens outside
    rw [memoryIncrement_of_none window, Redis.incr_of_none entry]
    exact ⟨fun _ p held le => absurd (outside p held) (by omega), fun _ => rfl⟩
  · obtain ⟨p, held, le⟩ : ∃ p, last call.key = some p ∧ call.now ≤ p.resetAt := by
      simpa using outside
    obtain ⟨n, counted, window, entry⟩ := agree.within held le
    rw [memoryIncrement_of_some window, held]
    have joins : (∀ q ∈ some p, Joins q call) ↔ p.now < p.resetAt ∧ call.resetAt = p.resetAt := by
      simp [Joins, le]
    rw [joins]
    by_cases kept : p.now < p.resetAt
    · rw [if_pos kept] at entry
      rw [Redis.incr_of_some entry]
      simp [kept]
    · rw [if_neg kept] at entry
      rw [Redis.incr_of_none entry]
      simp only [Result.mk.injEq, kept, false_and, iff_false, not_and]
      omega

/-- A call with the same result in both stores leaves them in agreement. -/
theorem Agree.step (agree : Agree windows store.keys last now) (later : now ≤ call.now)
    (same : (redisIncrement .none store call).1 = (memoryIncrement windows call).1) :
    Agree (memoryIncrement windows call).2 (redisIncrement .none store call).2.keys
      (last.set call.key call) call.now := by
  have written : ∃ n, 1 ≤ n ∧ (Redis.incr store.keys call.now call.key).1 = n ∧
      (memoryIncrement windows call).2 = windows.set call.key ⟨n, call.resetAt⟩ := by
    rw [redisIncrement_eq] at same
    cases found : windows.live call.now call.key with
    | none =>
        rw [memoryIncrement_of_none found] at same ⊢
        exact ⟨1, by omega, congrArg Result.count same, rfl⟩
    | some win =>
        rw [memoryIncrement_of_some found] at same ⊢
        obtain ⟨stored, -⟩ := Windows.live_eq_some.mp found
        have counted : 1 ≤ win.count := by
          have stores := agree.stores call.key
          rw [stored] at stores
          generalize last call.key = c at stores
          generalize store.keys call.key = e at stores
          cases stores
          assumption
        have ends : call.resetAt = win.resetAt := congrArg Result.resetAt same
        exact ⟨win.count + 1, by omega, congrArg Result.count same, by rw [ends]⟩
  obtain ⟨n, counted, count, window⟩ := written
  rw [redisIncrement_eq, window]
  constructor
  · intro key
    simp only
    rw [Redis.incr_pexpireat, count]
    by_cases same : key = call.key
    · subst same
      rw [Map.set_self, Map.set_self, if_pos rfl]
      exact .used call n counted
    · rw [Map.set_of_ne _ _ same, Map.set_of_ne _ _ same, if_neg same]
      exact agree.stores key
  · intro key p held
    obtain ⟨-, rfl⟩ | ⟨-, before⟩ := Map.set_eq_some.mp held
    · exact Int.le_refl _
    · exact Int.le_trans (agree.past key p before) later

theorem Agree.results_iff (agree : Agree windows store.keys last now)
    (ordered : Chronological now calls) :
    redisResults store calls = memoryResults windows calls ↔ Aligned last calls := by
  induction calls generalizing windows store last now with
  | nil => exact ⟨fun _ => trivial, fun _ => rfl⟩
  | cons call calls ih =>
      obtain ⟨later, rest⟩ := ordered
      unfold redisResults memoryResults Aligned
      simp only [List.cons.injEq]
      rw [step_iff agree]
      exact and_congr_right fun joins =>
        ih (agree.step later ((step_iff agree).mpr joins)) rest

theorem Agree.empty (now : Int) : Agree Map.empty Map.empty Map.empty now :=
  ⟨fun _ => .fresh, fun _ _ held => nomatch held⟩

/-- From empty stores and while Redis answers, both stores give the same results, in
windows that end by the time they were given at their start, if and only if no call moves
the end of a window. -/
theorem same_iff (fallback : Windows) (failClosed : Bool) (ordered : Chronological now calls) :
    (redisResults ⟨Map.empty, fallback, failClosed⟩ calls = memoryResults Map.empty calls ∧
      Fixed Map.empty calls (memoryResults Map.empty calls) ∧
      Fixed Map.empty calls (redisResults ⟨Map.empty, fallback, failClosed⟩ calls)) ↔
    Aligned Map.empty calls := by
  have agree : Agree Map.empty (RedisStore.mk Map.empty fallback failClosed).keys Map.empty now :=
    .empty now
  have same := agree.results_iff ordered
  have fixed : Fixed Map.empty calls (memoryResults Map.empty calls) :=
    memory_fixed fun _ _ held => nomatch held
  constructor
  · rintro ⟨results, -, -⟩
    exact same.mp results
  · intro aligned
    have results := same.mpr aligned
    exact ⟨results, fixed, results ▸ fixed⟩

/-- Two windows of two calls each, the second apart from the first. -/
def apart : List Call := [⟨"ip", 100, 0⟩, ⟨"ip", 100, 0⟩, ⟨"ip", 100, 101⟩, ⟨"ip", 100, 101⟩]

/-- In both stores each of the windows counts to two. -/
theorem same_iff_apart :
    Chronological 0 apart ∧ Aligned Map.empty apart ∧
      redisResults ⟨Map.empty, Map.empty, false⟩ apart = memoryResults Map.empty apart :=
  have ordered : Chronological 0 apart := by simp [Chronological, apart]
  have aligned : Aligned Map.empty apart := by
    simp [Aligned, Joins, Call.resetAt, apart]
  ⟨ordered, aligned, ((same_iff Map.empty false ordered).mpr aligned).1⟩

/-- Three calls, each within the window of the call before it. -/
def spread : List Call := [⟨"ip", 100, 0⟩, ⟨"ip", 100, 60⟩, ⟨"ip", 100, 120⟩]

/-- The window of the first call has ended by the time of the third, which Redis counts
into it. -/
theorem window_extended :
    Chronological 0 spread ∧
      memoryResults Map.empty spread = [⟨1, 100⟩, ⟨2, 100⟩, ⟨1, 220⟩] ∧
      redisResults ⟨Map.empty, Map.empty, false⟩ spread = [⟨1, 100⟩, ⟨2, 160⟩, ⟨3, 220⟩] ∧
      ¬ Fixed Map.empty spread (redisResults ⟨Map.empty, Map.empty, false⟩ spread) := by
  have results : redisResults ⟨Map.empty, Map.empty, false⟩ spread =
      [⟨1, 100⟩, ⟨2, 160⟩, ⟨3, 220⟩] := by decide
  refine ⟨by simp [Chronological, spread], by decide, results, ?_⟩
  rw [results]
  simp [spread, Fixed, Call.resetAt]

end Talos.RateLimit
