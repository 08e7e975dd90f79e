import Talos.Soroban.Contract

/-!
# Counters with an expiry in Redis

The keys of a Redis server that hold integers, and the commands INCR, PEXPIREAT and PTTL
at a time of the server, in milliseconds. A key is there up to the millisecond of its
expiry; an expiry that is not in the future deletes it.
-/

namespace Talos.Redis

open Soroban (Map)

structure Entry where
  value : Int
  expireAt : Option Int
  deriving DecidableEq

abbrev Keys := Map String Entry

variable {keys : Keys} {key k : String} {now e v : Int} {entry : Entry}

/-- The entry under a key, unless it has expired. -/
def Keys.live (keys : Keys) (now : Int) (key : String) : Option Entry :=
  (keys key).filter fun entry => entry.expireAt.all (now ≤ ·)

/-- `INCR key`: a missing key counts from zero, an existing one keeps its expiry. -/
def incr (keys : Keys) (now : Int) (key : String) : Int × Keys :=
  match keys.live now key with
  | some entry => (entry.value + 1, keys.set key { entry with value := entry.value + 1 })
  | none => (1, keys.set key ⟨1, none⟩)

/-- `PEXPIREAT key unixMs`. -/
def pexpireat (keys : Keys) (now : Int) (key : String) (unixMs : Int) : Keys :=
  match keys.live now key with
  | some entry =>
      if now < unixMs then keys.set key { entry with expireAt := some unixMs }
      else keys.remove key
  | none => keys

/-- `PTTL key`: -2 for a missing key, -1 for one that does not expire. -/
def pttl (keys : Keys) (now : Int) (key : String) : Int :=
  match keys.live now key with
  | some entry => entry.expireAt.elim (-1) (· - now)
  | none => -2

theorem live_of_none (absent : keys key = none) : keys.live now key = none := by
  rw [Keys.live, absent, Option.filter_none]

theorem live_of_lt (found : keys key = some ⟨v, some e⟩) (past : e < now) :
    keys.live now key = none := by
  rw [Keys.live, found]
  exact Option.filter_some_neg (by simpa using past)

theorem live_of_le (found : keys key = some ⟨v, some e⟩) (le : now ≤ e) :
    keys.live now key = some ⟨v, some e⟩ := by
  rw [Keys.live, found]
  exact Option.filter_some_pos (by simpa using le)

theorem incr_of_none (absent : keys.live now key = none) : (incr keys now key).1 = 1 := by
  rw [incr, absent]

theorem incr_of_some (found : keys.live now key = some entry) :
    (incr keys now key).1 = entry.value + 1 := by
  rw [incr, found]

/-- What INCR leaves under its key. -/
theorem incr_live (keys : Keys) (now : Int) (key : String) :
    ∃ expireAt, (incr keys now key).2.live now key = some ⟨(incr keys now key).1, expireAt⟩ := by
  unfold incr
  cases found : keys.live now key with
  | none => exact ⟨none, by simp [Keys.live]⟩
  | some entry =>
      obtain ⟨-, lives⟩ := Option.filter_eq_some_iff.mp found
      exact ⟨entry.expireAt, by simpa [Keys.live] using lives⟩

theorem incr_of_ne (other : k ≠ key) : (incr keys now key).2 k = keys k := by
  unfold incr
  split
  · exact Map.set_of_ne _ _ other
  · exact Map.set_of_ne _ _ other

/-- INCR and PEXPIREAT in one pipeline. -/
theorem incr_pexpireat (keys : Keys) (now : Int) (key : String) (e : Int) (k : String) :
    pexpireat (incr keys now key).2 now key e k =
      if k = key then if now < e then some ⟨(incr keys now key).1, some e⟩ else none
      else keys k := by
  obtain ⟨expireAt, lives⟩ := incr_live keys now key
  unfold pexpireat
  rw [lives]
  by_cases same : k = key
  · subst same
    rw [if_pos rfl]
    split
    · exact Map.set_self ..
    · exact Map.remove_self ..
  · rw [if_neg same]
    split
    · exact (Map.set_of_ne _ _ same).trans (incr_of_ne same)
    · exact (Map.remove_of_ne _ same).trans (incr_of_ne same)

/-- The rest of the pipeline's expiry, if it is in the future. -/
theorem pttl_incr_pexpireat (keys : Keys) (now : Int) (key : String) (e : Int) :
    pttl (pexpireat (incr keys now key).2 now key e) now key = if now < e then e - now else -2 := by
  have stored := incr_pexpireat keys now key e key
  rw [if_pos rfl] at stored
  unfold pttl
  by_cases later : now < e
  · rw [if_pos later] at stored ⊢
    rw [live_of_le stored (by omega)]
    rfl
  · rw [if_neg later] at stored ⊢
    rw [live_of_none stored]

end Talos.Redis
