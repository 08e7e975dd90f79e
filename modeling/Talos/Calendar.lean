import Mathlib.Order.Monotone.Basic
import Mathlib.Data.Int.ConditionallyCompleteOrder
import Mathlib.Algebra.Order.Ring.Int
import Mathlib.Tactic.Ring

/-!
# Windows of time

A grid cuts the integers into consecutive windows: `start` is increasing, and `index` finds
the window of a time. The window of a time is `[floor t, next t)`; it is the window of every
time in it, and `next t` starts the one that follows.
-/

namespace Talos

structure TimeGrid where
  start : Int → Int
  index : Int → Int
  start_lt : ∀ n, start n < start (n + 1)
  start_index : ∀ t, start (index t) ≤ t
  lt_next : ∀ t, t < start (index t + 1)

namespace TimeGrid

variable (g : TimeGrid) {t t' n : Int}

theorem start_strictMono ⦃m n : Int⦄ (low : m < n) : g.start m < g.start n :=
  strictMono_int_of_lt_succ g.start_lt low

theorem start_lt_start {m n : Int} : g.start m < g.start n ↔ m < n :=
  StrictMono.lt_iff_lt (f := g.start) g.start_strictMono

/-- A time is in one window only. -/
theorem index_eq (low : g.start n ≤ t) (high : t < g.start (n + 1)) : g.index t = n := by
  have below : g.index t < n + 1 :=
    g.start_lt_start.mp (lt_of_le_of_lt (g.start_index t) high)
  have above : n < g.index t + 1 :=
    g.start_lt_start.mp (lt_of_le_of_lt low (g.lt_next t))
  omega

/-- The start of the window of a time. -/
def floor (t : Int) : Int := g.start (g.index t)

/-- The start of the next window. -/
def next (t : Int) : Int := g.start (g.index t + 1)

theorem floor_le (t : Int) : g.floor t ≤ t := g.start_index t

theorem next_lt (t : Int) : t < g.next t := g.lt_next t

theorem index_start (n : Int) : g.index (g.start n) = n := g.index_eq (le_refl _) (g.start_lt n)

theorem floor_start (n : Int) : g.floor (g.start n) = g.start n := by rw [floor, index_start]

theorem floor_floor (t : Int) : g.floor (g.floor t) = g.floor t := g.floor_start _

theorem floor_next (t : Int) : g.floor (g.next t) = g.next t := g.floor_start _

theorem next_floor (t : Int) : g.next (g.floor t) = g.next t := by
  rw [next, floor, index_start, next]

/-- Every time of a window has this window. -/
theorem floor_eq (low : g.floor t ≤ t') (high : t' < g.next t) : g.floor t' = g.floor t := by
  rw [floor, g.index_eq low high, floor]

/-- Windows of one length. -/
def regular (width : Int) (pos : 0 < width) : TimeGrid where
  start n := width * n
  index t := t / width
  start_lt n := by
    rw [mul_add, mul_one]
    omega
  start_index t := Int.mul_ediv_self_le (Int.ne_of_gt pos)
  lt_next t := Int.lt_mul_ediv_self_add pos |>.trans_eq (by ring)

/-- The windows of a grid in a unit of which `unit` make up one. -/
def scale (unit : Int) (pos : 0 < unit) : TimeGrid where
  start n := unit * g.start n
  index t := g.index (t / unit)
  start_lt n := Int.mul_lt_mul_of_pos_left (g.start_lt n) pos
  start_index t := by
    have low := g.start_index (t / unit)
    calc unit * g.start (g.index (t / unit)) ≤ unit * (t / unit) :=
          Int.mul_le_mul_of_nonneg_left low (Int.le_of_lt pos)
      _ ≤ t := Int.mul_ediv_self_le (Int.ne_of_gt pos)
  lt_next t := by
    have high : t / unit + 1 ≤ g.start (g.index (t / unit) + 1) := g.lt_next (t / unit)
    calc t < unit * (t / unit) + unit := Int.lt_mul_ediv_self_add pos
      _ = unit * (t / unit + 1) := by ring
      _ ≤ unit * g.start (g.index (t / unit) + 1) :=
          Int.mul_le_mul_of_nonneg_left high (Int.le_of_lt pos)

end TimeGrid

end Talos

/-!
## The Gregorian calendar

Days are counted from 1970-01-01, years and months without end in both directions. Years
and months are grids of days: the functions that find the year and the month of a day are
the ones that the starts of years and months ask for.
-/

namespace Talos.Calendar

variable {y d n m : Int}

/-! ### Years -/

/-- The day on which a year starts. -/
def dayFromYear (y : Int) : Int :=
  365 * (y - 1970) + (y - 1969) / 4 - (y - 1901) / 100 + (y - 1601) / 400

def inLeapYear (y : Int) : Bool := y % 4 = 0 ∧ (y % 100 ≠ 0 ∨ y % 400 = 0)

/-- The last year that starts by a day. The quotient is off by one year at most. -/
def yearFromDay (d : Int) : Int :=
  let y := 1970 + 400 * d / 146097
  if d < dayFromYear y then y - 1 else if dayFromYear (y + 1) ≤ d then y + 1 else y

/-- The length of a year. -/
def daysInYear (y : Int) : Int := if inLeapYear y then 366 else 365

theorem dayFromYear_succ (y : Int) : dayFromYear (y + 1) = dayFromYear y + daysInYear y := by
  unfold dayFromYear daysInYear inLeapYear
  simp only [decide_eq_true_eq]
  split <;> omega

theorem yearFromDay_spec (d : Int) :
    dayFromYear (yearFromDay d) ≤ d ∧ d < dayFromYear (yearFromDay d + 1) := by
  have low : dayFromYear (1970 + 400 * d / 146097 - 1) ≤ d := by
    unfold dayFromYear
    omega
  have high : d < dayFromYear (1970 + 400 * d / 146097 + 1 + 1) := by
    unfold dayFromYear
    omega
  unfold yearFromDay
  dsimp only
  split
  · next before =>
      refine ⟨low, ?_⟩
      rw [sub_add_cancel]
      exact before
  · next after =>
      split
      · next later => exact ⟨later, high⟩
      · next within => exact ⟨not_lt.mp after, not_le.mp within⟩

def years : TimeGrid where
  start := dayFromYear
  index := yearFromDay
  start_lt y := by
    rw [dayFromYear_succ]
    unfold daysInYear
    split <;> omega
  start_index d := (yearFromDay_spec d).1
  lt_next d := (yearFromDay_spec d).2

/-! ### Months -/

/-- The lengths of the months of a year. -/
def monthLengths (leap : Bool) : List Nat :=
  [31, if leap then 29 else 28, 31, 30, 31, 30, 31, 31, 30, 31, 30, 31]

/-- The days of a year before its month `k`, from 0 to 11. -/
def daysBefore (leap : Bool) (k : Nat) : Nat := ((monthLengths leap).take k).sum

/-- How many of the spans are over on day `d`. -/
def elapsed : List Nat → Nat → Nat
  | [], _ => 0
  | l :: ls, d => if d < l then 0 else elapsed ls (d - l) + 1

/-- The month of a day of the year. -/
def monthFromDay (leap : Bool) (d : Nat) : Nat := elapsed (monthLengths leap) d

theorem elapsed_spec {ls : List Nat} {d : Nat} (within : d < ls.sum) :
    elapsed ls d < ls.length ∧ (ls.take (elapsed ls d)).sum ≤ d ∧
      d < (ls.take (elapsed ls d + 1)).sum := by
  induction ls generalizing d with
  | nil => exact absurd within (Nat.not_lt_zero d)
  | cons l ls ih =>
      rw [List.sum_cons] at within
      unfold elapsed
      split
      · next first =>
          rw [List.take_zero, List.take_succ_cons, List.take_zero]
          exact ⟨Nat.succ_pos _, Nat.zero_le d, by simpa using first⟩
      · next later =>
          obtain ⟨inside, low, high⟩ := ih (d := d - l) (by omega)
          rw [List.take_succ_cons, List.take_succ_cons, List.sum_cons, List.sum_cons,
            List.length_cons]
          omega

theorem daysBefore_lt (leap : Bool) {k : Nat} (inside : k < 12) :
    daysBefore leap k < daysBefore leap (k + 1) := by
  have all : ∀ leap, ∀ k < 12, daysBefore leap k < daysBefore leap (k + 1) := by decide
  exact all leap k inside

theorem daysBefore_twelve (y : Int) : (daysBefore (inLeapYear y) 12 : Int) = daysInYear y := by
  unfold daysInYear
  cases inLeapYear y <;> rfl

/-- The day on which month `n` starts, where 12 months make a year. -/
def dayFromMonth (n : Int) : Int :=
  dayFromYear (n / 12) + daysBefore (inLeapYear (n / 12)) (n % 12).toNat

/-- The day of its year. -/
def dayWithinYear (d : Int) : Nat := (d - dayFromYear (yearFromDay d)).toNat

def monthIndex (d : Int) : Int :=
  12 * yearFromDay d + monthFromDay (inLeapYear (yearFromDay d)) (dayWithinYear d)

/-- Month `k` of year `y`. -/
theorem dayFromMonth_eq (y : Int) {k : Nat} (inside : k < 12) :
    dayFromMonth (12 * y + k) = dayFromYear y + daysBefore (inLeapYear y) k := by
  have year : (12 * y + k) / 12 = y := by omega
  have month : ((12 * y + k) % 12).toNat = k := by omega
  rw [dayFromMonth, year, month]

/-- The end of month `k` of year `y`, which may be that of the year. -/
theorem dayFromMonth_succ (y : Int) {k : Nat} (inside : k < 12) :
    dayFromMonth (12 * y + k + 1) = dayFromYear y + daysBefore (inLeapYear y) (k + 1) := by
  by_cases last : k = 11
  · subst last
    have next : 12 * y + (11 : ℕ) + 1 = 12 * (y + 1) + (0 : ℕ) := by
      push_cast
      ring
    rw [next, dayFromMonth_eq (y + 1) (by decide), dayFromYear_succ, ← daysBefore_twelve]
    exact Int.add_zero _
  · have next : 12 * y + (k : ℤ) + 1 = 12 * y + ((k + 1 : ℕ) : ℤ) := by
      push_cast
      ring
    rw [next, dayFromMonth_eq y (by omega)]

theorem dayWithinYear_lt (d : Int) :
    dayWithinYear d < daysBefore (inLeapYear (yearFromDay d)) 12 ∧
      (dayWithinYear d : Int) = d - dayFromYear (yearFromDay d) := by
  obtain ⟨low, high⟩ := yearFromDay_spec d
  rw [dayFromYear_succ, ← daysBefore_twelve] at high
  unfold dayWithinYear
  omega

theorem monthFromDay_spec (d : Int) :
    monthFromDay (inLeapYear (yearFromDay d)) (dayWithinYear d) < 12 ∧
      dayFromMonth (monthIndex d) ≤ d ∧ d < dayFromMonth (monthIndex d + 1) := by
  obtain ⟨within, same⟩ := dayWithinYear_lt d
  obtain ⟨inside, low, high⟩ := elapsed_spec within
  have inside : monthFromDay (inLeapYear (yearFromDay d)) (dayWithinYear d) < 12 := inside
  refine ⟨inside, ?_, ?_⟩
  · rw [monthIndex, dayFromMonth_eq _ inside]
    have low : daysBefore (inLeapYear (yearFromDay d))
        (monthFromDay (inLeapYear (yearFromDay d)) (dayWithinYear d)) ≤ dayWithinYear d := low
    omega
  · rw [monthIndex, dayFromMonth_succ _ inside]
    have high : dayWithinYear d < daysBefore (inLeapYear (yearFromDay d))
        (monthFromDay (inLeapYear (yearFromDay d)) (dayWithinYear d) + 1) := high
    omega

theorem dayFromMonth_lt (n : Int) : dayFromMonth n < dayFromMonth (n + 1) := by
  have inside : (n % 12).toNat < 12 := by omega
  have split : n = 12 * (n / 12) + ((n % 12).toNat : ℤ) := by omega
  rw [split, dayFromMonth_eq _ inside, dayFromMonth_succ _ inside]
  have longer := daysBefore_lt (inLeapYear (n / 12)) inside
  omega

def months : TimeGrid where
  start := dayFromMonth
  index := monthIndex
  start_lt := dayFromMonth_lt
  start_index d := (monthFromDay_spec d).2.1
  lt_next d := (monthFromDay_spec d).2.2

/-- 29 February 2024 and the first of March. -/
example : dayFromMonth (12 * 2024 + 1) + 28 = 19782 ∧ monthIndex 19782 = 12 * 2024 + 1 ∧
    monthIndex 19783 = 12 * 2024 + 2 := by decide

end Talos.Calendar
