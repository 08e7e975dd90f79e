import Talos.Calendar

/-!
# Quota windows

`floorToWindow` and `nextWindowStart` (`web/src/lib/quota.ts`) on time values of `Date`, in
milliseconds. The setters of `Date` take a time apart into its fields, put the new field in
and give no valid date outside of the range of time values. Within the range the windows
are those of a grid of hours, days or months (`floorToWindow_eq`, `nextWindowStart_eq`).
-/

namespace Talos.Quota

open Calendar

/-! ### Time values -/

def msPerDay : Int := 86400000

/-- The last time value. -/
def maxTime : Int := 8640000000000000

/-- `none` is an invalid date. -/
def timeClip (t : Int) : Option Int := if -maxTime ≤ t ∧ t ≤ maxTime then some t else none

def day (t : Int) : Int := t / msPerDay
def timeWithinDay (t : Int) : Int := t % msPerDay
def hourFromTime (t : Int) : Int := t / 3600000 % 24
def minFromTime (t : Int) : Int := t / 60000 % 60
def secFromTime (t : Int) : Int := t / 1000 % 60
def msFromTime (t : Int) : Int := t % 1000
def yearFromTime (t : Int) : Int := yearFromDay (day t)
def monthFromTime (t : Int) : Int :=
  monthFromDay (inLeapYear (yearFromTime t)) (dayWithinYear (day t))
def dateFromTime (t : Int) : Int := day t - dayFromMonth (monthIndex (day t)) + 1

def makeTime (hour min sec ms : Int) : Int := hour * 3600000 + min * 60000 + sec * 1000 + ms

/-- A month past the end of the year is one of the next year. -/
def makeDay (year month date : Int) : Int := dayFromMonth (12 * year + month) + date - 1

def makeDate (day time : Int) : Int := day * msPerDay + time

/-! ### Setters -/

def setUTCMilliseconds (t ms : Int) : Option Int :=
  timeClip (makeDate (day t) (makeTime (hourFromTime t) (minFromTime t) (secFromTime t) ms))

def setUTCSeconds (t sec : Int) : Option Int :=
  timeClip (makeDate (day t) (makeTime (hourFromTime t) (minFromTime t) sec (msFromTime t)))

def setUTCMinutes (t min : Int) : Option Int :=
  timeClip (makeDate (day t) (makeTime (hourFromTime t) min (secFromTime t) (msFromTime t)))

def setUTCHours (t hour : Int) : Option Int :=
  timeClip (makeDate (day t) (makeTime hour (minFromTime t) (secFromTime t) (msFromTime t)))

def setUTCDate (t date : Int) : Option Int :=
  timeClip (makeDate (makeDay (yearFromTime t) (monthFromTime t) date) (timeWithinDay t))

def setUTCMonth (t month : Int) : Option Int :=
  timeClip (makeDate (makeDay (yearFromTime t) month (dateFromTime t)) (timeWithinDay t))

/-! ### Windows -/

inductive WindowSize where
  | hourly
  | daily
  | monthly
  deriving DecidableEq

def floorToWindow (date : Int) (windowSize : WindowSize) : Option Int := do
  let d ← setUTCMilliseconds date 0
  let d ← setUTCSeconds d 0
  let d ← setUTCMinutes d 0
  if windowSize = .hourly then return d
  let d ← setUTCHours d 0
  if windowSize = .daily then return d
  setUTCDate d 1

def nextWindowStart (windowStart : Int) (windowSize : WindowSize) : Option Int :=
  match windowSize with
  | .hourly => setUTCHours windowStart (hourFromTime windowStart + 1)
  | .daily => setUTCDate windowStart (dateFromTime windowStart + 1)
  | .monthly => setUTCMonth windowStart (monthFromTime windowStart + 1)

/-- The windows of a size. -/
def WindowSize.grid : WindowSize → TimeGrid
  | .hourly => .regular 3600000 (by decide)
  | .daily => .regular msPerDay (by decide)
  | .monthly => months.scale msPerDay (by decide)

/-- The first window that starts at a valid date. -/
def WindowSize.first : WindowSize → Int
  | .hourly => -2400000000
  | .daily => -100000000
  | .monthly => 12 * -271821 + 4

/-- The last window that starts at a valid date. It does not end at one. -/
def WindowSize.last : WindowSize → Int
  | .hourly => 2400000000
  | .daily => 100000000
  | .monthly => 12 * 275760 + 8

variable {t t' start next : Int} {size : WindowSize}

theorem timeClip_eq_some : timeClip t = some t' ↔ (-maxTime ≤ t ∧ t ≤ maxTime) ∧ t = t' := by
  rw [timeClip, Option.ite_none_right_eq_some, Option.some.injEq]

theorem timeClip_valid (valid : -maxTime ≤ t ∧ t ≤ maxTime) : timeClip t = some t := if_pos valid

/-- Rounding a valid date down to a unit of which days are made gives a valid date. -/
theorem valid_floor (n : Int) (valid : -maxTime ≤ t ∧ t ≤ maxTime) (pos : 0 < n)
    (days : n ∣ msPerDay) : -maxTime ≤ t / n * n ∧ t / n * n ≤ maxTime := by
  obtain ⟨k, days⟩ := days
  have low : -maxTime = -(100000000 * k) * n := by
    rw [Int.neg_mul, Int.mul_assoc, Int.mul_comm k n, ← days]
    rfl
  have least : -(100000000 * k) ≤ t / n :=
    (Int.le_ediv_iff_mul_le pos).mpr (low ▸ valid.1)
  refine ⟨?_, Int.le_trans (Int.ediv_mul_le t (Int.ne_of_gt pos)) valid.2⟩
  rw [low]
  exact Int.mul_le_mul_of_nonneg_right least (Int.le_of_lt pos)

theorem timeClip_floor {n : Int} (valid : -maxTime ≤ t ∧ t ≤ maxTime) (pos : 0 < n)
    (days : n ∣ msPerDay) : timeClip (t / n * n) = some (t / n * n) :=
  timeClip_valid (valid_floor n valid pos days)

/-! ### The fields of a time -/

theorem setUTCMilliseconds_zero (valid : -maxTime ≤ t ∧ t ≤ maxTime) :
    setUTCMilliseconds t 0 = some (t / 1000 * 1000) := by
  have time : makeDate (day t) (makeTime (hourFromTime t) (minFromTime t) (secFromTime t) 0) =
      t / 1000 * 1000 := by
    unfold makeDate makeTime day hourFromTime minFromTime secFromTime msPerDay
    omega
  rw [setUTCMilliseconds, time]
  exact timeClip_floor valid (by decide) (by decide)

theorem setUTCSeconds_zero (valid : -maxTime ≤ t ∧ t ≤ maxTime) (whole : t % 1000 = 0) :
    setUTCSeconds t 0 = some (t / 60000 * 60000) := by
  have time : makeDate (day t) (makeTime (hourFromTime t) (minFromTime t) 0 (msFromTime t)) =
      t / 60000 * 60000 := by
    unfold makeDate makeTime day hourFromTime minFromTime msFromTime msPerDay
    omega
  rw [setUTCSeconds, time]
  exact timeClip_floor valid (by decide) (by decide)

theorem setUTCMinutes_zero (valid : -maxTime ≤ t ∧ t ≤ maxTime) (whole : t % 60000 = 0) :
    setUTCMinutes t 0 = some (t / 3600000 * 3600000) := by
  have time : makeDate (day t) (makeTime (hourFromTime t) 0 (secFromTime t) (msFromTime t)) =
      t / 3600000 * 3600000 := by
    unfold makeDate makeTime day hourFromTime secFromTime msFromTime msPerDay
    omega
  rw [setUTCMinutes, time]
  exact timeClip_floor valid (by decide) (by decide)

theorem makeTime_hour (hour : Int) (whole : t % 3600000 = 0) :
    makeDate (day t) (makeTime hour (minFromTime t) (secFromTime t) (msFromTime t)) =
      t / msPerDay * msPerDay + hour * 3600000 := by
  unfold makeDate makeTime day minFromTime secFromTime msFromTime
  omega

/-- The month of a time, counted from year 0. -/
theorem monthIndex_eq (t : Int) : 12 * yearFromTime t + monthFromTime t = monthIndex (day t) := rfl

/-! ### Windows in the range -/

/-- The three setters up to the hour. -/
theorem floorToWindow_hour (valid : -maxTime ≤ t ∧ t ≤ maxTime) (windowSize : WindowSize) :
    floorToWindow t windowSize =
      if windowSize = .hourly then some (t / 3600000 * 3600000)
      else (setUTCHours (t / 3600000 * 3600000) 0).bind fun d =>
        if windowSize = .daily then some d else setUTCDate d 1 := by
  have seconds := setUTCSeconds_zero (valid_floor 1000 valid (by decide) (by decide))
    (Int.mul_emod_left ..)
  have minutes := setUTCMinutes_zero (valid_floor 60000 valid (by decide) (by decide))
    (Int.mul_emod_left ..)
  have toMinutes : t / 1000 * 1000 / 60000 * 60000 = t / 60000 * 60000 := by omega
  have toHours : t / 60000 * 60000 / 3600000 * 3600000 = t / 3600000 * 3600000 := by omega
  rw [toMinutes] at seconds
  rw [toHours] at minutes
  unfold floorToWindow
  rw [setUTCMilliseconds_zero valid]
  simp only [Option.bind_eq_bind, Option.bind_some, seconds, minutes]
  rfl

/-- The first instant of a window, if it is a valid date. -/
theorem floorToWindow_eq (valid : -maxTime ≤ t ∧ t ≤ maxTime) (size : WindowSize) :
    floorToWindow t size = timeClip (size.grid.floor t) := by
  have midnight : setUTCHours (t / 3600000 * 3600000) 0 = some (t / msPerDay * msPerDay) := by
    rw [setUTCHours, makeTime_hour 0 (Int.mul_emod_left ..)]
    have same : t / 3600000 * 3600000 / msPerDay * msPerDay + 0 * 3600000 =
        t / msPerDay * msPerDay := by
      unfold msPerDay
      omega
    rw [same]
    exact timeClip_floor valid (by decide) (Int.dvd_refl _)
  rw [floorToWindow_hour valid, midnight]
  cases size with
  | hourly =>
      have floor : WindowSize.hourly.grid.floor t = t / 3600000 * 3600000 := Int.mul_comm ..
      rw [if_pos rfl, floor]
      exact (timeClip_floor valid (by decide) (by decide)).symm
  | daily =>
      have floor : WindowSize.daily.grid.floor t = t / msPerDay * msPerDay := Int.mul_comm ..
      rw [if_neg (by decide), Option.bind_some, if_pos rfl, floor]
      exact (timeClip_floor valid (by decide) (Int.dvd_refl _)).symm
  | monthly =>
      have floor : WindowSize.monthly.grid.floor t =
          msPerDay * dayFromMonth (monthIndex (t / msPerDay)) := rfl
      have same : day (t / msPerDay * msPerDay) = t / msPerDay :=
        Int.mul_ediv_cancel _ (by decide)
      have nothing : timeWithinDay (t / msPerDay * msPerDay) = 0 := Int.mul_emod_left ..
      rw [if_neg (by decide), Option.bind_some, if_neg (by decide), floor, setUTCDate, makeDay,
        monthIndex_eq, same, nothing, makeDate]
      refine congrArg timeClip ?_
      rw [Int.add_sub_cancel, Int.add_zero, Int.mul_comm]

/-- The first instant of the next window, if it is a valid date. -/
theorem nextWindowStart_eq (size : WindowSize) (starts : size.grid.floor t = t) :
    nextWindowStart t size = timeClip (size.grid.next t) := by
  cases size with
  | hourly =>
      have next : WindowSize.hourly.grid.next t = 3600000 * (t / 3600000 + 1) := rfl
      have starts : 3600000 * (t / 3600000) = t := starts
      rw [nextWindowStart, setUTCHours, makeTime_hour _ (by omega), next, hourFromTime]
      refine congrArg timeClip ?_
      unfold msPerDay
      omega
  | daily =>
      have next : WindowSize.daily.grid.next t = msPerDay * (t / msPerDay + 1) := rfl
      have starts : msPerDay * (t / msPerDay) = t := starts
      rw [nextWindowStart, setUTCDate, makeDay, monthIndex_eq, next, dateFromTime, makeDate,
        timeWithinDay, day]
      refine congrArg timeClip ?_
      unfold msPerDay at starts ⊢
      omega
  | monthly =>
      have next : WindowSize.monthly.grid.next t =
          msPerDay * dayFromMonth (monthIndex (t / msPerDay) + 1) := rfl
      have starts : msPerDay * dayFromMonth (monthIndex (t / msPerDay)) = t := starts
      have first : t / msPerDay = dayFromMonth (monthIndex (t / msPerDay)) := by
        conv => enter [1, 1]; rw [← starts]
        exact Int.mul_ediv_cancel_left _ (by decide)
      have nothing : t % msPerDay = 0 := by
        rw [← starts]
        exact Int.mul_emod_right ..
      have date : dateFromTime t = 1 := by
        rw [dateFromTime, day, ← first]
        omega
      rw [nextWindowStart, setUTCMonth, makeDay, ← Int.add_assoc, monthIndex_eq, next, date,
        makeDate, timeWithinDay, nothing, day]
      refine congrArg timeClip ?_
      rw [Int.add_sub_cancel, Int.add_zero, Int.mul_comm]

/-! ### Tiling -/

theorem first_le (size : WindowSize) :
    size.grid.start (size.first - 1) < -maxTime ∧ -maxTime ≤ size.grid.start size.first := by
  cases size <;> decide

theorem le_last (size : WindowSize) :
    size.grid.start size.last ≤ maxTime ∧ maxTime < size.grid.start (size.last + 1) := by
  cases size <;> decide

/-- A time is in the windows from the first to the last if its own window starts and ends at
valid dates. -/
theorem window_valid_iff (size : WindowSize) (t : Int) :
    (-maxTime ≤ size.grid.floor t ∧ size.grid.next t ≤ maxTime) ↔
      size.grid.start size.first ≤ t ∧ t < size.grid.start size.last := by
  have mono : StrictMono size.grid.start := size.grid.start_strictMono
  constructor
  · rintro ⟨low, high⟩
    have from_first : size.first - 1 < size.grid.index t :=
      mono.lt_iff_lt.mp ((first_le size).1.trans_le low)
    have to_last : size.grid.index t + 1 < size.last + 1 :=
      mono.lt_iff_lt.mp (lt_of_le_of_lt high (le_last size).2)
    exact ⟨(mono.monotone (by omega)).trans (size.grid.floor_le t),
      (size.grid.next_lt t).trans_le (mono.monotone (by omega))⟩
  · rintro ⟨low, high⟩
    have from_first : size.first < size.grid.index t + 1 :=
      mono.lt_iff_lt.mp (lt_of_le_of_lt low (size.grid.next_lt t))
    have to_last : size.grid.index t < size.last :=
      mono.lt_iff_lt.mp (lt_of_le_of_lt (size.grid.floor_le t) high)
    exact ⟨(first_le size).2.trans (mono.monotone (by omega)),
      (mono.monotone (by omega)).trans (le_last size).1⟩

/-- `[start, next)` is the window of each of its times, and `next` starts another. -/
structure IsWindow (size : WindowSize) (start next : Int) : Prop where
  ends : nextWindowStart start size = some next
  starts : floorToWindow next size = some next
  whole : ∀ t, start ≤ t → t < next → floorToWindow t size = some start

/-- The window of a date, where it starts and ends at valid dates. -/
theorem windows_tile (valid : -maxTime ≤ t ∧ t ≤ maxTime) (size : WindowSize) :
    (∃ start next, floorToWindow t size = some start ∧ start ≤ t ∧ t < next ∧
        IsWindow size start next) ↔
      size.grid.start size.first ≤ t ∧ t < size.grid.start size.last := by
  have below := size.grid.floor_le t
  have above := size.grid.next_lt t
  have startsAt := size.grid.floor_floor t
  rw [← window_valid_iff]
  constructor
  · rintro ⟨start, next, floor, -, -, window⟩
    rw [floorToWindow_eq valid] at floor
    obtain ⟨inRange, rfl⟩ := timeClip_eq_some.mp floor
    have following := window.ends
    rw [nextWindowStart_eq size startsAt, size.grid.next_floor] at following
    exact ⟨inRange.1, (timeClip_eq_some.mp following).1.2⟩
  · rintro ⟨low, high⟩
    have floor : timeClip (size.grid.floor t) = some (size.grid.floor t) :=
      timeClip_valid ⟨low, below.trans valid.2⟩
    have next : timeClip (size.grid.next t) = some (size.grid.next t) :=
      timeClip_valid ⟨valid.1.trans above.le, high⟩
    refine ⟨size.grid.floor t, size.grid.next t, ?_, below, above, ?_, ?_, ?_⟩
    · rw [floorToWindow_eq valid, floor]
    · rw [nextWindowStart_eq size startsAt, size.grid.next_floor, next]
    · rw [floorToWindow_eq ⟨valid.1.trans above.le, high⟩, size.grid.floor_next, next]
    · intro t' from_start to_next
      rw [floorToWindow_eq ⟨low.trans from_start, to_next.le.trans high⟩,
        size.grid.floor_eq from_start to_next, floor]

/-- At the ends of the range: the last valid date has no next hour, and the month of the first
does not start at a valid date. -/
example : nextWindowStart maxTime .hourly = none ∧ floorToWindow (-maxTime) .monthly = none := by
  decide

end Talos.Quota
