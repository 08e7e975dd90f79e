import Talos.Agent.DurableBackoff
import Talos.Encoding.Text

/-!
# The expiry of quotes

`packages/prime-agent/src/talos_agent/commerce_quote.py`. Times are microseconds since 1970, those
of a `datetime` from the year 1 to the year 9999: a conversion to UTC, or a deadline, that leaves
these years raises. `datetime.fromisoformat` and `isoformat` are parameters.
-/

namespace Talos.Agent.Quotes

open Encoding (Number strip toDouble roundHalfEven)
open Retries (PyNumber microseconds microseconds_intCast lastTime)

/-! ### Times -/

/-- The first time of a `datetime`, at the start of the year 1. -/
def firstTime : ℤ := -62135596800000000

def Representable (t : ℤ) : Prop := firstTime ≤ t ∧ t ≤ lastTime

instance (t : ℤ) : Decidable (Representable t) :=
  inferInstanceAs (Decidable (firstTime ≤ t ∧ t ≤ lastTime))

/-- A `datetime`, by the time on its clock and the offset of its zone, if it has one. -/
structure DateTime where
  clock : ℤ
  offset : Option ℤ
  representable : Representable clock

/-- The time in UTC, whether or not there is a `datetime` for it. -/
def DateTime.instant (dt : DateTime) : ℤ := dt.clock - dt.offset.getD 0

/-- A `datetime` in UTC. -/
structure Utc where
  time : ℤ
  representable : Representable time

def utc (t : ℤ) : Except String Utc :=
  if fits : Representable t then .ok ⟨t, fits⟩ else .error "OverflowError"

/-- `_as_utc` -/
def asUtc (dt : DateTime) : Except String Utc := utc dt.instant

def maxDays : ℤ := 999999999

def day : ℤ := 86400 * 10 ^ 6

/-- Whether a `timedelta` has so many microseconds. -/
def IsDelta (us : ℤ) : Prop := -maxDays * day ≤ us ∧ us < (maxDays + 1) * day

instance (us : ℤ) : Decidable (IsDelta us) :=
  inferInstanceAs (Decidable (-maxDays * day ≤ us ∧ us < (maxDays + 1) * day))

/-- The microseconds of a number of seconds, rounded alike for both signs. -/
def signedMicroseconds (x : ℚ) : ℤ := if x < 0 then -microseconds (-x) else microseconds x

/-- `timedelta(seconds=x)` -/
def timedelta (seconds : PyNumber) : Except String ℤ := do
  let us ← match seconds with
    | .int n => .ok (n * 10 ^ 6)
    | .float (.finite x) => .ok (signedMicroseconds x)
    | .float (.infinite _) => .error "OverflowError"
    | .float .nan => .error "ValueError"
  if IsDelta us then .ok us else .error "OverflowError"

/-! ### The policy -/

/-- A number that `__post_init__` lets through: finite and not negative. -/
def Tolerance : PyNumber → Prop
  | .int n => 0 ≤ n ∧ |toDouble n| < 2 ^ 1024
  | .float (.finite x) => 0 ≤ x ∧ toDouble x = x ∧ x < 2 ^ 1024
  | .float _ => False

structure X402ClockSkewPolicy where
  maxClockSkewSecs : PyNumber
  minRemainingValiditySecs : PyNumber
  skew_valid : Tolerance maxClockSkewSecs
  remaining_valid : Tolerance minRemainingValiditySecs

def DEFAULT_X402_CLOCK_SKEW_POLICY : X402ClockSkewPolicy where
  maxClockSkewSecs := .float (.finite 5)
  minRemainingValiditySecs := .float (.finite 15)
  skew_valid := ⟨by norm_num, by decide +kernel, by decide +kernel⟩
  remaining_valid := ⟨by norm_num, by decide +kernel, by decide +kernel⟩

def STRICT_CLOCK_SKEW_POLICY : X402ClockSkewPolicy where
  maxClockSkewSecs := .float (.finite 0)
  minRemainingValiditySecs := .float (.finite 0)
  skew_valid := ⟨le_rfl, Encoding.toDouble_zero, by decide +kernel⟩
  remaining_valid := ⟨le_rfl, Encoding.toDouble_zero, by decide +kernel⟩

/-- `effective_deadline`, of a time in UTC. -/
def X402ClockSkewPolicy.effectiveDeadline (policy : X402ClockSkewPolicy) (expiresAt : Utc) :
    Except String Utc := do
  let seconds ← policy.maxClockSkewSecs.sub policy.minRemainingValiditySecs
  utc (expiresAt.time + (← timedelta seconds))

/-! ### Payloads -/

inductive Json where
  | null
  | bool (b : Bool)
  | number (text : String)
  | string (s : String)
  | array (items : List Json)
  | object (members : List (String × Json))

/-- `mapping.get(key)`, where `None` is no value. -/
def Json.get (members : List (String × Json)) (key : String) : Option Json :=
  match members.lookup key with
  | none | some .null => none
  | some value => some value

def expiryKeys : List String := ["expiresAt", "expires_at"]

/-- The first of the keys that has a value. -/
def expiryIn (members : List (String × Json)) : Option Json :=
  expiryKeys.findSome? fun key => Json.get members key

/-- `payment_details.get("quote")`, if it is an object. -/
def nestedQuote : Json → Option (List (String × Json))
  | .object members => match members.lookup "quote" with
    | some (.object quote) => some quote
    | _ => none
  | _ => none

/-- `extract_quote_expires_at` -/
def extractQuoteExpiresAt (payment : Json) : Option Json :=
  match payment with
  | .object members =>
      ((nestedQuote payment).bind fun quote => expiryIn quote).or (expiryIn members)
  | _ => none

/-- `datetime.fromisoformat`, `none` where it raises a `ValueError`, and `isoformat` of times in
UTC. -/
structure Calendar where
  fromisoformat : String → Option DateTime
  isoformat : Utc → String

variable (calendar : Calendar)

/-- The text that `fromisoformat` gets, `none` where there is no such. -/
def normalized : Json → Option String
  | .string value =>
      let text := strip value.toList
      if text.length < 10 then none
      else if text.getLast? = some 'Z' then
        some (String.ofList (text.flatMap fun c => if c = 'Z' then "+00:00".toList else [c]))
      else some (String.ofList text)
  | _ => none

/-- The `datetime` of a raw expiry, before it is converted to UTC. -/
def readTimestamp (raw : Json) : Option DateTime := (normalized raw).bind calendar.fromisoformat

/-- `parse_iso8601_timestamp` -/
def parseIso8601Timestamp (raw : Json) : Except String (Option Utc) :=
  match readTimestamp calendar raw with
  | none => .ok none
  | some dt => (asUtc dt).map some

/-! ### The gate -/

/-- The instant from which on a quote is refused. -/
def deadline (policy : Option X402ClockSkewPolicy) (expiresAt : Utc) : Except String Utc :=
  match policy with
  | none => .ok expiresAt
  | some policy => policy.effectiveDeadline expiresAt

/-- `verify_quote_not_expired`, of an expiry in UTC. -/
def verifyQuoteNotExpired (expiresAt : Utc) (now : DateTime)
    (policy : Option X402ClockSkewPolicy) : Except String Bool := do
  let limit ← deadline policy expiresAt
  return decide ((← asUtc now).time < limit.time)

structure QuoteError where
  error : String
  code : String
  expiresAt : Option String := none
  deriving DecidableEq

def EXPIRED_QUOTE : String := "EXPIRED_QUOTE"

def INVALID_QUOTE : String := "INVALID_QUOTE"

def MISSING_QUOTE_EXPIRY : String := "MISSING_QUOTE_EXPIRY"

def INSUFFICIENT_VALIDITY : String := "INSUFFICIENT_VALIDITY"

/-- `_expiry_iso`, where the zone stands at the end of the text. -/
def expiryIso (expiresAt : Utc) : String :=
  (calendar.isoformat expiresAt).replace "+00:00" "Z"

def expired (expiresAt : Utc) : QuoteError where
  error := "Commerce quote has expired"
  code := EXPIRED_QUOTE
  expiresAt := some (expiryIso calendar expiresAt)

def expiresTooSoon (expiresAt : Utc) : QuoteError where
  error := "Commerce quote expires too soon to settle payment safely"
  code := INSUFFICIENT_VALIDITY
  expiresAt := some (expiryIso calendar expiresAt)

/-- `enforce_commerce_quote_expiry`, with `now` from the argument or the clock. -/
def enforceCommerceQuoteExpiry (payment : Json) (now : DateTime) (requireExpiry : Bool)
    (policy : Option X402ClockSkewPolicy) : Except String (Option QuoteError) :=
  match extractQuoteExpiresAt payment with
  | none =>
      if !requireExpiry then .ok none
      else match nestedQuote payment with
        | some _ => .ok (some
            { error := "Commerce quote is missing a valid expiresAt timestamp"
              code := INVALID_QUOTE })
        | none => .ok (some
            { error := "Commerce quote expiry is required before payment"
              code := MISSING_QUOTE_EXPIRY })
  | some raw => do
      let parsed ← parseIso8601Timestamp calendar raw
      match parsed with
      | none => pure (some
          { error := "Commerce quote expiresAt is malformed"
            code := INVALID_QUOTE })
      | some expiresAt => do
          let nowUtc ← asUtc now
          match policy with
          | none => pure (
              if nowUtc.time < expiresAt.time then none else some (expired calendar expiresAt))
          | some policy => do
              let limit ← policy.effectiveDeadline expiresAt
              pure (
                if nowUtc.time < limit.time then none
                else if nowUtc.time ≥ expiresAt.time then some (expired calendar expiresAt)
                else some (expiresTooSoon calendar expiresAt))

/-- `quote_expiry_iso` -/
def quoteExpiryIso (payment : Json) : Except String (Option String) :=
  match extractQuoteExpiresAt payment with
  | none => .ok none
  | some raw => do
      let parsed ← parseIso8601Timestamp calendar raw
      pure (parsed.map (expiryIso calendar))

/-! ### Failing closed -/

/-- The `datetime` of the extracted expiry. -/
def Extracts (payment : Json) (dt : DateTime) : Prop :=
  ∃ raw, extractQuoteExpiresAt payment = some raw ∧ readTimestamp calendar raw = some dt

/-- The extracted expiry parses to an instant. -/
def Expires (payment : Json) (expiresAt : Utc) : Prop :=
  ∃ raw, extractQuoteExpiresAt payment = some raw ∧
    parseIso8601Timestamp calendar raw = .ok (some expiresAt)

/-- The policy does not open the window beyond the expiry. -/
def Conservative : Option X402ClockSkewPolicy → Prop
  | none => True
  | some policy => policy.maxClockSkewSecs.le policy.minRemainingValiditySecs = true

def Utc.toDateTime (t : Utc) : DateTime := ⟨t.time, some 0, t.representable⟩

/-- What is promised of the gate. -/
structure FailsClosed (payment : Json) (policy : Option X402ClockSkewPolicy) (now : DateTime) :
    Prop where
  returns : ∃ result, enforceCommerceQuoteExpiry calendar payment now true policy = .ok result
  accepts : enforceCommerceQuoteExpiry calendar payment now true policy = .ok none ↔
    ∃ expiresAt, Expires calendar payment expiresAt ∧
      verifyQuoteNotExpired expiresAt now policy = .ok true
  earlier : enforceCommerceQuoteExpiry calendar payment now true policy = .ok none →
    ∀ before : Utc, before.time ≤ now.instant →
      enforceCommerceQuoteExpiry calendar payment before.toDateTime true policy = .ok none
  inTime : Conservative policy →
    enforceCommerceQuoteExpiry calendar payment now true policy = .ok none →
      ∀ expiresAt, Expires calendar payment expiresAt → now.instant < expiresAt.time

/-- A number of seconds as a double. -/
def seconds (x : PyNumber) : ℚ := toDouble x.ratio

/-- The microseconds by which the deadline is after the expiry. -/
def X402ClockSkewPolicy.margin (policy : X402ClockSkewPolicy) : ℤ :=
  match policy.maxClockSkewSecs, policy.minRemainingValiditySecs with
  | .int skew, .int remaining => (skew - remaining) * 10 ^ 6
  | skew, remaining => signedMicroseconds (toDouble (seconds skew - seconds remaining))

def shift : Option X402ClockSkewPolicy → ℤ
  | none => 0
  | some policy => policy.margin

/-- The expiry, now and the deadline are in the years of a `datetime`. -/
structure InYears (policy : Option X402ClockSkewPolicy) (now dt : DateTime) : Prop where
  expiry : Representable dt.instant
  now : Representable now.instant
  deadline : Representable (dt.instant + shift policy)

/-- If there is an expiry, the times that are computed of it exist. -/
def Fits (payment : Json) (policy : Option X402ClockSkewPolicy) (now : DateTime) : Prop :=
  ∀ dt, Extracts calendar payment dt → InYears policy now dt

variable {calendar}

/-! ### Margins -/

theorem microseconds_nonneg {x : ℚ} (nonneg : 0 ≤ x) : 0 ≤ microseconds x := by
  have whole : 0 ≤ ⌊x⌋ := Int.floor_nonneg.mpr nonneg
  have part : 0 ≤ roundHalfEven (toDouble (10 ^ 6 * Int.fract x)) := by
    have scaled : (0 : ℚ) ≤ 10 ^ 6 * Int.fract x :=
      mul_nonneg (by norm_num) (Int.fract_nonneg x)
    have rounded := Encoding.roundHalfEven_mono (Encoding.toDouble_nonneg scaled)
    rwa [← Int.cast_zero, Encoding.roundHalfEven_intCast] at rounded
  rw [microseconds]
  positivity

theorem signedMicroseconds_nonpos {x : ℚ} (nonpos : x ≤ 0) : signedMicroseconds x ≤ 0 := by
  rw [signedMicroseconds]
  split_ifs with neg
  · exact neg_nonpos.mpr (microseconds_nonneg (neg_nonneg.mpr nonpos))
  · obtain rfl : x = 0 := le_antisymm nonpos (not_lt.mp neg)
    have zero := microseconds_intCast 0
    rw [Int.cast_zero, zero_mul] at zero
    exact zero.le

/-- A tolerance is a finite number, as which it is compared, and a finite float. -/
theorem tolerance_spec {x : PyNumber} (valid : Tolerance x) :
    x.value = .finite x.ratio ∧ x.toFloat = .ok (.finite (seconds x)) ∧ 0 ≤ seconds x ∧
      seconds x < 2 ^ 1024 := by
  cases x with
  | int n =>
      obtain ⟨nonneg, small⟩ := valid
      have size : 0 ≤ toDouble (n : ℚ) := Encoding.toDouble_nonneg (by exact_mod_cast nonneg)
      refine ⟨rfl, ?_, size, lt_of_le_of_lt (le_abs_self _) small⟩
      rw [PyNumber.toFloat, Number.ofExact_of_lt small]
      rfl
  | float x =>
      cases x with
      | finite x =>
          obtain ⟨nonneg, double, small⟩ := valid
          have same : seconds (.float (.finite x)) = x := double
          rw [same]
          exact ⟨rfl, rfl, nonneg, small⟩
      | infinite s => exact valid.elim
      | nan => exact valid.elim

theorem seconds_mono {x y : PyNumber} (left : Tolerance x) (right : Tolerance y)
    (le : x.le y = true) : seconds x ≤ seconds y := by
  have leftValue := (tolerance_spec left).1
  have rightValue := (tolerance_spec right).1
  refine Encoding.toDouble_monotone (not_lt.mp fun gt => ?_)
  rw [PyNumber.le, PyNumber.gt, leftValue, rightValue] at le
  simp [Number.gt] at le
  exact absurd gt (not_lt.mpr le)

/-- The difference of two tolerances, of which one is a float, is a finite float. -/
theorem sub_float {x y : PyNumber} (left : Tolerance x) (right : Tolerance y)
    (either : x = .float (.finite (seconds x)) ∨ y = .float (.finite (seconds y))) :
    x.sub y = .ok (.float (.finite (toDouble (seconds x - seconds y)))) := by
  obtain ⟨-, leftFloat, leftNonneg, leftSmall⟩ := tolerance_spec left
  obtain ⟨-, rightFloat, rightNonneg, rightSmall⟩ := tolerance_spec right
  rw [PyNumber.sub, Retries.operator_float _ _ leftFloat rightFloat either]
  have finite : Number.ofExact (seconds x + -seconds y) =
      .finite (toDouble (seconds x - seconds y)) := by
    rw [← sub_eq_add_neg]
    rcases le_total (seconds x) (seconds y) with le | le
    · refine Number.ofExact_of_abs_le (Encoding.toDouble_toDouble y.ratio) ?_ ?_
      · rwa [← seconds, abs_of_nonneg rightNonneg]
      · rw [← seconds, abs_of_nonneg rightNonneg, abs_of_nonpos (sub_nonpos.mpr le)]
        linarith
    · refine Number.ofExact_of_abs_le (Encoding.toDouble_toDouble x.ratio) ?_ ?_
      · rwa [← seconds, abs_of_nonneg leftNonneg]
      · rw [← seconds, abs_of_nonneg leftNonneg, abs_of_nonneg (sub_nonneg.mpr le)]
        linarith
  rw [Number.neg, Number.add, finite]

theorem float_seconds {x : Number} (valid : Tolerance (.float x)) :
    PyNumber.float x = .float (.finite (seconds (.float x))) := by
  obtain ⟨value, float, -⟩ := tolerance_spec valid
  exact congrArg PyNumber.float (Except.ok.inj float)

/-- The seconds of the policy come to its margin, or to more than there is in a `timedelta`. -/
theorem timedelta_margin (policy : X402ClockSkewPolicy) :
    ∃ d, policy.maxClockSkewSecs.sub policy.minRemainingValiditySecs = .ok d ∧
      timedelta d =
        if IsDelta policy.margin then .ok policy.margin else .error "OverflowError" := by
  obtain ⟨skew, remaining, skewValid, remainingValid⟩ := policy
  cases skew with
  | int m =>
      cases remaining with
      | int n => exact ⟨_, rfl, rfl⟩
      | float y =>
          exact ⟨_, sub_float skewValid remainingValid (.inr (float_seconds remainingValid)),
            rfl⟩
  | float x =>
      exact ⟨_, sub_float skewValid remainingValid (.inl (float_seconds skewValid)),
        by cases remaining <;> rfl⟩

theorem utc_of {t : ℤ} (fits : Representable t) : utc t = .ok ⟨t, fits⟩ := dif_pos fits

theorem utc_of_not {t : ℤ} (out : ¬Representable t) : utc t = .error "OverflowError" :=
  dif_neg out

/-- No `timedelta` is needed beyond those between two times. -/
theorem isDelta_of {t : ℤ} {us : ℤ} (start : Representable t) (stop : Representable (t + us)) :
    IsDelta us := by
  simp only [Representable, IsDelta, firstTime, lastTime, maxDays, day] at *
  omega

theorem effectiveDeadline_eq (policy : X402ClockSkewPolicy) (expiresAt : Utc) :
    policy.effectiveDeadline expiresAt = utc (expiresAt.time + policy.margin) := by
  obtain ⟨d, difference, delta⟩ := timedelta_margin policy
  have unfolded : policy.effectiveDeadline expiresAt =
      (timedelta d).bind fun us => utc (expiresAt.time + us) := by
    rw [X402ClockSkewPolicy.effectiveDeadline, difference]
    rfl
  rw [unfolded, delta]
  split_ifs with fits
  · rfl
  · have out : ¬Representable (expiresAt.time + policy.margin) := fun stop =>
      fits (isDelta_of expiresAt.representable stop)
    rw [utc_of_not out]
    rfl

theorem margin_nonpos {policy : X402ClockSkewPolicy} (conservative : Conservative (some policy)) :
    policy.margin ≤ 0 := by
  obtain ⟨skew, remaining, skewValid, remainingValid⟩ := policy
  have le : seconds skew ≤ seconds remaining := seconds_mono skewValid remainingValid conservative
  have floats : signedMicroseconds (toDouble (seconds skew - seconds remaining)) ≤ 0 := by
    refine signedMicroseconds_nonpos ?_
    have rounded := Encoding.toDouble_monotone (sub_nonpos.mpr le)
    rwa [Encoding.toDouble_zero] at rounded
  cases skew with
  | int m =>
      cases remaining with
      | int n =>
          have exact : m ≤ n := by
            simpa [Conservative, PyNumber.le, PyNumber.gt, PyNumber.value, Number.gt]
              using conservative
          simp only [X402ClockSkewPolicy.margin]
          omega
      | float y => exact floats
  | float x => cases remaining <;> exact floats

/-! ### The gate in closed form -/

/-- The strict policy has the deadline of no policy. -/
example : shift (some STRICT_CLOCK_SKEW_POLICY) = shift none := by decide +kernel

/-- The other one refuses quotes for ten seconds before they expire. -/
example : shift (some DEFAULT_X402_CLOCK_SKEW_POLICY) = -(10 * 10 ^ 6) := by decide +kernel

variable {payment : Json} {policy : Option X402ClockSkewPolicy} {now dt : DateTime}

theorem deadline_eq (policy : Option X402ClockSkewPolicy) (expiresAt : Utc) :
    deadline policy expiresAt = utc (expiresAt.time + shift policy) := by
  cases policy with
  | none =>
      rw [shift, add_zero, utc_of expiresAt.representable]
      rfl
  | some policy => exact effectiveDeadline_eq policy expiresAt

theorem parse_of_extracts {raw : Json} (read : readTimestamp calendar raw = some dt) :
    parseIso8601Timestamp calendar raw = (utc dt.instant).map some := by
  rw [parseIso8601Timestamp, read]
  rfl

theorem extracts_unique {other : DateTime} (one : Extracts calendar payment dt)
    (two : Extracts calendar payment other) : dt = other := by
  obtain ⟨raw, found, read⟩ := one
  obtain ⟨raw', found', read'⟩ := two
  obtain rfl : raw = raw' := Option.some.inj (found.symm.trans found')
  exact Option.some.inj (read.symm.trans read')

/-- With an expiry, the gate compares now with the deadline, whatever the error. -/
theorem enforce_extracts (extracts : Extracts calendar payment dt) :
    ∃ errors : Utc → Utc → QuoteError, ∀ now,
      enforceCommerceQuoteExpiry calendar payment now true policy =
        (utc dt.instant).bind fun expiresAt => (asUtc now).bind fun nowUtc =>
          (deadline policy expiresAt).bind fun limit =>
            .ok (if nowUtc.time < limit.time then none else some (errors expiresAt nowUtc)) := by
  obtain ⟨raw, found, read⟩ := extracts
  have parsed := parse_of_extracts read
  cases policy with
  | none =>
      refine ⟨fun expiresAt _ => expired calendar expiresAt, fun now => ?_⟩
      simp only [enforceCommerceQuoteExpiry, found, parsed]
      cases utc dt.instant <;> rfl
  | some policy =>
      refine ⟨fun expiresAt nowUtc => if nowUtc.time ≥ expiresAt.time
        then expired calendar expiresAt else expiresTooSoon calendar expiresAt, fun now => ?_⟩
      simp only [enforceCommerceQuoteExpiry, found, parsed, apply_ite some]
      cases utc dt.instant <;> rfl

theorem enforce_missing (missing : ∀ dt, ¬Extracts calendar payment dt) :
    ∃ error, ∀ now, enforceCommerceQuoteExpiry calendar payment now true policy =
      .ok (some error) := by
  cases found : extractQuoteExpiresAt payment with
  | none =>
      simp only [enforceCommerceQuoteExpiry, found]
      cases nestedQuote payment <;> exact ⟨_, fun _ => rfl⟩
  | some raw =>
      have unread : readTimestamp calendar raw = none :=
        Option.eq_none_iff_forall_ne_some.mpr fun dt read => missing dt ⟨raw, found, read⟩
      simp only [enforceCommerceQuoteExpiry, found, parseIso8601Timestamp, unread]
      exact ⟨_, fun _ => rfl⟩

theorem utc_eq_ok {t : ℤ} {time : Utc} (is : utc t = .ok time) :
    Representable t ∧ time.time = t := by
  rw [utc] at is
  split_ifs at is with fits
  obtain rfl := Except.ok.inj is
  exact ⟨fits, rfl⟩

theorem returns_iff (extracts : Extracts calendar payment dt) :
    (∃ result, enforceCommerceQuoteExpiry calendar payment now true policy = .ok result) ↔
      InYears policy now dt := by
  obtain ⟨errors, verdict⟩ := @enforce_extracts calendar payment policy dt extracts
  rw [verdict]
  constructor
  · rintro ⟨result, returned⟩
    by_cases expiry : Representable dt.instant
    · by_cases present : Representable now.instant
      · by_cases limit : Representable (dt.instant + shift policy)
        · exact ⟨expiry, present, limit⟩
        · simp [utc_of expiry, asUtc, utc_of present, deadline_eq, utc_of_not limit, Except.bind]
            at returned
      · simp [utc_of expiry, asUtc, utc_of_not present, Except.bind] at returned
    · simp [utc_of_not expiry, Except.bind] at returned
  · rintro ⟨expiry, present, limit⟩
    simp only [utc_of expiry, asUtc, utc_of present, Except.bind, deadline_eq, utc_of limit]
    exact ⟨_, rfl⟩

theorem accepts_iff (extracts : Extracts calendar payment dt) :
    enforceCommerceQuoteExpiry calendar payment now true policy = .ok none ↔
      InYears policy now dt ∧ now.instant < dt.instant + shift policy := by
  constructor
  · intro accepted
    have years := (returns_iff extracts).mp ⟨none, accepted⟩
    obtain ⟨errors, verdict⟩ := @enforce_extracts calendar payment policy dt extracts
    rw [verdict] at accepted
    simp [utc_of years.expiry, asUtc, utc_of years.now, Except.bind, deadline_eq,
      utc_of years.deadline] at accepted
    exact ⟨years, accepted⟩
  · rintro ⟨years, inTime⟩
    obtain ⟨errors, verdict⟩ := @enforce_extracts calendar payment policy dt extracts
    simp [verdict, utc_of years.expiry, asUtc, utc_of years.now, Except.bind, deadline_eq,
      utc_of years.deadline, inTime]

theorem expires_iff {expiresAt : Utc} :
    Expires calendar payment expiresAt ↔
      ∃ dt, Extracts calendar payment dt ∧ dt.instant = expiresAt.time := by
  constructor
  · rintro ⟨raw, found, parsed⟩
    cases read : readTimestamp calendar raw with
    | none => simp [parseIso8601Timestamp, read] at parsed
    | some dt =>
        refine ⟨dt, ⟨raw, found, read⟩, ?_⟩
        rw [parse_of_extracts read] at parsed
        cases time : utc dt.instant with
        | error e => simp [time, Except.map] at parsed
        | ok t =>
            simp only [time, Except.map, Except.ok.injEq, Option.some.injEq] at parsed
            rw [← parsed, (utc_eq_ok time).2]
  · rintro ⟨dt, ⟨raw, found, read⟩, same⟩
    refine ⟨raw, found, ?_⟩
    rw [parse_of_extracts read, same, utc_of expiresAt.representable]
    rfl

theorem verify_iff {expiresAt : Utc} :
    verifyQuoteNotExpired expiresAt now policy = .ok true ↔
      Representable (expiresAt.time + shift policy) ∧ Representable now.instant ∧
        now.instant < expiresAt.time + shift policy := by
  have unfolded : verifyQuoteNotExpired expiresAt now policy =
      (deadline policy expiresAt).bind fun limit => (asUtc now).bind fun nowUtc =>
        .ok (decide (nowUtc.time < limit.time)) := rfl
  rw [unfolded, deadline_eq]
  by_cases limit : Representable (expiresAt.time + shift policy)
  · by_cases present : Representable now.instant
    · simp [utc_of limit, asUtc, utc_of present, Except.bind, limit, present]
    · simp [utc_of limit, asUtc, utc_of_not present, Except.bind, present]
  · simp [utc_of_not limit, Except.bind, limit]

/-- The gate fails closed exactly if the times that it computes are in the years of a `datetime`. -/
theorem failsClosed_iff (calendar : Calendar) (payment : Json)
    (policy : Option X402ClockSkewPolicy) (now : DateTime) :
    FailsClosed calendar payment policy now ↔ Fits calendar payment policy now := by
  constructor
  · intro closed dt extracts
    exact (returns_iff extracts).mp closed.returns
  · intro fits
    by_cases missing : ∀ dt, ¬Extracts calendar payment dt
    · obtain ⟨error, refused⟩ := @enforce_missing calendar payment policy missing
      have not (now : DateTime) :
          enforceCommerceQuoteExpiry calendar payment now true policy ≠ .ok none := by
        rw [refused]
        exact nofun
      refine ⟨⟨_, refused now⟩, ⟨fun accepted => absurd accepted (not now), ?_⟩,
        fun accepted => absurd accepted (not now), fun _ accepted => absurd accepted (not now)⟩
      rintro ⟨expiresAt, expires, -⟩
      obtain ⟨dt, extracts, -⟩ := expires_iff.mp expires
      exact absurd extracts (missing dt)
    · push Not at missing
      obtain ⟨dt, extracts⟩ := missing
      have years := fits dt extracts
      have verified {expiresAt : Utc} (same : dt.instant = expiresAt.time) :
          verifyQuoteNotExpired expiresAt now policy = .ok true ↔
            now.instant < dt.instant + shift policy := by
        rw [verify_iff, ← same]
        exact ⟨fun h => h.2.2, fun h => ⟨years.deadline, years.now, h⟩⟩
      constructor
      · exact (returns_iff extracts).mpr years
      · rw [accepts_iff extracts]
        constructor
        · rintro ⟨-, inTime⟩
          exact ⟨⟨dt.instant, years.expiry⟩, expires_iff.mpr ⟨dt, extracts, rfl⟩,
            (verified rfl).mpr inTime⟩
        · rintro ⟨expiresAt, expires, ok⟩
          obtain ⟨other, extracts', same⟩ := expires_iff.mp expires
          obtain rfl := extracts_unique extracts extracts'
          exact ⟨years, (verified same).mp ok⟩
      · intro accepted before le
        obtain ⟨-, inTime⟩ := (accepts_iff extracts).mp accepted
        have instant : before.toDateTime.instant = before.time := sub_zero before.time
        refine (accepts_iff extracts).mpr ⟨⟨years.expiry, ?_, years.deadline⟩, ?_⟩
        · exact instant ▸ before.representable
        · rw [instant]
          exact le.trans_lt inTime
      · intro conservative accepted expiresAt expires
        obtain ⟨other, extracts', same⟩ := expires_iff.mp expires
        obtain rfl := extracts_unique extracts extracts'
        obtain ⟨-, inTime⟩ := (accepts_iff extracts).mp accepted
        have early : shift policy ≤ 0 := by
          cases policy with
          | none => exact le_rfl
          | some policy => exact margin_nonpos conservative
        omega

/-- Midnight at the start of the year 1, where clocks are fourteen hours ahead. -/
def firstMidnight : DateTime := ⟨firstTime, some (14 * 3600 * 10 ^ 6), by decide⟩

def firstMidnightText : String := "0001-01-01T00:00:00+14:00"

/-- A calendar of that one text. -/
def firstCalendar : Calendar where
  fromisoformat text := if text = firstMidnightText then some firstMidnight else none
  isoformat _ := firstMidnightText

def firstQuote : Json := .object [("quote", .object [("expiresAt", .string firstMidnightText)])]

theorem first_midnight_raises :
    enforceCommerceQuoteExpiry firstCalendar firstQuote ⟨0, none, by decide⟩ true none =
        .error "OverflowError" ∧
      ¬FailsClosed firstCalendar firstQuote none ⟨0, none, by decide⟩ := by
  have raises : enforceCommerceQuoteExpiry firstCalendar firstQuote ⟨0, none, by decide⟩ true none =
      .error "OverflowError" := by decide
  refine ⟨raises, fun closed => ?_⟩
  obtain ⟨result, returned⟩ := closed.returns
  rw [raises] at returned
  cases returned

end Talos.Agent.Quotes
