import Talos.Quota.Windows
import Talos.Database.Machine
import Talos.Database.Table

/-!
# Quotas

`resolveQuotaConfig` and `checkAndIncrementQuota` (`web/src/lib/quota.ts`) over the tables
`tls_quota_configs` and `tls_quota_usage`. A call sends two statements and reads the clock in
between, so its steps interleave with those of other calls and with changes of the
configuration.
-/

namespace Talos.Quota

open Database Soroban

inductive QuotaResource where
  | activityWrites
  | jobWrites
  | revenueWrites
  | sseConnections
  deriving DecidableEq

/-- An `integer` column. -/
abbrev Int4 := { n : Int // -2147483648 ≤ n ∧ n ≤ 2147483647 }

/-! ### Configuration -/

/-- A row of `tls_quota_configs`; without an agent it is a default of the platform. -/
structure QuotaConfigRow where
  talosId : Option String
  resource : QuotaResource
  maxCount : Int4
  windowSize : String
  enabled : Bool
  notes : Option String

structure QuotaConfig where
  talosId : Option String
  resource : QuotaResource
  maxCount : Int4
  windowSize : WindowSize
  enabled : Bool
  notes : Option String

/-- A text that is cast to a size is compared with the first two only. -/
def WindowSize.ofText (windowSize : String) : WindowSize :=
  if windowSize = "hourly" then .hourly
  else if windowSize = "daily" then .daily
  else .monthly

/-- The row of the agent, else that of the platform, else a quota that is not enforced. -/
def resolveQuotaConfig (configs : List QuotaConfigRow) (talosId : String)
    (resource : QuotaResource) : QuotaConfig :=
  let rows := configs.filter fun r =>
    r.resource = resource && (r.talosId = some talosId || r.talosId = none)
  match rows.find? fun r => r.talosId = some talosId with
  | some agentRow =>
    { talosId := agentRow.talosId
      resource := agentRow.resource
      maxCount := agentRow.maxCount
      windowSize := .ofText agentRow.windowSize
      enabled := agentRow.enabled
      notes := agentRow.notes }
  | none =>
    match rows.find? fun r => r.talosId = none with
    | some platformRow =>
      { talosId := none
        resource := platformRow.resource
        maxCount := platformRow.maxCount
        windowSize := .ofText platformRow.windowSize
        enabled := platformRow.enabled
        notes := platformRow.notes }
    | none =>
      { talosId := none
        resource
        maxCount := ⟨10000, by decide⟩
        windowSize := .daily
        enabled := false
        notes := some "No quota config found — enforcement disabled (safe fallback)" }

/-! ### Usage -/

/-- The primary key of `tls_quota_usage`. -/
structure UsageKey where
  talosId : String
  resource : QuotaResource
  windowStart : Int
  deriving DecidableEq

/-- The count that an upsert gives the key. -/
def nextCount (usage : Table UsageKey Int4) (key : UsageKey) : Int :=
  match usage key with
  | none => 1
  | some count => count.val + 1

/-- `INSERT … ON CONFLICT DO UPDATE SET count = count + 1`. The statement fails if the count
does not fit the column. -/
def upsert (usage : Table UsageKey Int4) (key : UsageKey) : Option (Table UsageKey Int4 × Int4) :=
  if fits : -2147483648 ≤ nextCount usage key ∧ nextCount usage key ≤ 2147483647 then
    some (usage.set key ⟨nextCount usage key, fits⟩, ⟨nextCount usage key, fits⟩)
  else none

structure QuotaResult where
  ok : Bool
  limit : Int
  remaining : Int
  used : Int
  /-- `none` is `NaN`. -/
  resetAt : Option Int
  resource : QuotaResource
  deriving DecidableEq

/-! ### Calls -/

/-- What a call has bound once it has read the clock. -/
structure Locals where
  config : QuotaConfig
  now : Int
  windowStart : Option Int
  resetAt : Option Int

/-- The clock gives a valid date. -/
def Locals.read (config : QuotaConfig) (now : Int) : Locals :=
  let windowStart := floorToWindow now config.windowSize
  { config, now, windowStart,
    resetAt := windowStart.bind fun start => nextWindowStart start config.windowSize }

def Locals.unlimited (l : Locals) (resource : QuotaResource) : QuotaResult :=
  { ok := true
    limit := l.config.maxCount.val
    remaining := l.config.maxCount.val
    used := 0
    resetAt := l.resetAt
    resource }

def Locals.counted (l : Locals) (resource : QuotaResource) (used : Int4) : QuotaResult :=
  { ok := used.val ≤ l.config.maxCount.val
    limit := l.config.maxCount.val
    remaining := max 0 (l.config.maxCount.val - used.val)
    used := used.val
    resetAt := l.resetAt
    resource }

inductive Phase where
  | called
  | resolved (config : QuotaConfig)
  | counting (locals : Locals)
  | returned (locals : Locals) (result : QuotaResult)
  | threw (locals : Locals)

structure Call where
  talosId : String
  resource : QuotaResource
  phase : Phase

structure State where
  configs : List QuotaConfigRow
  usage : Table UsageKey Int4
  calls : Map Nat Call

def State.put (s : State) (c : Nat) (call : Call) : State :=
  { s with calls := s.calls.set c call }

theorem State.put_self (s : State) (c : Nat) (call : Call) : (s.put c call).calls c = some call :=
  Map.set_self _ _ _

theorem State.put_of_ne (s : State) {c c' : Nat} (call : Call) (other : c' ≠ c) :
    (s.put c call).calls c' = s.calls c' := Map.set_of_ne _ _ other

inductive Event where
  /-- The configuration is changed. -/
  | configure (configs : List QuotaConfigRow)
  | call (c : Nat) (talosId : String) (resource : QuotaResource)
  /-- The select of `resolveQuotaConfig`. -/
  | resolve (c : Nat)
  /-- The clock is read, and a quota that is not enabled returns. -/
  | date (c : Nat) (now : Int)
  /-- The upsert, and the check of the count that it returns. -/
  | increment (c : Nat)

/-- The upsert of a call. A key with an invalid date is not sent. -/
def State.increment (s : State) (c : Nat) (call : Call) (l : Locals) : State :=
  match l.windowStart with
  | none => s.put c { call with phase := .threw l }
  | some windowStart =>
    match upsert s.usage ⟨call.talosId, call.resource, windowStart⟩ with
    | none => s.put c { call with phase := .threw l }
    | some (usage, count) =>
      State.put { s with usage } c
        { call with phase := .returned l (l.counted call.resource count) }

def step (s : State) : Event → Option State
  | .configure configs => some { s with configs }
  | .call c talosId resource =>
    match s.calls c with
    | none => some (s.put c ⟨talosId, resource, .called⟩)
    | some _ => none
  | .resolve c =>
    match s.calls c with
    | some ⟨talosId, resource, .called⟩ =>
      some (s.put c
        ⟨talosId, resource, .resolved (resolveQuotaConfig s.configs talosId resource)⟩)
    | _ => none
  | .date c now =>
    if -maxTime ≤ now ∧ now ≤ maxTime then
      match s.calls c with
      | some ⟨talosId, resource, .resolved config⟩ =>
        let l := Locals.read config now
        some (s.put c ⟨talosId, resource,
          if config.enabled = false then .returned l (l.unlimited resource) else .counting l⟩)
      | _ => none
    else none
  | .increment c =>
    match s.calls c with
    | some ⟨talosId, resource, .counting l⟩ =>
      some (s.increment c ⟨talosId, resource, .counting l⟩ l)
    | _ => none

/-- Before any call. -/
def quotas (configs : List QuotaConfigRow) : Machine State Event where
  init := { configs, usage := .empty, calls := .empty }
  step := step

end Talos.Quota
