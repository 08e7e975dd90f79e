import Talos.Agent.CircuitBreaker
import Talos.Encoding.Floats
import Mathlib.Data.List.Sort
import Mathlib.Data.String.Basic

/-!
# Selection of a provider

`RoutingPolicy` (`packages/prime-agent/src/talos_agent/routing/policy.py`) on the registry of
`routing/provider.py`. Capabilities decide which providers are candidates. Cost, latency, privacy
and the states of the breakers only enter a score, so a provider below the required privacy may be
selected.

Costs are finite decimals, the weights are finite, and the text of a score in a reason is a
parameter.
-/

namespace Talos.Agent.Routing

open Encoding (Number toDouble roundHalfEven)

/-! ### Providers -/

inductive TaskType where
  | chat
  | json
  | reasoning
  | code
  | vision
  | embedding
  deriving DecidableEq

def TaskType.value : TaskType → String
  | chat => "chat"
  | json => "json"
  | reasoning => "reasoning"
  | code => "code"
  | vision => "vision"
  | embedding => "embedding"

structure ProviderCapabilities where
  toolCalling : Bool := true
  jsonMode : Bool := true
  vision : Bool := false
  streaming : Bool := true
  parallelToolCalls : Bool := true
  deriving DecidableEq

structure ProviderMetadata where
  name : String
  capabilities : ProviderCapabilities := {}
  costPer1kInput : ℚ := 0
  costPer1kOutput : ℚ := 0
  avgLatencyMs : Number := .finite 1000
  privacyLevel : String := "external"
  defaultModel : String := ""
  deriving DecidableEq

/-- The providers in the order of their registration. -/
structure ProviderRegistry where
  providers : List ProviderMetadata
  nodup : (providers.map ProviderMetadata.name).Nodup

namespace ProviderRegistry

def available (registry : ProviderRegistry) : List String :=
  registry.providers.map ProviderMetadata.name

def get (registry : ProviderRegistry) (name : String) : Option ProviderMetadata :=
  registry.providers.find? (·.name = name)

def empty : ProviderRegistry := ⟨[], List.nodup_nil⟩

def register (registry : ProviderRegistry) (provider : ProviderMetadata) :
    Except String ProviderRegistry :=
  if known : provider.name ∈ registry.providers.map ProviderMetadata.name then
    .error ("Provider '" ++ provider.name ++ "' is already registered")
  else
    .ok {
      providers := registry.providers ++ [provider]
      nodup := by
        rw [List.map_append, List.map_singleton]
        exact registry.nodup.append (List.nodup_singleton _)
          (List.disjoint_singleton.mpr known) }

end ProviderRegistry

/-! ### Constraints and decisions -/

structure RoutingConstraints where
  taskType : TaskType := .chat
  maxCostUsd : Option ℚ := none
  maxLatencyMs : Option Number := none
  requirePrivacy : Option String := none
  requireCapabilities : List String := []
  preferredProvider : Option String := none
  preferredModel : Option String := none
  deriving DecidableEq

structure RoutingDecision where
  providerName : String
  model : String
  score : Number
  reason : String
  constraints : RoutingConstraints
  deriving DecidableEq

inductive RoutingError where
  | noSuitableProvider (message : String) (available : List String)
  | keyError (name : String)
  deriving DecidableEq

/-- A value that is there and not empty. -/
def given : Option String → Option String
  | some text => if text = "" then none else some text
  | none => none

/-- A finite float. -/
def IsFloat (w : ℚ) : Prop := toDouble w = w ∧ |w| < 2 ^ 1024

instance (w : ℚ) : Decidable (IsFloat w) :=
  inferInstanceAs (Decidable (toDouble w = w ∧ |w| < 2 ^ 1024))

structure RoutingPolicy where
  registry : ProviderRegistry
  costWeight : ℚ := 1
  latencyWeight : ℚ := 1
  privacyWeight : ℚ := 1 / 2
  availabilityWeight : ℚ := 2
  cost_float : IsFloat costWeight := by decide +kernel
  latency_float : IsFloat latencyWeight := by decide +kernel
  privacy_float : IsFloat privacyWeight := by decide +kernel
  availability_float : IsFloat availabilityWeight := by decide +kernel

variable (constraints : RoutingConstraints)

/-! ### Scores -/

/-- Names that are not known are passed. -/
def capabilitiesSatisfy (capabilities : ProviderCapabilities) : Bool :=
  constraints.requireCapabilities.all fun required =>
    !(required = "json_mode" && !capabilities.jsonMode) &&
    !(required = "vision" && !capabilities.vision) &&
    !(required = "tool_calling" && !capabilities.toolCalling) &&
    !(required = "streaming" && !capabilities.streaming) &&
    !(required = "parallel_tool_calls" && !capabilities.parallelToolCalls)

/-- A decimal in the default context, with 28 digits. -/
def inContext (x : ℚ) : ℚ :=
  let unit : ℚ := 10 ^ (Int.log 10 |x| - 27)
  roundHalfEven (x / unit) * unit

/-- `a <= b` on floats -/
def atMost (a b : Number) : Bool := b.gt a || (a = b && a ≠ .nan)

/-- `max(0.0, x)` -/
def clampLow (x : Number) : Number := if x.gt (.finite 0) then x else .finite 0

/-- `min(1.0, x)` -/
def clampHigh (x : Number) : Number := if (Number.finite 1).gt x then x else .finite 1

def computeCostScore (meta' : ProviderMetadata) : Number :=
  match constraints.maxCostUsd with
  | none => .finite (1 / 2)
  | some maxCost =>
      if maxCost ≤ 0 then .finite (1 / 2)
      else
        let estimated := inContext
          (inContext (meta'.costPer1kInput * 1) + inContext (meta'.costPer1kOutput * (1 / 2)))
        if estimated ≤ 0 then .finite 1
        else
          let ratio := Number.ofExact (inContext (estimated / maxCost))
          clampLow (clampHigh (Number.add (.finite 1) ratio.neg))

def computeLatencyScore (meta' : ProviderMetadata) : Number :=
  match constraints.maxLatencyMs with
  | none => .finite (1 / 2)
  | some maxLatency =>
      if atMost maxLatency (.finite 0) then .finite (1 / 2)
      else if atMost meta'.avgLatencyMs (.finite 0) then .finite (1 / 2)
      else
        let ratio := meta'.avgLatencyMs.div maxLatency
        if atMost ratio (.finite (1 / 2)) then .finite 1
        else if atMost ratio (.finite 1) then
          Number.mul (.finite 2) (Number.add (.finite 1) ratio.neg)
        else clampLow (Number.add (.finite 1) ratio.neg)

/-- The level of a name, which is the lowest for other names. -/
def privacyLevel (name : String) : ℕ :=
  if name = "local" then 3 else if name = "trusted" then 2 else 1

def computePrivacyScore (meta' : ProviderMetadata) : Number :=
  let required := (given constraints.requirePrivacy).getD "external"
  if privacyLevel meta'.privacyLevel < privacyLevel required then .finite (-1)
  else .finite (toDouble (privacyLevel meta'.privacyLevel / 3))

/-- The states of the breakers, by the names of their providers. -/
abbrev Breakers := String → CircuitState

variable (breakers : Breakers)

def computeAvailabilityScore (name : String) : Number :=
  match breakers name with
  | .closed => .finite 1
  | .halfOpen => .finite (toDouble (3 / 10))
  | .opened => .finite (-1)

def contains (text part : String) : Bool := decide (part.toList <:+: text.toList)

def taskTypeBonus (meta' : ProviderMetadata) : Number :=
  let lower := meta'.name.toLower
  let task := constraints.taskType
  if task = .json && !meta'.capabilities.jsonMode then .finite (-1 / 2)
  else if task = .vision && !meta'.capabilities.vision then .finite (-1 / 2)
  else if task = .chat && lower = "groq" then .finite (toDouble (3 / 10))
  else if task = .chat && lower = "openai" && contains meta'.defaultModel "mini" then
    .finite (toDouble (1 / 5))
  else if task = .reasoning && lower = "openai" && contains meta'.defaultModel "4" then
    .finite (toDouble (3 / 10))
  else if task = .code && lower = "openai" then .finite (toDouble (1 / 5))
  else .finite 0

namespace RoutingPolicy

variable (policy : RoutingPolicy)

/-- A weighted term, where the weight is positive and the constraint is set. -/
def addTerm (weight : ℚ) (set : Bool) (term score : Number) : Number :=
  if 0 < weight && set then score.add ((Number.finite weight).mul term) else score

def score (meta' : ProviderMetadata) : Number :=
  let score := Number.finite 0
  let score := addTerm policy.costWeight constraints.maxCostUsd.isSome
    (computeCostScore constraints meta') score
  let score := addTerm policy.latencyWeight constraints.maxLatencyMs.isSome
    (computeLatencyScore constraints meta') score
  let score := addTerm policy.privacyWeight (given constraints.requirePrivacy).isSome
    (computePrivacyScore constraints meta') score
  let score := addTerm policy.availabilityWeight true
    (computeAvailabilityScore breakers meta'.name) score
  score.add (taskTypeBonus constraints meta')

def scoreCandidates : List (String × Number) :=
  (policy.registry.providers.filter fun meta' =>
    capabilitiesSatisfy constraints meta'.capabilities).map fun meta' =>
      (meta'.name, policy.score constraints breakers meta')

/-- The key `(-score, name)` of one candidate is at most that of the other. No score is NaN. -/
def keyLE (p q : String × Number) : Prop :=
  q.2.rank < p.2.rank ∨ p.2.rank = q.2.rank ∧ p.1 ≤ q.1

instance : DecidableRel keyLE := fun p q =>
  inferInstanceAs (Decidable (q.2.rank < p.2.rank ∨ p.2.rank = q.2.rank ∧ p.1 ≤ q.1))

variable (format : Number → String)

/-- `_build_reason`, with the format `.2f` of scores. -/
def buildReason (name : String) (score : Number) (candidates : List (String × Number)) : String :=
  let selected := "Selected '" ++ name ++ "' (score=" ++ format score ++ ")"
  let task := if constraints.taskType = .chat then []
    else ["for task_type=" ++ constraints.taskType.value]
  let others := (candidates.filter fun c => c.1 ≠ name).map fun c =>
    "'" ++ c.1 ++ "'(" ++ format c.2 ++ ")"
  let rest := if 1 < candidates.length then ["over " ++ ", ".intercalate others] else []
  "; ".intercalate (selected :: task ++ rest)

def selectPreferred (preferred : String) : Except RoutingError RoutingDecision :=
  match policy.registry.get preferred with
  | none => .error (.noSuitableProvider
      ("Preferred provider '" ++ preferred ++ "' is not registered") policy.registry.available)
  | some provider =>
      if capabilitiesSatisfy constraints provider.capabilities then
        .ok {
          providerName := preferred
          model := (given constraints.preferredModel).getD provider.defaultModel
          score := .infinite false
          reason := "Preferred provider '" ++ preferred ++ "' selected by constraint"
          constraints := constraints }
      else .error (.noSuitableProvider
        ("Preferred provider '" ++ preferred ++ "' does not satisfy capability requirements")
        policy.registry.available)

/-- The candidates by score descending, then by name. -/
def ranked : List (String × Number) :=
  (policy.scoreCandidates constraints breakers).insertionSort keyLE

/-- The decision for the first of the sorted candidates. -/
def selectBest (candidates : List (String × Number)) : Except RoutingError RoutingDecision :=
  match candidates with
  | [] => .error (.noSuitableProvider "No suitable provider found" policy.registry.available)
  | (bestName, bestScore) :: _ =>
      match policy.registry.get bestName with
      | none => .error (.keyError bestName)
      | some provider => .ok {
          providerName := bestName
          model := (given constraints.preferredModel).getD provider.defaultModel
          score := bestScore
          reason := buildReason constraints format bestName bestScore candidates
          constraints := constraints }

def select : Except RoutingError RoutingDecision :=
  match given constraints.preferredProvider with
  | some preferred => policy.selectPreferred constraints preferred
  | none => policy.selectBest constraints format (policy.ranked constraints breakers)

end RoutingPolicy

/-! ### Scores are numbers -/

variable {constraints breakers} {policy : RoutingPolicy} {m : ProviderMetadata}

/-- A finite number from `-1` to `1`. -/
def Unit (x : Number) : Prop := ∃ y, x = .finite y ∧ |y| ≤ 1

theorem unit_ofExact {x : ℚ} (small : |x| ≤ 1) : Unit (Number.ofExact x) := by
  have one : toDouble 1 = 1 := Encoding.toDouble_one
  have rounded := Encoding.toDouble_le_toDouble (abs_nonneg x) small
  refine ⟨toDouble x, Number.ofExact_of_abs_le one ?_ (by rwa [abs_one]), ?_⟩
  · rw [abs_one]
    exact one_lt_pow₀ (by norm_num) (by norm_num)
  · rwa [Encoding.abs_toDouble, ← one]

theorem unit_clamp {x : Number}
    (below : (Number.finite 1).gt x = true ∨ x = .finite 1 ∨ x = .nan) : Unit (clampLow x) := by
  rw [clampLow]
  split_ifs with above
  · rcases below with below | rfl | rfl
    · rcases x with y | (_ | _) | _
      · have pos : 0 < y := of_decide_eq_true above
        have small : y < 1 := of_decide_eq_true below
        exact ⟨y, rfl, abs_le.mpr ⟨by linarith, small.le⟩⟩
      · cases below
      · cases above
      · cases below
    · exact ⟨1, rfl, by norm_num⟩
    · cases above
  · exact ⟨0, rfl, by norm_num⟩

theorem unit_half : Unit (.finite (1 / 2)) := ⟨1 / 2, rfl, by norm_num [abs_of_pos]⟩

theorem unit_one : Unit (.finite 1) := ⟨1, rfl, by norm_num⟩

theorem unit_neg_one : Unit (.finite (-1)) := ⟨-1, rfl, by norm_num⟩

theorem unit_toDouble {x : ℚ} (small : |x| ≤ 1) : Unit (.finite (toDouble x)) := by
  obtain ⟨y, same, bounded⟩ := unit_ofExact small
  have one : toDouble 1 = 1 := Encoding.toDouble_one
  refine ⟨toDouble x, rfl, ?_⟩
  rw [Encoding.abs_toDouble, ← one]
  exact Encoding.toDouble_le_toDouble (abs_nonneg x) small

theorem unit_costScore : Unit (computeCostScore constraints m) := by
  rw [computeCostScore]
  cases constraints.maxCostUsd with
  | none => exact unit_half
  | some maxCost =>
      dsimp only
      split_ifs
      · exact unit_half
      · exact unit_one
      · refine unit_clamp ?_
        rw [clampHigh]
        split_ifs with below
        · exact .inl below
        · exact .inr (.inl rfl)

theorem atMost_finite {a b : ℚ} : atMost (.finite a) (.finite b) = true ↔ a ≤ b := by
  simp [atMost, Number.gt, le_iff_lt_or_eq]

theorem unit_doubled {r : ℚ} (low : 1 / 2 < r) (high : r ≤ 1) :
    Unit ((Number.finite 2).mul (Number.add (.finite 1) (Number.neg (.finite r)))) := by
  have half : toDouble (1 / 2) = 1 / 2 := by decide +kernel
  have difference : Number.add (.finite 1) (Number.neg (.finite r)) =
      .finite (toDouble (1 + -r)) :=
    Number.ofExact_small (by linarith) (by linarith)
  have nonneg : 0 ≤ toDouble (1 + -r) := Encoding.toDouble_nonneg (by linarith)
  have small : toDouble (1 + -r) ≤ 1 / 2 := by
    rw [← half]
    exact Encoding.toDouble_le_toDouble (by linarith) (by linarith)
  rw [difference]
  refine unit_ofExact ?_
  rw [abs_of_nonneg (by linarith)]
  linarith

theorem unit_exceeded {ratio : Number} (exceeds : atMost ratio (.finite 1) = false) :
    Unit (clampLow (Number.add (.finite 1) ratio.neg)) := by
  refine unit_clamp ?_
  rcases ratio with r | (_ | _) | _
  · left
    have above : 1 < r := by
      rwa [← Bool.not_eq_true, atMost_finite, not_le] at exceeds
    have negative : Number.add (.finite 1) (Number.neg (.finite r)) = Number.ofExact (1 + -r) := rfl
    have rounded := Encoding.toDouble_nonneg (show 0 ≤ -(1 + -r) by linarith)
    rw [Encoding.toDouble_neg] at rounded
    rw [negative, Number.ofExact]
    split_ifs
    · exact decide_eq_true (by linarith)
    · rw [decide_eq_true (by linarith)]
      rfl
  · exact .inl rfl
  · cases exceeds
  · exact .inr (.inr rfl)

theorem unit_latencyScore : Unit (computeLatencyScore constraints m) := by
  rw [computeLatencyScore]
  cases constraints.maxLatencyMs with
  | none => exact unit_half
  | some maxLatency =>
      dsimp only
      generalize m.avgLatencyMs.div maxLatency = ratio
      split_ifs with _ _ within below
      · exact unit_half
      · exact unit_half
      · exact unit_one
      · rcases ratio with r | (_ | _) | _
        · rw [atMost_finite] at within below
          exact unit_doubled (not_le.mp within) below
        · cases below
        · exact absurd rfl within
        · cases below
      · exact unit_exceeded (Bool.eq_false_iff.mpr below)

theorem unit_privacyScore : Unit (computePrivacyScore constraints m) := by
  rw [computePrivacyScore]
  split_ifs
  · exact unit_neg_one
  · have level : (privacyLevel m.privacyLevel : ℚ) ≤ 3 := by
      rw [privacyLevel]
      split_ifs <;> norm_num
    refine unit_toDouble ?_
    rw [abs_of_nonneg (by positivity)]
    linarith

theorem unit_availabilityScore (name : String) : Unit (computeAvailabilityScore breakers name) := by
  rw [computeAvailabilityScore]
  cases breakers name with
  | closed => exact unit_one
  | opened => exact unit_neg_one
  | halfOpen => exact unit_toDouble (by norm_num [abs_of_pos])

theorem addTerm_ne_nan {w : ℚ} (float : IsFloat w) {set : Bool} {term score : Number}
    (unit : Unit term) (number : score ≠ .nan) : RoutingPolicy.addTerm w set term score ≠ .nan := by
  rw [RoutingPolicy.addTerm]
  split_ifs
  · obtain ⟨y, rfl, small⟩ := unit
    have bounded : |w * y| ≤ |w| := by
      rw [abs_mul]
      exact mul_le_of_le_one_right (abs_nonneg w) small
    have product : (Number.finite w).mul (.finite y) = .finite (toDouble (w * y)) :=
      Number.ofExact_of_abs_le float.1 float.2 bounded
    rw [product]
    exact Number.add_finite_ne_nan number _
  · exact number

theorem exists_bonus : ∃ y, taskTypeBonus constraints m = .finite y := by
  rw [taskTypeBonus]
  split_ifs <;> exact ⟨_, rfl⟩

theorem score_ne_nan : policy.score constraints breakers m ≠ .nan := by
  obtain ⟨y, bonus⟩ := @exists_bonus constraints m
  rw [RoutingPolicy.score, bonus]
  refine Number.add_finite_ne_nan ?_ y
  refine addTerm_ne_nan policy.availability_float (unit_availabilityScore _) ?_
  refine addTerm_ne_nan policy.privacy_float unit_privacyScore ?_
  refine addTerm_ne_nan policy.latency_float unit_latencyScore ?_
  exact addTerm_ne_nan policy.cost_float unit_costScore nofun

/-! ### The candidates -/

/-- The names of the capabilities that the policy knows. -/
def knownCapabilities : List String :=
  ["json_mode", "vision", "tool_calling", "streaming", "parallel_tool_calls"]

/-- Whether a provider has a capability, by its name. -/
def ProviderCapabilities.supports (capabilities : ProviderCapabilities) (name : String) : Bool :=
  (name = "json_mode" && capabilities.jsonMode) || (name = "vision" && capabilities.vision) ||
    (name = "tool_calling" && capabilities.toolCalling) ||
    (name = "streaming" && capabilities.streaming) ||
    (name = "parallel_tool_calls" && capabilities.parallelToolCalls)

variable (constraints) in
/-- The provider has every required capability. -/
def ProviderMetadata.Satisfies (m : ProviderMetadata) : Prop :=
  ∀ name ∈ constraints.requireCapabilities, m.capabilities.supports name = true

/-- A provider that may be selected: every one, or the preferred one. -/
def Eligible (constraints : RoutingConstraints) (m : ProviderMetadata) : Prop :=
  ∀ preferred, given constraints.preferredProvider = some preferred → m.name = preferred

theorem capabilitiesSatisfy_iff
    (known : ∀ name ∈ constraints.requireCapabilities, name ∈ knownCapabilities) :
    capabilitiesSatisfy constraints m.capabilities = true ↔ m.Satisfies constraints := by
  rw [capabilitiesSatisfy, List.all_eq_true]
  refine forall₂_congr fun name mem => ?_
  have isKnown := known name mem
  simp only [knownCapabilities, List.mem_cons, List.not_mem_nil, or_false] at isKnown
  rcases isKnown with rfl | rfl | rfl | rfl | rfl <;>
    simp [ProviderCapabilities.supports]

namespace RoutingPolicy

variable {p q : String × Number} {name : String} {format : Number → String}

theorem get_eq_some (registry : ProviderRegistry) :
    registry.get name = some m ↔ m ∈ registry.providers ∧ m.name = name := by
  constructor
  · intro found
    exact ⟨List.mem_of_find?_eq_some found, by simpa using List.find?_some found⟩
  · rintro ⟨mem, rfl⟩
    cases found : registry.get m.name with
    | none =>
        have missing := List.find?_eq_none.mp found m mem
        simp at missing
    | some other =>
        have same : other.name = m.name := by simpa using List.find?_some found
        have mem' := List.mem_of_find?_eq_some found
        rw [List.inj_on_of_nodup_map registry.nodup mem' mem same]

theorem mem_scoreCandidates : p ∈ policy.scoreCandidates constraints breakers ↔
    ∃ m ∈ policy.registry.providers, capabilitiesSatisfy constraints m.capabilities = true ∧
      p = (m.name, policy.score constraints breakers m) := by
  simp only [scoreCandidates, List.mem_map, List.mem_filter, eq_comm, and_assoc]

theorem keyLE_total (p q : String × Number) : keyLE p q ∨ keyLE q p := by
  rcases lt_trichotomy p.2.rank q.2.rank with less | same | less
  · exact .inr (.inl less)
  · rcases le_total p.1 q.1 with le | le
    · exact .inl (.inr ⟨same, le⟩)
    · exact .inr (.inr ⟨same.symm, le⟩)
  · exact .inl (.inl less)

theorem keyLE_trans {r : String × Number} (first : keyLE p q) (second : keyLE q r) :
    keyLE p r := by
  rcases first with less | ⟨same, le⟩ <;> rcases second with less' | ⟨same', le'⟩
  · exact .inl (less'.trans less)
  · exact .inl (same' ▸ less)
  · exact .inl (same ▸ less')
  · exact .inr ⟨same.trans same', le.trans le'⟩

theorem keyLE_refl (p : String × Number) : keyLE p p := .inr ⟨rfl, le_rfl⟩

instance : Std.Total keyLE := ⟨keyLE_total⟩

instance : IsTrans (String × Number) keyLE := ⟨fun _ _ _ => keyLE_trans⟩

/-- A number is known from its place. -/
theorem eq_of_rank {a b : Number} (left : a ≠ .nan) (right : b ≠ .nan) (same : a.rank = b.rank) :
    a = b := by
  rcases a with x | (_ | _) | _ <;> rcases b with y | (_ | _) | _ <;>
    simp_all [Number.rank]

theorem mem_ranked : p ∈ policy.ranked constraints breakers ↔
    p ∈ policy.scoreCandidates constraints breakers := List.mem_insertionSort _

theorem score_of_mem (mem : p ∈ policy.ranked constraints breakers) :
    ∃ m, policy.registry.get p.1 = some m ∧
      capabilitiesSatisfy constraints m.capabilities = true ∧
      p.2 = policy.score constraints breakers m := by
  obtain ⟨m, inside, capable, rfl⟩ := mem_scoreCandidates.mp (mem_ranked.mp mem)
  exact ⟨m, (get_eq_some _).mpr ⟨inside, rfl⟩, capable, rfl⟩

/-- Candidates with the same key are the same. -/
theorem keyLE_antisymm (left : p ∈ policy.ranked constraints breakers)
    (right : q ∈ policy.ranked constraints breakers) (le : keyLE p q) (ge : keyLE q p) : p = q := by
  obtain ⟨m, -, -, first⟩ := score_of_mem left
  obtain ⟨m', -, -, second⟩ := score_of_mem right
  rcases le with less | ⟨same, le⟩
  · rcases ge with less' | ⟨same', -⟩
    · exact absurd less' less.not_gt
    · exact absurd same'.symm less.ne'
  · rcases ge with less' | ⟨-, ge⟩
    · exact absurd same less'.ne
    · refine Prod.ext (le_antisymm le ge) (eq_of_rank ?_ ?_ same)
      · rw [first]
        exact score_ne_nan
      · rw [second]
        exact score_ne_nan

/-- The same weights on another registry. -/
def withRegistry (policy : RoutingPolicy) (registry : ProviderRegistry) : RoutingPolicy :=
  { policy with registry := registry }

/-- The order of registration does not matter for the sorted candidates. -/
theorem ranked_perm {registry : ProviderRegistry}
    (perm : registry.providers.Perm policy.registry.providers) :
    (policy.withRegistry registry).ranked constraints breakers =
      policy.ranked constraints breakers := by
  have candidates : ((policy.withRegistry registry).scoreCandidates constraints breakers).Perm
      (policy.scoreCandidates constraints breakers) :=
    (perm.filter _).map _
  have sorted := (List.perm_insertionSort keyLE _).trans
    (candidates.trans (List.perm_insertionSort keyLE _).symm)
  refine List.Perm.eq_of_pairwise (fun p q left right => ?_) (List.pairwise_insertionSort keyLE _)
    (List.pairwise_insertionSort keyLE _) sorted
  exact keyLE_antisymm (sorted.mem_iff.mp left) right

theorem get_perm {registry : ProviderRegistry}
    (perm : registry.providers.Perm policy.registry.providers) (name : String) :
    registry.get name = policy.registry.get name := by
  refine Option.ext fun m => ?_
  rw [get_eq_some, get_eq_some, perm.mem_iff]

/-! ### The selection -/

/-- A preferred provider is selected if it is registered and capable. -/
theorem selectPreferred_cases {preferred : String}
    (known : ∀ name ∈ constraints.requireCapabilities, name ∈ knownCapabilities) :
    (∃ m d, m ∈ policy.registry.providers ∧ m.name = preferred ∧ m.Satisfies constraints ∧
      policy.selectPreferred constraints preferred = .ok d ∧ d.providerName = preferred) ∨
    (∀ m ∈ policy.registry.providers, m.name = preferred → ¬ m.Satisfies constraints) ∧
      ∃ message, policy.selectPreferred constraints preferred =
        .error (.noSuitableProvider message policy.registry.available) := by
  rw [selectPreferred]
  cases found : policy.registry.get preferred with
  | none =>
      refine .inr ⟨fun m mem name => ?_, _, rfl⟩
      rw [(get_eq_some _).mpr ⟨mem, name⟩] at found
      cases found
  | some m =>
      have inside := (get_eq_some _).mp found
      dsimp only
      split_ifs with capable
      · exact .inl ⟨m, _, inside.1, inside.2, (capabilitiesSatisfy_iff known).mp capable, rfl, rfl⟩
      · refine .inr ⟨fun m' mem name satisfies => ?_, _, rfl⟩
        have same := (get_eq_some _).mpr ⟨mem, name⟩
        obtain rfl := Option.some.inj (found.symm.trans same)
        exact capable ((capabilitiesSatisfy_iff known).mpr satisfies)

/-- Otherwise the first of the sorted candidates is selected. -/
theorem select_ranked (scored : given constraints.preferredProvider = none)
    (known : ∀ name ∈ constraints.requireCapabilities, name ∈ knownCapabilities) :
    (∃ m d, m ∈ policy.registry.providers ∧ m.Satisfies constraints ∧
      policy.select constraints breakers format = .ok d ∧ d.providerName = m.name ∧
      ∀ m' ∈ policy.registry.providers, m'.Satisfies constraints →
        keyLE (d.providerName, d.score) (m'.name, policy.score constraints breakers m')) ∨
    (∀ m ∈ policy.registry.providers, ¬ m.Satisfies constraints) ∧
      ∃ message, policy.select constraints breakers format =
        .error (.noSuitableProvider message policy.registry.available) := by
  have inside (m : ProviderMetadata) (mem : m ∈ policy.registry.providers)
      (satisfies : m.Satisfies constraints) :
      (m.name, policy.score constraints breakers m) ∈ policy.ranked constraints breakers :=
    mem_ranked.mpr (mem_scoreCandidates.mpr
      ⟨m, mem, (capabilitiesSatisfy_iff known).mpr satisfies, rfl⟩)
  have sorted : (policy.ranked constraints breakers).Pairwise keyLE :=
    List.pairwise_insertionSort keyLE _
  rw [select, scored]
  dsimp only
  cases candidates : policy.ranked constraints breakers with
  | nil =>
      refine .inr ⟨fun m mem satisfies => ?_, _, rfl⟩
      have listed := inside m mem satisfies
      rw [candidates] at listed
      cases listed
  | cons best rest =>
      have first : best ∈ policy.ranked constraints breakers := by
        rw [candidates]
        exact List.mem_cons_self
      obtain ⟨m, found, capable, score⟩ := score_of_mem first
      obtain ⟨mem, name⟩ := (get_eq_some _).mp found
      obtain ⟨d, selected, named, scoredAs⟩ : ∃ d,
          policy.selectBest constraints format (best :: rest) = .ok d ∧
            d.providerName = best.1 ∧ d.score = best.2 := by
        rw [selectBest, found]
        exact ⟨_, rfl, rfl, rfl⟩
      refine .inl ⟨m, d, mem, (capabilitiesSatisfy_iff known).mp capable, selected,
        named.trans name.symm, fun m' mem' satisfies => ?_⟩
      have listed := inside m' mem' satisfies
      rw [candidates] at listed sorted
      rw [named, scoredAs]
      rcases List.mem_cons.mp listed with same | later
      · rw [same]
        exact keyLE_refl _
      · exact (List.pairwise_cons.mp sorted).1 _ later

theorem toOption_selectBest_perm {registry : ProviderRegistry}
    (perm : registry.providers.Perm policy.registry.providers)
    (candidates : List (String × Number)) :
    ((policy.withRegistry registry).selectBest constraints format candidates).toOption =
      (policy.selectBest constraints format candidates).toOption := by
  rcases candidates with _ | ⟨⟨name, score⟩, rest⟩
  · rfl
  · have get : (policy.withRegistry registry).registry.get name = policy.registry.get name :=
      get_perm perm name
    rw [selectBest, selectBest, get]

theorem toOption_select_perm {registry : ProviderRegistry}
    (perm : registry.providers.Perm policy.registry.providers) :
    ((policy.withRegistry registry).select constraints breakers format).toOption =
      (policy.select constraints breakers format).toOption := by
  rw [select, select]
  cases given constraints.preferredProvider with
  | some preferred =>
      dsimp only
      rw [selectPreferred, selectPreferred, withRegistry, get_perm perm]
      cases policy.registry.get preferred with
      | none => rfl
      | some provider =>
          dsimp only
          split_ifs <;> rfl
  | none =>
      dsimp only
      rw [ranked_perm perm]
      exact toOption_selectBest_perm perm _

/-- Either the selected provider is eligible and capable, or no provider is. -/
theorem select_cases
    (known : ∀ name ∈ constraints.requireCapabilities, name ∈ knownCapabilities) :
    (∃ m d, m ∈ policy.registry.providers ∧ Eligible constraints m ∧ m.Satisfies constraints ∧
      policy.select constraints breakers format = .ok d ∧ d.providerName = m.name ∧
      (given constraints.preferredProvider = none →
        ∀ m' ∈ policy.registry.providers, m'.Satisfies constraints →
          keyLE (d.providerName, d.score) (m'.name, policy.score constraints breakers m'))) ∨
    (∀ m ∈ policy.registry.providers, Eligible constraints m → ¬ m.Satisfies constraints) ∧
      ∃ message, policy.select constraints breakers format =
        .error (.noSuitableProvider message policy.registry.available) := by
  cases preferred : given constraints.preferredProvider with
  | some name =>
      have selected : policy.select constraints breakers format =
          policy.selectPreferred constraints name := by
        rw [select, preferred]
      have eligible (m : ProviderMetadata) : Eligible constraints m ↔ m.name = name := by
        rw [Eligible, preferred]
        exact ⟨fun all => all name rfl, fun same other is => same.trans (Option.some.inj is)⟩
      rw [selected]
      rcases @selectPreferred_cases constraints policy name known with
        ⟨m, d, mem, named, satisfies, returned, chosen⟩ | ⟨none, refused⟩
      · exact .inl ⟨m, d, mem, (eligible m).mpr named, satisfies, returned,
          chosen.trans named.symm, nofun⟩
      · exact .inr ⟨fun m mem is => none m mem ((eligible m).mp is), refused⟩
  | none =>
      have eligible (m : ProviderMetadata) : Eligible constraints m := by
        rw [Eligible, preferred]
        exact nofun
      rcases select_ranked preferred known with
        ⟨m, d, mem, satisfies, returned, named, best⟩ | ⟨none, refused⟩
      · exact .inl ⟨m, d, mem, eligible m, satisfies, returned, named, fun _ => best⟩
      · exact .inr ⟨fun m mem _ => none m mem, refused⟩

end RoutingPolicy

/-- With required capabilities that the policy knows, a provider that has them all is selected
wherever one is eligible, by its score unless it is the preferred one, whatever the order of
registration. The required privacy excludes none. -/
theorem select_lawful (policy : RoutingPolicy) (constraints : RoutingConstraints)
    (breakers : Breakers) (format : Number → String)
    (known : ∀ name ∈ constraints.requireCapabilities, name ∈ knownCapabilities) :
    (∀ d, policy.select constraints breakers format = .ok d →
      (∃ m ∈ policy.registry.providers, m.name = d.providerName ∧ Eligible constraints m ∧
        m.Satisfies constraints) ∧
      (given constraints.preferredProvider = none →
        ∀ m ∈ policy.registry.providers, m.Satisfies constraints →
          RoutingPolicy.keyLE (d.providerName, d.score)
            (m.name, policy.score constraints breakers m))) ∧
    ((∃ message, policy.select constraints breakers format =
        .error (.noSuitableProvider message policy.registry.available)) ↔
      ¬ ∃ m ∈ policy.registry.providers, Eligible constraints m ∧ m.Satisfies constraints) ∧
    (∀ name, policy.select constraints breakers format ≠ .error (.keyError name)) ∧
    ∀ registry : ProviderRegistry, registry.providers.Perm policy.registry.providers →
      ((policy.withRegistry registry).select constraints breakers format).toOption =
        (policy.select constraints breakers format).toOption := by
  rw [← and_assoc, ← and_assoc]
  refine ⟨?_, fun registry perm => RoutingPolicy.toOption_select_perm perm⟩
  rcases @RoutingPolicy.select_cases constraints breakers policy format known with
    ⟨m, d, mem, eligible, satisfies, returned, named, best⟩ | ⟨none, message, refused⟩
  · rw [returned]
    refine ⟨⟨?_, iff_of_false ?_ ?_⟩, ?_⟩
    · rintro d' same
      obtain rfl := Except.ok.inj same
      exact ⟨⟨m, mem, named.symm, eligible, satisfies⟩, best⟩
    · rintro ⟨message, same⟩
      cases same
    · exact fun without => without ⟨m, mem, eligible, satisfies⟩
    · rintro name same
      cases same
  · rw [refused]
    refine ⟨⟨?_, iff_of_true ⟨message, rfl⟩ ?_⟩, ?_⟩
    · rintro d same
      cases same
    · rintro ⟨m, mem, eligible, satisfies⟩
      exact none m mem eligible satisfies
    · rintro name same
      cases same

/-- One external provider, and one that runs locally. -/
def twoProviders : ProviderRegistry where
  providers := [{ name := "groq" }, { name := "ollama", privacyLevel := "local" }]
  nodup := by decide

def twoProviderPolicy : RoutingPolicy := { registry := twoProviders }

def breakersOpen (names : List String) : Breakers := fun name =>
  if name ∈ names then .opened else .closed

theorem select_lawful_vision :
    ¬ ∃ d, twoProviderPolicy.select { requireCapabilities := ["vision"] } (breakersOpen [])
      (fun _ => "") = .ok d := by
  rintro ⟨d, returned⟩
  have lawful := select_lawful twoProviderPolicy { requireCapabilities := ["vision"] }
    (breakersOpen []) (fun _ => "") (by decide)
  obtain ⟨m, mem, -, -, satisfies⟩ := (lawful.1 d returned).1
  have lacking : ∀ m ∈ twoProviders.providers, m.capabilities.supports "vision" = false := by
    decide
  have has := satisfies "vision" List.mem_cons_self
  rw [lacking m mem] at has
  cases has

/-- A local provider is required, and the breaker of the one that there is is open. -/
theorem external_selected :
    ¬ ∀ (policy : RoutingPolicy) (constraints : RoutingConstraints) (breakers : Breakers)
      (format : Number → String) (d : RoutingDecision),
      policy.select constraints breakers format = .ok d →
        ∃ m ∈ policy.registry.providers, m.name = d.providerName ∧
          ∀ required, given constraints.requirePrivacy = some required →
            privacyLevel required ≤ privacyLevel m.privacyLevel := by
  intro all
  have selected : (twoProviderPolicy.select { requirePrivacy := some "local" }
      (breakersOpen ["ollama"]) (fun _ => "")).toOption.map (·.providerName) = some "groq" := by
    decide +kernel
  obtain ⟨d, returned, named⟩ := Option.map_eq_some_iff.mp selected
  have returned : twoProviderPolicy.select { requirePrivacy := some "local" }
      (breakersOpen ["ollama"]) (fun _ => "") = .ok d := by
    cases result : twoProviderPolicy.select { requirePrivacy := some "local" }
        (breakersOpen ["ollama"]) (fun _ => "") with
    | error e =>
        rw [result] at returned
        cases returned
    | ok d' =>
        rw [result] at returned
        exact congrArg Except.ok (Option.some.inj returned)
  obtain ⟨m, mem, name, isPrivate⟩ := all _ _ _ _ d returned
  have external : ∀ m ∈ twoProviders.providers, m.name = "groq" →
      ¬ privacyLevel "local" ≤ privacyLevel m.privacyLevel := by
    decide
  exact external m mem (name.trans named) (isPrivate "local" rfl)

end Talos.Agent.Routing
