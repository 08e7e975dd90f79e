import Talos.Agent.PolicySchema
import Mathlib.Data.List.Sort
import Mathlib.Data.String.Basic

/-!
# The policy engine of the agent

`PolicyEngine` (`packages/prime-agent/src/talos_agent/policy/engine.py`). The enabled policies are
visited by priority and name, and their rules in order, up to the first matching rule that blocks.
The decision is made from the rules that matched, and of those that only inform it should not
depend; but a matching rule of low severity that denies escalates (`evaluate_lawful_iff`).

The time of an evaluation and its digest are left out.
-/

namespace Talos.Agent.Policies

/-! ### Results -/

structure RuleTraceStep where
  policy : String
  ruleId : String
  severity : String
  matched : Bool
  decision : String
  reason : String
  conditions : List ConditionTrace
  effect : String
  deriving DecidableEq, Repr

structure PolicyDecisionTrace where
  action : String
  decision : String
  engineEnabled : Bool
  shortCircuited : Bool
  steps : List RuleTraceStep
  summary : String
  deriving DecidableEq, Repr

def PolicyDecisionTrace.disabled (action : String) : PolicyDecisionTrace :=
  ⟨action, PolicyDecision.approve.value, false, false, [],
    "Policy engine disabled; action approved without rule evaluation."⟩

structure RuleResult where
  policy : String
  ruleId : String
  matched : Bool
  decision : String
  severity : String
  deriving DecidableEq, Repr

structure PolicyResult (Value : Type) where
  decision : PolicyDecision
  violatedRules : List (PolicyRule Value)
  allResults : List RuleResult
  evidence : List String
  trace : PolicyDecisionTrace

/-- What `_build_summary` makes of the matched steps of an enabled engine. -/
def buildSummary (decision : PolicyDecision) (shortCircuited : Bool)
    (matchedSteps : List RuleTraceStep) : String :=
  let ids := ", ".intercalate
    ((matchedSteps.filter (·.matched)).map fun s => s.policy ++ "/" ++ s.ruleId)
  match shortCircuited, matchedSteps.getLast? with
  | true, some step => "DENIED by BLOCKER rule " ++ step.policy ++ "/" ++ step.ruleId ++ ": " ++
      (if step.reason = "" then step.ruleId else step.reason)
  | _, last =>
      if decision = .escalate ∧ last.isSome then "ESCALATE due to matching rule(s): " ++ ids
      else if decision = .approve then
        if matchedSteps.filter (·.matched) ≠ [] then "APPROVE with advisory matches: " ++ ids
        else "APPROVE; no matching policy rules."
      else "decision=" ++ decision.value

variable {Value : Type} (py : Python Value) (spec : ActionSpec Value)

/-! ### Visiting rules -/

def allHold : List (MatchCondition Value) → Except PyError Bool
  | [] => .ok true
  | c :: rest => do
      if ← evaluateCondition py c spec then allHold rest else .ok false

def allConditionsMatch (rule : PolicyRule Value) : Except PyError Bool :=
  if rule.conditions = [] then .ok (rule.severity ≠ .blocker) else allHold py spec rule.conditions

/-- The lists that `evaluate` appends to. -/
structure Progress (Value : Type) where
  violated : List (PolicyRule Value)
  allResults : List RuleResult
  evidence : List String
  steps : List RuleTraceStep
  matchedSteps : List RuleTraceStep

def Progress.empty : Progress Value := ⟨[], [], [], [], []⟩

/-- A blocking rule without conditions, which would deny everything. -/
def PolicyRule.isCatchAllBlocker (rule : PolicyRule Value) : Bool :=
  rule.conditions.isEmpty && rule.severity = .blocker

/-- The traces of the conditions, and whether the rule matches. -/
def evaluateRule (rule : PolicyRule Value) : Except PyError (List ConditionTrace × Bool) :=
  if rule.isCatchAllBlocker then .ok ([], false)
  else do
    let condTraces ← rule.conditions.mapM (traceCondition py · spec)
    let matched ← allConditionsMatch py spec rule
    pure (condTraces, matched)

def recordRule (policy : Policy Value) (rule : PolicyRule Value) (s : Progress Value)
    (condTraces : List ConditionTrace) (matched : Bool) : Progress Value :=
  let decision := if matched then rule.decision.value else "not_applicable"
  let step : RuleTraceStep :=
    { policy := policy.name
      ruleId := rule.ruleId
      severity := rule.severity.value
      matched := matched
      decision := decision
      reason := rule.reason
      conditions := condTraces
      effect := if rule.isCatchAllBlocker then "catch_all_blocker_skipped"
        else if !matched then "continue"
        else if rule.severity = .blocker then "short_circuit_deny" else "record" }
  let line := "[" ++ policy.name ++ "/" ++ rule.ruleId ++ "] " ++ rule.reason ++ " (severity=" ++
    rule.severity.value ++ ", decision=" ++ rule.decision.value ++ ")"
  { violated := if matched then s.violated ++ [rule] else s.violated
    allResults := s.allResults ++
      [⟨policy.name, rule.ruleId, matched, decision, rule.severity.value⟩]
    evidence := if matched then s.evidence ++ [line] else s.evidence
    steps := s.steps ++ [step]
    matchedSteps := if matched then s.matchedSteps ++ [step] else s.matchedSteps }

/-- The rules of a policy, and the rule that blocks. -/
def visitRules (policy : Policy Value) (s : Progress Value) :
    List (PolicyRule Value) → Except PyError (Progress Value × Option (PolicyRule Value))
  | [] => .ok (s, none)
  | rule :: rest => do
      let (condTraces, matched) ← evaluateRule py spec rule
      let s := recordRule policy rule s condTraces matched
      if matched && rule.severity = .blocker then .ok (s, some rule) else visitRules policy s rest

def skippedPolicy (policy : Policy Value) : RuleTraceStep :=
  ⟨policy.name, "*", "n/a", false, "not_applicable", "Policy disabled", [],
    "skipped_disabled_policy"⟩

def visitPolicies (s : Progress Value) :
    List (Policy Value) → Except PyError (Progress Value × Option (PolicyRule Value))
  | [] => .ok (s, none)
  | policy :: rest =>
      if policy.enabled then do
        let (s, blocked) ← visitRules py spec policy s policy.rules
        if blocked.isSome then .ok (s, blocked) else visitPolicies s rest
      else visitPolicies { s with steps := s.steps ++ [skippedPolicy policy] } rest

/-! ### The engine -/

def escalatedRules (violated : List (PolicyRule Value)) : List (PolicyRule Value) :=
  violated.filter fun r => (r.decision = .escalate || r.decision = .deny) && r.severity = .high

def denyRules (violated : List (PolicyRule Value)) : List (PolicyRule Value) :=
  violated.filter fun r => r.decision = .deny && r.severity ≠ .blocker

def PolicyResult.of (spec : ActionSpec Value) (s : Progress Value) (decision : PolicyDecision)
    (shortCircuited : Bool) (violatedRules : List (PolicyRule Value)) : PolicyResult Value :=
  ⟨decision, violatedRules, s.allResults, s.evidence, spec.action, decision.value, true,
    shortCircuited, s.steps, buildSummary decision shortCircuited s.matchedSteps⟩

/-- The result once all rules have been visited. -/
def conclude (s : Progress Value) : PolicyResult Value :=
  if escalatedRules s.violated ≠ [] then .of spec s .escalate false (escalatedRules s.violated)
  else if denyRules s.violated ≠ [] then .of spec s .escalate false (denyRules s.violated)
  else .of spec s .approve false []

structure PolicyEngine (Value : Type) where
  policies : List (Policy Value) := []
  enabled : Bool := false
  evaluationCount : Nat := 0
  denyCount : Nat := 0
  escalateCount : Nat := 0

namespace PolicyEngine

/-- The key `(-priority, name)` of one policy is at most that of the other. -/
def keyLE (p q : Policy Value) : Prop :=
  q.priority < p.priority ∨ p.priority = q.priority ∧ p.name ≤ q.name

instance : DecidableRel (@keyLE Value) := fun p q =>
  inferInstanceAs (Decidable (q.priority < p.priority ∨ p.priority = q.priority ∧ p.name ≤ q.name))

def load (engine : PolicyEngine Value) (policies : List (Policy Value)) : PolicyEngine Value :=
  { engine with policies := policies.insertionSort keyLE }

def evaluate (engine : PolicyEngine Value) :
    Except PyError (PolicyResult Value) × PolicyEngine Value :=
  let engine := { engine with evaluationCount := engine.evaluationCount + 1 }
  if engine.enabled then
    match visitPolicies py spec .empty engine.policies with
    | .error e => (.error e, engine)
    | .ok (s, some rule) =>
        (.ok (.of spec s .deny true [rule]), { engine with denyCount := engine.denyCount + 1 })
    | .ok (s, none) =>
        let result := conclude spec s
        (.ok result, if result.decision = .escalate then
          { engine with escalateCount := engine.escalateCount + 1 } else engine)
  else (.ok ⟨.approve, [], [], ["policy_engine_disabled"], .disabled spec.action⟩, engine)

end PolicyEngine

/-! ### The law of decisions -/

/-- All conditions of the rule hold; a blocking rule needs one. -/
def Matches (rule : PolicyRule Value) : Prop :=
  (rule.conditions = [] → rule.severity ≠ .blocker) ∧
    ∀ c ∈ rule.conditions, evaluateCondition py c spec = .ok true

instance (rule : PolicyRule Value) : Decidable (Matches py spec rule) :=
  inferInstanceAs (Decidable ((rule.conditions = [] → rule.severity ≠ .blocker) ∧
    ∀ c ∈ rule.conditions, evaluateCondition py c spec = .ok true))

/-- A rule of one of the enabled policies matches and is of the kind. -/
def Fires (policies : List (Policy Value)) (kind : PolicyRule Value → Prop) : Prop :=
  ∃ p ∈ policies, p.enabled = true ∧ ∃ r ∈ p.rules, Matches py spec r ∧ kind r

def Blocks (rule : PolicyRule Value) : Prop := rule.severity = .blocker

def Escalates (rule : PolicyRule Value) : Prop :=
  rule.severity = .high ∧ (rule.decision = .escalate ∨ rule.decision = .deny) ∨
    rule.severity = .medium ∧ rule.decision = .deny

/-- A rule that should only inform, but denies. -/
def LowDenies (rule : PolicyRule Value) : Prop := rule.severity = .low ∧ rule.decision = .deny

/-- The decision, if rules of a kind escalate. -/
def Decides (kind : PolicyRule Value → Prop) (policies : List (Policy Value)) :
    PolicyDecision → Prop
  | .deny => Fires py spec policies Blocks
  | .escalate => ¬ Fires py spec policies Blocks ∧ Fires py spec policies kind
  | .approve => ¬ Fires py spec policies Blocks ∧ ¬ Fires py spec policies kind

/-- The decision that the policies call for. -/
def Law (policies : List (Policy Value)) (decision : PolicyDecision) : Prop :=
  Decides py spec Escalates policies decision

instance : DecidablePred (@Blocks Value) := fun r =>
  inferInstanceAs (Decidable (r.severity = .blocker))

instance : DecidablePred (@Escalates Value) := fun r =>
  inferInstanceAs (Decidable (r.severity = .high ∧ (r.decision = .escalate ∨ r.decision = .deny) ∨
    r.severity = .medium ∧ r.decision = .deny))

instance (policies : List (Policy Value)) (kind : PolicyRule Value → Prop) [DecidablePred kind] :
    Decidable (Fires py spec policies kind) :=
  inferInstanceAs (Decidable (∃ p ∈ policies, p.enabled = true ∧
    ∃ r ∈ p.rules, Matches py spec r ∧ kind r))

instance (policies : List (Policy Value)) : DecidablePred (Law py spec policies)
  | .deny => inferInstanceAs (Decidable (Fires py spec policies Blocks))
  | .escalate => inferInstanceAs
      (Decidable (¬ Fires py spec policies Blocks ∧ Fires py spec policies Escalates))
  | .approve => inferInstanceAs
      (Decidable (¬ Fires py spec policies Blocks ∧ ¬ Fires py spec policies Escalates))

/-- The rules of the enabled policies, in order. -/
def enabledRules (policies : List (Policy Value)) : List (PolicyRule Value) :=
  (policies.filter (·.enabled)).flatMap (·.rules)

/-- The rules up to the first that matches and blocks. -/
def visited : List (PolicyRule Value) → List (PolicyRule Value)
  | [] => []
  | r :: rest => if Matches py spec r ∧ r.severity = .blocker then [r] else r :: visited rest

/-- No condition of the rule raises, when it is evaluated or written into the trace. -/
def Calm (rule : PolicyRule Value) : Prop :=
  ∀ c ∈ rule.conditions, ∃ trace, traceCondition py c spec = .ok trace

variable {py spec} {policies : List (Policy Value)} {rules rules' : List (PolicyRule Value)}
  {rule : PolicyRule Value} {policy : Policy Value} {s s' : Progress Value}

/-! ### What a run visits -/

theorem evaluate_of_trace {c : MatchCondition Value} {trace : ConditionTrace}
    (ok : traceCondition py c spec = .ok trace) : ∃ b, evaluateCondition py c spec = .ok b := by
  unfold traceCondition at ok
  cases evaluated : evaluateCondition py c spec with
  | ok b => exact ⟨b, rfl⟩
  | error e =>
      rw [evaluated] at ok
      cases ok

theorem mapM_trace_ok {conditions : List (MatchCondition Value)}
    (calm : ∀ c ∈ conditions, ∃ trace, traceCondition py c spec = .ok trace) :
    ∃ traces, conditions.mapM (traceCondition py · spec) = .ok traces := by
  induction conditions with
  | nil => exact ⟨[], rfl⟩
  | cons c rest ih =>
      obtain ⟨⟨trace, first⟩, later⟩ := List.forall_mem_cons.mp calm
      obtain ⟨traces, all⟩ := ih later
      refine ⟨trace :: traces, ?_⟩
      rw [List.mapM_cons, first, all]
      rfl

theorem mapM_trace_error {conditions : List (MatchCondition Value)}
    (raises : ¬ ∀ c ∈ conditions, ∃ trace, traceCondition py c spec = .ok trace) :
    ∃ e, conditions.mapM (traceCondition py · spec) = .error e := by
  induction conditions with
  | nil => exact absurd (List.forall_mem_nil _) raises
  | cons c rest ih =>
      rw [List.mapM_cons]
      cases first : traceCondition py c spec with
      | error e => exact ⟨e, rfl⟩
      | ok trace =>
          obtain ⟨e, later⟩ := ih fun calm =>
            raises (List.forall_mem_cons.mpr ⟨⟨trace, first⟩, calm⟩)
          refine ⟨e, ?_⟩
          rw [later]
          rfl

theorem allHold_eq {conditions : List (MatchCondition Value)}
    (calm : ∀ c ∈ conditions, ∃ trace, traceCondition py c spec = .ok trace) :
    allHold py spec conditions =
      .ok (decide (∀ c ∈ conditions, evaluateCondition py c spec = .ok true)) := by
  induction conditions with
  | nil => simp [allHold]
  | cons c rest ih =>
      obtain ⟨⟨trace, first⟩, later⟩ := List.forall_mem_cons.mp calm
      obtain ⟨b, evaluated⟩ := evaluate_of_trace first
      simp only [List.forall_mem_cons, evaluated, Except.ok.injEq]
      cases b with
      | true =>
          simp only [true_and]
          rw [← ih later, allHold, evaluated]
          rfl
      | false =>
          simp only [Bool.false_eq_true, false_and, decide_false]
          rw [allHold, evaluated]
          rfl

theorem allConditionsMatch_eq (calm : Calm py spec rule) :
    allConditionsMatch py spec rule = .ok (decide (Matches py spec rule)) := by
  unfold allConditionsMatch
  split
  · rename_i none
    simp [Matches, none]
  · rename_i some
    rw [allHold_eq calm]
    simp [Matches, some]

theorem evaluateRule_calm (calm : Calm py spec rule) :
    ∃ traces, evaluateRule py spec rule = .ok (traces, decide (Matches py spec rule)) := by
  unfold evaluateRule
  split
  · rename_i skipped
    obtain ⟨none, blocker⟩ := Bool.and_eq_true_iff.mp skipped
    have other : ¬ Matches py spec rule := fun both =>
      both.1 (List.isEmpty_iff.mp none) (of_decide_eq_true blocker)
    exact ⟨[], by rw [decide_eq_false other]⟩
  · obtain ⟨traces, traced⟩ := mapM_trace_ok calm
    refine ⟨traces, ?_⟩
    rw [traced, allConditionsMatch_eq calm]
    rfl

theorem evaluateRule_raises (raises : ¬ Calm py spec rule) :
    ∃ e, evaluateRule py spec rule = .error e := by
  have some : rule.isCatchAllBlocker = false := by
    rw [PolicyRule.isCatchAllBlocker, Bool.and_eq_false_iff, List.isEmpty_eq_false_iff]
    refine .inl fun none => raises ?_
    rw [Calm, none]
    exact List.forall_mem_nil _
  obtain ⟨e, raised⟩ := mapM_trace_error raises
  refine ⟨e, ?_⟩
  rw [evaluateRule, some, if_neg Bool.false_ne_true, raised]
  rfl

theorem recordRule_violated {traces : List ConditionTrace} :
    (recordRule policy rule s traces (decide (Matches py spec rule))).violated =
      s.violated ++ [rule].filter fun r => Matches py spec r := by
  by_cases holds : Matches py spec rule <;> simp [recordRule, holds]

/-! ### Runs -/

theorem visited_of_none (none : ∀ r ∈ rules, ¬ (Matches py spec r ∧ r.severity = .blocker)) :
    visited py spec (rules ++ rules') = rules ++ visited py spec rules' := by
  induction rules with
  | nil => rfl
  | cons r rest ih =>
      obtain ⟨first, later⟩ := List.forall_mem_cons.mp none
      rw [List.cons_append, visited, if_neg first, ih later]
      rfl

theorem visited_eq_self (none : ∀ r ∈ rules, ¬ (Matches py spec r ∧ r.severity = .blocker)) :
    visited py spec rules = rules := by
  have all : visited py spec (rules ++ []) = rules ++ visited py spec [] := visited_of_none none
  rwa [visited, List.append_nil] at all

theorem visited_of_some (some : ∃ r ∈ rules, Matches py spec r ∧ r.severity = .blocker) :
    visited py spec (rules ++ rules') = visited py spec rules := by
  induction rules with
  | nil =>
      obtain ⟨r, mem, -⟩ := some
      cases mem
  | cons r rest ih =>
      rw [List.cons_append, visited, visited]
      by_cases blocks : Matches py spec r ∧ r.severity = .blocker
      · rw [if_pos blocks, if_pos blocks]
      · rw [if_neg blocks, if_neg blocks, ih]
        obtain ⟨q, mem, blocker⟩ := some
        rcases List.mem_cons.mp mem with rfl | later
        · exact absurd blocker blocks
        · exact ⟨q, later, blocker⟩

/-- What a run that started with `violated` ends with, once it has been through `rules`. -/
def Outcome (py : Python Value) (spec : ActionSpec Value)
    (rules violated : List (PolicyRule Value)) :
    Except PyError (Progress Value × Option (PolicyRule Value)) → Prop
  | .error _ => ∃ r ∈ visited py spec rules, ¬ Calm py spec r
  | .ok (s, blocked) => (∀ r ∈ visited py spec rules, Calm py spec r) ∧
      s.violated = violated ++ (visited py spec rules).filter (fun r => Matches py spec r) ∧
      (blocked.isSome = true ↔ ∃ r ∈ rules, Matches py spec r ∧ r.severity = .blocker)

variable {violated : List (PolicyRule Value)}
  {outcome : Except PyError (Progress Value × Option (PolicyRule Value))}

/-- A run that goes on after rules that did not block. -/
theorem Outcome.after (none : ∀ r ∈ rules, ¬ (Matches py spec r ∧ r.severity = .blocker))
    (calm : ∀ r ∈ rules, Calm py spec r)
    (rest : Outcome py spec rules' (violated ++ rules.filter fun r => Matches py spec r) outcome) :
    Outcome py spec (rules ++ rules') violated outcome := by
  have visits : visited py spec (rules ++ rules') = rules ++ visited py spec rules' :=
    visited_of_none none
  match outcome, rest with
  | .error _, ⟨r, mem, raises⟩ => exact ⟨r, visits ▸ List.mem_append_right _ mem, raises⟩
  | .ok (s, blocked), ⟨calm', violates, blocks⟩ =>
      refine ⟨?_, ?_, blocks.trans ?_⟩
      · rw [visits]
        exact List.forall_mem_append.mpr ⟨calm, calm'⟩
      · rw [violates, visits, List.filter_append, List.append_assoc]
      · constructor
        · rintro ⟨r, mem, blocker⟩
          exact ⟨r, List.mem_append_right _ mem, blocker⟩
        · rintro ⟨r, mem, blocker⟩
          exact ⟨r, (List.mem_append.mp mem).resolve_left fun mem => none r mem blocker, blocker⟩

theorem visited_mono (mem : rule ∈ visited py spec rules) :
    rule ∈ visited py spec (rules ++ rules') := by
  by_cases some : ∃ r ∈ rules, Matches py spec r ∧ r.severity = .blocker
  · rwa [visited_of_some some]
  · have none : ∀ r ∈ rules, ¬ (Matches py spec r ∧ r.severity = .blocker) :=
      fun r found blocker => some ⟨r, found, blocker⟩
    rw [visited_eq_self none] at mem
    rw [visited_of_none none]
    exact List.mem_append_left _ mem

/-- A run that has ended does not see the rules that are left. -/
theorem Outcome.ended (done : Outcome py spec rules violated outcome)
    (ended : ∀ s, outcome ≠ .ok (s, none)) :
    Outcome py spec (rules ++ rules') violated outcome := by
  match outcome, done with
  | .error _, ⟨r, mem, raises⟩ => exact ⟨r, visited_mono mem, raises⟩
  | .ok (s, none), _ => exact absurd rfl (ended s)
  | .ok (s, some rule), ⟨calm, violates, blocks⟩ =>
      have blocker := blocks.mp rfl
      rw [Outcome, visited_of_some blocker]
      obtain ⟨r, mem, blocking⟩ := blocker
      exact ⟨calm, violates, iff_of_true rfl ⟨r, List.mem_append_left _ mem, blocking⟩⟩

theorem visitRules_outcome (policy : Policy Value) (s : Progress Value)
    (rules : List (PolicyRule Value)) :
    Outcome py spec rules s.violated (visitRules py spec policy s rules) := by
  induction rules generalizing s with
  | nil => exact ⟨List.forall_mem_nil _, (List.append_nil _).symm, by simp⟩
  | cons rule rest ih =>
      by_cases calm : Calm py spec rule
      · obtain ⟨traces, evaluated⟩ := evaluateRule_calm calm
        have recorded : (recordRule policy rule s traces (decide (Matches py spec rule))).violated =
            s.violated ++ [rule].filter fun r => Matches py spec r := recordRule_violated
        have step : visitRules py spec policy s (rule :: rest) =
            if (decide (Matches py spec rule) && rule.severity = .blocker) = true then
              .ok (recordRule policy rule s traces (decide (Matches py spec rule)), some rule)
            else visitRules py spec policy
              (recordRule policy rule s traces (decide (Matches py spec rule))) rest := by
          rw [visitRules, evaluated]
          rfl
        rw [step]
        split
        · rename_i both
          have blocks : Matches py spec rule ∧ rule.severity = .blocker := by simpa using both
          have visits : visited py spec (rule :: rest) = [rule] := if_pos blocks
          rw [Outcome, visits, recorded]
          exact ⟨List.forall_mem_singleton.mpr calm, rfl,
            iff_of_true rfl ⟨rule, List.mem_cons_self, blocks⟩⟩
        · rename_i other
          have passes : ¬ (Matches py spec rule ∧ rule.severity = .blocker) := by simpa using other
          change Outcome py spec ([rule] ++ rest) s.violated _
          refine Outcome.after (List.forall_mem_singleton.mpr passes)
            (List.forall_mem_singleton.mpr calm) ?_
          rw [← recorded]
          exact ih _
      · obtain ⟨e, raised⟩ := evaluateRule_raises calm
        rw [visitRules, raised]
        refine ⟨rule, ?_, calm⟩
        rw [visited]
        split
        · exact List.mem_singleton_self rule
        · exact List.mem_cons_self

theorem visitPolicies_outcome (policies : List (Policy Value)) (s : Progress Value) :
    Outcome py spec (enabledRules policies) s.violated (visitPolicies py spec s policies) := by
  induction policies generalizing s with
  | nil => exact ⟨List.forall_mem_nil _, (List.append_nil _).symm, by simp [enabledRules]⟩
  | cons policy rest ih =>
      rw [visitPolicies]
      split
      · rename_i enabled
        have rules : enabledRules (policy :: rest) = policy.rules ++ enabledRules rest := by
          rw [enabledRules, List.filter_cons_of_pos enabled]
          rfl
        have own : Outcome py spec policy.rules s.violated
            (visitRules py spec policy s policy.rules) := visitRules_outcome policy s policy.rules
        rw [rules]
        cases run : visitRules py spec policy s policy.rules with
        | error e =>
            rw [run] at own
            exact own.ended fun s same => nomatch same
        | ok state =>
            obtain ⟨s', _ | rule⟩ := state
            · rw [run] at own
              obtain ⟨calm, violates, blocks⟩ := own
              have none : ∀ r ∈ policy.rules, ¬ (Matches py spec r ∧ r.severity = .blocker) :=
                fun r mem blocker => Bool.false_ne_true (blocks.mpr ⟨r, mem, blocker⟩)
              rw [visited_eq_self none] at calm violates
              refine Outcome.after none calm ?_
              rw [← violates]
              exact ih s'
            · rw [run] at own
              exact own.ended fun s same => nomatch same
      · rename_i disabled
        have rules : enabledRules (policy :: rest) = enabledRules rest := by
          rw [enabledRules, List.filter_cons_of_neg disabled]
          rfl
        rw [rules]
        exact ih _

/-! ### The decision -/

theorem fires_iff {kind : PolicyRule Value → Prop} : Fires py spec policies kind ↔
    ∃ r ∈ enabledRules policies, Matches py spec r ∧ kind r := by
  constructor
  · rintro ⟨p, mem, enabled, r, inside, fires⟩
    exact ⟨r, List.mem_flatMap.mpr ⟨p, List.mem_filter.mpr ⟨mem, enabled⟩, inside⟩, fires⟩
  · rintro ⟨r, mem, fires⟩
    obtain ⟨p, found, inside⟩ := List.mem_flatMap.mp mem
    obtain ⟨mem, enabled⟩ := List.mem_filter.mp found
    exact ⟨p, mem, enabled, r, inside, fires⟩

theorem fires_perm {order : List (Policy Value)} (perm : order.Perm policies)
    {kind : PolicyRule Value → Prop} :
    Fires py spec order kind ↔ Fires py spec policies kind :=
  exists_congr fun _ => and_congr_left fun _ => perm.mem_iff

theorem fires_or {kind kind' : PolicyRule Value → Prop} :
    Fires py spec policies (fun r => kind r ∨ kind' r) ↔
      Fires py spec policies kind ∨ Fires py spec policies kind' := by
  simp only [fires_iff, and_or_left, exists_or]

/-- The two aggregations escalate for a rule that should, or that should only inform. -/
theorem conclude_decision (spec : ActionSpec Value) (s : Progress Value) :
    (∃ r ∈ s.violated, Escalates r ∨ LowDenies r) ∧ (conclude spec s).decision = .escalate ∨
      (¬ ∃ r ∈ s.violated, Escalates r ∨ LowDenies r) ∧ (conclude spec s).decision = .approve := by
  unfold conclude
  split
  · rename_i some
    obtain ⟨r, mem⟩ := List.exists_mem_of_ne_nil _ some
    obtain ⟨found, kind⟩ := List.mem_filter.mp mem
    refine .inl ⟨⟨r, found, .inl (.inl ?_)⟩, rfl⟩
    simpa [and_comm] using kind
  · rename_i noneHigh
    split
    · rename_i some
      obtain ⟨r, mem⟩ := List.exists_mem_of_ne_nil _ some
      obtain ⟨found, kind⟩ := List.mem_filter.mp mem
      refine .inl ⟨⟨r, found, ?_⟩, rfl⟩
      obtain ⟨deny, other⟩ : r.decision = .deny ∧ r.severity ≠ .blocker := by simpa using kind
      cases severity : r.severity with
      | blocker => exact absurd severity other
      | high => exact .inl (.inl ⟨severity, .inr deny⟩)
      | medium => exact .inl (.inr ⟨severity, deny⟩)
      | low => exact .inr ⟨severity, deny⟩
    · rename_i noneDenies
      refine .inr ⟨?_, rfl⟩
      rintro ⟨r, found, (⟨high, kind⟩ | ⟨medium, deny⟩) | ⟨low, deny⟩⟩
      · refine noneHigh (List.ne_nil_of_mem (List.mem_filter.mpr ⟨found, ?_⟩))
        simpa [high] using kind
      · refine noneDenies (List.ne_nil_of_mem (List.mem_filter.mpr ⟨found, ?_⟩))
        simp [medium, deny]
      · refine noneDenies (List.ne_nil_of_mem (List.mem_filter.mpr ⟨found, ?_⟩))
        simp [low, deny]

/-- An enabled engine raises at a rule that is not calm, or decides by the rules of the kinds that
the two aggregations look for. -/
theorem evaluate_spec (engine : PolicyEngine Value) (enabled : engine.enabled = true) :
    (∀ e, (engine.evaluate py spec).1 = .error e →
      ∃ r ∈ visited py spec (enabledRules engine.policies), ¬ Calm py spec r) ∧
    ∀ result, (engine.evaluate py spec).1 = .ok result →
      (∀ r ∈ visited py spec (enabledRules engine.policies), Calm py spec r) ∧
        Decides py spec (fun r => Escalates r ∨ LowDenies r) engine.policies result.decision := by
  have run : Outcome py spec (enabledRules engine.policies) [] _ :=
    visitPolicies_outcome engine.policies .empty
  unfold PolicyEngine.evaluate
  dsimp only
  rw [if_pos enabled]
  cases visits : visitPolicies py spec .empty engine.policies with
  | error e =>
      rw [visits] at run
      exact ⟨fun _ _ => run, fun _ ok => nomatch ok⟩
  | ok state =>
      obtain ⟨s, _ | rule⟩ := state
      · rw [visits] at run
        obtain ⟨calm, violates, blocks⟩ := run
        have none : ∀ r ∈ enabledRules engine.policies,
            ¬ (Matches py spec r ∧ r.severity = .blocker) :=
          fun r mem blocker => Bool.false_ne_true (blocks.mpr ⟨r, mem, blocker⟩)
        have passes : ¬ Fires py spec engine.policies Blocks := fun fires =>
          let ⟨r, mem, blocker⟩ := fires_iff.mp fires
          none r mem blocker
        have violated : (∃ r ∈ s.violated, Escalates r ∨ LowDenies r) ↔
            Fires py spec engine.policies fun r => Escalates r ∨ LowDenies r := by
          rw [fires_iff, violates, visited_eq_self none, List.nil_append]
          simp only [List.mem_filter, decide_eq_true_iff, and_assoc]
        refine ⟨fun _ raised => (nomatch raised), ?_⟩
        rintro _ ⟨⟩
        refine ⟨calm, ?_⟩
        rcases conclude_decision spec s with ⟨fires, decision⟩ | ⟨fires, decision⟩
        · rw [decision]
          exact ⟨passes, violated.mp fires⟩
        · rw [decision]
          exact ⟨passes, mt violated.mpr fires⟩
      · rw [visits] at run
        obtain ⟨calm, violates, blocks⟩ := run
        refine ⟨fun _ raised => (nomatch raised), ?_⟩
        rintro _ ⟨⟩
        exact ⟨calm, fires_iff.mpr (blocks.mp rfl)⟩

theorem Decides.unique {kind : PolicyRule Value → Prop} {d d' : PolicyDecision}
    (decides : Decides py spec kind policies d) (decides' : Decides py spec kind policies d') :
    d = d' := by
  cases d <;> cases d' <;> simp only [Decides] at decides decides' <;> tauto

theorem decides_perm {order : List (Policy Value)} (perm : order.Perm policies)
    {kind : PolicyRule Value → Prop} {d : PolicyDecision} :
    Decides py spec kind order d ↔ Decides py spec kind policies d := by
  cases d <;> simp only [Decides, fires_perm perm]

theorem load_perm (engine : PolicyEngine Value) (order : List (Policy Value)) :
    (engine.load order).policies.Perm order := List.perm_insertionSort _ _

/-- Whatever the rules are, the order of loading makes no difference to the decision. -/
theorem decision_eq {engine : PolicyEngine Value} (enabled : engine.enabled = true)
    {order : List (Policy Value)} (perm : order.Perm policies) {r r' : PolicyResult Value}
    (ok : ((engine.load order).evaluate py spec).1 = .ok r)
    (ok' : ((engine.load policies).evaluate py spec).1 = .ok r') : r.decision = r'.decision := by
  have decides := ((evaluate_spec (engine.load order) enabled).2 r ok).2
  have decides' := ((evaluate_spec (engine.load policies) enabled).2 r' ok').2
  rw [decides_perm (load_perm engine order), decides_perm perm] at decides
  rw [decides_perm (load_perm engine policies)] at decides'
  exact decides.unique decides'

/-- In every order of loading, the decision is the one that the policies call for exactly if no
rule that is visited raises, and no rule of low severity that denies matches where nothing else
denies or escalates. -/
theorem evaluate_lawful_iff {engine : PolicyEngine Value} (enabled : engine.enabled = true) :
    (∀ order : List (Policy Value), order.Perm policies →
      ∃ result, ((engine.load order).evaluate py spec).1 = .ok result ∧
        Law py spec policies result.decision) ↔
      (∀ order : List (Policy Value), order.Perm policies →
        ∀ r ∈ visited py spec (enabledRules (engine.load order).policies), Calm py spec r) ∧
      (Fires py spec policies LowDenies →
        Fires py spec policies Blocks ∨ Fires py spec policies Escalates) := by
  have decided : ∀ {order : List (Policy Value)}, order.Perm policies → ∀ {result},
      ((engine.load order).evaluate py spec).1 = .ok result →
        Decides py spec (fun r => Escalates r ∨ LowDenies r) policies result.decision :=
    fun perm _ ok => (decides_perm ((load_perm engine _).trans perm)).mp
      ((evaluate_spec (engine.load _) enabled).2 _ ok).2
  constructor
  · intro lawful
    constructor
    · intro order perm
      obtain ⟨result, ok, -⟩ := lawful order perm
      exact ((evaluate_spec (engine.load order) enabled).2 result ok).1
    · intro low
      obtain ⟨result, ok, law⟩ := lawful policies (.refl _)
      have decides := decided (.refl _) ok
      unfold Law at law
      cases decision : result.decision with
      | deny =>
          rw [decision] at law
          exact .inl law
      | escalate =>
          rw [decision] at law
          exact .inr law.2
      | approve =>
          rw [decision] at decides
          exact absurd (fires_or.mpr (.inr low)) decides.2
  · rintro ⟨calm, low⟩ order perm
    cases outcome : ((engine.load order).evaluate py spec).1 with
    | error e =>
        obtain ⟨r, mem, loud⟩ := (evaluate_spec (engine.load order) enabled).1 e outcome
        exact absurd (calm order perm r mem) loud
    | ok result =>
        refine ⟨result, rfl, ?_⟩
        have decides := decided perm outcome
        unfold Law
        cases decision : result.decision with
        | deny =>
            rw [decision] at decides
            exact decides
        | escalate =>
            rw [decision] at decides
            obtain ⟨passes, fires⟩ := decides
            refine ⟨passes, ?_⟩
            rcases fires_or.mp fires with escalates | lowDenies
            · exact escalates
            · exact (low lowDenies).resolve_left passes
        | approve =>
            rw [decision] at decides
            exact ⟨decides.1, fun escalates => decides.2 (fires_or.mpr (.inl escalates))⟩

theorem visited_subset (mem : rule ∈ visited py spec rules) : rule ∈ rules := by
  induction rules with
  | nil => cases mem
  | cons r rest ih =>
      rw [visited] at mem
      split at mem
      · cases List.mem_singleton.mp mem
        exact List.mem_cons_self
      · rcases List.mem_cons.mp mem with rfl | later
        · exact List.mem_cons_self
        · exact List.mem_cons_of_mem _ (ih later)

/-- Objects that are strings. -/
def textPython : Python String where
  ofString := id
  ofDict _ := "dict"
  dict _ := none
  kind _ := .other
  getattr _ _ := .ok none
  eq actual expected := .ok (expected = some actual)
  ne actual expected := .ok (expected ≠ some actual)
  float _ := .error .valueError
  contains container item := match container with
    | none => .error .typeError
    | some text => .ok (decide (item.toList <:+: text.toList))
  str v := .ok (v.getD "None")
  search _ _ := .error (.other "NotImplementedError")
  matchStart _ _ := .error (.other "NotImplementedError")
  isSecretField _ := false
  recursionLimit := 1000

def actionRule (ruleId action : String) (severity : Severity) : PolicyRule String :=
  { ruleId := ruleId, conditions := [{ field := "action", value := some action }],
    severity := severity }

/-- A policy that stops transfers, and one that takes note of publications. -/
def examplePolicies : List (Policy String) :=
  [{ name := "transfer-guard", rules := [actionRule "no-transfers" "transfer_xlm" .blocker],
     priority := 100 },
    { name := "publishing-notes", rules := [actionRule "note-publish" "publish_content" .low] }]

theorem evaluate_transfer : Fires textPython { action := "transfer_xlm" } examplePolicies Blocks ∧
    ∀ order, order.Perm examplePolicies →
      ∃ result, ((({ enabled := true } : PolicyEngine String).load order).evaluate textPython
          { action := "transfer_xlm" }).1 = .ok result ∧
        Law textPython { action := "transfer_xlm" } examplePolicies result.decision := by
  refine ⟨by decide, (evaluate_lawful_iff rfl).mpr ⟨?_, fun _ => .inl (by decide)⟩⟩
  intro order perm r mem
  obtain ⟨p, found, inside⟩ := List.mem_flatMap.mp (visited_subset mem)
  have among : p ∈ examplePolicies :=
    perm.mem_iff.mp ((List.mem_insertionSort _).mp (List.mem_filter.mp found).1)
  obtain ⟨ruleId, action, severity, rfl⟩ :
      ∃ ruleId action severity, r = actionRule ruleId action severity := by
    rcases List.mem_cons.mp among with rfl | among
    · exact ⟨_, _, _, List.mem_singleton.mp inside⟩
    · cases List.mem_singleton.mp among
      exact ⟨_, _, _, List.mem_singleton.mp inside⟩
  exact List.forall_mem_singleton.mpr ⟨_, rfl⟩

/-- A note of low severity escalates. -/
theorem note_escalates :
    ∃ result, ((({ enabled := true } : PolicyEngine String).load examplePolicies).evaluate
        textPython { action := "publish_content" }).1 = .ok result ∧
      result.decision = .escalate ∧
      Law textPython { action := "publish_content" } examplePolicies .approve := by
  refine ⟨_, rfl, ?_, ?_⟩
  · decide
  · decide

end Talos.Agent.Policies
