import Talos.Agent.PolicyEngine
import Talos.Encoding.Record
import Mathlib.Data.String.Lemmas

/-!
# The context of an action

`PolicyMiddleware.evaluate_action` (`packages/prime-agent/src/talos_agent/policy/middleware.py`)
puts what the budget and the configuration getters return next to the arguments of the tool. A path
that starts with `context` is meant to be read from the context alone, but a parameter whose name is
the whole path comes first (`context_trusted_iff`).
-/

namespace Talos.Agent.Policies

open Encoding (Record)

variable {Value : Type} (py : Python Value)

/-- The engine, and the getters with what they return or raise. -/
structure PolicyMiddleware (Value : Type) where
  engine : PolicyEngine Value
  budgetGetter : Except PyError (Record (Option Value)) := .ok []
  configGetter : Except PyError (Record (Option Value)) := .ok []

/-- `dict.update` -/
def update (context other : Record (Option Value)) : Record (Option Value) :=
  other.foldl (fun context entry => context.set entry.1 entry.2) context

/-- `context.update(getter())`; an exception is logged. -/
def gather (context : Record (Option Value)) :
    Except PyError (Record (Option Value)) → Record (Option Value)
  | .ok other => update context other
  | .error _ => context

namespace PolicyMiddleware

variable (m : PolicyMiddleware Value) (action : String)
  (params extraContext : Option (Record (Option Value)))

def context : Record (Option Value) :=
  let gathered := gather (gather [] m.budgetGetter) m.configGetter
  match extraContext with
  | none => gathered
  | some extra => update gathered extra

def spec : ActionSpec Value := ⟨action, params.getD [], m.context extraContext⟩

def evaluateAction : Except PyError (PolicyResult Value) × PolicyMiddleware Value :=
  let (result, engine) := m.engine.evaluate py (m.spec action params extraContext)
  (result, { m with engine := engine })

end PolicyMiddleware

/-! ### Paths into the context -/

/-- `context.<name>`, where the name may have dots of its own. -/
def IsContextPath (field : String) : Prop := ∃ name, field = "context." ++ name

/-- What the context has under the path: the entry named by the whole path, or what the names after
`context` lead to. -/
def suppliedValue (context : Record (Option Value)) (field : String) :
    Except PyError (Option Value) :=
  match context.lookup field with
  | some value => .ok value
  | none => resolveSource py context (field.splitOn ".").tail

/-- No parameter has the whole path as its name, or it carries the very value of the context. -/
def NotOverridden (spec : ActionSpec Value) (field : String) : Prop :=
  ∀ value, spec.params.lookup field = some value →
    suppliedValue py spec.context field = .ok value

/-- The conditions of the policies that name a path into the context. -/
def ContextConditions (policies : List (Policy Value)) (c : MatchCondition Value) : Prop :=
  (∃ policy ∈ policies, ∃ rule ∈ policy.rules, c ∈ rule.conditions) ∧ IsContextPath c.field

variable {py} {field : String} {spec : ActionSpec Value} {c : MatchCondition Value}

section Dots

open String

/-- The search for dots, from the start of a part: `m` is read already. -/
theorem splitOnAux_dot (l m r : List Char) (acc : List String) :
    splitOnAux (ofList (l ++ m ++ r)) "." ⟨utf8Len l⟩ ⟨utf8Len l + utf8Len m⟩ 0 acc =
      acc.reverse ++ (List.splitOnPPrepend (· == '.') r m.reverse).map ofList := by
  induction r generalizing l m acc with
  | nil =>
      have stop := atEnd_of_valid (l ++ m) []
      have part := extract_of_valid l m []
      rw [utf8Len_append] at stop
      rw [splitOnAux, if_pos (stop.mpr rfl), part, List.reverse_cons, List.splitOnPPrepend_nil,
        List.reverse_reverse]
      rfl
  | cons c r ih =>
      have stop := atEnd_of_valid (l ++ m) (c :: r)
      have read := get_of_valid (l ++ m) (c :: r)
      have step := next_of_valid (l ++ m) c r
      have part := extract_of_valid l m (c :: r)
      rw [utf8Len_append] at stop read step
      rw [splitOnAux, if_neg (fun ended => absurd (stop.mp ended) (List.cons_ne_nil _ _)), read,
        step, List.headD_cons]
      by_cases dot : c = '.'
      · subst dot
        have back : (Pos.Raw.mk (utf8Len l + utf8Len m + Char.utf8Size '.')).unoffsetBy
            (Pos.Raw.next "." 0) = ⟨utf8Len l + utf8Len m⟩ := rfl
        have next := ih (l ++ m ++ ['.']) [] (ofList m :: acc)
        rw [if_pos (by rfl)]
        simp only [back, part]
        rw [if_pos (by rfl), List.splitOnPPrepend_cons_pos (by rfl)]
        simpa [Nat.add_assoc] using next
      · have back : (Pos.Raw.mk (utf8Len l + utf8Len m)).unoffsetBy 0 =
            ⟨utf8Len l + utf8Len m⟩ := rfl
        have other : ¬ (c == Pos.Raw.get "." 0) = true := fun same => dot (beq_iff_eq.mp same)
        have next := ih l (m ++ [c]) acc
        rw [if_neg other, back, step, List.splitOnPPrepend_cons_neg (by simpa using dot)]
        simpa [Nat.add_assoc] using next

theorem splitOn_dot (s : String) : s.splitOn "." = (s.toList.splitOn '.').map ofList := by
  have search := splitOnAux_dot [] [] s.toList []
  simpa [splitOn, List.splitOn_eq_splitOnP] using search

end Dots

theorem contextPath_parts (name : String) :
    ("context." ++ name).splitOn "." = "context" :: name.splitOn "." := by
  have text : ("context." ++ name).toList = "context".toList ++ '.' :: name.toList := by
    rw [String.toList_append]
    rfl
  rw [splitOn_dot, splitOn_dot, text, List.splitOn_eq_splitOnP,
    List.splitOnP_append_cons _ _ (by rfl), List.map_append, List.splitOn_eq_splitOnP]
  rfl

theorem IsContextPath.ne_action (path : IsContextPath field) : field ≠ "action" := by
  obtain ⟨name, rfl⟩ := path
  intro same
  have first := congrArg (fun s => s.toList.head?) same
  rw [String.toList_append] at first
  change some 'c' = some 'a' at first
  exact absurd first (by decide)

theorem IsContextPath.ne_empty (path : IsContextPath field) : field ≠ "" := by
  obtain ⟨name, rfl⟩ := path
  intro same
  have first := congrArg (fun s => s.toList.head?) same
  rw [String.toList_append] at first
  change some 'c' = none at first
  exact absurd first (by decide)

/-- A parameter named by the path comes first, and the other parameters do not count. -/
theorem get_of_contextPath (path : IsContextPath field) : spec.get py field =
    match spec.params.lookup field with
    | some value => .ok value
    | none => suppliedValue py spec.context field := by
  rw [ActionSpec.get, if_neg path.ne_action]
  cases spec.params.lookup field with
  | some value => rfl
  | none =>
      cases found : spec.context.lookup field with
      | some value => simp only [suppliedValue, found]
      | none =>
          obtain ⟨name, rfl⟩ := path
          simp only [suppliedValue, found, contextPath_parts, List.head?_cons, if_true]

theorem get_supplied_iff (path : IsContextPath field) :
    spec.get py field = suppliedValue py spec.context field ↔ NotOverridden py spec field := by
  rw [get_of_contextPath path]
  cases named : spec.params.lookup field with
  | none => simp [NotOverridden, named]
  | some value => simp [NotOverridden, named, eq_comm]

theorem actualValue_supplied_iff (path : IsContextPath c.field) :
    actualValue py c spec = suppliedValue py spec.context c.field ↔
      NotOverridden py spec c.field := by
  rw [actualValue, if_neg path.ne_empty]
  exact get_supplied_iff path

/-- A condition sees of the action only the value that it asks for. -/
theorem evaluateCondition_congr {spec' : ActionSpec Value}
    (same : actualValue py c spec = actualValue py c spec') :
    evaluateCondition py c spec = evaluateCondition py c spec' := by
  rw [evaluateCondition, evaluateCondition, same]

variable (py) (m : PolicyMiddleware Value) (action : String)
  (params params' extraContext : Option (Record (Option Value)))

/-- Under both dictionaries of parameters, a condition of the engine on a path into the context
compares the value that the context has there, so that it evaluates to the same. -/
def ContextTrusted : Prop :=
  ∀ c, ContextConditions m.engine.policies c →
    actualValue py c (m.spec action params extraContext) =
        suppliedValue py (m.context extraContext) c.field ∧
      actualValue py c (m.spec action params' extraContext) =
        suppliedValue py (m.context extraContext) c.field ∧
      evaluateCondition py c (m.spec action params extraContext) =
        evaluateCondition py c (m.spec action params' extraContext)

/-- The arguments of a tool do not get between the conditions and the context exactly if no
parameter is named by the whole path of a condition, unless it repeats the value that the context
has there. -/
theorem context_trusted_iff : ContextTrusted py m action params params' extraContext ↔
    ∀ c, ContextConditions m.engine.policies c →
      NotOverridden py (m.spec action params extraContext) c.field ∧
        NotOverridden py (m.spec action params' extraContext) c.field := by
  constructor
  · intro trusted c among
    obtain ⟨read, read', -⟩ := trusted c among
    exact ⟨(actualValue_supplied_iff among.2).mp read, (actualValue_supplied_iff among.2).mp read'⟩
  · intro free c among
    have read := (actualValue_supplied_iff (c := c) among.2).mpr (free c among).1
    have read' := (actualValue_supplied_iff (c := c) among.2).mpr (free c among).2
    exact ⟨read, read', evaluateCondition_congr (read.trans read'.symm)⟩

/-- Purchases above a budget of zero are stopped. -/
def budgetPolicies : List (Policy String) :=
  [{ name := "spending-limits",
     rules := [{ ruleId := "no-budget",
                 conditions := [{ field := "context.budget_remaining", value := some "0" }],
                 severity := .blocker }] }]

def budgetMiddleware : PolicyMiddleware String where
  engine := ({ enabled := true } : PolicyEngine String).load budgetPolicies
  budgetGetter := .ok [("context.budget_remaining", some "0")]

/-- A tool call with a parameter of that name passes. -/
theorem budget_overridden :
    ¬ ContextTrusted textPython budgetMiddleware "purchase_service" none
        (some [("context.budget_remaining", some "1000")]) none ∧
      (∃ result, (budgetMiddleware.evaluateAction textPython "purchase_service" none none).1 =
        .ok result ∧ result.decision = .deny) ∧
      ∃ result, (budgetMiddleware.evaluateAction textPython "purchase_service"
        (some [("context.budget_remaining", some "1000")]) none).1 = .ok result ∧
        result.decision = .approve := by
  refine ⟨fun trusted => ?_, ⟨_, rfl, by decide⟩, ⟨_, rfl, by decide⟩⟩
  obtain ⟨-, read, -⟩ := trusted { field := "context.budget_remaining", value := some "0" }
    ⟨⟨_, List.mem_singleton_self _, _, List.mem_singleton_self _, List.mem_singleton_self _⟩,
      "budget_remaining", rfl⟩
  exact absurd read (by decide)

end Talos.Agent.Policies
