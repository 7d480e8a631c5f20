import Rampart.Proofs.Filter.Written
import Rampart.Proofs.Scenario.Compiled

/-!
# What the filter of a scenario means

The filter is text that is put together from the texts of the user. Read by the grammar of the
engine, it is nothing but the guard and the conditions of the rule.

* `Rule.meets`: an event meets the conditions of a rule. This is said without filters.
* `derives_expressionOf`, `derives_joinAll`, `derives_filterFor`: the parts of a filter stand where
  the grammar needs them.
* **`filter_means_guard_and_conditions`**: the filter stands for one tree, and that tree holds
  exactly on the application's traffic that meets the conditions.
-/

namespace Rampart

/-! ## Events and rules -/

/-- Whether the text of a field is related to a value; `found` decides whether a pattern matches a
text. -/
def Operator.holds (found : String → String → Bool) (text value : String) : Operator → Bool
  | .equals => text == value
  | .notEquals => text != value
  | .contains => Text.hasText text value
  | .notContains => !Text.hasText text value
  | .startsWith => value.toList.isPrefixOf text.toList
  | .endsWith => value.toList.isSuffixOf text.toList
  | .regex => found value text

/-- Whether an event, which gives a text for every accessor, meets a condition. Blanks around the
names of field and operator do not matter; the value is taken as it is. -/
def Condition.meets (event : String → String) (found : String → String → Bool) (c : Condition) :
    Bool :=
  match Field.ofName (Text.trimmed c.field), Operator.ofName (Text.trimmed c.operator) with
  | .ok field, .ok operator => operator.holds found (event field.accessor) c.value
  | _, _ => false

/-- Whether an event meets the conditions of a rule. -/
def Rule.meets (event : String → String) (found : String → String → Bool) (rule : Rule) : Bool :=
  match rule.joiner with
  | .and => rule.conditions.all (·.meets event found)
  | .or => rule.conditions.any (·.meets event found)

/-- Whether an event is about traffic of an application. -/
def isTrafficOf (uuid : String) (event : String → String) : Bool :=
  event "evt.Parsed.program" == "traefik" &&
    (Text.hasText (event "evt.Meta.traefik_router_name") uuid ||
      Text.hasText (event "evt.Meta.http_host") uuid)

open Rampart.Filter (Derives IsAccessor Reads Spelled)

/-! ## Conditions -/

theorem isAccessor_accessor (field : Field) : IsAccessor field.accessor := by
  cases field <;> decide

theorem spelled_expressionOf (field : Field) (operator : Operator) (value : String) :
    (CompiledCondition.expressionOf field operator value).Spelled := by
  cases operator <;> exact isAccessor_accessor field

/-- The expression of a condition is an operand, also when it is negated. -/
theorem derives_expressionOf (field : Field) (operator : Operator) (value : String) :
    Derives .operand (CompiledCondition.expressionOf field operator value).tokens
      (CompiledCondition.expressionOf field operator value) := by
  have hcompare := Derives.compare field.accessor operator.comparator value
  cases operator with
  | notContains => exact .negate (.group (.conjunction (.operand hcompare)))
  | _ => exact hcompare

theorem holds_expressionOf (event : String → String) (found : String → String → Bool)
    (field : Field) (operator : Operator) (value : String) :
    (CompiledCondition.expressionOf field operator value).holds event found =
      operator.holds found (event field.accessor) value := by
  cases operator <;> rfl

/-- The expression of a condition that was compiled. -/
theorem expression_of_ofCondition {c : Condition} {compiled : CompiledCondition}
    (h : CompiledCondition.ofCondition c = .ok compiled) :
    ∃ field operator, Field.ofName (Text.trimmed c.field) = .ok field ∧
      Operator.ofName (Text.trimmed c.operator) = .ok operator ∧
      compiled.expression = CompiledCondition.expressionOf field operator c.value := by
  unfold CompiledCondition.ofCondition at h
  simp only [Except.bind_eq_ok_iff] at h
  obtain ⟨field, hfield, operator, hoperator, hchecks⟩ := h
  refine ⟨field, operator, hfield, hoperator, ?_⟩
  split at hchecks
  · cases hchecks
  split at hchecks
  · cases hchecks
  · cases hchecks
    rfl

/-- What a part of a filter has to be, to stand for a condition. -/
structure Expresses (c : Condition) (e : Filter) : Prop where
  spelled : e.Spelled
  derives : Derives .operand e.tokens e
  holds : ∀ event found, e.holds event found = c.meets event found

theorem expresses_of_ofCondition {c : Condition} {compiled : CompiledCondition}
    (h : CompiledCondition.ofCondition c = .ok compiled) : Expresses c compiled.expression := by
  obtain ⟨field, operator, hfield, hoperator, hexpression⟩ := expression_of_ofCondition h
  rw [hexpression]
  refine ⟨spelled_expressionOf field operator c.value, derives_expressionOf field operator c.value,
    fun event found => ?_⟩
  simp only [holds_expressionOf, Condition.meets, hfield, hoperator]

/-! ## Several conditions -/

theorem spelled_joinAll (joiner : Joiner) {first : Filter} {others : List Filter}
    (hfirst : first.Spelled) (hothers : ∀ e ∈ others, e.Spelled) :
    (joiner.joinAll first others).Spelled := by
  unfold Joiner.joinAll
  induction others generalizing first with
  | nil => exact hfirst
  | cons e others ih =>
    have he : e.Spelled := hothers e List.mem_cons_self
    have hjoined : (joiner.join first e).Spelled := by cases joiner <;> exact ⟨hfirst, he⟩
    exact ih hjoined fun x hx => hothers x (List.mem_cons_of_mem e hx)

/-- Operands under `&&` are a conjunction. -/
theorem derives_foldl_both {first : Filter} {others : List Filter}
    (hfirst : Derives .conjunction first.tokens first)
    (hothers : ∀ e ∈ others, Derives .operand e.tokens e) :
    Derives .conjunction (others.foldl .both first).tokens (others.foldl .both first) := by
  induction others generalizing first with
  | nil => exact hfirst
  | cons e others ih =>
    have he : Derives .operand e.tokens e := hothers e List.mem_cons_self
    exact ih (.both hfirst he) fun x hx => hothers x (List.mem_cons_of_mem e hx)

/-- Conjunctions under `||` are a disjunction. -/
theorem derives_foldl_either {first : Filter} {others : List Filter}
    (hfirst : Derives .disjunction first.tokens first)
    (hothers : ∀ e ∈ others, Derives .conjunction e.tokens e) :
    Derives .disjunction (others.foldl .either first).tokens (others.foldl .either first) := by
  induction others generalizing first with
  | nil => exact hfirst
  | cons e others ih =>
    have he : Derives .conjunction e.tokens e := hothers e List.mem_cons_self
    exact ih (.either hfirst he) fun x hx => hothers x (List.mem_cons_of_mem e hx)

theorem derives_joinAll (joiner : Joiner) {first : Filter} {others : List Filter}
    (hfirst : Derives .operand first.tokens first)
    (hothers : ∀ e ∈ others, Derives .operand e.tokens e) :
    Derives .disjunction (joiner.joinAll first others).tokens (joiner.joinAll first others) := by
  cases joiner with
  | and => exact .conjunction (derives_foldl_both (.operand hfirst) hothers)
  | or =>
    exact derives_foldl_either (.conjunction (.operand hfirst)) fun e he => .operand (hothers e he)

theorem holds_foldl_both (event : String → String) (found : String → String → Bool)
    (first : Filter) (others : List Filter) :
    (others.foldl .both first).holds event found =
      (first.holds event found && others.all (·.holds event found)) := by
  induction others generalizing first with
  | nil => simp
  | cons e others ih => rw [List.foldl_cons, ih, Filter.holds, List.all_cons, Bool.and_assoc]

theorem holds_foldl_either (event : String → String) (found : String → String → Bool)
    (first : Filter) (others : List Filter) :
    (others.foldl .either first).holds event found =
      (first.holds event found || others.any (·.holds event found)) := by
  induction others generalizing first with
  | nil => simp
  | cons e others ih => rw [List.foldl_cons, ih, Filter.holds, List.any_cons, Bool.or_assoc]

theorem all_of_expresses (event : String → String) (found : String → String → Bool)
    {conditions : List Condition} {parts : List Filter}
    (h : List.Forall₂ Expresses conditions parts) :
    parts.all (·.holds event found) = conditions.all (·.meets event found) := by
  induction h with
  | nil => rfl
  | cons hc _ ih => rw [List.all_cons, List.all_cons, ih, hc.holds]

theorem any_of_expresses (event : String → String) (found : String → String → Bool)
    {conditions : List Condition} {parts : List Filter}
    (h : List.Forall₂ Expresses conditions parts) :
    parts.any (·.holds event found) = conditions.any (·.meets event found) := by
  induction h with
  | nil => rfl
  | cons hc _ ih => rw [List.any_cons, List.any_cons, ih, hc.holds]

theorem operand_of_expresses {conditions : List Condition} {parts : List Filter}
    (h : List.Forall₂ Expresses conditions parts) :
    ∀ e ∈ parts, e.Spelled ∧ Derives .operand e.tokens e := by
  induction h with
  | nil => simp
  | @cons c e _ _ hc _ ih =>
    intro x hx
    rcases List.mem_cons.mp hx with rfl | hx
    · exact ⟨hc.spelled, hc.derives⟩
    · exact ih x hx

/-- The joined parts hold as the joined conditions do. -/
theorem holds_joinAll (event : String → String) (found : String → String → Bool) {rule : Rule}
    {first : Filter} {others : List Filter}
    (h : List.Forall₂ Expresses rule.conditions (first :: others)) :
    (rule.joiner.joinAll first others).holds event found = rule.meets event found := by
  unfold Rule.meets Joiner.joinAll
  cases rule.joiner with
  | and => rw [← all_of_expresses event found h, List.all_cons]; exact holds_foldl_both ..
  | or => rw [← any_of_expresses event found h, List.any_cons]; exact holds_foldl_either ..

/-! ## The guard -/

theorem spelled_filterFor (uuid : String) (joiner : Joiner) {first : Filter} {others : List Filter}
    (h : (joiner.joinAll first others).Spelled) :
    (filterFor uuid joiner first others).Spelled := by
  have hprogram : IsAccessor "evt.Parsed.program" := by decide
  have hrouter : IsAccessor "evt.Meta.traefik_router_name" := by decide
  have hhost : IsAccessor "evt.Meta.http_host" := by decide
  exact ⟨⟨hprogram, hrouter, hhost⟩, h⟩

theorem derives_guardFor (uuid : String) :
    Derives .operand (guardFor uuid).tokens (guardFor uuid) := by
  have hrouter := Derives.compare "evt.Meta.traefik_router_name" .contains uuid
  have hhost := Derives.compare "evt.Meta.http_host" .contains uuid
  exact .group (.either (.conjunction (.operand hrouter)) (.operand hhost))

/-- The conditions stand in parentheses of their own beside the guard. -/
theorem derives_filterFor (uuid : String) (joiner : Joiner) {first : Filter}
    {others : List Filter}
    (h : Derives .disjunction (joiner.joinAll first others).tokens (joiner.joinAll first others)) :
    Derives .disjunction (filterFor uuid joiner first others).tokens
      (filterFor uuid joiner first others) := by
  have hlines : Derives .conjunction proxyLines.tokens proxyLines := .operand (.compare _ _ _)
  exact .conjunction (.both (.both hlines (derives_guardFor uuid)) (.group h))

/-! ## Scenarios -/

/-- The filter of a scenario is made of parts that stand for the conditions of its rule. -/
theorem filter_of_scenarioOf {ns uuid : String} {rule : Rule} {duration : UInt64} {s : Scenario}
    (h : scenarioOf ns uuid rule duration = .ok s) :
    ∃ first others, List.Forall₂ Expresses rule.conditions (first :: others) ∧
      s.filter = (filterFor uuid rule.joiner first others).render := by
  obtain ⟨-, first, others, hcompiled, -, rfl⟩ := scenarioOf_eq_ok_iff.mp h
  refine ⟨first.expression, others.map (·.expression), ?_, by simp only [scenarioFrom]⟩
  rw [← List.map_cons, List.forall₂_map_right_iff]
  exact (Except.mapM_eq_ok_iff.mp hcompiled).imp fun _ _ hone => expresses_of_ofCondition hone

/-- Read by the grammar, the filter of a scenario is the guard, and beside it a body that stands for
the conditions of the rule. -/
theorem reads_of_scenarioOf {ns uuid : String} {rule : Rule} {duration : UInt64} {s : Scenario}
    (h : scenarioOf ns uuid rule duration = .ok s) :
    ∃ body, Reads s.filter (.both (.both proxyLines (guardFor uuid)) (.group body)) ∧
      ∀ event found, body.holds event found = rule.meets event found := by
  obtain ⟨first, others, hparts, hfilter⟩ := filter_of_scenarioOf h
  have hall := operand_of_expresses hparts
  have hfirst := hall first List.mem_cons_self
  have hothers := fun e he => hall e (List.mem_cons_of_mem first he)
  refine ⟨rule.joiner.joinAll first others, ?_, fun event found => holds_joinAll event found hparts⟩
  rw [hfilter]
  refine Filter.reads_render (spelled_filterFor uuid rule.joiner ?_)
    (derives_filterFor uuid rule.joiner ?_)
  · exact spelled_joinAll rule.joiner hfirst.1 fun e he => (hothers e he).1
  · exact derives_joinAll rule.joiner hfirst.2 fun e he => (hothers e he).2

/-- The tree of a scenario's filter is read from its text, and holds as guard and conditions do. -/
theorem exists_reads_of_scenarioOf {ns uuid : String} {rule : Rule} {duration : UInt64}
    {s : Scenario} (h : scenarioOf ns uuid rule duration = .ok s) :
    ∃ e, Reads s.filter e ∧ ∀ event found,
      e.holds event found = (isTrafficOf uuid event && rule.meets event found) := by
  obtain ⟨body, hread, hbody⟩ := reads_of_scenarioOf h
  refine ⟨_, hread, fun event found => ?_⟩
  rw [← hbody event found]
  rfl

/-- **The filter of a scenario means the guard and the conditions**: its text stands for a tree,
for no other one, and the tree holds exactly on the events of the application's traffic that meet
the rule. Whatever the user wrote, no value ends its literal, weakens the guard or groups the
conditions differently. -/
theorem filter_means_guard_and_conditions {ns uuid : String} {rule : Rule} {duration : UInt64}
    {s : Scenario} (h : scenarioOf ns uuid rule duration = .ok s) :
    ∃ e, Reads s.filter e ∧ (∀ e', Reads s.filter e' → e' = e) ∧
      ∀ event found,
        e.holds event found = (isTrafficOf uuid event && rule.meets event found) := by
  obtain ⟨e, hread, hholds⟩ := exists_reads_of_scenarioOf h
  exact ⟨e, hread, fun e' h' => Filter.reads_unique hread h', hholds⟩

/-- A rule of values that look like the end of a literal, like joiners and like escapes; one
condition is negated. -/
def hostileRule : Rule where
  id := 7
  name := "Bad') || ('bots"
  mode := .inband
  action := .ban
  conditions := [
    { field := " request_path", operator := "contains", value := "' || true || '" },
    { field := "user_agent", operator := "not_contains", value := "\\') || ('a' == 'a\n" },
    { field := "host", operator := "equals", value := "\\" }]

/-- Values that look like the end of a literal, like joiners and like escapes; one is negated. -/
theorem filter_means_guard_and_conditions_hostile :
    ∃ s, scenarioOf "bastion" "abc" hostileRule 600 = .ok s ∧
      ∃ e, Reads s.filter e ∧ (∀ e', Reads s.filter e' → e' = e) ∧
        ∀ event found,
          e.holds event found = (isTrafficOf "abc" event && hostileRule.meets event found) := by
  obtain ⟨s, hs⟩ : ∃ s, scenarioOf "bastion" "abc" hostileRule 600 = .ok s := ⟨_, by rfl⟩
  exact ⟨s, hs, filter_means_guard_and_conditions hs⟩

end Rampart
