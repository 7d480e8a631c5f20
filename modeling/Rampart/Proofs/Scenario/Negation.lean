import Rampart.Proofs.Scenario.Meaning

/-!
# Negated conditions

A rule whose negated conditions nothing narrows would match nearly all traffic, and is refused by
counting those conditions. What the count comes to is said here by what the rule matches.

* `Condition.isShown`: an event shows what a condition looks for; `blankEvent` shows nothing.
* `meets_of_not_shown`: a condition whose value is not shown is met exactly if it is negated.
* `checkNegation_eq_error_iff`: what the count refuses, by the joiner.
* **`refused_iff_matches_unshown`**: conditions without patterns are refused exactly if they match
  the blank event, and then they match every event that shows none of their values; accepted ones
  match no such event.
-/

namespace Rampart

/-! ## What an event shows -/

/-- Whether a text shows a value, as the operator looks for it. A negated operator looks for what it
excludes. -/
def Operator.finds (found : String → String → Bool) (text value : String) : Operator → Bool
  | .equals | .notEquals => text == value
  | .contains | .notContains => Text.hasText text value
  | .startsWith => value.toList.isPrefixOf text.toList
  | .endsWith => value.toList.isSuffixOf text.toList
  | .regex => found value text

/-- Whether an event shows the value of a condition. -/
def Condition.isShown (event : String → String) (found : String → String → Bool) (c : Condition) :
    Bool :=
  match Field.ofName (Text.trimmed c.field), Operator.ofName (Text.trimmed c.operator) with
  | .ok field, .ok operator => operator.finds found (event field.accessor) c.value
  | _, _ => false

/-- An event in which every accessor is empty. -/
def blankEvent (_ : String) : String :=
  ""

theorem Operator.holds_of_not_finds {found : String → String → Bool} {text value : String}
    {operator : Operator} (h : operator.finds found text value = false) :
    operator.holds found text value = operator.isNegated := by
  cases operator with
  | notEquals =>
    rw [finds, beq_eq_false_iff_ne] at h
    exact bne_iff_ne.mpr h
  | notContains => rw [holds, show Text.hasText text value = false from h]; rfl
  | _ => exact h

/-- The blank text shows no value that is more than nothing, unless by a pattern. -/
theorem Operator.not_finds_blank (found : String → String → Bool) {value : String}
    (hvalue : value.toList ≠ []) {operator : Operator} (hregex : operator ≠ .regex) :
    operator.finds found "" value = false := by
  have hne : ("" == value) = false := by
    rw [beq_eq_false_iff_ne]
    rintro rfl
    exact hvalue rfl
  have hpart : value.toList.isEmpty = false := by
    rw [List.isEmpty_eq_false_iff]
    exact hvalue
  cases operator with
  | equals | notEquals => exact hne
  | contains | notContains => exact hpart
  | startsWith =>
    rw [finds, Bool.eq_false_iff, Ne, List.isPrefixOf_iff_prefix]
    exact fun hprefix => hvalue (List.prefix_nil.mp hprefix)
  | endsWith =>
    rw [finds, Bool.eq_false_iff, Ne, List.isSuffixOf_iff_suffix]
    exact fun hsuffix => hvalue (List.suffix_nil.mp hsuffix)
  | regex => exact absurd rfl hregex

/-- What a compiled condition says of the condition that it was made of. -/
theorem parts_of_ofCondition {c : Condition} {k : CompiledCondition}
    (h : CompiledCondition.ofCondition c = .ok k) :
    Field.ofName (Text.trimmed c.field) = .ok k.field ∧
      Operator.ofName (Text.trimmed c.operator) = .ok k.operator ∧ c.value.toList ≠ [] := by
  unfold CompiledCondition.ofCondition at h
  simp only [Except.bind_eq_ok_iff] at h
  obtain ⟨field, hfield, operator, hoperator, hchecks⟩ := h
  split at hchecks
  · cases hchecks
  rename_i hblank
  split at hchecks
  · cases hchecks
  cases hchecks
  refine ⟨hfield, hoperator, fun hnil => hblank ?_⟩
  rw [Text.isBlankText, hnil]
  rfl

/-- **A condition whose value is not shown** is met exactly if it is negated. -/
theorem meets_of_not_shown {event : String → String} {found : String → String → Bool}
    {c : Condition} {k : CompiledCondition} (h : CompiledCondition.ofCondition c = .ok k)
    (hshown : c.isShown event found = false) : c.meets event found = k.operator.isNegated := by
  obtain ⟨hfield, hoperator, _⟩ := parts_of_ofCondition h
  simp only [Condition.isShown, hfield, hoperator] at hshown
  simp only [Condition.meets, hfield, hoperator]
  exact Operator.holds_of_not_finds hshown

/-- The blank event shows no value of conditions without patterns. -/
theorem not_isShown_blankEvent (found : String → String → Bool) {conditions : List Condition}
    {compiled : List CompiledCondition}
    (h : List.Forall₂ (fun c k => CompiledCondition.ofCondition c = .ok k) conditions compiled)
    (hregex : ∀ k ∈ compiled, k.operator ≠ .regex) :
    ∀ c ∈ conditions, c.isShown blankEvent found = false := by
  induction h with
  | nil => exact fun _ hc => absurd hc List.not_mem_nil
  | cons hk _ ih =>
    obtain ⟨hfirst, hothers⟩ := List.forall_mem_cons.mp hregex
    refine List.forall_mem_cons.mpr ⟨?_, ih hothers⟩
    obtain ⟨hfield, hoperator, hvalue⟩ := parts_of_ofCondition hk
    simp only [Condition.isShown, hfield, hoperator]
    exact Operator.not_finds_blank found hvalue hfirst

/-! ## What is refused -/

/-- Whether all or some of a list have a property, by the joiner. -/
def Joiner.over {α : Type} (p : α → Bool) (xs : List α) : Joiner → Bool
  | .and => xs.all p
  | .or => xs.any p

/-- **What the count of negated conditions refuses.** -/
theorem checkNegation_eq_error_iff {rule : UInt64} {compiled : List CompiledCondition}
    (hne : compiled ≠ []) (joiner : Joiner) :
    checkNegation rule compiled joiner = .error (.soleNegation rule) ↔
      joiner.over (·.operator.isNegated) compiled = true := by
  have hzero : compiled.countP (·.operator.isNegated) = 0 ↔
      ∀ k ∈ compiled, ¬ k.operator.isNegated = true := List.countP_eq_zero
  have hall : compiled.countP (·.operator.isNegated) = compiled.length ↔
      ∀ k ∈ compiled, k.operator.isNegated = true := List.countP_eq_length
  unfold checkNegation
  cases joiner with
  | and =>
    rw [Joiner.over, List.all_eq_true, ← hall]
    have hlength := List.length_pos_iff.mpr hne
    by_cases hnone : compiled.countP (·.operator.isNegated) = 0
    · simp only [hnone, if_true, reduceCtorEq, false_iff]
      omega
    · by_cases hsole : compiled.countP (·.operator.isNegated) = compiled.length <;>
        simp [hnone, hsole, hne]
  | or =>
    rw [Joiner.over, List.any_eq_true]
    by_cases hnone : compiled.countP (·.operator.isNegated) = 0
    · simpa [hnone] using hzero.mp hnone
    · have hsome := mt hzero.mpr hnone
      push Not at hsome
      simpa [hnone] using hsome

theorem checkNegation_eq_ok_iff {rule : UInt64} {compiled : List CompiledCondition}
    {joiner : Joiner} : checkNegation rule compiled joiner = .ok () ↔
      checkNegation rule compiled joiner ≠ .error (.soleNegation rule) := by
  unfold checkNegation
  dsimp only
  split
  · simp
  · split <;> simp

/-- Conditions of which no value is shown are met as the negated ones among them are. -/
theorem over_meets_of_not_shown {event : String → String} {found : String → String → Bool}
    {conditions : List Condition} {compiled : List CompiledCondition}
    (h : List.Forall₂ (fun c k => CompiledCondition.ofCondition c = .ok k) conditions compiled)
    (hshown : ∀ c ∈ conditions, c.isShown event found = false) (joiner : Joiner) :
    joiner.over (·.meets event found) conditions =
      joiner.over (·.operator.isNegated) compiled := by
  induction h with
  | nil => rfl
  | cons hk _ ih =>
    have ih := ih fun c hc => hshown c (List.mem_cons_of_mem _ hc)
    have hfirst := meets_of_not_shown hk (hshown _ List.mem_cons_self)
    cases joiner with
    | and => exact congrArg₂ and hfirst ih
    | or => exact congrArg₂ or hfirst ih

/-! ## The body of a filter -/

/-- Compiled conditions with the joiner between them. -/
def bodyText (joiner : Joiner) (compiled : List CompiledCondition) : String :=
  joiner.text.intercalate (compiled.map (·.expression.render))

theorem render_joinAll (joiner : Joiner) (first : Filter) (others : List Filter) :
    (joiner.joinAll first others).render =
      joiner.text.intercalate ((first :: others).map Filter.render) := by
  unfold Joiner.joinAll
  induction others generalizing first with
  | nil => exact String.intercalate_singleton.symm
  | cons e others ih =>
    have hjoined : (joiner.join first e).render = first.render ++ joiner.text ++ e.render := by
      cases joiner <;> rfl
    rw [List.foldl_cons, ih, List.map_cons, hjoined]
    rfl

theorem bodyText_cons (joiner : Joiner) (first : CompiledCondition)
    (others : List CompiledCondition) :
    bodyText joiner (first :: others) =
      (joiner.joinAll first.expression (others.map (·.expression))).render := by
  rw [render_joinAll, bodyText, List.map_cons, List.map_cons, List.map_map]
  rfl

/-- The body of the filter of a rule, in parentheses behind the guard. -/
theorem filter_eq_bodyText {ns uuid : String} {rule : Rule} {duration : UInt64} {s : Scenario}
    (h : scenarioOf ns uuid rule duration = .ok s) :
    ∃ compiled, rule.conditions.mapM CompiledCondition.ofCondition = .ok compiled ∧
      checkNegation rule.id compiled rule.joiner = .ok () ∧
      s.filter = (Filter.both proxyLines (guardFor uuid)).render ++ " && " ++
        ("(" ++ bodyText rule.joiner compiled ++ ")") := by
  obtain ⟨-, first, others, hcompiled, hcheck, rfl⟩ := scenarioOf_eq_ok_iff.mp h
  refine ⟨first :: others, hcompiled, hcheck, ?_⟩
  rw [bodyText_cons]
  rfl

/-- **The body stands for one tree**, which holds as the conditions are met. -/
theorem exists_reads_bodyText (joiner : Joiner) {conditions : List Condition}
    {compiled : List CompiledCondition} (hne : conditions ≠ [])
    (h : List.Forall₂ (fun c k => CompiledCondition.ofCondition c = .ok k) conditions compiled) :
    ∃ body, Filter.Reads (bodyText joiner compiled) body ∧ ∀ event found,
      body.holds event found = joiner.over (·.meets event found) conditions := by
  cases h with
  | nil => exact absurd rfl hne
  | @cons c first conditions others hfirst hothers =>
    have hparts : List.Forall₂ Expresses (c :: conditions)
        (first.expression :: others.map (·.expression)) :=
      .cons (expresses_of_ofCondition hfirst) (List.forall₂_map_right_iff.mpr
        (hothers.imp fun _ _ hone => expresses_of_ofCondition hone))
    obtain ⟨⟨hspelled, hderives⟩, hall⟩ := List.forall_mem_cons.mp (operand_of_expresses hparts)
    refine ⟨joiner.joinAll first.expression (others.map (·.expression)), ?_, fun event found => ?_⟩
    · rw [bodyText_cons]
      exact Filter.reads_render (spelled_joinAll joiner hspelled fun e he => (hall e he).1)
        (derives_joinAll joiner hderives fun e he => (hall e he).2)
    · unfold Joiner.joinAll
      cases joiner with
      | and => exact (holds_foldl_both ..).trans (all_of_expresses event found hparts)
      | or => exact (holds_foldl_either ..).trans (any_of_expresses event found hparts)

/-- **Conditions are refused exactly if they match an event that shows nothing.** The text that
compiled conditions without patterns are joined to stands for one tree. The conditions are refused
if the tree holds on the blank event, and accepted otherwise. On every other event that shows none
of the values the tree holds as on the blank one: never if the conditions were accepted, always if
they were refused. -/
theorem refused_iff_matches_unshown {rule : UInt64} {joiner : Joiner} {conditions : List Condition}
    {compiled : List CompiledCondition} (hne : conditions ≠ [])
    (hcompiled : conditions.mapM CompiledCondition.ofCondition = .ok compiled)
    (hregex : ∀ k ∈ compiled, k.operator ≠ .regex) :
    ∃ body, Filter.Reads (bodyText joiner compiled) body ∧
      (∀ e, Filter.Reads (bodyText joiner compiled) e → e = body) ∧ ∀ found,
        (checkNegation rule compiled joiner = .error (.soleNegation rule) ↔
          body.holds blankEvent found = true) ∧
        (checkNegation rule compiled joiner = .ok () ↔ body.holds blankEvent found = false) ∧
        ∀ event, (∀ c ∈ conditions, c.isShown event found = false) →
          body.holds event found = body.holds blankEvent found := by
  have hparts := Except.mapM_eq_ok_iff.mp hcompiled
  have hne' : compiled ≠ [] := by
    rintro rfl
    cases hparts
    exact hne rfl
  obtain ⟨body, hreads, hholds⟩ := exists_reads_bodyText joiner hne hparts
  refine ⟨body, hreads, fun e he => Filter.reads_unique hreads he, fun found => ?_⟩
  have hunshown : ∀ event, (∀ c ∈ conditions, c.isShown event found = false) →
      body.holds event found = joiner.over (·.operator.isNegated) compiled := by
    intro event hshown
    rw [hholds, over_meets_of_not_shown hparts hshown]
  have hblank : body.holds blankEvent found = joiner.over (·.operator.isNegated) compiled :=
    hunshown blankEvent (not_isShown_blankEvent found hparts hregex)
  refine ⟨?_, ?_, fun event hshown => (hunshown event hshown).trans hblank.symm⟩
  · rw [hblank]
    exact checkNegation_eq_error_iff hne' joiner
  · rw [checkNegation_eq_ok_iff, Ne, checkNegation_eq_error_iff hne' joiner, hblank,
      Bool.not_eq_true]

/-- Requests for the pages of administrators, from everywhere but one address. -/
def adminConditions : List Condition :=
  [{ field := "request_path", operator := "starts_with", value := "/admin" },
   { field := "ip_address", operator := "not_equals", value := "10.0.0.1" }]

/-- Joined by `or`, a negated condition beside one that is not. -/
theorem refused_iff_matches_unshown_admin :
    ∃ compiled, adminConditions.mapM CompiledCondition.ofCondition = .ok compiled ∧
      adminConditions ≠ [] ∧ (∀ k ∈ compiled, k.operator ≠ .regex) ∧
      ∃ body, Filter.Reads (bodyText .or compiled) body ∧
        (∀ e, Filter.Reads (bodyText .or compiled) e → e = body) ∧ ∀ found,
          (checkNegation 1 compiled .or = .error (.soleNegation 1) ↔
            body.holds blankEvent found = true) ∧
          (checkNegation 1 compiled .or = .ok () ↔ body.holds blankEvent found = false) ∧
          ∀ event, (∀ c ∈ adminConditions, c.isShown event found = false) →
            body.holds event found = body.holds blankEvent found := by
  obtain ⟨compiled, hcompiled, hregex⟩ : ∃ compiled,
      adminConditions.mapM CompiledCondition.ofCondition = .ok compiled ∧
        ∀ k ∈ compiled, k.operator ≠ .regex := ⟨_, rfl, by decide⟩
  have hne : adminConditions ≠ [] := by decide
  exact ⟨compiled, hcompiled, hne, hregex, refused_iff_matches_unshown hne hcompiled hregex⟩

end Rampart
