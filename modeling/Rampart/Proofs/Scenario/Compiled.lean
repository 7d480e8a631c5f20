import Rampart.Proofs.Except
import Rampart.Scenario

/-!
# What a compiled rule is

* **`scenarioOf_eq_ok_iff`**: the checks that a rule passes to become a scenario, and every part of
  that scenario.
* `exists_scenarioOf`, `scenarioOf_duration`: the checks do not look at the namespace, at the
  duration, or at more of the uuid than whether it can be one.
-/

namespace Rampart

/-- The scenario of a rule whose conditions are `first` and `others` when they are compiled. -/
def scenarioFrom (ns uuid : String) (rule : Rule) (duration : UInt64) (first : CompiledCondition)
    (others : List CompiledCondition) : Scenario where
  name := scenarioName ns uuid rule
  description := rule.describe
  filter := (filterFor uuid rule.joiner first.expression (others.map (·.expression))).render
  metadata := [("app_uuid", uuid), ("protection_mode", rule.mode.name),
    ("rule_id", toString rule.id), ("rule_name", rule.name)]
  remediation := ⟨rule.action, duration⟩
  fileName := scenarioFileName uuid rule

theorem checkUuid_eq_ok_iff {uuid : String} : checkUuid uuid = .ok () ↔ isUuid uuid = true := by
  unfold checkUuid
  split <;> simp [*]

/-- **A rule becomes a scenario** for a uuid that can be one, if it has conditions, if all of them
compile, and if not too much is negated. -/
theorem scenarioOf_eq_ok_iff {ns uuid : String} {rule : Rule} {duration : UInt64}
    {scenario : Scenario} :
    scenarioOf ns uuid rule duration = .ok scenario ↔
      isUuid uuid = true ∧ ∃ first others,
        rule.conditions.mapM CompiledCondition.ofCondition = .ok (first :: others) ∧
        checkNegation rule.id (first :: others) rule.joiner = .ok () ∧
        scenario = scenarioFrom ns uuid rule duration first others := by
  unfold scenarioOf
  rw [Except.bind_eq_ok_iff, ← checkUuid_eq_ok_iff]
  constructor
  · rintro ⟨_, huuid, h⟩
    refine ⟨huuid, ?_⟩
    split at h
    · cases h
    · next c cs hconditions =>
      simp only [Except.bind_eq_ok_iff] at h
      obtain ⟨first, hfirst, others, hothers, _, hnegation, hs⟩ := h
      refine ⟨first, others, ?_, hnegation, (Except.ok.inj hs).symm⟩
      rw [hconditions]
      exact Except.mapM_eq_ok_iff.mpr (.cons hfirst (Except.mapM_eq_ok_iff.mp hothers))
  · rintro ⟨huuid, first, others, hparts, hnegation, rfl⟩
    refine ⟨(), huuid, ?_⟩
    split
    · next hconditions =>
      rw [hconditions] at hparts
      cases hparts
    · next c cs hconditions =>
      rw [hconditions, Except.mapM_eq_ok_iff] at hparts
      obtain ⟨hfirst, hothers⟩ := List.forall₂_cons.mp hparts
      simp only [hfirst, Except.mapM_eq_ok_iff.mpr hothers, hnegation, bind, Except.bind]
      rfl

section

variable {ns uuid : String} {rule : Rule} {duration : UInt64} {scenario : Scenario}

/-- The parts of a scenario that say whose it is. -/
theorem name_of_scenarioOf (h : scenarioOf ns uuid rule duration = .ok scenario) :
    isUuid uuid = true ∧ scenario.name = scenarioName ns uuid rule ∧
      scenario.fileName = scenarioFileName uuid rule ∧ scenario.uuid? = some uuid := by
  obtain ⟨huuid, first, others, -, -, rfl⟩ := scenarioOf_eq_ok_iff.mp h
  exact ⟨huuid, rfl, rfl, rfl⟩

/-- **Whether a rule has a scenario is up to the rule**, for uuids that can be one. -/
theorem exists_scenarioOf {ns' uuid' : String} {duration' : UInt64}
    (h : scenarioOf ns uuid rule duration = .ok scenario) (huuid : isUuid uuid' = true) :
    ∃ scenario', scenarioOf ns' uuid' rule duration' = .ok scenario' := by
  obtain ⟨-, first, others, hparts, hnegation, -⟩ := scenarioOf_eq_ok_iff.mp h
  exact ⟨_, scenarioOf_eq_ok_iff.mpr ⟨huuid, first, others, hparts, hnegation, rfl⟩⟩

end

/-- Whether a scenario can be made of a rule does not depend on the duration. -/
theorem scenarioOf_duration (ns uuid : String) (rule : Rule) (d d' : UInt64) :
    scenarioOf ns uuid rule d' =
      (scenarioOf ns uuid rule d).map fun s => { s with remediation := ⟨rule.action, d'⟩ } := by
  unfold scenarioOf
  cases checkUuid uuid with
  | error e => rfl
  | ok _ =>
    cases rule.conditions with
    | nil => rfl
    | cons first others =>
      simp only [bind, Except.bind]
      cases CompiledCondition.ofCondition first with
      | error e => rfl
      | ok first =>
        cases others.mapM CompiledCondition.ofCondition with
        | error e => rfl
        | ok others =>
          simp only
          cases checkNegation rule.id (first :: others) rule.joiner <;> rfl

end Rampart
