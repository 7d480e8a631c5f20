import Mathlib.Data.List.Nodup
import Rampart.Decision
import Rampart.Proofs.Except

/-!
# How decisions are collected

A rule has a decision for every target that its conditions name, each target once. Whether it has
any is up to its conditions and their joiner.

* `Condition.NamesTargets`, **`exists_decisionsOf_iff`**: when a rule has decisions.
* `distinct`: decisions in order, each where it comes first.
* `Condition.targets`, **`eq_of_decisionsOf`**: what the decisions of a rule are. All else that is
  known of them follows: `mem_decisionsOf_iff`, `eq_of_mem_decisionsOf`, `decisionsOf_ne_nil`,
  `exists_mem_decisionsOf_iff`.
-/

namespace Rampart

/-! ## One after another -/

/-- Add the decision of a target. -/
def addTarget (make : String → Scope → Decision) (ds : List Decision) (text : String) :
    Except RuleFault (List Decision) :=
  match Decision.target? text with
  | some (ip, scope) => .ok (addDecision ds (make ip scope))
  | none => .error (.invalidTarget text)

/-- Add the decisions of a condition. -/
def addCondition (make : String → Scope → Decision) (ds : List Decision) (c : Condition) :
    Except RuleFault (List Decision) :=
  if c.isBan = false then .error (.unsupportedBan c.field c.operator)
  else if targetsIn c.value = [] then .error (.emptyValue c.field)
  else (targetsIn c.value).foldlM (addTarget make) ds

theorem collectDecisions_eq (make : String → Scope → Decision) (conditions : List Condition) :
    collectDecisions make conditions = conditions.foldlM (addCondition make) [] := by
  unfold collectDecisions
  congr 1
  funext ds c
  unfold addCondition
  cases c.isBan <;> cases targetsIn c.value <;> rfl

/-- The condition compares the source address with targets: some, and all of them can be read. -/
def Condition.NamesTargets (c : Condition) : Prop :=
  c.isBan = true ∧ targetsIn c.value ≠ [] ∧
    ∀ text ∈ targetsIn c.value, (Decision.target? text).isSome = true

theorem exists_addCondition_iff {make : String → Scope → Decision} (ds : List Decision)
    (c : Condition) : (∃ ds', addCondition make ds c = .ok ds') ↔ c.NamesTargets := by
  have htargets : (∃ ds', (targetsIn c.value).foldlM (addTarget make) ds = .ok ds') ↔
      ∀ text ∈ targetsIn c.value, (Decision.target? text).isSome = true := by
    refine Except.exists_foldlM_eq_ok_iff fun ds text => ?_
    unfold addTarget
    cases Decision.target? text <;> simp
  unfold addCondition Condition.NamesTargets
  by_cases hban : c.isBan = false
  · simp [hban]
  · by_cases hnone : targetsIn c.value = []
    · simp [hban, hnone]
    · rw [if_neg hban, if_neg hnone, htargets]
      simp [hban, hnone]

/-- **Whether a rule has decisions is up to its conditions and their joiner**, whatever namespace,
uuid and duration the decisions are made of. -/
theorem exists_decisionsOf_iff {ns uuid : String} {rule : Rule} {duration : UInt64} :
    (∃ ds, decisionsOf ns uuid rule duration = .ok ds) ↔
      rule.conditions ≠ [] ∧ ¬(rule.joiner = .and ∧ 1 < rule.conditions.length) ∧
        ∀ c ∈ rule.conditions, c.NamesTargets := by
  unfold decisionsOf
  by_cases hnone : rule.conditions = []
  · simp [hnone]
  · by_cases hjoined : rule.joiner = .and ∧ 1 < rule.conditions.length
    · simp [hnone, hjoined]
    · rw [if_neg (by simpa using hnone), if_neg (by simpa using hjoined), collectDecisions_eq,
        Except.exists_foldlM_eq_ok_iff exists_addCondition_iff]
      simp only [ne_eq, hnone, not_false_eq_true, hjoined, true_and]

/-! ## Each target once -/

/-- Decisions in order, each where it comes first. -/
def distinct (ds : List Decision) : List Decision :=
  ds.foldl addDecision []

theorem mem_addDecision_iff {ds : List Decision} {d e : Decision} :
    e ∈ addDecision ds d ↔ e ∈ ds ∨ e = d := by
  unfold addDecision
  by_cases hd : d ∈ ds
  · rw [if_pos (List.contains_iff_mem.mpr hd), or_iff_left_of_imp]
    rintro rfl
    exact hd
  · simp [hd]

theorem mem_foldl_addDecision_iff {ds before : List Decision} {d : Decision} :
    d ∈ ds.foldl addDecision before ↔ d ∈ before ∨ d ∈ ds := by
  induction ds generalizing before with
  | nil => simp
  | cons e ds ih => rw [List.foldl_cons, ih, mem_addDecision_iff, List.mem_cons, or_assoc]

theorem mem_distinct_iff {ds : List Decision} {d : Decision} : d ∈ distinct ds ↔ d ∈ ds := by
  rw [distinct, mem_foldl_addDecision_iff, or_iff_right List.not_mem_nil]

theorem addDecision_of_not_mem {ds : List Decision} {d : Decision} (h : d ∉ ds) :
    addDecision ds d = ds ++ [d] := by
  rw [addDecision, if_neg (by simpa using h)]

theorem nodup_addDecision {ds : List Decision} (h : ds.Nodup) (d : Decision) :
    (addDecision ds d).Nodup := by
  by_cases hd : d ∈ ds
  · rwa [addDecision, if_pos (by simpa using hd)]
  · rw [addDecision_of_not_mem hd]
    exact List.nodup_append_comm.mp (List.nodup_cons.mpr ⟨hd, h⟩)

theorem nodup_foldl_addDecision (ds : List Decision) {before : List Decision} (h : before.Nodup) :
    (ds.foldl addDecision before).Nodup := by
  induction ds generalizing before with
  | nil => exact h
  | cons d ds ih => exact ih (nodup_addDecision h d)

theorem nodup_distinct (ds : List Decision) : (distinct ds).Nodup :=
  nodup_foldl_addDecision ds List.nodup_nil

theorem foldl_addDecision_of_nodup {ds before : List Decision} (h : (before ++ ds).Nodup) :
    ds.foldl addDecision before = before ++ ds := by
  induction ds generalizing before with
  | nil => rw [List.foldl_nil, List.append_nil]
  | cons d ds ih =>
    have hd : d ∉ before := fun hmem =>
      (List.nodup_append.mp h).2.2 d hmem d List.mem_cons_self rfl
    rw [List.append_cons] at h
    rw [List.foldl_cons, addDecision_of_not_mem hd, ih h, ← List.append_cons]

theorem distinct_of_nodup {ds : List Decision} (h : ds.Nodup) : distinct ds = ds :=
  foldl_addDecision_of_nodup h

/-! ## The decisions of a rule -/

/-- The targets of some conditions, in order. -/
def Condition.targets (conditions : List Condition) : List (String × Scope) :=
  (conditions.flatMap fun c => targetsIn c.value).filterMap Decision.target?

theorem mem_targets_iff {conditions : List Condition} {target : String × Scope} :
    target ∈ Condition.targets conditions ↔
      ∃ c ∈ conditions, ∃ text ∈ targetsIn c.value, Decision.target? text = some target := by
  simp only [Condition.targets, List.mem_filterMap, List.mem_flatMap]
  constructor
  · rintro ⟨text, ⟨c, hc, htext⟩, htarget⟩
    exact ⟨c, hc, text, htext, htarget⟩
  · rintro ⟨c, hc, text, htext, htarget⟩
    exact ⟨text, ⟨c, hc, htext⟩, htarget⟩

/-- The decision of a rule about a target. -/
def Rule.decision (rule : Rule) (ns uuid : String) (duration : UInt64)
    (target : String × Scope) : Decision :=
  ⟨target.1, target.2, rule.action, duration, banReason ns uuid rule.id⟩

/-- What a text adds to decisions; nothing, if it is no target. -/
def addRead (make : String → Scope → Decision) (ds : List Decision) (text : String) :
    List Decision :=
  match Decision.target? text with
  | some target => addDecision ds (make target.1 target.2)
  | none => ds

theorem foldl_filterMap_target? (make : String → Scope → Decision) (texts : List String)
    (ds : List Decision) :
    (texts.filterMap Decision.target?).foldl
        (fun ds target => addDecision ds (make target.1 target.2)) ds =
      texts.foldl (addRead make) ds := by
  induction texts generalizing ds with
  | nil => rfl
  | cons text texts ih =>
    rw [List.foldl_cons, addRead, List.filterMap_cons]
    cases Decision.target? text with
    | none => exact ih ds
    | some target => exact ih _

theorem eq_of_addTarget {make : String → Scope → Decision} {ds ds' : List Decision} {text : String}
    (h : addTarget make ds text = .ok ds') : ds' = addRead make ds text := by
  unfold addTarget at h
  split at h
  · rename_i ip scope htarget
    rw [addRead, htarget]
    exact (Except.ok.inj h).symm
  · cases h

theorem eq_of_addCondition {make : String → Scope → Decision} {ds ds' : List Decision}
    {c : Condition} (h : addCondition make ds c = .ok ds') :
    ds' = (targetsIn c.value).foldl (addRead make) ds := by
  unfold addCondition at h
  split at h
  · cases h
  · split at h
    · cases h
    · exact Except.eq_foldl_of_foldlM (fun _ _ _ => eq_of_addTarget) h

theorem eq_of_collectDecisions {make : String → Scope → Decision} {conditions : List Condition}
    {ds : List Decision} (h : collectDecisions make conditions = .ok ds) :
    ds = distinct ((Condition.targets conditions).map fun target => make target.1 target.2) := by
  rw [collectDecisions_eq] at h
  rw [Except.eq_foldl_of_foldlM (fun _ _ _ => eq_of_addCondition) h, distinct, List.foldl_map,
    Condition.targets, foldl_filterMap_target?, List.foldl_flatMap]

section

variable {ns uuid : String} {rule : Rule} {duration : UInt64} {ds : List Decision}

/-- **The decisions of a rule are its targets**, each once. -/
theorem eq_of_decisionsOf (h : decisionsOf ns uuid rule duration = .ok ds) :
    ds = distinct ((Condition.targets rule.conditions).map (rule.decision ns uuid duration)) := by
  unfold decisionsOf at h
  split at h
  · cases h
  · split at h
    · cases h
    · exact eq_of_collectDecisions h

/-- What decisions are about are targets that have been read from the conditions. -/
theorem mem_decisionsOf_iff (h : decisionsOf ns uuid rule duration = .ok ds) {d : Decision} :
    d ∈ ds ↔ ∃ target ∈ Condition.targets rule.conditions,
      rule.decision ns uuid duration target = d := by
  rw [eq_of_decisionsOf h, mem_distinct_iff, List.mem_map]

/-- The decisions of a rule differ in what they are about, and in nothing else. -/
theorem eq_of_mem_decisionsOf (h : decisionsOf ns uuid rule duration = .ok ds) {d : Decision}
    (hd : d ∈ ds) : d = ⟨d.ip, d.scope, rule.action, duration, banReason ns uuid rule.id⟩ := by
  obtain ⟨target, -, rfl⟩ := (mem_decisionsOf_iff h).mp hd
  rfl

/-- A rule that has decisions has at least one. -/
theorem decisionsOf_ne_nil (h : decisionsOf ns uuid rule duration = .ok ds) : ds ≠ [] := by
  obtain ⟨hsome, -, hconditions⟩ := exists_decisionsOf_iff.mp ⟨ds, h⟩
  obtain ⟨c, hc⟩ := List.exists_mem_of_ne_nil _ hsome
  obtain ⟨-, htexts, hread⟩ := hconditions c hc
  obtain ⟨text, htext⟩ := List.exists_mem_of_ne_nil _ htexts
  obtain ⟨target, htarget⟩ := Option.isSome_iff_exists.mp (hread text htext)
  have hmem := mem_targets_iff.mpr ⟨c, hc, text, htext, htarget⟩
  exact List.ne_nil_of_mem ((mem_decisionsOf_iff h).mpr ⟨target, hmem, rfl⟩)

/-- The condition names an address or a network. -/
def Condition.Names (c : Condition) (ip : String) : Prop :=
  ∃ text ∈ targetsIn c.value, ∃ scope, Decision.target? text = some (ip, scope)

/-- **The addresses that a rule bans** are those that its conditions name. -/
theorem exists_mem_decisionsOf_iff (h : decisionsOf ns uuid rule duration = .ok ds) {ip : String} :
    (∃ d ∈ ds, d.ip = ip) ↔ ∃ c ∈ rule.conditions, c.Names ip := by
  constructor
  · rintro ⟨d, hd, rfl⟩
    obtain ⟨target, htarget, rfl⟩ := (mem_decisionsOf_iff h).mp hd
    obtain ⟨c, hc, text, htext, hread⟩ := mem_targets_iff.mp htarget
    exact ⟨c, hc, text, htext, target.2, hread⟩
  · rintro ⟨c, hc, text, htext, scope, hread⟩
    have hmem := mem_targets_iff.mpr ⟨c, hc, text, htext, hread⟩
    exact ⟨_, (mem_decisionsOf_iff h).mpr ⟨(ip, scope), hmem, rfl⟩, rfl⟩

end

end Rampart
