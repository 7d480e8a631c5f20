import Mathlib.Data.List.Sort
import Rampart.Context
import Rampart.Proofs.Scenario.Compiled
import Rampart.Proofs.Scenario.Ownership

/-!
# The scenarios of a rule set

A context puts the rules of an application in order and compiles those that are enabled and no
bans. The order is strict, for rules of different numbers, so that nothing is left of the order in
which the rules were stored.

* `Rule.Precedes`, `Rule.IsDue`: the order, and the rules that become scenarios.
* `of_perm`, `scenarios_congr`: what a context, and what its scenarios do not depend on.
* **`scenarios_of_rule_set`**: one scenario for each rule that is due, in order, or the fault of
  the first one that has none.
-/

namespace Rampart

/-! ## The order of rules -/

namespace Rule

/-- One rule strictly before another: by priority, then by number. -/
def Precedes (a b : Rule) : Prop :=
  a.priority < b.priority ∨ a.priority = b.priority ∧ a.id < b.id

/-- A rule that becomes a scenario. -/
def IsDue (rule : Rule) : Prop :=
  rule.enabled = true ∧ rule.isBan = false

theorem isBefore_iff {a b : Rule} :
    a.isBefore b = true ↔ a.priority < b.priority ∨ a.priority = b.priority ∧ a.id ≤ b.id := by
  simp [isBefore]

theorem isBefore_trans {a b c : Rule} (hab : a.isBefore b = true) (hbc : b.isBefore c = true) :
    a.isBefore c = true := by
  rw [isBefore_iff, Int32.lt_iff_toInt_lt, ← Int32.toInt_inj, UInt64.le_iff_toNat_le] at *
  omega

theorem isBefore_total (a b : Rule) : (a.isBefore b || b.isBefore a) = true := by
  rw [Bool.or_eq_true, isBefore_iff, isBefore_iff, Int32.lt_iff_toInt_lt, Int32.lt_iff_toInt_lt,
    ← Int32.toInt_inj, ← Int32.toInt_inj, UInt64.le_iff_toNat_le, UInt64.le_iff_toNat_le]
  omega

/-- Rules of different numbers are never as early as each other. -/
theorem precedes_of_isBefore {a b : Rule} (h : a.isBefore b = true) (hne : a.id ≠ b.id) :
    a.Precedes b :=
  (isBefore_iff.mp h).imp_right fun ⟨hpriority, hid⟩ =>
    ⟨hpriority, UInt64.lt_of_le_of_ne hid hne⟩

instance : Std.Irrefl Precedes where
  irrefl a h := by
    rcases h with h | ⟨-, h⟩
    · exact Int32.lt_irrefl h
    · exact UInt64.lt_irrefl _ h

instance : Std.Antisymm Precedes where
  antisymm a b hab hba := by
    rw [Precedes, Int32.lt_iff_toInt_lt, ← Int32.toInt_inj, UInt64.lt_iff_toNat_lt] at hab hba
    omega

end Rule

/-! ## Contexts -/

namespace Context

open Rule (IsDue Precedes)

variable {application : Application} {firewall : Firewall} {rules rules' : List Rule}
  {server : Server}

theorem mem_scenarioRules {rule : Rule} :
    rule ∈ (of application firewall rules server).scenarioRules ↔ rule ∈ rules ∧ rule.IsDue := by
  rw [scenarioRules, of, List.mem_filter, List.mem_mergeSort, IsDue, Bool.and_eq_true,
    Bool.not_eq_true']

theorem pairwise_rules (hids : (rules.map (·.id)).Nodup) :
    (of application firewall rules server).rules.Pairwise Precedes := by
  have hordered : (rules.mergeSort Rule.isBefore).Pairwise fun a b => a.isBefore b = true :=
    @List.pairwise_mergeSort Rule Rule.isBefore (fun _ _ _ => Rule.isBefore_trans)
      Rule.isBefore_total rules
  have hnodup : ((rules.mergeSort Rule.isBefore).map (·.id)).Nodup :=
    ((List.mergeSort_perm rules _).map _).nodup_iff.mpr hids
  have hboth := hordered.and (List.pairwise_map.mp hnodup)
  rw [of]
  exact hboth.imp fun ⟨hbefore, hne⟩ => Rule.precedes_of_isBefore hbefore hne

theorem pairwise_scenarioRules (hids : (rules.map (·.id)).Nodup) :
    (of application firewall rules server).scenarioRules.Pairwise Precedes :=
  (pairwise_rules hids).sublist List.filter_sublist

/-- **The order of storage is no part of a context.** -/
theorem of_perm (hids : (rules.map (·.id)).Nodup) (h : rules'.Perm rules) :
    of application firewall rules' server = of application firewall rules server := by
  have hids' : (rules'.map (·.id)).Nodup := (h.map _).nodup_iff.mpr hids
  have hrules : (of application firewall rules' server).rules =
      (of application firewall rules server).rules := by
    refine (pairwise_rules hids').eq_of_mem_iff (pairwise_rules hids) fun rule => ?_
    simp only [of, List.mem_mergeSort, h.mem_iff]
  simp only [of, Context.mk.injEq, true_and, and_true] at hrules ⊢
  exact hrules

/-- **Rules that do not become scenarios have no say** in what the others become. -/
theorem scenarios_congr (hids : (rules.map (·.id)).Nodup) (hids' : (rules'.map (·.id)).Nodup)
    (h : ∀ rule : Rule, rule.IsDue → (rule ∈ rules' ↔ rule ∈ rules))
    (settings : Settings.Scenarios) :
    (of application firewall rules' server).scenarios settings =
      (of application firewall rules server).scenarios settings := by
  have hdue : (of application firewall rules' server).scenarioRules =
      (of application firewall rules server).scenarioRules := by
    refine (pairwise_scenarioRules hids').eq_of_mem_iff (pairwise_scenarioRules hids) fun rule => ?_
    rw [mem_scenarioRules, mem_scenarioRules]
    exact and_congr_left (h rule)
  unfold scenarios
  rw [hdue]
  rfl

/-- Rules of different numbers have scenarios of different names, in different files. -/
theorem nodup_names {ns uuid : String} {due : List Rule} {scenarios : List Scenario}
    {duration : Rule → UInt64} (hids : (due.map (·.id)).Nodup)
    (h : due.mapM (fun rule => scenarioOf ns uuid rule (duration rule)) = .ok scenarios) :
    (scenarios.map (·.name)).Nodup ∧ (scenarios.map (·.fileName)).Nodup := by
  have hinj : ∀ {a b : Rule}, a ∈ due → b ∈ due → a.id = b.id → a = b :=
    fun ha hb => List.inj_on_of_nodup_map hids ha hb
  have huuid : ∀ {rule : Rule}, rule ∈ due → isUuid uuid = true := by
    intro rule hrule
    obtain ⟨scenario, hmade⟩ := Except.exists_mapM_eq_ok_iff.mp ⟨_, h⟩ rule hrule
    exact (name_of_scenarioOf hmade).1
  constructor
  · rw [Except.map_mapM h fun rule scenario hmade => (name_of_scenarioOf hmade).2.1]
    refine hids.of_map.map_on fun a ha b hb heq => hinj ha hb ?_
    exact (scenarioName_inj (huuid ha) (huuid hb) heq).2
  · rw [Except.map_mapM h fun rule scenario hmade => (name_of_scenarioOf hmade).2.2.1]
    exact hids.of_map.map_on fun a ha b hb heq => hinj ha hb (scenarioFileName_inj heq)

/-- **The scenarios of a rule set.** The list of rules may be stored in any order, and only those
that are due have a say. They have a strict order, in which one scenario stands for each of them,
made of the rule with its own duration or that of the firewall: scenarios of the application, of
different names and in different files. If some of them cannot be compiled, the first one says
why, and there is nothing else. -/
theorem scenarios_of_rule_set (application : Application) (firewall : Firewall) (server : Server)
    (settings : Settings.Scenarios) (rules : List Rule) (hids : (rules.map (·.id)).Nodup) :
    (∀ rules' : List Rule, rules'.Perm rules →
      of application firewall rules' server = of application firewall rules server) ∧
    (∀ rules' : List Rule, (rules'.map (·.id)).Nodup →
      (∀ rule : Rule, rule.IsDue → (rule ∈ rules' ↔ rule ∈ rules)) →
      (of application firewall rules' server).scenarios settings =
        (of application firewall rules server).scenarios settings) ∧
    ∃ due : List Rule, due.Pairwise Precedes ∧ (∀ rule, rule ∈ due ↔ rule ∈ rules ∧ rule.IsDue) ∧
      match (of application firewall rules server).scenarios settings with
      | .ok scenarios =>
        List.Forall₂ (fun rule scenario => scenarioOf settings.ns application.uuid rule
          (rule.duration.getD firewall.banDuration) = .ok scenario) due scenarios ∧
        (scenarios.map (·.name)).Nodup ∧ (scenarios.map (·.fileName)).Nodup ∧
        ∀ scenario ∈ scenarios, scenario.uuid? = some application.uuid
      | .error fault => ∃ before rule after, due = before ++ rule :: after ∧
        (∀ earlier ∈ before, ∃ scenario, scenarioOf settings.ns application.uuid earlier
          (earlier.duration.getD firewall.banDuration) = .ok scenario) ∧
        scenarioOf settings.ns application.uuid rule
          (rule.duration.getD firewall.banDuration) = .error fault := by
  refine ⟨fun rules' h => of_perm hids h,
    fun rules' hids' h => scenarios_congr hids hids' h settings,
    (of application firewall rules server).scenarioRules, pairwise_scenarioRules hids,
    fun rule => mem_scenarioRules, ?_⟩
  have hdue : ((of application firewall rules server).scenarioRules.map (·.id)).Nodup := by
    have hsorted := ((List.mergeSort_perm rules Rule.isBefore).map (·.id)).nodup_iff.mpr hids
    exact hsorted.sublist (List.filter_sublist.map _)
  split
  · next scenarios hok =>
    have hparts := Except.mapM_eq_ok_iff.mp hok
    refine ⟨hparts, (nodup_names hdue hok).1, (nodup_names hdue hok).2, fun scenario hmem => ?_⟩
    obtain ⟨rule, -, hmade⟩ := (Except.mem_mapM_iff hok).mp hmem
    exact (name_of_scenarioOf hmade).2.2.2
  · next fault herror => exact Except.mapM_eq_error_iff.mp herror

/-- Four rules, stored in no order: one is a ban that has no conditions, and one is off. -/
def fourRules : List Rule :=
  [{ id := 9, name := "Crawlers", mode := .outofband, action := .captcha, priority := 5
     conditions := [⟨"user_agent", "contains", "bot"⟩] },
   { id := 4, name := "Nobody", mode := .ipBan, action := .ban, conditions := [] },
   { id := 2, name := "Later", mode := .inband, action := .ban, enabled := false
     conditions := [⟨"host", "like", "a"⟩] },
   { id := 3, name := "Admin", mode := .pathOnly, action := .ban, priority := 5
     duration := some 60, conditions := [⟨"request_path", "starts_with", "/admin"⟩] }]

/-- Two of the four rules become scenarios, whichever way they are stored. -/
theorem scenarios_of_rule_set_four :
    let application : Application := ⟨1, "abc", "Shop", 1⟩
    let firewall : Firewall := { id := 1, enabled := true }
    let settings : Settings.Scenarios := default
    (fourRules.map (·.id)).Nodup ∧
      of application firewall fourRules.reverse default =
        of application firewall fourRules default ∧
      ∃ due : List Rule, due.Pairwise Precedes ∧
        (∀ rule, rule ∈ due ↔ rule ∈ fourRules ∧ rule.IsDue) ∧
        ∃ scenarios,
          (of application firewall fourRules default).scenarios settings = .ok scenarios ∧
          List.Forall₂ (fun rule scenario => scenarioOf settings.ns "abc" rule
            (rule.duration.getD 14400) = .ok scenario) due scenarios := by
  intro application firewall settings
  have hids : (fourRules.map (·.id)).Nodup := by decide
  obtain ⟨hperm, -, due, hordered, hmem, hresult⟩ :=
    scenarios_of_rule_set application firewall default settings fourRules hids
  refine ⟨hids, hperm _ fourRules.reverse_perm, due, hordered, hmem, ?_⟩
  obtain ⟨scenarios, hok⟩ : ∃ scenarios,
      (of application firewall fourRules default).scenarios settings = .ok scenarios := by
    refine Except.exists_mapM_eq_ok_iff.mpr fun rule hrule => ?_
    obtain ⟨hrule, henabled, hban⟩ := mem_scenarioRules.mp hrule
    simp only [fourRules, List.mem_cons, List.not_mem_nil, or_false] at hrule
    rcases hrule with rfl | rfl | rfl | rfl
    · exact ⟨_, scenarioOf_eq_ok_iff.mpr ⟨by decide, _, _, by rfl, by rfl, rfl⟩⟩
    · exact absurd hban (by decide)
    · exact absurd henabled (by decide)
    · exact ⟨_, scenarioOf_eq_ok_iff.mpr ⟨by decide, _, _, by rfl, by rfl, rfl⟩⟩
  rw [hok] at hresult
  exact ⟨scenarios, hok, hresult.1⟩

end Context

end Rampart
