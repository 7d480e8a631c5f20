import Rampart.Orchestrator.Deployment
import Rampart.Proofs.Except
import Rampart.Proofs.Scenario.Activation
import Rampart.Proofs.Scenario.Compiled
import Rampart.Proofs.Table

/-!
# One application among others

What stays as it is while rules and firewalls change: an application with its firewall and its
server, and how the store knows them. From the store follows what the application's scenario files
should be.

* `Site`, `Site.Knows`: an application, and a store that knows it and compiles all its rules.
* `Site.IsTarget`: the files that the rules in a store call for.
* **`contextOf_eq`**, **`files_eq`**: a context of the application, and the files that are made of it.
-/

namespace Rampart

/-! ## Sites -/

/-- An application with its firewall, its server and the settings. -/
structure Site where
  firewall : UInt64
  application : Application
  server : Server
  settings : Settings

namespace Site

/-- The uuid of the application. -/
def uuid (site : Site) : String :=
  site.application.uuid

/-- The directory of the scenario files. -/
def dir (site : Site) : ScenarioDir :=
  .ofPath site.settings.engine.scenarioDir

/-- The client of the engines. -/
def engine (site : Site) : Engine.Client :=
  ⟨site.settings.engine⟩

/-- The lock of the application's scenario files. -/
def lock (site : Site) : Lock :=
  ⟨site.uuid, site.server.id⟩

/-- The scenario of a rule under a firewall. -/
def scenario (site : Site) (rule : Rule) (firewall : Firewall) : Except RuleFault Scenario :=
  scenarioOf site.settings.scenarios.ns site.uuid rule (rule.durationIn firewall)

/-- The file of a scenario. -/
def file (site : Site) (s : Scenario) : ScenarioFile :=
  s.file site.settings.scenarios.capacity site.settings.scenarios.leakSpeed

/-- A store that knows the application, under one firewall, and whose rules of it all compile. -/
structure Knows (site : Site) (s : Store) : Prop where
  byUuid : s.byUuid.get? site.uuid = some site.application.id
  application : s.applications.get? site.application.id = some site.application
  byApplication : s.byApplication.get? site.application.id = some site.firewall
  firewall : ∃ firewall, s.firewalls.get? site.firewall = some firewall
  numbered : ∀ id firewall, s.firewalls.get? id = some firewall → firewall.id = id
  distinct : s.firewalls.keys.Nodup
  /-- The application has one firewall. -/
  own : ∀ id firewall, s.firewalls.get? id = some firewall →
    (firewall.applicationId = site.application.id ↔ id = site.firewall)
  /-- Every application has a valid uuid, and this one has its own. -/
  valid : ∀ id application, s.applications.get? id = some application →
    isUuid application.uuid = true ∧ (application.uuid = site.uuid → id = site.application.id)
  rules : s.rules.keys.Nodup
  compiled : ∀ id rule, s.rules.get? id = some rule → rule.firewallId = site.firewall →
    rule.id = id ∧ (rule.isBan = false → ∀ firewall, ∃ scenario,
      site.scenario rule firewall = .ok scenario)

/-- A file that the rules in a store call for. -/
def IsTarget (site : Site) (s : Store) (file : ScenarioFile) : Prop :=
  ∃ id rule firewall scenario, s.rules.get? id = some rule ∧ rule.firewallId = site.firewall ∧
    rule.enabled = true ∧ rule.isBan = false ∧ s.firewalls.get? site.firewall = some firewall ∧
    site.scenario rule firewall = .ok scenario ∧ file = site.file scenario

variable {site : Site}

theorem Knows.isUuid {s : Store} (h : site.Knows s) : isUuid site.uuid = true :=
  (h.valid _ _ h.application).1

/-! ## Contexts -/

theorem mem_rulesOf {s : Store} (h : s.rules.keys.Nodup) {firewall : UInt64} {rule : Rule} :
    rule ∈ s.rulesOf firewall ↔
      ∃ id, s.rules.get? id = some rule ∧ rule.firewallId = firewall := by
  unfold Store.rulesOf
  rw [List.mem_mergeSort, List.mem_filter, Table.mem_values_iff h, beq_iff_eq]
  exact ⟨fun ⟨⟨id, hid⟩, hf⟩ => ⟨id, hid, hf⟩, fun ⟨id, hid, hf⟩ => ⟨⟨id, hid⟩, hf⟩⟩

/-- **The context of the application.** -/
theorem contextOf_eq {s : Store} (h : site.Knows s) {servers : Registry}
    (hserver : servers.get site.application.serverId = .ok site.server) {firewall : Firewall}
    (hfirewall : s.firewalls.get? site.firewall = some firewall) :
    s.contextOf servers site.firewall =
      .ok (.of site.application firewall (s.rulesOf site.firewall) site.server) := by
  have hown := (h.own _ _ hfirewall).mpr rfl
  simp only [Store.contextOf, Store.firewall, hfirewall, bind, Except.bind, hown, h.application,
    hserver, pure, Except.pure]

theorem mem_context_rules {s : Store} (h : s.rules.keys.Nodup) {firewall : Firewall}
    {id : UInt64} {rule : Rule} :
    rule ∈ (Context.of site.application firewall (s.rulesOf id) site.server).rules ↔
      ∃ key, s.rules.get? key = some rule ∧ rule.firewallId = id := by
  unfold Context.of
  rw [List.mem_mergeSort]
  exact mem_rulesOf h

/-- A rule of the application is found under its number. -/
theorem rule?_eq_some_iff {s : Store} (h : site.Knows s) {firewall : Firewall} {id : UInt64}
    {rule : Rule} :
    (Context.of site.application firewall (s.rulesOf site.firewall) site.server).rule? id =
      some rule ↔ s.rules.get? id = some rule ∧ rule.firewallId = site.firewall := by
  unfold Context.rule?
  constructor
  · intro hfind
    have hid := List.find?_some hfind
    rw [beq_iff_eq] at hid
    obtain ⟨key, hget, hf⟩ := (mem_context_rules h.rules).mp (List.mem_of_find?_eq_some hfind)
    have hkey := (h.compiled key rule hget hf).1
    rw [hid] at hkey
    exact ⟨hkey ▸ hget, hf⟩
  · rintro ⟨hget, hf⟩
    have hmem : rule ∈ (Context.of site.application firewall (s.rulesOf site.firewall)
        site.server).rules := (mem_context_rules h.rules).mpr ⟨id, hget, hf⟩
    have hid := (h.compiled id rule hget hf).1
    cases hfind : (Context.of site.application firewall (s.rulesOf site.firewall)
        site.server).rules.find? (·.id == id) with
    | none =>
      have hnot := List.find?_eq_none.mp hfind rule hmem
      simp [hid] at hnot
    | some other =>
      have hother := List.find?_some hfind
      rw [beq_iff_eq] at hother
      obtain ⟨key, hget', hf'⟩ := (mem_context_rules h.rules).mp (List.mem_of_find?_eq_some hfind)
      have hkey := (h.compiled key other hget' hf').1
      rw [hother] at hkey
      rw [← hkey, hget] at hget'
      exact hget'.symm

/-! ## Files -/

/-- Every rule of the application has a number of its own. -/
theorem nodup_ids {s : Store} (h : site.Knows s) (firewall : Firewall) :
    ((Context.of site.application firewall (s.rulesOf site.firewall) site.server).rules.map
      (·.id)).Nodup := by
  have hvalues : ((s.rules.values.filter (·.firewallId == site.firewall)).map (·.id)).Nodup := by
    have hkeys : (s.rules.values.filter (·.firewallId == site.firewall)).map (·.id) =
        (s.rules.entries.filter (·.2.firewallId == site.firewall)).map (·.1) := by
      rw [Table.values, List.filter_map, List.map_map]
      refine List.map_congr_left fun entry hentry => ?_
      obtain ⟨hmem, hf⟩ := List.mem_filter.mp hentry
      exact (h.compiled entry.1 entry.2 ((Table.get?_eq_some_iff h.rules).mpr hmem)
        (beq_iff_eq.mp hf)).1
    rw [hkeys]
    exact h.rules.sublist (List.filter_sublist.map _)
  refine (List.Perm.map _ ?_).nodup_iff.mpr hvalues
  exact (List.mergeSort_perm _ _).trans (List.mergeSort_perm _ _)

/-- **The files of a context of the application** are those that the store calls for. -/
theorem files_eq {s : Store} (h : site.Knows s) {firewall : Firewall}
    (hfirewall : s.firewalls.get? site.firewall = some firewall) :
    ∃ files, (Context.of site.application firewall (s.rulesOf site.firewall) site.server).files
        site.settings.scenarios = .ok files ∧
      AreFilesOf site.uuid files ∧ ∀ file, file ∈ files ↔ site.IsTarget s file := by
  let c := Context.of site.application firewall (s.rulesOf site.firewall) site.server
  have hrules : ∀ rule ∈ c.scenarioRules, ∃ scenario,
      site.scenario rule firewall = .ok scenario := by
    intro rule hrule
    obtain ⟨hmem, hkind⟩ := List.mem_filter.mp hrule
    obtain ⟨id, hget, hf⟩ := (mem_context_rules h.rules).mp hmem
    have hban : rule.isBan = false := by simpa using (Bool.and_eq_true_iff.mp hkind).2
    exact (h.compiled id rule hget hf).2 hban firewall
  obtain ⟨scenarios, hscenarios⟩ := Except.exists_mapM_eq_ok_iff.mpr hrules
  have hnames : (scenarios.map site.file).map (·.name) =
      c.scenarioRules.map (scenarioFileName site.uuid) := by
    rw [List.map_map]
    exact Except.map_mapM hscenarios fun rule scenario hs => (name_of_scenarioOf hs).2.2.1
  have hname : ∀ f ∈ scenarios.map site.file, ∃ rule, f.name = scenarioFileName site.uuid rule := by
    intro f hf
    have hmem : f.name ∈ (scenarios.map site.file).map (·.name) := List.mem_map_of_mem hf
    rw [hnames] at hmem
    obtain ⟨rule, _, heq⟩ := List.mem_map.mp hmem
    exact ⟨rule, heq.symm⟩
  refine ⟨scenarios.map site.file, ?_, ⟨?_, ?_, ?_⟩, ?_⟩
  · have hc : c.scenarios site.settings.scenarios = .ok scenarios := hscenarios
    rw [Context.files, hc]
    rfl
  · intro f hf
    obtain ⟨rule, heq⟩ := hname f hf
    exact heq ▸ scenarioFileName_isScenarioName site.uuid rule
  · intro f hf
    obtain ⟨rule, heq⟩ := hname f hf
    exact heq ▸ scenarioFileName_isBlankFree h.isUuid rule
  · rw [hnames]
    have hids : (c.scenarioRules.map (·.id)).Nodup :=
      (nodup_ids h firewall).sublist (List.filter_sublist.map _)
    refine List.Nodup.map_on ?_ (List.Nodup.of_map _ hids)
    intro a ha b hb heq
    exact List.inj_on_of_nodup_map hids ha hb (scenarioFileName_inj heq)
  · intro file
    rw [List.mem_map]
    constructor
    · rintro ⟨scenario, hmem, rfl⟩
      obtain ⟨rule, hrule, hs⟩ := (Except.mem_mapM_iff hscenarios).mp hmem
      obtain ⟨hmem, hkind⟩ := List.mem_filter.mp hrule
      obtain ⟨id, hget, hf⟩ := (mem_context_rules h.rules).mp hmem
      obtain ⟨henabled, hban⟩ := Bool.and_eq_true_iff.mp hkind
      exact ⟨id, rule, firewall, scenario, hget, hf, henabled, by simpa using hban, hfirewall, hs,
        rfl⟩
    · rintro ⟨id, rule, other, scenario, hget, hf, henabled, hban, hother, hs, rfl⟩
      rw [hfirewall] at hother
      obtain rfl := Option.some.inj hother
      refine ⟨scenario, (Except.mem_mapM_iff hscenarios).mpr ⟨rule, ?_, hs⟩, rfl⟩
      refine List.mem_filter.mpr ⟨(mem_context_rules h.rules).mpr ⟨id, hget, hf⟩, ?_⟩
      simp [henabled, hban]

end Site

end Rampart
