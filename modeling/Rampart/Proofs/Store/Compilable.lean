import Rampart.Proofs.Decision.Collection
import Rampart.Proofs.Scenario.Compiled
import Rampart.Proofs.Store.History

/-!
# Saved rules compile, later and elsewhere

A rule is compiled when it is saved, for one application under the firewall of that day. It is
deployed later, when the firewall has other switches and a number may belong to another
application, and some versions are only left in events. None of that matters: whether a rule
compiles is up to the rule.

* `Rule.Compiles`: a rule compiles for whatever uuid and duration, and a ban has targets.
* `compiles_of_compile`: a rule that compiles once does.
* `Store.IsSound`: every stored rule does, and every application has a uuid that can be one.
  `IsSound.perform` is what an operation keeps, `isSound_after` what all of them do.
* `Store.published`: the events of a sequence of operations; `compiles_of_published`: the versions
  that they carry.
* `compiles_in_context`: what a context makes of such rules.
-/

namespace Rampart

/-! ## Rules -/

/-- **The rule compiles**, for whatever namespace, uuid and duration; a ban has targets. -/
def Rule.Compiles (rule : Rule) : Prop :=
  if rule.isBan then
    ∀ ns uuid duration, ∃ ds, decisionsOf ns uuid rule duration = .ok ds ∧ ds ≠ []
  else
    ∀ ns uuid duration, isUuid uuid = true → ∃ s, scenarioOf ns uuid rule duration = .ok s

/-- **A rule that compiles once compiles.** -/
theorem compiles_of_compile {rule : Rule} {settings : Settings.Scenarios} {uuid : String}
    {firewall : Firewall} {product : Product}
    (h : rule.compile settings uuid firewall = .ok product) : rule.Compiles := by
  unfold Rule.compile at h
  unfold Rule.Compiles
  cases hban : rule.isBan with
  | true =>
    rw [hban] at h
    obtain ⟨-, -, hmade⟩ := Except.bind_eq_ok_iff.mp h
    obtain ⟨ds, hds, -⟩ := Except.bind_eq_ok_iff.mp hmade
    intro ns uuid' duration
    obtain ⟨ds', hds'⟩ : ∃ ds', decisionsOf ns uuid' rule duration = .ok ds' :=
      exists_decisionsOf_iff.mpr (exists_decisionsOf_iff.mp ⟨ds, hds⟩)
    exact ⟨ds', hds', decisionsOf_ne_nil hds'⟩
  | false =>
    rw [hban] at h
    obtain ⟨s, hs, -⟩ := Except.bind_eq_ok_iff.mp h
    exact fun ns uuid' duration huuid => exists_scenarioOf hs huuid

/-! ## The store -/

namespace Table

variable {κ α : Type} [DecidableEq κ]

theorem mem_values_of_get? {t : Table κ α} {key : κ} {value : α} (h : t.get? key = some value) :
    value ∈ t.values := by
  obtain ⟨entry, hfind, rfl⟩ := Option.map_eq_some_iff.mp h
  exact List.mem_map_of_mem (List.mem_of_find?_eq_some hfind)

theorem mem_values_of_erase {t : Table κ α} {key : κ} {value : α}
    (h : value ∈ (t.erase key).values) : value ∈ t.values := by
  obtain ⟨entry, hmem, rfl⟩ := List.mem_map.mp h
  exact List.mem_map_of_mem (List.mem_filter.mp hmem).1

theorem mem_values_of_insert {t : Table κ α} {key : κ} {value other : α}
    (h : other ∈ (t.insert key value).values) : other = value ∨ other ∈ t.values := by
  rcases List.mem_cons.mp h with hsame | hother
  · exact .inl hsame
  · exact .inr (mem_values_of_erase hother)

end Table

namespace Store

variable {settings : Settings.Scenarios} {s : Store}

/-- **Every application has a uuid that can be one, and every rule compiles.** -/
structure IsSound (s : Store) : Prop where
  uuids : ∀ application ∈ s.applications.values, isUuid application.uuid = true
  rules : ∀ rule ∈ s.rules.values, rule.Compiles

/-- A rule that is saved compiles. -/
theorem compiles_of_saveRule {uuid : String} {rule : Rule} {saved : Saved}
    {counter : Option Counter} {store : Store}
    (h : s.saveRule settings uuid rule = (.ok saved, counter, store)) : saved.rule.Compiles := by
  unfold saveRule at h
  split at h
  · cases h
  split at h
  · cases h
  dsimp only at h
  split at h
  · cases h
  · rename_i product hcompile
    cases h
    exact compiles_of_compile hcompile

namespace IsSound

theorem empty : IsSound {} where
  uuids := nofun
  rules := nofun

/-- Switches, credentials and numbers do not matter. -/
theorem of_eq {t : Store} (h : s.IsSound) (happlications : t.applications = s.applications)
    (hrules : t.rules = s.rules) : t.IsSound :=
  ⟨happlications ▸ h.uuids, hrules ▸ h.rules⟩

theorem register (h : s.IsSound) {application : Application} {firewall : Firewall} {t : Store}
    (ht : s.register application firewall = .ok t) : t.IsSound := by
  obtain ⟨_, hchecked, ht⟩ := Except.bind_eq_ok_iff.mp ht
  have huuid : isUuid application.uuid = true := by
    by_contra hbad
    rw [checkUuid, if_neg hbad] at hchecked
    cases hchecked
  cases ht
  refine ⟨fun other hother => ?_, h.rules⟩
  rcases Table.mem_values_of_insert hother with rfl | hother
  · exact huuid
  · exact h.uuids other hother

/-- **An operation keeps a store sound.** -/
theorem of_outcome (h : s.IsSound) {operation : Operation} {t : Store}
    (ht : s.Outcome settings operation t) : t.IsSound := by
  cases ht with
  | refused => exact h
  | registered hregister => exact h.register hregister
  | numbered | changed => exact h.of_eq rfl rfl
  | saved _ hsave ht =>
    subst ht
    refine ⟨h.uuids, fun other hother => ?_⟩
    rcases Table.mem_values_of_insert hother with rfl | hother
    · exact compiles_of_saveRule hsave
    · exact h.rules other hother
  | deleted =>
    exact ⟨h.uuids, fun other hother => h.rules other (Table.mem_values_of_erase hother)⟩

theorem perform (h : s.IsSound) (operation : Operation) :
    (s.perform settings operation).IsSound :=
  h.of_outcome (perform_outcome settings s operation)

end IsSound

/-- **Whatever was asked for, the store is sound.** -/
theorem isSound_after (settings : Settings.Scenarios) (operations : List Operation) :
    (after settings operations).IsSound := by
  induction operations using List.reverseRecOn with
  | nil => exact .empty
  | append_singleton operations operation ih =>
    rw [after_concat]
    exact ih.perform operation

/-! ## Events -/

/-- The event that announces an operation; one that fails has none, and registrations have none
either. -/
def eventOf? (settings : Settings.Scenarios) (s : Store) : Operation → Option RuleEvent
  | .register _ _ => none
  | .save uuid rule => (s.saveRule settings uuid rule).1.toOption.map (·.event)
  | .delete uuid id => (s.deleteRule uuid id).toOption.map (·.2.1)
  | .update uuid u => (s.updateFirewall uuid u).toOption.map (·.2.1)
  | .recordBouncer firewall name key => (s.recordBouncer firewall name key).toOption.map (·.2.1)

/-- The events of a sequence of operations. -/
def published (settings : Settings.Scenarios) (s : Store) : List Operation → List RuleEvent
  | [] => []
  | operation :: operations =>
    (s.eventOf? settings operation).toList ++
      published settings (s.perform settings operation) operations

end Store

/-- The versions of rules that an event carries. -/
def RuleEvent.versions : RuleEvent → List Rule
  | saved _ _ previous => previous.toList
  | deleted rule _ => [rule]
  | firewallChanged _ => []

namespace Store

variable {settings : Settings.Scenarios} {s : Store}

theorem event_of_deleteRule {uuid : String} {id : UInt64} {rule : Rule} {e : RuleEvent} {t : Store}
    (h : s.deleteRule uuid id = .ok (rule, e, t)) : e = .deleted rule rule.firewallId := by
  obtain ⟨firewall, -, h⟩ := Except.bind_eq_ok_iff.mp h
  split at h
  · rename_i found hfound
    have howner := beq_iff_eq.mp (Option.filter_eq_some_iff.mp hfound).2
    cases h
    rw [howner]
  · cases h

/-- What an update gives: the firewall as it is stored then, and the event with its number. -/
theorem updateFirewall_outcome {uuid : String} {u : FirewallUpdate} {updated : Firewall}
    {e : RuleEvent} {t : Store} (h : s.updateFirewall uuid u = .ok (updated, e, t)) :
    ∃ number old, s.firewalls.get? number = some old ∧ updated = old.update u ∧
      e = .firewallChanged number ∧
      t = { s with firewalls := s.firewalls.insert number updated } := by
  obtain ⟨firewall, -, h⟩ := Except.bind_eq_ok_iff.mp h
  obtain ⟨old, hold, h⟩ := Except.bind_eq_ok_iff.mp h
  cases h
  exact ⟨firewall.id, old, firewall_eq_ok_iff.mp hold, rfl, rfl, rfl⟩

theorem recordBouncer_outcome {number : UInt64} {name key : String} {updated : Firewall}
    {e : RuleEvent} {t : Store} (h : s.recordBouncer number name key = .ok (updated, e, t)) :
    ∃ old, s.firewalls.get? number = some old ∧
      updated = { old with apiKey := key, bouncerName := some name } ∧
      e = .firewallChanged number ∧
      t = { s with firewalls := s.firewalls.insert number updated } := by
  obtain ⟨old, hold, h⟩ := Except.bind_eq_ok_iff.mp h
  cases h
  exact ⟨old, firewall_eq_ok_iff.mp hold, rfl, rfl, rfl⟩

/-- An event carries rules that were stored when it was published. -/
theorem versions_of_eventOf? {operation : Operation} {e : RuleEvent}
    (h : s.eventOf? settings operation = some e) : ∀ rule ∈ e.versions, rule ∈ s.rules.values := by
  intro version hversion
  cases operation with
  | register application firewall => cases h
  | save uuid rule =>
    rcases hsave : s.saveRule settings uuid rule with ⟨result, counter, store⟩
    obtain ⟨saved, hresult, rfl⟩ := Except.toOption_map_eq_some_iff.mp h
    rw [hsave] at hresult
    rcases saveRule_outcomes hsave with
      ⟨_, rfl, _⟩ | ⟨firewall, _, ⟨_, rfl, _⟩ | ⟨rfl, _, _⟩⟩
    · cases hresult
    · cases hresult
    · cases hresult
      exact Table.mem_values_of_get? (Option.mem_toList.mp hversion)
  | delete uuid id =>
    obtain ⟨⟨rule, event, t⟩, hresult, rfl⟩ := Except.toOption_map_eq_some_iff.mp h
    obtain rfl := event_of_deleteRule hresult
    obtain ⟨_, _, hget, _, _⟩ := deleteRule_spec hresult
    rw [List.mem_singleton.mp hversion]
    exact Table.mem_values_of_get? hget
  | update uuid u =>
    obtain ⟨⟨updated, event, t⟩, hresult, rfl⟩ := Except.toOption_map_eq_some_iff.mp h
    obtain ⟨_, _, _, _, rfl, _⟩ := updateFirewall_outcome hresult
    cases hversion
  | recordBouncer number name key =>
    obtain ⟨⟨updated, event, t⟩, hresult, rfl⟩ := Except.toOption_map_eq_some_iff.mp h
    obtain ⟨_, _, _, rfl, _⟩ := recordBouncer_outcome hresult
    cases hversion

/-- **Every version in an event compiles.** -/
theorem IsSound.compiles_of_published (h : s.IsSound) {operations : List Operation} {e : RuleEvent}
    (he : e ∈ s.published settings operations) : ∀ rule ∈ e.versions, rule.Compiles := by
  induction operations generalizing s with
  | nil => cases he
  | cons operation operations ih =>
    rcases List.mem_append.mp he with he | he
    · intro rule hrule
      exact h.rules rule (versions_of_eventOf? (Option.mem_toList.mp he) rule hrule)
    · exact ih (h.perform operation) he

/-! ## Contexts -/

/-- What is in a context is in the store. -/
theorem contextOf_parts {servers : Registry} {number : UInt64} {c : Context}
    (h : s.contextOf servers number = .ok c) :
    c.application ∈ s.applications.values ∧ ∀ rule ∈ c.rules, rule ∈ s.rules.values := by
  obtain ⟨firewall, -, h⟩ := Except.bind_eq_ok_iff.mp h
  split at h
  · cases h
  · rename_i application happlication
    obtain ⟨server, -, h⟩ := Except.bind_eq_ok_iff.mp h
    cases h
    refine ⟨Table.mem_values_of_get? happlication, fun rule hrule => ?_⟩
    have hrules : rule ∈ s.rulesOf number := List.mem_mergeSort.mp hrule
    exact (List.mem_filter.mp (List.mem_mergeSort.mp hrules)).1

end Store

namespace Context

variable (settings : Settings.Scenarios) {c : Context}

/-- A ban that compiles has decisions in every context. -/
theorem decisions_of_compiles (huuid : isUuid c.uuid = true) {rule : Rule} (h : rule.Compiles)
    (hban : rule.isBan = true) : ∃ ds, c.decisions settings rule = .ok ds ∧ ds ≠ [] := by
  unfold Rule.Compiles at h
  rw [if_pos hban] at h
  obtain ⟨ds, hds, hne⟩ := h settings.ns c.uuid (rule.durationIn c.firewall)
  refine ⟨ds, ?_, hne⟩
  rw [decisions, checkUuid, if_pos huuid]
  exact hds

/-- Any other rule that compiles has a scenario. -/
theorem scenario_of_compiles (huuid : isUuid c.uuid = true) {rule : Rule} (h : rule.Compiles)
    (hban : rule.isBan = false) :
    ∃ scenario, scenarioOf settings.ns c.uuid rule (rule.durationIn c.firewall) = .ok scenario := by
  unfold Rule.Compiles at h
  rw [hban] at h
  exact h settings.ns c.uuid (rule.durationIn c.firewall) huuid

/-- Rules that compile compile together. -/
theorem scenarios_of_compiles (huuid : isUuid c.uuid = true)
    (h : ∀ rule ∈ c.rules, rule.Compiles) : ∃ scenarios, c.scenarios settings = .ok scenarios := by
  refine Except.exists_mapM_eq_ok_iff.mpr fun rule hrule => ?_
  obtain ⟨hmem, hkind⟩ := List.mem_filter.mp hrule
  have hban : rule.isBan = false := by
    rw [Bool.and_eq_true, Bool.not_eq_true'] at hkind
    exact hkind.2
  exact scenario_of_compiles settings huuid (h rule hmem) hban

end Context

end Rampart
