import Rampart.Proofs.Deployment.Site

/-!
# Changes of the store and their events

Requests for an application, and bouncers that are recorded, leave a store that knows the
application. Whenever a change alters what the application's scenario files should be, one of the
events that are not handled yet leads to a sync, by the store as it is then.

* `Site.WillSync`: events that lead to a sync when they are handled now.
* `Site.Announces`: what a change of the store and its event have to do with each other.
* **`perform_spec`**, `recordBouncer_spec`: requests and recorded bouncers announce their changes.
-/

namespace Rampart

open Execution (Request)

/-- The application that a request is about. -/
def Execution.Request.uuid : Request → String
  | save uuid _ => uuid
  | delete uuid _ => uuid
  | update uuid _ => uuid

namespace Site

/-- An event that leads to a sync of an active firewall, by a store. -/
def WillSync (site : Site) (s : Store) : RuleEvent → Prop
  | .saved id firewall previous => firewall = site.firewall ∧
    ∃ rule, s.rules.get? id = some rule ∧ rule.firewallId = site.firewall ∧
      (rule.isBan = false ∨ ∃ old, previous = some old ∧ old.isBan = false)
  | .deleted _ firewall => firewall = site.firewall
  | .firewallChanged firewall => firewall = site.firewall

/-- **A change of the store and its event.** What led to a sync still does, or the new event does;
and unless it does, the application's files should be the same as before. -/
structure Announces (site : Site) (before after : Store) (event : RuleEvent) : Prop where
  firewall : event.firewall = site.firewall
  keeps : ∀ e, site.WillSync before e → site.WillSync after e ∨ site.WillSync after event
  same : site.WillSync after event ∨
    ((∀ file, site.IsTarget after file ↔ site.IsTarget before file) ∧
      after.firewalls = before.firewalls)

variable {site : Site}

theorem Announces.of_willSync {before after : Store} {event : RuleEvent}
    (hf : event.firewall = site.firewall) (h : site.WillSync after event) :
    site.Announces before after event :=
  ⟨hf, fun _ _ => .inr h, .inl h⟩

/-! ## Stores after a change -/

theorem Knows.withNextRule {s : Store} (h : site.Knows s) (n : UInt64) :
    site.Knows { s with nextRule := n } :=
  ⟨h.byUuid, h.application, h.byApplication, h.firewall, h.numbered, h.distinct, h.own, h.valid,
    h.rules, h.compiled⟩

theorem Knows.insertRule {s : Store} (h : site.Knows s) {rule : Rule}
    (hrule : rule.isBan = false → ∀ firewall, ∃ scenario,
      site.scenario rule firewall = .ok scenario) :
    site.Knows { s with rules := s.rules.insert rule.id rule } := by
  refine ⟨h.byUuid, h.application, h.byApplication, h.firewall, h.numbered, h.distinct, h.own,
    h.valid, Table.nodup_keys_insert h.rules _ _, ?_⟩
  intro id other hget hf
  rw [Table.get?_insert] at hget
  split at hget
  · rename_i hid
    obtain rfl := Option.some.inj hget
    exact ⟨hid.symm, hrule⟩
  · exact h.compiled id other hget hf

theorem Knows.eraseRule {s : Store} (h : site.Knows s) (id : UInt64) :
    site.Knows { s with rules := s.rules.erase id } := by
  refine ⟨h.byUuid, h.application, h.byApplication, h.firewall, h.numbered, h.distinct, h.own,
    h.valid, Table.nodup_keys_erase h.rules _, ?_⟩
  intro key rule hget hf
  rw [Table.get?_erase] at hget
  split at hget
  · cases hget
  · exact h.compiled key rule hget hf

/-- A firewall may be changed as long as it keeps its number and its owner. -/
theorem Knows.insertFirewall {s : Store} (h : site.Knows s) {id : UInt64}
    {old firewall : Firewall} (hold : s.firewalls.get? id = some old) (hid : firewall.id = id)
    (hown : firewall.applicationId = old.applicationId) :
    site.Knows { s with firewalls := s.firewalls.insert id firewall } := by
  refine ⟨h.byUuid, h.application, h.byApplication, ?_, ?_,
    Table.nodup_keys_insert h.distinct _ _, ?_, h.valid, h.rules, h.compiled⟩
  · obtain ⟨mine, hmine⟩ := h.firewall
    by_cases hkey : site.firewall = id
    · exact ⟨firewall, by rw [Table.get?_insert, if_pos hkey]⟩
    · exact ⟨mine, by rw [Table.get?_insert, if_neg hkey, hmine]⟩
  · intro key other hget
    rw [Table.get?_insert] at hget
    split at hget
    · rename_i hkey
      rw [← Option.some.inj hget, hid, hkey]
    · exact h.numbered key other hget
  · intro key other hget
    rw [Table.get?_insert] at hget
    split at hget
    · rename_i hkey
      rw [← Option.some.inj hget, hown, hkey]
      exact h.own id old hold
    · exact h.own key other hget

/-! ## Lookups -/

theorem firewallFor_eq {s : Store} (h : site.Knows s) {firewall : Firewall}
    (hfirewall : s.firewalls.get? site.firewall = some firewall) :
    s.firewallFor site.uuid = .ok firewall := by
  simp only [Store.firewallFor, Store.application, h.byUuid, Option.bind_some, h.application,
    h.byApplication, hfirewall, bind, Except.bind, pure, Except.pure]

/-- A rule that was compiled compiles under every firewall. -/
theorem scenario_of_compile {rule : Rule} {firewall : Firewall} {p : Product}
    (h : rule.compile site.settings.scenarios site.uuid firewall = .ok p) :
    rule.isBan = false → ∀ firewall, ∃ scenario, site.scenario rule firewall = .ok scenario := by
  intro hban other
  unfold Rule.compile at h
  rw [hban] at h
  obtain ⟨made, hs, _⟩ := Except.bind_eq_ok_iff.mp h
  unfold scenario
  rw [scenarioOf_duration site.settings.scenarios.ns site.uuid rule (rule.durationIn firewall), hs]
  exact ⟨_, rfl⟩

/-! ## Saving -/

/-- Numbers that a store gives to a rule of the application. -/
theorem assign_cases (s : Store) (uuid : String) (firewall : Firewall) (rule : Rule) :
    (∃ failure, s.assign uuid firewall rule = (.error failure, s)) ∨
      ∃ saved n, s.assign uuid firewall rule = (.ok saved, { s with nextRule := n }) ∧
        saved.firewallId = firewall.id := by
  unfold Store.assign
  simp only
  split
  · exact .inr ⟨_, _, rfl, rfl⟩
  · split
    · split
      · exact .inl ⟨_, rfl⟩
      · exact .inr ⟨_, _, rfl, rfl⟩
    · exact .inr ⟨_, _, rfl, rfl⟩

/-- **A saved rule announces itself.** If its event leads to no sync, neither the rule nor the
version that it replaced has a file. -/
theorem announces_saved {s : Store} {rule : Rule} (hf : rule.firewallId = site.firewall)
    (n : UInt64) :
    site.Announces s { s with nextRule := n, rules := s.rules.insert rule.id rule }
      (.saved rule.id site.firewall (s.rules.get? rule.id)) := by
  have hself : (s.rules.insert rule.id rule).get? rule.id = some rule := by
    rw [Table.get?_insert, if_pos rfl]
  by_cases hscenario : rule.isBan = false ∨
      ∃ old, s.rules.get? rule.id = some old ∧ old.isBan = false
  · exact .of_willSync rfl ⟨rfl, rule, hself, hf, hscenario⟩
  · rw [not_or] at hscenario
    obtain ⟨hban, hprevious⟩ := hscenario
    refine ⟨rfl, fun e he => .inl ?_, .inr ⟨fun file => ?_, rfl⟩⟩
    · -- An event of the same number is still about a version that had a file.
      cases e with
      | saved id firewall previous =>
        obtain ⟨hfirewall, old, hget, hold, hkind⟩ := he
        by_cases hid : id = rule.id
        · subst hid
          have hban' : old.isBan ≠ false := fun hb => hprevious ⟨old, hget, hb⟩
          exact ⟨hfirewall, rule, hself, hf, .inr (hkind.resolve_left hban')⟩
        · refine ⟨hfirewall, old, ?_, hold, hkind⟩
          rw [Table.get?_insert, if_neg hid]
          exact hget
      | deleted _ _ => exact he
      | firewallChanged _ => exact he
    · constructor
      · rintro ⟨id, other, firewall, scenario, hget, hother⟩
        rw [Table.get?_insert] at hget
        split at hget
        · obtain rfl := Option.some.inj hget
          exact absurd hother.2.2.1 hban
        · exact ⟨id, other, firewall, scenario, hget, hother⟩
      · rintro ⟨id, other, firewall, scenario, hget, hother⟩
        refine ⟨id, other, firewall, scenario, ?_, hother⟩
        rw [Table.get?_insert]
        split
        · rename_i hid
          subst hid
          exact absurd ⟨other, hget, hother.2.2.1⟩ hprevious
        · exact hget

/-- What comes of saving a rule of the application: it is refused, or it is stored under its number
and replaces the version that was there. -/
theorem saveRule_cases {s store : Store} (h : site.Knows s) {firewall : Firewall}
    (hfirewall : s.firewalls.get? site.firewall = some firewall) {rule : Rule}
    {result : Except Failure Store.Saved} {counter : Option Counter}
    (hsave : s.saveRule site.settings.scenarios site.uuid rule = (result, counter, store)) :
    (∃ failure n, result = .error failure ∧ store = { s with nextRule := n }) ∨
      ∃ saved n, result = .ok ⟨saved, .saved saved.id site.firewall (s.rules.get? saved.id)⟩ ∧
        store = { s with nextRule := n, rules := s.rules.insert saved.id saved } ∧
        saved.firewallId = site.firewall ∧
        ∃ p, saved.compile site.settings.scenarios site.uuid firewall = .ok p := by
  have hid := h.numbered _ _ hfirewall
  rcases assign_cases s site.uuid firewall rule with ⟨failure, hassign⟩ | ⟨saved, n, hassign, hf⟩
  · simp only [Store.saveRule, firewallFor_eq h hfirewall, hassign] at hsave
    obtain ⟨rfl, hrest⟩ := Prod.mk.inj hsave
    obtain ⟨_, rfl⟩ := Prod.mk.inj hrest
    exact .inl ⟨failure, s.nextRule, rfl, rfl⟩
  · simp only [Store.saveRule, firewallFor_eq h hfirewall, hassign] at hsave
    cases hcompile : saved.compile site.settings.scenarios site.uuid firewall with
    | error fault =>
      simp only [hcompile] at hsave
      obtain ⟨rfl, hrest⟩ := Prod.mk.inj hsave
      obtain ⟨_, rfl⟩ := Prod.mk.inj hrest
      exact .inl ⟨_, n, rfl, rfl⟩
    | ok made =>
      simp only [hcompile] at hsave
      obtain ⟨rfl, hrest⟩ := Prod.mk.inj hsave
      obtain ⟨_, rfl⟩ := Prod.mk.inj hrest
      rw [hid] at hf ⊢
      exact .inr ⟨saved, n, rfl, rfl, hf, made, hcompile⟩

/-- A rule of the application that is saved leaves a store that knows it. -/
theorem saveRule_spec {s store : Store} (h : site.Knows s) {rule : Rule}
    {result : Except Failure Store.Saved} {counter : Option Counter}
    (hsave : s.saveRule site.settings.scenarios site.uuid rule = (result, counter, store)) :
    site.Knows store ∧
      ((∃ failure, result = .error failure ∧ store.rules = s.rules ∧
          store.firewalls = s.firewalls) ∨
        ∃ saved, result = .ok saved ∧ site.Announces s store saved.event) := by
  obtain ⟨firewall, hfirewall⟩ := h.firewall
  rcases saveRule_cases h hfirewall hsave with ⟨failure, n, rfl, rfl⟩ |
    ⟨saved, n, rfl, rfl, hf, made, hcompile⟩
  · exact ⟨h.withNextRule n, .inl ⟨failure, rfl, rfl, rfl⟩⟩
  · exact ⟨(h.withNextRule n).insertRule (scenario_of_compile hcompile),
      .inr ⟨_, rfl, announces_saved hf n⟩⟩

/-! ## Requests -/

/-- **A request for the application** leaves a store that knows it, and announces what it
changes. -/
theorem perform_spec {s : Orchestrator} (hsettings : s.settings = site.settings)
    (h : site.Knows s.store) {r : Request} (hr : r.uuid = site.uuid) :
    ∃ store counters, (r.perform s).2 = { s with store, counters } ∧ site.Knows store ∧
      (((r.perform s).1 = none ∧ store.rules = s.store.rules ∧
          store.firewalls = s.store.firewalls) ∨
        ∃ event, (r.perform s).1 = some event ∧ site.Announces s.store store event) := by
  obtain ⟨firewall, hfirewall⟩ := h.firewall
  have hid := h.numbered _ _ hfirewall
  cases r with
  | save uuid rule =>
    obtain rfl : uuid = site.uuid := hr
    rcases hsave : s.store.saveRule s.settings.scenarios site.uuid rule with
      ⟨result, counter, store⟩
    have hspec := saveRule_spec h (hsettings ▸ hsave)
    have hstate : ((Request.save site.uuid rule).perform s).2 =
        { s with store, counters := (match counter with
          | some counter => s.counters.add counter 1
          | none => s.counters) } := by
      simp only [Request.perform, hsave]
      cases counter <;> rfl
    have hevent : ((Request.save site.uuid rule).perform s).1 = result.toOption.map (·.event) := by
      simp only [Request.perform, hsave]
    refine ⟨store, _, hstate, hspec.1, ?_⟩
    rw [hevent]
    rcases hspec.2 with ⟨failure, rfl, hrules, hfirewalls⟩ | ⟨saved, rfl, hannounces⟩
    · exact .inl ⟨rfl, hrules, hfirewalls⟩
    · exact .inr ⟨saved.event, rfl, hannounces⟩
  | delete uuid id =>
    obtain rfl : uuid = site.uuid := hr
    simp only [Request.perform, Store.deleteRule, firewallFor_eq h hfirewall, bind, Except.bind,
      hid]
    cases (s.store.rules.get? id).filter (·.firewallId == site.firewall) with
    | none => exact ⟨s.store, s.counters, rfl, h, .inl ⟨rfl, rfl, rfl⟩⟩
    | some rule =>
      exact ⟨_, s.counters, rfl, h.eraseRule id, .inr ⟨_, rfl, .of_willSync rfl rfl⟩⟩
  | update uuid u =>
    obtain rfl : uuid = site.uuid := hr
    simp only [Request.perform, Store.updateFirewall, firewallFor_eq h hfirewall, bind,
      Except.bind, hid, Store.firewall, hfirewall]
    exact ⟨_, s.counters, rfl,
      h.insertFirewall hfirewall ((firewall.update_id u).trans hid)
        (firewall.update_applicationId u), .inr ⟨_, rfl, .of_willSync rfl rfl⟩⟩

/-! ## Recorded bouncers -/

/-- **A bouncer of the application** that is recorded leaves a store that knows it. -/
theorem recordBouncer_spec {s : Orchestrator} (h : site.Knows s.store) (name key : String) :
    ∃ firewall store, s.recordBouncer site.firewall name key =
        (.ok firewall, ({ s with store }.announce (.firewallChanged site.firewall)).2) ∧
      site.Knows store := by
  obtain ⟨firewall, hfirewall⟩ := h.firewall
  have hid := h.numbered _ _ hfirewall
  simp only [Orchestrator.recordBouncer, Store.recordBouncer, Store.firewall, hfirewall, bind,
    Except.bind, Orchestrator.commit, pure, Except.pure]
  exact ⟨_, _, rfl, h.insertFirewall hfirewall hid rfl⟩

end Site

end Rampart
