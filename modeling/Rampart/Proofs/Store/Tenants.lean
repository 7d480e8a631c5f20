import Mathlib
import Rampart.Label
import Rampart.Proofs.Deployment.Request

/-!
# Applications do not get into each other's way

All applications share the numbers of rules, and whoever saves a rule may ask for one. What an
application's context holds is nevertheless changed by nobody else, as long as the numbers do not
run out.

* `Reached n last s`: states that applications, firewalls and rules lead to, where `n` saves were
  asked for and `last` tells through whom every number was saved last, and as what.
* `IsTidy`: what is true of such states. Every number that is taken is below the next new one, and
  every rule is the application's through which it was saved last.
* `IsTidy.save`, `IsTidy.erase`, `IsTidy.insertFirewall`, `IsTidy.register`: every step keeps it, and
  **`isTidy_of_reached`** from the beginning on.
* `SameFor`: nothing changes for an application; **`contextFor_carryOut`**: requests for others.
* **`tenants_apart`**: contexts and all that is made of them.
-/

namespace Rampart

/-! ## What saving does -/

namespace Store

/-- The firewall of a uuid. -/
theorem firewallFor_eq_ok_iff {s : Store} {uuid : String} {firewall : Firewall} :
    s.firewallFor uuid = .ok firewall ↔ ∃ id application number,
      s.byUuid.get? uuid = some id ∧ s.applications.get? id = some application ∧
      s.byApplication.get? application.id = some number ∧
      s.firewalls.get? number = some firewall := by
  unfold firewallFor application
  constructor
  · intro h
    obtain ⟨application, happlication, h⟩ := Except.bind_eq_ok_iff.mp h
    split at happlication
    · rename_i found hfound
      obtain ⟨id, hid, hget⟩ := Option.bind_eq_some_iff.mp hfound
      obtain rfl := Except.ok.inj happlication
      split at h
      · rename_i other hother
        obtain ⟨number, hnumber, hfirewall⟩ := Option.bind_eq_some_iff.mp hother
        obtain rfl := Except.ok.inj h
        exact ⟨id, found, number, hid, hget, hnumber, hfirewall⟩
      · cases h
    · cases happlication
  · rintro ⟨id, application, number, hid, hget, hnumber, hfirewall⟩
    simp only [hid, Option.bind_some, hget, hnumber, hfirewall, bind, Except.bind, pure,
      Except.pure]

/-- **The number that a rule gets**: the next new one; or its own, if no other firewall has a rule
of that number. -/
theorem assign_spec (s : Store) (uuid : String) (firewall : Firewall) (rule : Rule) :
    (∃ failure, s.assign uuid firewall rule = (.error failure, s)) ∨
      ∃ saved next, s.assign uuid firewall rule = (.ok saved, { s with nextRule := next }) ∧
        saved.firewallId = firewall.id ∧
        ((saved.id = s.nextRule ∧ next = s.nextRule + 1) ∨
          (saved.id = rule.id ∧ next = max s.nextRule (rule.id + 1) ∧
            ∀ existing, s.rules.get? rule.id = some existing →
              existing.firewallId = firewall.id)) := by
  unfold assign
  simp only
  split
  · exact .inr ⟨_, _, rfl, rfl, .inl ⟨rfl, rfl⟩⟩
  · split
    · rename_i existing hexisting
      split
      · exact .inl ⟨_, rfl⟩
      · rename_i htaken
        refine .inr ⟨_, _, rfl, rfl, .inr ⟨rfl, rfl, fun other hother => ?_⟩⟩
        rw [hexisting] at hother
        obtain rfl := Option.some.inj hother
        simpa using htaken
    · rename_i hnone
      refine .inr ⟨_, _, rfl, rfl, .inr ⟨rfl, rfl, fun other hother => ?_⟩⟩
      rw [hnone] at hother
      cases hother

/-- **What comes of saving a rule**: it is refused, and no more than a number is used; or it is
stored under its number. -/
theorem saveRule_spec {s store : Store} {settings : Settings.Scenarios} {uuid : String}
    {rule : Rule} {result : Except Failure Saved} {counter : Option Counter}
    (hsave : s.saveRule settings uuid rule = (result, counter, store)) :
    (∃ failure next, result = .error failure ∧ store = { s with nextRule := next } ∧
      (next = s.nextRule ∨ next = s.nextRule + 1 ∨ next = max s.nextRule (rule.id + 1))) ∨
    ∃ firewall saved event next, s.firewallFor uuid = .ok firewall ∧ result = .ok ⟨saved, event⟩ ∧
      store = { s with nextRule := next, rules := s.rules.insert saved.id saved } ∧
      saved.firewallId = firewall.id ∧
      ((saved.id = s.nextRule ∧ next = s.nextRule + 1) ∨
        (saved.id = rule.id ∧ next = max s.nextRule (rule.id + 1) ∧
          ∀ existing, s.rules.get? rule.id = some existing →
            existing.firewallId = firewall.id)) := by
  unfold saveRule at hsave
  split at hsave
  · cases hsave
    exact .inl ⟨_, s.nextRule, rfl, rfl, .inl rfl⟩
  · rename_i firewall hfirewall
    rcases assign_spec s uuid firewall rule with
      ⟨failure, hassign⟩ | ⟨saved, next, hassign, hf, hnumber⟩
    · rw [hassign] at hsave
      cases hsave
      exact .inl ⟨failure, s.nextRule, rfl, rfl, .inl rfl⟩
    · rw [hassign] at hsave
      simp only at hsave
      split at hsave
      · cases hsave
        refine .inl ⟨_, next, rfl, rfl, .inr ?_⟩
        exact hnumber.imp (fun h => h.2) fun h => h.2.1
      · cases hsave
        exact .inr ⟨firewall, saved, _, next, hfirewall, rfl, rfl, hf, hnumber⟩

/-- What is left when a rule has been deleted. -/
theorem deleteRule_spec {s store : Store} {uuid : String} {id : UInt64} {rule : Rule}
    {event : RuleEvent} (h : s.deleteRule uuid id = .ok (rule, event, store)) :
    ∃ firewall, s.firewallFor uuid = .ok firewall ∧ s.rules.get? id = some rule ∧
      rule.firewallId = firewall.id ∧ store = { s with rules := s.rules.erase id } := by
  obtain ⟨firewall, hfirewall, h⟩ := Except.bind_eq_ok_iff.mp h
  split at h
  · rename_i found hfound
    obtain ⟨hget, hf⟩ := Option.filter_eq_some_iff.mp hfound
    cases h
    exact ⟨firewall, hfirewall, hget, beq_iff_eq.mp hf, rfl⟩
  · cases h

theorem firewall_eq_ok_iff {s : Store} {number : UInt64} {firewall : Firewall} :
    s.firewall number = .ok firewall ↔ s.firewalls.get? number = some firewall := by
  unfold Store.firewall
  split <;> simp_all

/-- A firewall after an update takes the place of the one before. -/
theorem updateFirewall_spec {s store : Store} {uuid : String} {u : FirewallUpdate}
    {updated : Firewall} {event : RuleEvent}
    (h : s.updateFirewall uuid u = .ok (updated, event, store)) :
    ∃ firewall old, s.firewallFor uuid = .ok firewall ∧
      s.firewalls.get? firewall.id = some old ∧
      store = { s with firewalls := s.firewalls.insert firewall.id (old.update u) } := by
  obtain ⟨firewall, hfirewall, h⟩ := Except.bind_eq_ok_iff.mp h
  obtain ⟨old, hold, h⟩ := Except.bind_eq_ok_iff.mp h
  cases h
  exact ⟨firewall, old, hfirewall, firewall_eq_ok_iff.mp hold, rfl⟩

theorem recordBouncer_spec {s store : Store} {number : UInt64} {name key : String}
    {updated : Firewall} {event : RuleEvent}
    (h : s.recordBouncer number name key = .ok (updated, event, store)) :
    ∃ old, s.firewalls.get? number = some old ∧
      store = { s with
        firewalls := s.firewalls.insert number
          { old with apiKey := key, bouncerName := some name } } := by
  obtain ⟨old, hold, h⟩ := Except.bind_eq_ok_iff.mp h
  cases h
  exact ⟨old, firewall_eq_ok_iff.mp hold, rfl⟩

/-! ## Contexts -/

theorem contextOf_eq_of {s t : Store} {servers : Registry} {number : UInt64}
    (hfirewall : t.firewalls.get? number = s.firewalls.get? number)
    (happlications : t.applications = s.applications)
    (hrules : t.rulesOf number = s.rulesOf number) :
    t.contextOf servers number = s.contextOf servers number := by
  unfold contextOf firewall
  rw [hfirewall, happlications, hrules]

end Store

/-! ## The store behind the operations -/

namespace Orchestrator

theorem commit_store {α : Type} (s : Orchestrator)
    (change : Except Failure (α × RuleEvent × Store)) :
    (s.commit change).2.store = match change with
      | .ok (_, _, store) => store
      | .error _ => s.store := by
  unfold commit
  cases change <;> rfl

theorem commit_registry {α : Type} (s : Orchestrator)
    (change : Except Failure (α × RuleEvent × Store)) :
    (s.commit change).2.registry = s.registry ∧ (s.commit change).2.settings = s.settings := by
  unfold commit
  cases change <;> exact ⟨rfl, rfl⟩

theorem saveRule_store {s : Orchestrator} {uuid : String} {rule : Rule}
    {result : Except Failure Store.Saved} {counter : Option Counter} {store : Store}
    (h : s.store.saveRule s.settings.scenarios uuid rule = (result, counter, store)) :
    (s.saveRule uuid rule).1 = result.map (·.rule) ∧ (s.saveRule uuid rule).2.store = store ∧
      (s.saveRule uuid rule).2.registry = s.registry ∧
      (s.saveRule uuid rule).2.settings = s.settings := by
  unfold saveRule
  rw [h]
  cases result <;> cases counter <;> exact ⟨rfl, rfl, rfl, rfl⟩

end Orchestrator

namespace Tenants

open Execution (Request)

/-! ## States that requests lead to -/

/-- Through which application the rule of every number was saved last, and as what. -/
abbrev Log := UInt64 → Option (String × Rule)

/-- What came of a save is noted. -/
def Log.note (log : Log) (uuid : String) : Except Failure Rule → Log
  | .ok saved => Function.update log saved.id (some (uuid, saved))
  | .error _ => log

/-- The state after a request, whether it was successful or not. -/
def carryOut (s : Orchestrator) : Request → Orchestrator
  | .save uuid rule => (s.saveRule uuid rule).2
  | .delete uuid id => (s.deleteRule uuid id).2
  | .update uuid u => (s.updateFirewall uuid u).2

/-- **States that are reached** by applications that are taken in, each with numbers and a uuid of
its own, and by requests and bouncers for any of them, where whoever asks for a number of a rule
asks for one in the lower half. -/
inductive Reached : Nat → Log → Orchestrator → Prop
  | empty {s : Orchestrator} (hstore : s.store = {}) : Reached 0 (fun _ => none) s
  | register {n : Nat} {log : Log} {s : Orchestrator} (h : Reached n log s)
    {application : Application} {firewall : Firewall}
    (hid : s.store.applications.get? application.id = none)
    (huuid : s.store.byUuid.get? application.uuid = none)
    (hfirewall : s.store.firewalls.get? firewall.id = none) :
    Reached n log (s.register application firewall).2
  | save {n : Nat} {log : Log} {s : Orchestrator} (h : Reached n log s) (uuid : String)
    {rule : Rule} (hid : rule.id.toNat < 2 ^ 63) :
    Reached (n + 1) (log.note uuid (s.saveRule uuid rule).1) (s.saveRule uuid rule).2
  | delete {n : Nat} {log : Log} {s : Orchestrator} (h : Reached n log s) (uuid : String)
    (id : UInt64) : Reached n log (s.deleteRule uuid id).2
  | update {n : Nat} {log : Log} {s : Orchestrator} (h : Reached n log s) (uuid : String)
    (u : FirewallUpdate) : Reached n log (s.updateFirewall uuid u).2
  | recordBouncer {n : Nat} {log : Log} {s : Orchestrator} (h : Reached n log s) (number : UInt64)
    (name key : String) : Reached n log (s.recordBouncer number name key).2
  /-- Whatever else happens leaves the store as it is. -/
  | meanwhile {n : Nat} {log : Log} {s t : Orchestrator} (h : Reached n log s)
    (hstore : t.store = s.store) : Reached n log t

/-- **What is true of such states.** -/
structure IsTidy (n : Nat) (log : Log) (s : Store) : Prop where
  rulesOnce : s.rules.keys.Nodup
  numbered : ∀ id application, s.applications.get? id = some application → application.id = id
  named : ∀ uuid id, s.byUuid.get? uuid = some id →
    ∃ application, s.applications.get? id = some application ∧ application.uuid = uuid
  firewalls : ∀ id firewall, s.firewalls.get? id = some firewall → firewall.id = id
  owned : ∀ id number, s.byApplication.get? id = some number →
    ∃ firewall, s.firewalls.get? number = some firewall ∧ firewall.applicationId = id
  /-- A rule is the application's through which it was saved last. -/
  saved : ∀ id rule, s.rules.get? id = some rule → ∃ uuid firewall, rule.id = id ∧
    log id = some (uuid, rule) ∧ s.firewallFor uuid = .ok firewall ∧ rule.firewallId = firewall.id
  below : ∀ id rule, s.rules.get? id = some rule → id < s.nextRule
  counted : s.nextRule.toNat ≤ 2 ^ 63 + n

variable {n : Nat} {log : Log} {s t : Store}

namespace IsTidy

/-- **A firewall is of one application.** -/
theorem uuid_inj (h : IsTidy n log s) {uuid other : String} {firewall another : Firewall}
    (hfirewall : s.firewallFor uuid = .ok firewall) (hanother : s.firewallFor other = .ok another)
    (hid : firewall.id = another.id) : uuid = other := by
  obtain ⟨id, application, number, huuid, happlication, hnumber, hget⟩ :=
    Store.firewallFor_eq_ok_iff.mp hfirewall
  obtain ⟨id', application', number', huuid', happlication', hnumber', hget'⟩ :=
    Store.firewallFor_eq_ok_iff.mp hanother
  have hsame : number = number' :=
    (h.firewalls _ _ hget).symm.trans (hid.trans (h.firewalls _ _ hget'))
  obtain ⟨found, hfound, howner⟩ := h.owned _ _ hnumber
  obtain ⟨found', hfound', howner'⟩ := h.owned _ _ hnumber'
  rw [← hsame, hfound] at hfound'
  obtain rfl := Option.some.inj hfound'
  have hids : id = id' := by
    rw [← h.numbered _ _ happlication, ← h.numbered _ _ happlication', ← howner, ← howner']
  obtain ⟨mine, hmine, rfl⟩ := h.named _ _ huuid
  obtain ⟨other, hother, rfl⟩ := h.named _ _ huuid'
  rw [hids, hother] at hmine
  rw [Option.some.inj hmine]

/-! ## Saving and deleting -/

theorem empty : IsTidy 0 (fun _ => none) {} where
  rulesOnce := List.nodup_nil
  numbered := nofun
  named := nofun
  firewalls := nofun
  owned := nofun
  saved := nofun
  below := nofun
  counted := by decide

/-- A number that a refused save has used. -/
theorem skip (h : IsTidy n log s) {next : UInt64} (hle : s.nextRule ≤ next)
    (hcounted : next.toNat ≤ 2 ^ 63 + (n + 1)) :
    IsTidy (n + 1) log { s with nextRule := next } :=
  ⟨h.rulesOnce, h.numbered, h.named, h.firewalls, h.owned, h.saved,
    fun id rule hrule => UInt64.lt_of_lt_of_le (h.below id rule hrule) hle, hcounted⟩

/-- A rule is stored under its number. -/
theorem insert (h : IsTidy n log s) {uuid : String} {firewall : Firewall}
    (hfirewall : s.firewallFor uuid = .ok firewall) {rule : Rule}
    (hrule : rule.firewallId = firewall.id) {next : UInt64} (hle : s.nextRule ≤ next)
    (hlt : rule.id < next) (hcounted : next.toNat ≤ 2 ^ 63 + (n + 1)) :
    IsTidy (n + 1) (Function.update log rule.id (some (uuid, rule)))
      { s with nextRule := next, rules := s.rules.insert rule.id rule } := by
  refine ⟨Table.nodup_keys_insert h.rulesOnce _ _, h.numbered, h.named, h.firewalls, h.owned,
    fun id other hget => ?_, fun id other hget => ?_, hcounted⟩
  · rw [Table.get?_insert] at hget
    split at hget
    · rename_i hid
      obtain rfl := Option.some.inj hget
      subst hid
      exact ⟨uuid, firewall, rfl, Function.update_self .., hfirewall, hrule⟩
    · rename_i hid
      obtain ⟨owner, mine, hnumber, hlog, hmine, hf⟩ := h.saved id other hget
      exact ⟨owner, mine, hnumber, (Function.update_of_ne hid ..).trans hlog, hmine, hf⟩
  · rw [Table.get?_insert] at hget
    split at hget
    · rename_i hid
      exact hid ▸ hlt
    · exact UInt64.lt_of_lt_of_le (h.below id other hget) hle

theorem erase (h : IsTidy n log s) (id : UInt64) :
    IsTidy n log { s with rules := s.rules.erase id } := by
  have hkept : ∀ key rule, (s.rules.erase id).get? key = some rule →
      s.rules.get? key = some rule := by
    intro key rule hget
    rw [Table.get?_erase] at hget
    split at hget
    · cases hget
    · exact hget
  exact ⟨Table.nodup_keys_erase h.rulesOnce _, h.numbered, h.named, h.firewalls, h.owned,
    fun key rule hget => h.saved key rule (hkept key rule hget),
    fun key rule hget => h.below key rule (hkept key rule hget), h.counted⟩

/-! ## Firewalls -/

/-- Changes after which every application has the firewall of the same number. -/
theorem of_lookups (h : IsTidy n log s) (hrules : t.rules = s.rules)
    (hnext : t.nextRule = s.nextRule)
    (hnumbered : ∀ id application, t.applications.get? id = some application →
      application.id = id)
    (hnamed : ∀ uuid id, t.byUuid.get? uuid = some id →
      ∃ application, t.applications.get? id = some application ∧ application.uuid = uuid)
    (hfirewalls : ∀ id firewall, t.firewalls.get? id = some firewall → firewall.id = id)
    (howned : ∀ id number, t.byApplication.get? id = some number →
      ∃ firewall, t.firewalls.get? number = some firewall ∧ firewall.applicationId = id)
    (hfor : ∀ uuid firewall, s.firewallFor uuid = .ok firewall →
      ∃ after, t.firewallFor uuid = .ok after ∧ after.id = firewall.id) :
    IsTidy n log t := by
  refine ⟨hrules ▸ h.rulesOnce, hnumbered, hnamed, hfirewalls, howned, fun id rule hget => ?_,
    fun id rule hget => hnext ▸ h.below id rule (hrules ▸ hget), hnext ▸ h.counted⟩
  obtain ⟨uuid, firewall, hid, hlog, hfirewall, hf⟩ := h.saved id rule (hrules ▸ hget)
  obtain ⟨after, hafter, hsame⟩ := hfor uuid firewall hfirewall
  exact ⟨uuid, after, hid, hlog, hafter, hf.trans hsame.symm⟩

/-- What a changed firewall is for the application that has it. -/
theorem firewallFor_insert (h : IsTidy n log s) {number : UInt64} {firewall : Firewall}
    (hid : firewall.id = number) {uuid : String} {before : Firewall}
    (hbefore : s.firewallFor uuid = .ok before) :
    ∃ after, Store.firewallFor { s with firewalls := s.firewalls.insert number firewall } uuid =
      .ok after ∧ after.id = before.id ∧ (before.id ≠ number → after = before) := by
  obtain ⟨id, application, own, huuid, happlication, hown, hget⟩ :=
    Store.firewallFor_eq_ok_iff.mp hbefore
  have hbeforeId := h.firewalls _ _ hget
  by_cases hnumber : own = number
  · refine ⟨firewall, Store.firewallFor_eq_ok_iff.mpr ⟨id, application, own, huuid, happlication,
      hown, ?_⟩, ?_, fun hne => absurd (hbeforeId.trans hnumber) hne⟩
    · rw [Table.get?_insert, if_pos hnumber]
    · rw [hid, hbeforeId, hnumber]
  · refine ⟨before, Store.firewallFor_eq_ok_iff.mpr ⟨id, application, own, huuid, happlication,
      hown, ?_⟩, rfl, fun _ => rfl⟩
    rw [Table.get?_insert, if_neg hnumber, hget]

/-- A firewall may be changed as long as it keeps its number and its owner. -/
theorem insertFirewall (h : IsTidy n log s) {number : UInt64} {old firewall : Firewall}
    (hold : s.firewalls.get? number = some old) (hid : firewall.id = old.id)
    (howner : firewall.applicationId = old.applicationId) :
    IsTidy n log { s with firewalls := s.firewalls.insert number firewall } := by
  have hnumber : firewall.id = number := hid.trans (h.firewalls _ _ hold)
  refine h.of_lookups rfl rfl h.numbered h.named (fun id other hget => ?_) (fun id own hown => ?_)
    fun uuid before hbefore => ?_
  · rw [Table.get?_insert] at hget
    split at hget
    · rename_i heq
      rw [← Option.some.inj hget, hnumber, heq]
    · exact h.firewalls id other hget
  · obtain ⟨found, hfound, hfoundOwner⟩ := h.owned id own hown
    by_cases heq : own = number
    · refine ⟨firewall, by rw [Table.get?_insert, if_pos heq], ?_⟩
      rw [heq, hold] at hfound
      rw [howner, Option.some.inj hfound, hfoundOwner]
    · exact ⟨found, by rw [Table.get?_insert, if_neg heq, hfound], hfoundOwner⟩
  · obtain ⟨after, hafter, hsame, _⟩ := h.firewallFor_insert hnumber hbefore
    exact ⟨after, hafter, hsame⟩

/-- An application with its firewall is taken in. -/
theorem register (h : IsTidy n log s) {application : Application} {firewall : Firewall}
    (hid : s.applications.get? application.id = none)
    (huuid : s.byUuid.get? application.uuid = none)
    (hfirewall : s.firewalls.get? firewall.id = none)
    (hregister : s.register application firewall = .ok t) : IsTidy n log t := by
  obtain ⟨_, _, hregister⟩ := Except.bind_eq_ok_iff.mp hregister
  obtain rfl := Except.ok.inj hregister
  refine h.of_lookups rfl rfl (fun id other hget => ?_) (fun uuid id hget => ?_)
    (fun id other hget => ?_) (fun id number hget => ?_) fun uuid mine hmine => ?_
  · rw [Table.get?_insert] at hget
    split at hget
    · rename_i heq
      rw [← Option.some.inj hget, heq]
    · exact h.numbered id other hget
  · rw [Table.get?_insert] at hget
    split at hget
    · rename_i heq
      obtain rfl := Option.some.inj hget
      exact ⟨application, by rw [Table.get?_insert, if_pos rfl], heq.symm⟩
    · obtain ⟨other, hother, hname⟩ := h.named uuid id hget
      refine ⟨other, ?_, hname⟩
      rw [Table.get?_insert, if_neg fun heq => ?_, hother]
      rw [heq, hid] at hother
      cases hother
  · rw [Table.get?_insert] at hget
    split at hget
    · rename_i heq
      rw [← Option.some.inj hget, heq]
    · exact h.firewalls id other hget
  · rw [Table.get?_insert] at hget
    split at hget
    · rename_i heq
      obtain rfl := Option.some.inj hget
      exact ⟨_, by rw [Table.get?_insert, if_pos rfl], heq.symm⟩
    · obtain ⟨other, hother, howner⟩ := h.owned id number hget
      refine ⟨other, ?_, howner⟩
      rw [Table.get?_insert, if_neg fun heq => ?_, hother]
      rw [heq, hfirewall] at hother
      cases hother
  · obtain ⟨id, other, number, hname, hother, hnumber, hget⟩ :=
      Store.firewallFor_eq_ok_iff.mp hmine
    have hotherId := h.numbered _ _ hother
    refine ⟨mine, Store.firewallFor_eq_ok_iff.mpr ⟨id, other, number, ?_, ?_, ?_, ?_⟩, rfl⟩
    · rw [Table.get?_insert, if_neg fun heq => ?_, hname]
      rw [heq, huuid] at hname
      cases hname
    · rw [Table.get?_insert, if_neg fun heq => ?_, hother]
      rw [heq, hid] at hother
      cases hother
    · rw [Table.get?_insert, if_neg fun heq => ?_, hnumber]
      rw [← hotherId, heq, hid] at hother
      cases hother
    · rw [Table.get?_insert, if_neg fun heq => ?_, hget]
      rw [heq, hfirewall] at hget
      cases hget

end IsTidy

/-! ## Every step -/

/-- The counter does not run out within the lower half of saves. -/
theorem toNat_succ {next : UInt64} (h : next.toNat ≤ 2 ^ 63 + n) (hn : n + 1 < 2 ^ 63) :
    (next + 1).toNat = next.toNat + 1 := by
  rw [UInt64.toNat_add]
  exact Nat.mod_eq_of_lt (by simp; omega)

theorem toNat_max (a b : UInt64) : (max a b).toNat = max a.toNat b.toNat := by
  change (if a ≤ b then b else a).toNat = _
  simp only [UInt64.le_iff_toNat_le]
  split <;> omega

/-- **One save**: what is noted is what is stored. -/
theorem IsTidy.save (h : IsTidy n log s) (hn : n + 1 < 2 ^ 63) {settings : Settings.Scenarios}
    {uuid : String} {rule : Rule} (hid : rule.id.toNat < 2 ^ 63)
    {result : Except Failure Store.Saved} {counter : Option Counter}
    (hsave : s.saveRule settings uuid rule = (result, counter, t)) :
    IsTidy (n + 1) (log.note uuid (result.map (·.rule))) t := by
  have hown : (rule.id + 1).toNat = rule.id.toNat + 1 := by
    rw [UInt64.toNat_add]
    exact Nat.mod_eq_of_lt (by simp; omega)
  have hnew := toNat_succ h.counted hn
  have hcounted := h.counted
  have hfirst : s.nextRule ≤ s.nextRule + 1 := by
    rw [UInt64.le_iff_toNat_le, hnew]
    exact Nat.le_succ _
  have hmax := toNat_max s.nextRule (rule.id + 1)
  have hleft : s.nextRule ≤ max s.nextRule (rule.id + 1) := by
    rw [UInt64.le_iff_toNat_le, hmax]
    exact Nat.le_max_left _ _
  rcases Store.saveRule_spec hsave with ⟨failure, next, rfl, rfl, hnext⟩ |
    ⟨firewall, saved, event, next, hfirewall, rfl, rfl, hf, hnumber⟩
  · rcases hnext with rfl | rfl | rfl
    · exact h.skip UInt64.le_rfl (by omega)
    · exact h.skip hfirst (by omega)
    · exact h.skip hleft (by omega)
  · rcases hnumber with ⟨hsaved, rfl⟩ | ⟨hsaved, rfl, _⟩
    · refine h.insert hfirewall hf hfirst ?_ (by omega)
      rw [hsaved, UInt64.lt_iff_toNat_lt, hnew]
      exact Nat.lt_succ_self _
    · refine h.insert hfirewall hf hleft ?_ (by omega)
      rw [hsaved, UInt64.lt_iff_toNat_lt]
      omega

/-- **What holds of every state that is reached.** -/
theorem isTidy_of_reached {s : Orchestrator} (h : Reached n log s) (hn : n < 2 ^ 63) :
    IsTidy n log s.store := by
  induction h with
  | empty hstore => exact hstore ▸ .empty
  | @register _ _ s _ application firewall hid huuid hfirewall ih =>
    unfold Orchestrator.register
    cases hregister : s.store.register application firewall with
    | error failure => exact ih hn
    | ok store => exact (ih hn).register hid huuid hfirewall hregister
  | @save _ _ s _ uuid rule hid ih =>
    rcases hsave : s.store.saveRule s.settings.scenarios uuid rule with ⟨result, counter, store⟩
    have hstore := s.saveRule_store hsave
    rw [hstore.1, hstore.2.1]
    exact (ih (Nat.lt_of_succ_lt hn)).save hn hid hsave
  | @delete _ _ s _ uuid id ih =>
    rw [Orchestrator.deleteRule, Orchestrator.commit_store]
    cases hdelete : s.store.deleteRule uuid id with
    | error failure => exact ih hn
    | ok deleted =>
      obtain ⟨rule, event, store⟩ := deleted
      obtain ⟨_, _, _, _, rfl⟩ := Store.deleteRule_spec hdelete
      exact (ih hn).erase id
  | @update _ _ s _ uuid u ih =>
    rw [Orchestrator.updateFirewall, Orchestrator.commit_store]
    cases hupdate : s.store.updateFirewall uuid u with
    | error failure => exact ih hn
    | ok updated =>
      obtain ⟨after, event, store⟩ := updated
      obtain ⟨firewall, old, _, hold, rfl⟩ := Store.updateFirewall_spec hupdate
      exact (ih hn).insertFirewall hold (old.update_id u) (old.update_applicationId u)
  | @recordBouncer _ _ s _ number name key ih =>
    rw [Orchestrator.recordBouncer, Orchestrator.commit_store]
    cases hrecord : s.store.recordBouncer number name key with
    | error failure => exact ih hn
    | ok recorded =>
      obtain ⟨after, event, store⟩ := recorded
      obtain ⟨old, hold, rfl⟩ := Store.recordBouncer_spec hrecord
      exact (ih hn).insertFirewall hold rfl rfl
  | meanwhile _ hstore ih => exact hstore ▸ ih hn

/-! ## What requests leave alone -/

/-- Nothing changes for an application. -/
def SameFor (uuid : String) (s t : Store) : Prop :=
  ∀ servers, t.contextFor servers uuid = s.contextFor servers uuid

theorem sameFor_of {uuid : String} (hfirewall : t.firewallFor uuid = s.firewallFor uuid)
    (h : ∀ firewall, s.firewallFor uuid = .ok firewall →
      t.firewalls.get? firewall.id = s.firewalls.get? firewall.id ∧
        t.applications = s.applications ∧ t.rulesOf firewall.id = s.rulesOf firewall.id) :
    SameFor uuid s t := by
  intro servers
  unfold Store.contextFor
  rw [hfirewall]
  cases hmine : s.firewallFor uuid with
  | error failure => rfl
  | ok firewall =>
    obtain ⟨hget, happlications, hrules⟩ := h firewall hmine
    exact Store.contextOf_eq_of hget happlications hrules

variable {settings : Settings.Scenarios} {uuid other : String}

/-- A rule that is saved for an application does not take the place of another one's. -/
theorem IsTidy.sameFor_save (h : IsTidy n log s) (hother : other ≠ uuid) {rule : Rule}
    {result : Except Failure Store.Saved} {counter : Option Counter}
    (hsave : s.saveRule settings uuid rule = (result, counter, t)) : SameFor other s t := by
  rcases Store.saveRule_spec hsave with ⟨_, next, _, rfl, _⟩ |
    ⟨firewall, saved, _, next, hfirewall, _, rfl, hf, hnumber⟩
  · exact fun servers => rfl
  · refine sameFor_of rfl fun another hanother => ⟨rfl, rfl, ?_⟩
    have hapart : firewall.id ≠ another.id := fun heq =>
      hother (h.uuid_inj hfirewall hanother heq).symm
    refine congrArg (List.mergeSort · _) (Table.filter_values_insert h.rulesOnce ?_ ?_)
    · intro old hold
      rcases hnumber with ⟨hnew, _⟩ | ⟨hown, _, hexisting⟩
      · -- A new number is not taken.
        have hlt := h.below _ old hold
        rw [hnew] at hlt
        exact absurd hlt (UInt64.lt_irrefl _)
      · rw [hexisting old (hown ▸ hold)]
        exact beq_eq_false_iff_ne.mpr hapart
    · rw [hf]
      exact beq_eq_false_iff_ne.mpr hapart

theorem IsTidy.sameFor_delete (h : IsTidy n log s) (hother : other ≠ uuid) {id : UInt64}
    {rule : Rule} {event : RuleEvent} (hdelete : s.deleteRule uuid id = .ok (rule, event, t)) :
    SameFor other s t := by
  obtain ⟨firewall, hfirewall, hget, hf, rfl⟩ := Store.deleteRule_spec hdelete
  refine sameFor_of rfl fun another hanother => ⟨rfl, rfl, ?_⟩
  refine congrArg (List.mergeSort · _) (Table.filter_values_erase h.rulesOnce ?_)
  intro old hold
  rw [hget] at hold
  rw [← Option.some.inj hold, hf]
  exact beq_eq_false_iff_ne.mpr fun heq => hother (h.uuid_inj hfirewall hanother heq).symm

theorem IsTidy.sameFor_update (h : IsTidy n log s) (hother : other ≠ uuid) {u : FirewallUpdate}
    {updated : Firewall} {event : RuleEvent}
    (hupdate : s.updateFirewall uuid u = .ok (updated, event, t)) : SameFor other s t := by
  obtain ⟨firewall, old, hfirewall, hold, rfl⟩ := Store.updateFirewall_spec hupdate
  -- The firewall that is changed is not the other application's.
  have hapart : ∀ id application number, s.byUuid.get? other = some id →
      s.applications.get? id = some application →
      s.byApplication.get? application.id = some number → number ≠ firewall.id := by
    rintro id application number hid happlication hnumber rfl
    have hsame := Store.firewallFor_eq_ok_iff.mpr ⟨id, application, _, hid, happlication, hnumber,
      hold⟩
    exact hother (h.uuid_inj hfirewall hsame (h.firewalls _ _ hold).symm).symm
  refine sameFor_of ?_ fun another hanother => ⟨?_, rfl, rfl⟩
  · unfold Store.firewallFor Store.application
    cases hid : s.byUuid.get? other with
    | none => rfl
    | some id =>
      simp only [Option.bind_some]
      cases happlication : s.applications.get? id with
      | none => rfl
      | some application =>
        simp only [bind, Except.bind]
        cases hnumber : s.byApplication.get? application.id with
        | none => rfl
        | some number =>
          simp only [Option.bind_some]
          rw [Table.get?_insert, if_neg (hapart id application number hid happlication hnumber)]
  · rw [Table.get?_insert, if_neg fun heq => ?_]
    exact hother (h.uuid_inj hfirewall hanother heq.symm).symm

/-- **Requests for others** change nothing for an application, successful or not. -/
theorem contextFor_carryOut {s : Orchestrator} (h : IsTidy n log s.store) {r : Request}
    (hother : other ≠ r.uuid) :
    (carryOut s r).contextFor other = s.contextFor other ∧
      (carryOut s r).settings = s.settings := by
  cases r with
  | save uuid rule =>
    rcases hsave : s.store.saveRule s.settings.scenarios uuid rule with ⟨result, counter, store⟩
    obtain ⟨_, hstore, hregistry, hsettings⟩ := s.saveRule_store hsave
    refine ⟨?_, hsettings⟩
    unfold carryOut Orchestrator.contextFor
    rw [hstore, hregistry]
    exact h.sameFor_save hother hsave _
  | delete uuid id =>
    obtain ⟨hregistry, hsettings⟩ := s.commit_registry (s.store.deleteRule uuid id)
    refine ⟨?_, hsettings⟩
    unfold carryOut Orchestrator.contextFor Orchestrator.deleteRule
    rw [hregistry, Orchestrator.commit_store]
    cases hdelete : s.store.deleteRule uuid id with
    | error failure => rfl
    | ok deleted => exact h.sameFor_delete hother hdelete _
  | update uuid u =>
    obtain ⟨hregistry, hsettings⟩ := s.commit_registry (s.store.updateFirewall uuid u)
    refine ⟨?_, hsettings⟩
    unfold carryOut Orchestrator.contextFor Orchestrator.updateFirewall
    rw [hregistry, Orchestrator.commit_store]
    cases hupdate : s.store.updateFirewall uuid u with
    | error failure => rfl
    | ok updated => exact h.sameFor_update hother hupdate _

/-- **The rules of an application were saved through it.** -/
theorem IsTidy.log_of_mem_rules (h : IsTidy n log s) {servers : Registry} {context : Context}
    (hcontext : s.contextFor servers uuid = .ok context) {rule : Rule}
    (hrule : rule ∈ context.rules) : log rule.id = some (uuid, rule) := by
  obtain ⟨firewall, hfirewall, hcontext⟩ := Except.bind_eq_ok_iff.mp hcontext
  obtain ⟨found, hfound, hcontext⟩ := Except.bind_eq_ok_iff.mp hcontext
  split at hcontext
  · cases hcontext
  · obtain ⟨server, _, hcontext⟩ := Except.bind_eq_ok_iff.mp hcontext
    obtain rfl := Except.ok.inj hcontext
    have hmem : rule ∈ s.rulesOf firewall.id := List.mem_mergeSort.mp hrule
    obtain ⟨id, hget, hf⟩ := (Site.mem_rulesOf h.rulesOnce).mp hmem
    obtain ⟨owner, mine, rfl, hlog, hmine, hown⟩ := h.saved id rule hget
    rw [hlog, h.uuid_inj hmine hfirewall (hown.symm.trans hf)]

/-! ## What is made of contexts -/

/-- What an application's context becomes: files of scenarios, decisions of bans, and labels. -/
structure Products where
  files : Except RuleFault (List ScenarioFile)
  decisions : List (Except RuleFault (List Decision))
  labels : LabelSet

/-- What is made of a context. -/
def productsOf (settings : Settings) (c : Context) : Products where
  files := c.files settings.scenarios
  decisions := c.banRules.map (c.decisions settings.scenarios)
  labels := LabelMaker.labels ⟨settings.bouncer, settings.engine⟩
    ⟨c.uuid, c.firewall, c.server.status.appsecAvailable, c.hasPathOnlyRule⟩

/-- **Applications do not get into each other's way.** In every state that is reached with fewer
saves than there are numbers in the lower half, a request for one application, whatever number it
asks for and however it ends, changes nothing of the context of any other, nor what is made of it;
and every rule in the context of an application was last saved through it. -/
theorem tenants_apart {s : Orchestrator} (h : Reached n log s) (hn : n < 2 ^ 63) (r : Request) :
    (∀ other, other ≠ r.uuid →
      (carryOut s r).contextFor other = s.contextFor other ∧
      ((carryOut s r).contextFor other).map (productsOf (carryOut s r).settings) =
        (s.contextFor other).map (productsOf s.settings)) ∧
    ∀ uuid context, s.contextFor uuid = .ok context →
      ∀ rule ∈ context.rules, log rule.id = some (uuid, rule) := by
  have htidy := isTidy_of_reached h hn
  refine ⟨fun other hother => ?_, fun uuid context hcontext rule hrule =>
    htidy.log_of_mem_rules hcontext hrule⟩
  obtain ⟨hcontext, hsettings⟩ := contextFor_carryOut htidy hother
  exact ⟨hcontext, by rw [hcontext, hsettings]⟩

/-! ## Two applications -/

namespace Demo

/-- A server, and nothing else. -/
def bare : Orchestrator where
  registry := ⟨[{ id := 1, name := "one", host := "one.test" }]⟩

/-- Two applications on the server. -/
def pair : Orchestrator :=
  let shop := bare.register { id := 1, uuid := "abc", name := "shop", serverId := 1 }
    { id := 1, enabled := true }
  (shop.2.register { id := 2, uuid := "abcd", name := "blog", serverId := 1 }
    { id := 2, enabled := true }).2

/-- A rule that asks for a number. -/
def rule : Rule where
  id := 7
  name := "x"
  mode := .inband
  action := .ban
  conditions := [{ field := "host", operator := "equals", value := "v" }]

theorem reached :
    Reached 1 (Log.note (fun _ => none) "abc" (pair.saveRule "abc" rule).1)
      (pair.saveRule "abc" rule).2 :=
  .save (.register (.register (.empty rfl) rfl rfl rfl) rfl rfl rfl) "abc" (by decide)

end Demo

/-- A second application asks for the number of the first one's rule. -/
theorem tenants_apart_taken_number :
    ((Reached 1 (Log.note (fun _ => none) "abc" (Demo.pair.saveRule "abc" Demo.rule).1)
        (Demo.pair.saveRule "abc" Demo.rule).2 ∧ 1 < 2 ^ 63) ∧
      ((Demo.pair.saveRule "abc" Demo.rule).2.contextFor "abc").map (fun c => c.rules.map (·.id)) =
        .ok [7]) ∧
    (carryOut (Demo.pair.saveRule "abc" Demo.rule).2 (.save "abcd" Demo.rule)).contextFor "abc" =
      (Demo.pair.saveRule "abc" Demo.rule).2.contextFor "abc" :=
  ⟨⟨⟨Demo.reached, by decide⟩, by cbv⟩,
    ((tenants_apart Demo.reached (by decide) (.save "abcd" Demo.rule)).1 "abc" (by decide)).1⟩

end Tenants

end Rampart
