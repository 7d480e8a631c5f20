import Rampart.Proofs.Decision.Collection
import Rampart.Proofs.Deployment.Planning
import Rampart.Proofs.Scenario.Ownership

/-!
# The bans of an application

Which decisions the rules in a store call for. An engine tells them from those of other rules and
other applications by their reasons.

* `Site.bans`, `Site.wanted`: the decisions of a rule, and of the rule of a number if it is in force.
* `reason_of_mem_wanted`: all of them have the reason of the rule's number.
* **`mem_wanted_iff`**: what is wanted are the decisions of the rules that a context has for bans.
-/

namespace Rampart

/-! ## Decisions of rules -/

/-- Every decision of a rule has the reason of its number. -/
theorem reason_of_decisionsOf {ns uuid : String} {rule : Rule} {duration : UInt64}
    {ds : List Decision} (h : decisionsOf ns uuid rule duration = .ok ds) :
    ∀ d ∈ ds, d.reason = banReason ns uuid rule.id := by
  intro d hd
  rw [eq_of_mem_decisionsOf h hd]

namespace Site

/-- The decisions of a rule under a firewall; a rule that does not compile has none. -/
def bans (site : Site) (firewall : Firewall) (rule : Rule) : List Decision :=
  match decisionsOf site.settings.scenarios.ns site.uuid rule (rule.durationIn firewall) with
  | .ok ds => ds
  | .error _ => []

/-- The rule of a number, if it is in force as a ban of the application. -/
def banRule? (site : Site) (s : Store) (id : UInt64) : Option Rule :=
  (s.rules.get? id).filter fun rule =>
    rule.firewallId == site.firewall && (rule.isBan && rule.enabled)

/-- The decisions that the rule of a number calls for. -/
def wanted (site : Site) (firewall : Firewall) (s : Store) (id : UInt64) : List Decision :=
  match site.banRule? s id with
  | some rule => site.bans firewall rule
  | none => []

/-- The reason of the decisions of a number. -/
def reason (site : Site) (id : UInt64) : String :=
  banReason site.settings.scenarios.ns site.uuid id

variable {site : Site}

theorem banRule?_eq_some_iff {s : Store} {id : UInt64} {rule : Rule} :
    site.banRule? s id = some rule ↔
      s.rules.get? id = some rule ∧ rule.firewallId = site.firewall ∧ rule.isBan = true ∧
        rule.enabled = true := by
  unfold banRule?
  rw [Option.filter_eq_some_iff, Bool.and_eq_true, Bool.and_eq_true, beq_iff_eq]

theorem reason_of_mem_bans {firewall : Firewall} {rule : Rule} {d : Decision}
    (h : d ∈ site.bans firewall rule) : d.reason = site.reason rule.id := by
  unfold bans at h
  split at h
  · rename_i ds hds
    exact reason_of_decisionsOf hds d h
  · cases h

/-- The decisions of a rule in a context of the application. -/
theorem decisions_eq (h : isUuid site.uuid = true) (firewall : Firewall) (rules : List Rule)
    (rule : Rule) :
    (Context.of site.application firewall rules site.server).decisions site.settings.scenarios
        rule =
      decisionsOf site.settings.scenarios.ns site.uuid rule (rule.durationIn firewall) := by
  have hcheck : checkUuid site.uuid = .ok () := by
    rw [checkUuid, if_pos h]
  have huuid : (Context.of site.application firewall rules site.server).uuid = site.uuid := rfl
  rw [Context.decisions, huuid, hcheck]
  rfl

theorem bansOf_eq {s : Orchestrator} (h : s.KnowsSite site) (firewall : Firewall)
    (rules : List Rule) (rule : Rule) :
    s.bansOf (Context.of site.application firewall rules site.server) rule =
      site.bans firewall rule := by
  cases hds : decisionsOf site.settings.scenarios.ns site.uuid rule (rule.durationIn firewall) <;>
    simp [Orchestrator.bansOf, bans, h.settings, decisions_eq h.store.isUuid, hds]

/-- **What is wanted** are the decisions of the rules that a context of the application has for
bans. -/
theorem mem_wanted_iff {s : Store} (h : site.Knows s) {firewall : Firewall} {d : Decision} :
    (∃ id, d ∈ site.wanted firewall s id) ↔
      ∃ rule ∈ (Context.of site.application firewall (s.rulesOf site.firewall)
          site.server).banRules,
        ∃ ds, (Context.of site.application firewall (s.rulesOf site.firewall)
          site.server).decisions site.settings.scenarios rule = .ok ds ∧ d ∈ ds := by
  constructor
  · rintro ⟨id, hd⟩
    unfold wanted at hd
    split at hd
    · rename_i rule hrule
      obtain ⟨hget, hf, hban, henabled⟩ := banRule?_eq_some_iff.mp hrule
      refine ⟨rule, ?_, ?_⟩
      · refine List.mem_filter.mpr ⟨(mem_context_rules h.rules).mpr ⟨id, hget, hf⟩, ?_⟩
        rw [henabled, hban]
        rfl
      · unfold bans at hd
        split at hd
        · rename_i ds hds
          exact ⟨ds, (decisions_eq h.isUuid _ _ _).trans hds, hd⟩
        · cases hd
    · cases hd
  · rintro ⟨rule, hrule, ds, hds, hd⟩
    obtain ⟨hmem, hforce⟩ := List.mem_filter.mp hrule
    obtain ⟨henabled, hban⟩ := Bool.and_eq_true_iff.mp hforce
    obtain ⟨id, hget, hf⟩ := (mem_context_rules h.rules).mp hmem
    rw [decisions_eq h.isUuid] at hds
    refine ⟨id, ?_⟩
    rw [wanted, banRule?_eq_some_iff.mpr ⟨hget, hf, hban, henabled⟩]
    simp only [bans, hds]
    exact hd

/-- Rules under their own numbers: every wanted decision has the reason of its number. -/
theorem reason_of_mem_wanted {s : Store} (h : site.Knows s) {firewall : Firewall} {id : UInt64}
    {d : Decision} (hd : d ∈ site.wanted firewall s id) : d.reason = site.reason id := by
  unfold wanted at hd
  split at hd
  · rename_i rule hrule
    obtain ⟨hget, hf, _⟩ := banRule?_eq_some_iff.mp hrule
    rw [reason_of_mem_bans hd, (h.compiled id rule hget hf).1]
  · cases hd

end Site

end Rampart
