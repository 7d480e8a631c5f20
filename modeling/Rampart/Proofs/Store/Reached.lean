import Rampart.Proofs.Store.Compilable

/-!
# Reached states

States of the orchestrator whose store is what operations have made of an empty one. All that
changes the store keeps them such states, whatever else it does.
-/

namespace Rampart

/-- An operation keeps every firewall once. -/
theorem Store.Outcome.nodup_firewalls {settings : Settings.Scenarios} {s t : Store}
    {operation : Operation} (h : s.Outcome settings operation t)
    (hs : s.firewalls.keys.Nodup) : t.firewalls.keys.Nodup := by
  cases h with
  | refused | numbered | deleted => exact hs
  | registered hregister =>
    obtain ⟨_, _, hregister⟩ := Except.bind_eq_ok_iff.mp hregister
    rw [← Except.ok.inj hregister]
    exact Table.nodup_keys_insert hs _ _
  | saved _ _ ht =>
    rw [ht]
    exact hs
  | changed => exact Table.nodup_keys_insert hs _ _

theorem Store.nodup_firewalls_after (settings : Settings.Scenarios)
    (operations : List Operation) : (after settings operations).firewalls.keys.Nodup := by
  induction operations using List.reverseRecOn with
  | nil => exact List.nodup_nil
  | append_singleton operations operation ih =>
    rw [after_concat]
    exact (perform_outcome settings _ operation).nodup_firewalls ih

/-- The store is what operations have made of an empty one. -/
def Orchestrator.IsReached (s : Orchestrator) : Prop :=
  ∃ operations, s.store = .after s.settings.scenarios operations

namespace Orchestrator.IsReached

variable {s t : Orchestrator}

theorem isSound (h : s.IsReached) : s.store.IsSound := by
  obtain ⟨operations, hstore⟩ := h
  rw [hstore]
  exact Store.isSound_after _ operations

/-- Every firewall is there once. -/
theorem nodup_firewalls (h : s.IsReached) : s.store.firewalls.keys.Nodup := by
  obtain ⟨operations, hstore⟩ := h
  rw [hstore]
  exact Store.nodup_firewalls_after _ operations

theorem of_eq (h : s.IsReached) (hstore : t.store = s.store)
    (hsettings : t.settings = s.settings) : t.IsReached := by
  obtain ⟨operations, hs⟩ := h
  exact ⟨operations, by rw [hstore, hsettings, hs]⟩

/-- One more operation. -/
theorem perform (h : s.IsReached) (operation : Operation)
    (hstore : t.store = s.store.perform s.settings.scenarios operation)
    (hsettings : t.settings = s.settings) : t.IsReached := by
  obtain ⟨operations, hs⟩ := h
  exact ⟨operations ++ [operation], by rw [Store.after_concat, hstore, hsettings, hs]⟩

theorem register (h : s.IsReached) (application : Application) (firewall : Firewall) :
    (s.register application firewall).2.IsReached := by
  unfold Orchestrator.register
  cases hresult : s.store.register application firewall with
  | ok store =>
    refine h.perform (.register application firewall) ?_ rfl
    rw [Store.perform, hresult]
  | error failure => exact h

theorem saveRule (h : s.IsReached) (uuid : String) (rule : Rule) :
    (s.saveRule uuid rule).2.IsReached := by
  rcases hsave : s.store.saveRule s.settings.scenarios uuid rule with ⟨result, counter, store⟩
  obtain ⟨-, hstore, -, hsettings⟩ := Orchestrator.saveRule_store hsave
  refine h.perform (.save uuid rule) ?_ hsettings
  rw [hstore, Store.perform, hsave]

/-- A change that one more operation makes is taken over. -/
theorem commit (h : s.IsReached) {α : Type} {change : Except Failure (α × RuleEvent × Store)}
    (operation : Operation) (hchange : ∀ a e store, change = .ok (a, e, store) →
      s.store.perform s.settings.scenarios operation = store) : (s.commit change).2.IsReached := by
  cases change with
  | ok result =>
    obtain ⟨a, e, store⟩ := result
    exact h.perform operation (hchange a e store rfl).symm rfl
  | error failure => exact h

theorem deleteRule (h : s.IsReached) (uuid : String) (id : UInt64) :
    (s.deleteRule uuid id).2.IsReached := by
  refine h.commit (.delete uuid id) fun rule e store hresult => ?_
  rw [Store.perform, hresult]

theorem updateFirewall (h : s.IsReached) (uuid : String) (u : FirewallUpdate) :
    (s.updateFirewall uuid u).2.IsReached := by
  refine h.commit (.update uuid u) fun updated e store hresult => ?_
  rw [Store.perform, hresult]

theorem recordBouncer (h : s.IsReached) (firewall : UInt64) (name key : String) :
    (s.recordBouncer firewall name key).2.IsReached := by
  refine h.commit (.recordBouncer firewall name key) fun updated e store hresult => ?_
  rw [Store.perform, hresult]

end Orchestrator.IsReached

end Rampart
