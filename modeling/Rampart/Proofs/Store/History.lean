import Rampart.Proofs.Store.Tenants

/-!
# The store after operations

Whatever the store holds has been put there by operations, one after another. Nobody is kept from
taking an application in again, nor from asking for any number.

* `Operation`, `Store.perform`, `Store.after`: what can be asked for, and what comes of it.
* `Store.numberFor`, `Store.nextAfter`: the number that a saved rule gets.
* **`Store.saveRule_outcomes`**: all that can come of saving a rule.
* `Store.Outcome`: all that can come of an operation. **`Store.perform_outcome`**.
-/

namespace Rampart

/-- What can be asked of the store. -/
inductive Operation
  | register (application : Application) (firewall : Firewall)
  | save (uuid : String) (rule : Rule)
  | delete (uuid : String) (id : UInt64)
  | update (uuid : String) (u : FirewallUpdate)
  | recordBouncer (firewall : UInt64) (name key : String)
deriving DecidableEq, Repr

namespace Store

/-- The store after an operation. -/
def perform (settings : Settings.Scenarios) (s : Store) : Operation → Store
  | .register application firewall => match s.register application firewall with
    | .ok store => store
    | .error _ => s
  | .save uuid rule => (s.saveRule settings uuid rule).2.2
  | .delete uuid id => match s.deleteRule uuid id with
    | .ok (_, _, store) => store
    | .error _ => s
  | .update uuid u => match s.updateFirewall uuid u with
    | .ok (_, _, store) => store
    | .error _ => s
  | .recordBouncer firewall name key => match s.recordBouncer firewall name key with
    | .ok (_, _, store) => store
    | .error _ => s

/-- The store after several operations, the first one on an empty store. -/
def after (settings : Settings.Scenarios) (operations : List Operation) : Store :=
  operations.foldl (perform settings) {}

@[simp] theorem after_nil (settings : Settings.Scenarios) : after settings [] = {} := rfl

@[simp] theorem after_concat (settings : Settings.Scenarios) (operations : List Operation)
    (operation : Operation) :
    after settings (operations ++ [operation]) =
      (after settings operations).perform settings operation := by
  rw [after, List.foldl_append]
  rfl

/-! ## Saving -/

/-- The number under which a rule is saved: its own, or the next new one if it has none. -/
def numberFor (s : Store) (rule : Rule) : UInt64 :=
  if rule.id = 0 then s.nextRule else rule.id

/-- The next new number once a rule has got its own. -/
def nextAfter (s : Store) (rule : Rule) : UInt64 :=
  if rule.id = 0 then s.nextRule + 1 else max s.nextRule (rule.id + 1)

/-- A rule as it is saved for a firewall. -/
def numbered (s : Store) (firewall : Firewall) (rule : Rule) : Rule :=
  { rule with firewallId := firewall.id, id := s.numberFor rule }

theorem assign_outcomes (s : Store) (uuid : String) (firewall : Firewall) (rule : Rule) :
    (∃ failure, s.assign uuid firewall rule = (.error failure, s)) ∨
      s.assign uuid firewall rule =
          (.ok (s.numbered firewall rule), { s with nextRule := s.nextAfter rule }) ∧
        (rule.id ≠ 0 → ∀ existing, s.rules.get? rule.id = some existing →
          existing.firewallId = firewall.id) := by
  unfold assign numbered numberFor nextAfter
  by_cases hid : rule.id = 0
  · refine .inr ⟨?_, fun hne => absurd hid hne⟩
    simp only [hid, ↓reduceIte]
  · simp only [hid, ↓reduceIte]
    cases hget : s.rules.get? rule.id with
    | none =>
      refine .inr ⟨by simp, fun _ existing hexisting => ?_⟩
      cases hexisting
    | some existing =>
      by_cases howner : existing.firewallId = firewall.id
      · refine .inr ⟨by simp [howner], fun _ other hother => ?_⟩
        rw [← Option.some.inj hother, howner]
      · exact .inl ⟨_, by simp only [bne_iff_ne, ne_eq, howner, not_false_eq_true, ↓reduceIte]; rfl⟩

/-- **All that can come of saving a rule**: it is refused, for lack of an application or because
its number is another firewall's; or it gets a number and is refused, because it does not compile;
or it is stored under that number, and the event has the version that it replaces. -/
theorem saveRule_outcomes {s store : Store} {settings : Settings.Scenarios} {uuid : String}
    {rule : Rule} {result : Except Failure Saved} {counter : Option Counter}
    (hsave : s.saveRule settings uuid rule = (result, counter, store)) :
    (∃ failure, result = .error failure ∧ store = s) ∨
    ∃ firewall, s.firewallFor uuid = .ok firewall ∧
      ((∃ failure, result = .error failure ∧
          store = { s with nextRule := s.nextAfter rule }) ∨
        (result = .ok ⟨s.numbered firewall rule,
            .saved (s.numberFor rule) firewall.id (s.rules.get? (s.numberFor rule))⟩ ∧
          store = { s with
            nextRule := s.nextAfter rule
            rules := s.rules.insert (s.numberFor rule) (s.numbered firewall rule) } ∧
          (rule.id ≠ 0 → ∀ existing, s.rules.get? rule.id = some existing →
            existing.firewallId = firewall.id))) := by
  unfold saveRule at hsave
  split at hsave
  · cases hsave
    exact .inl ⟨_, rfl, rfl⟩
  · rename_i firewall hfirewall
    rcases assign_outcomes s uuid firewall rule with ⟨failure, hassign⟩ | ⟨hassign, hown⟩
    · rw [hassign] at hsave
      cases hsave
      exact .inl ⟨failure, rfl, rfl⟩
    · rw [hassign] at hsave
      simp only at hsave
      refine .inr ⟨firewall, hfirewall, ?_⟩
      split at hsave
      · cases hsave
        exact .inl ⟨_, rfl, rfl⟩
      · cases hsave
        exact .inr ⟨rfl, rfl, hown⟩

/-! ## Outcomes -/

/-- **All that can come of an operation.** One that fails changes nothing, but a rule that does not
compile has got its number. -/
inductive Outcome (settings : Settings.Scenarios) (s : Store) : Operation → Store → Prop
  | refused (operation : Operation) : Outcome settings s operation s
  | registered {application : Application} {firewall : Firewall} {t : Store}
    (h : s.register application firewall = .ok t) :
    Outcome settings s (.register application firewall) t
  | numbered {uuid : String} {rule : Rule} {firewall : Firewall}
    (hfirewall : s.firewallFor uuid = .ok firewall) :
    Outcome settings s (.save uuid rule) { s with nextRule := s.nextAfter rule }
  | saved {uuid : String} {rule : Rule} {firewall : Firewall} {event : RuleEvent}
    {counter : Option Counter} {t : Store} (hfirewall : s.firewallFor uuid = .ok firewall)
    (hsave : s.saveRule settings uuid rule = (.ok ⟨s.numbered firewall rule, event⟩, counter, t))
    (ht : t = { s with
      nextRule := s.nextAfter rule
      rules := s.rules.insert (s.numberFor rule) (s.numbered firewall rule) }) :
    Outcome settings s (.save uuid rule) t
  | deleted (uuid : String) (id : UInt64) :
    Outcome settings s (.delete uuid id) { s with rules := s.rules.erase id }
  /-- A firewall has been changed. -/
  | changed (operation : Operation) (number : UInt64) (firewall : Firewall) :
    Outcome settings s operation { s with firewalls := s.firewalls.insert number firewall }

/-- **Every operation has one of these outcomes.** -/
theorem perform_outcome (settings : Settings.Scenarios) (s : Store) (operation : Operation) :
    s.Outcome settings operation (s.perform settings operation) := by
  cases operation with
  | register application firewall =>
    rw [perform]
    split
    · rename_i hregister
      exact .registered hregister
    · exact .refused _
  | save uuid rule =>
    rcases hsave : s.saveRule settings uuid rule with ⟨result, counter, store⟩
    rw [perform, hsave]
    rcases saveRule_outcomes hsave with
      ⟨_, _, rfl⟩ | ⟨firewall, hfirewall, ⟨_, _, rfl⟩ | ⟨rfl, hstore, _⟩⟩
    · exact .refused _
    · exact .numbered hfirewall
    · exact .saved hfirewall hsave hstore
  | delete uuid id =>
    rw [perform]
    split
    · rename_i hdelete
      obtain ⟨_, _, _, _, rfl⟩ := deleteRule_spec hdelete
      exact .deleted uuid id
    · exact .refused _
  | update uuid u =>
    rw [perform]
    split
    · rename_i hupdate
      obtain ⟨_, _, _, _, rfl⟩ := updateFirewall_spec hupdate
      exact .changed _ _ _
    · exact .refused _
  | recordBouncer number name key =>
    rw [perform]
    split
    · rename_i hrecord
      obtain ⟨_, _, rfl⟩ := recordBouncer_spec hrecord
      exact .changed _ _ _
    · exact .refused _

end Store

end Rampart
