import Rampart.Proofs.Store.History

/-!
# Numbers of new rules

New rules get the numbers one after another, and whoever saves a rule may ask for one. The next new
number stays above all that were used, until the last one there is has been used: what comes after
it is zero, and then numbers that may be taken.

* `IsNumbered`: every number that is taken is below the next new one, which is not zero.
* `IsNumbered.of_outcome`: an operation keeps it, unless it uses the last number; and
  **`isNumbered_after`** from the beginning on.
* **`new_rule_takes_no_place`**: a new rule gets a number of its own, and its event says so.
* **`new_rule_takes_a_place`**: the numbers that follow the last one.
-/

namespace Rampart

/-- What comes of saving a rule: the store's change, and its event on the bus. -/
theorem Orchestrator.saveRule_ok {s t : Orchestrator} {uuid : String} {rule saved : Rule}
    (h : s.saveRule uuid rule = (.ok saved, t)) :
    ∃ event counter, s.store.saveRule s.settings.scenarios uuid rule =
        (.ok ⟨saved, event⟩, counter, t.store) ∧
      t.ruleBus = (s.ruleBus.publish event).2 := by
  rcases hsave : s.store.saveRule s.settings.scenarios uuid rule with ⟨result, counter, store⟩
  unfold Orchestrator.saveRule at h
  rw [hsave] at h
  cases result with
  | error failure => cases h
  | ok saved =>
    cases counter <;> cases h <;> exact ⟨_, _, rfl, rfl⟩

namespace Numbering

/-- The greatest number there is. -/
def last : UInt64 := 0xFFFFFFFFFFFFFFFF

/-- A rule gets the last number, be it saved or refused after that. -/
def UsesLast (s : Store) : Operation → Prop
  | .save uuid rule => s.numberFor rule = last ∧ ∃ firewall, s.firewallFor uuid = .ok firewall
  | _ => False

/-- **The last number has not been used** by any of the operations. -/
def LastIsLeft (settings : Settings.Scenarios) (operations : List Operation) : Prop :=
  ∀ before operation rest, operations = before ++ operation :: rest →
    ¬ UsesLast (.after settings before) operation

/-- What is true as long as the last number has not been used. -/
structure IsNumbered (s : Store) : Prop where
  positive : 0 < s.nextRule
  below : ∀ id rule, s.rules.get? id = some rule → id < s.nextRule

variable {settings : Settings.Scenarios} {s : Store}

/-! ## Numbers -/

theorem le_max_left (a b : UInt64) : a ≤ max a b := by
  rw [UInt64.le_iff_toNat_le, Tenants.toNat_max]
  exact Nat.le_max_left _ _

theorem le_max_right (a b : UInt64) : b ≤ max a b := by
  rw [UInt64.le_iff_toNat_le, Tenants.toNat_max]
  exact Nat.le_max_right _ _

/-- The next new number is not less once a rule has got another one than the last. -/
theorem nextRule_le_nextAfter {rule : Rule} (h : s.numberFor rule ≠ last) :
    s.nextRule ≤ s.nextAfter rule := by
  unfold Store.numberFor at h
  unfold Store.nextAfter
  split
  · rename_i hid
    rw [if_pos hid] at h
    exact UInt64.le_of_lt (UInt64.lt_add_one h)
  · exact le_max_left _ _

theorem numberFor_lt_nextAfter {rule : Rule} (h : s.numberFor rule ≠ last) :
    s.numberFor rule < s.nextAfter rule := by
  unfold Store.numberFor at h ⊢
  unfold Store.nextAfter
  split
  · rename_i hid
    rw [if_pos hid] at h
    exact UInt64.lt_add_one h
  · rename_i hid
    rw [if_neg hid] at h
    exact UInt64.lt_of_lt_of_le (UInt64.lt_add_one h) (le_max_right _ _)

/-! ## Operations -/

namespace IsNumbered

theorem empty : IsNumbered {} := ⟨by decide, nofun⟩

/-- The next new number may grow, and rules below it may come and go. -/
theorem grow (h : IsNumbered s) {t : Store} (hnext : s.nextRule ≤ t.nextRule)
    (hrules : ∀ id rule, t.rules.get? id = some rule →
      s.rules.get? id = some rule ∨ id < t.nextRule) : IsNumbered t := by
  refine ⟨UInt64.lt_of_lt_of_le h.positive hnext, fun id rule hget => ?_⟩
  rcases hrules id rule hget with hold | hlt
  · exact UInt64.lt_of_lt_of_le (h.below id rule hold) hnext
  · exact hlt

/-- **An operation that does not use the last number.** -/
theorem of_outcome (h : IsNumbered s) {operation : Operation} {t : Store}
    (ht : s.Outcome settings operation t) (hlast : ¬ UsesLast s operation) : IsNumbered t := by
  have hsame : ∀ t : Store, t.nextRule = s.nextRule → t.rules = s.rules → IsNumbered t :=
    fun t hnext hrules => h.grow (hnext ▸ UInt64.le_rfl) fun _ _ hget => .inl (hrules ▸ hget)
  cases ht with
  | refused => exact h
  | registered hregister =>
    obtain ⟨_, _, hregister⟩ := Except.bind_eq_ok_iff.mp hregister
    rw [← Except.ok.inj hregister]
    exact hsame _ rfl rfl
  | @numbered _ rule _ hfirewall =>
    have hnumber : s.numberFor rule ≠ last := fun heq => hlast ⟨heq, _, hfirewall⟩
    exact h.grow (nextRule_le_nextAfter hnumber) fun _ _ hget => .inl hget
  | @saved _ rule _ _ _ _ hfirewall _ ht =>
    have hnumber : s.numberFor rule ≠ last := fun heq => hlast ⟨heq, _, hfirewall⟩
    subst ht
    refine h.grow (nextRule_le_nextAfter hnumber) fun id other hget => ?_
    rcases Table.of_get?_insert hget with ⟨rfl, -⟩ | hold
    · exact .inr (numberFor_lt_nextAfter hnumber)
    · exact .inl hold
  | deleted uuid id =>
    refine h.grow UInt64.le_rfl fun other found hget => .inl ?_
    rw [Table.get?_erase] at hget
    split at hget
    · cases hget
    · exact hget
  | changed => exact hsame _ rfl rfl

end IsNumbered

theorem LastIsLeft.init {operations : List Operation} {operation : Operation}
    (h : LastIsLeft settings (operations ++ [operation])) : LastIsLeft settings operations := by
  rintro before next rest rfl
  exact h before next (rest ++ [operation]) (by simp)

/-- **What holds of every store** that did not use the last number. -/
theorem isNumbered_after {operations : List Operation} (h : LastIsLeft settings operations) :
    IsNumbered (.after settings operations) := by
  induction operations using List.reverseRecOn with
  | nil => exact .empty
  | append_singleton operations operation ih =>
    rw [Store.after_concat]
    exact (ih h.init).of_outcome (Store.perform_outcome settings _ operation)
      (h operations operation [] rfl)

/-! ## New rules -/

/-- **A new rule takes no other's place.** Whatever was asked for before, by anyone and with any
numbers, as long as the last number there is has not been used: a new rule that is saved gets a
number that is not zero and that no rule has, every other rule stays as it is, and the event that is
published says that nothing was replaced. -/
theorem new_rule_takes_no_place {s t : Orchestrator} {operations : List Operation}
    (hstore : s.store = .after s.settings.scenarios operations)
    (hlast : LastIsLeft s.settings.scenarios operations) {uuid : String} {rule saved : Rule}
    (hnew : rule.id = 0) (hsave : s.saveRule uuid rule = (.ok saved, t)) :
    saved.id ≠ 0 ∧ s.store.rules.get? saved.id = none ∧
      t.store.rules.get? saved.id = some saved ∧
      (∀ id, id ≠ saved.id → t.store.rules.get? id = s.store.rules.get? id) ∧
      t.ruleBus = (s.ruleBus.publish (.saved saved.id saved.firewallId none)).2 := by
  have hnumbered := isNumbered_after hlast
  rw [← hstore] at hnumbered
  obtain ⟨event, counter, hsave, hbus⟩ := Orchestrator.saveRule_ok hsave
  have hnumber : s.store.numberFor rule = s.store.nextRule := if_pos hnew
  have hfree : s.store.rules.get? s.store.nextRule = none := by
    cases hget : s.store.rules.get? s.store.nextRule with
    | none => rfl
    | some other => exact absurd (hnumbered.below _ other hget) (UInt64.lt_irrefl _)
  rcases Store.saveRule_outcomes hsave with ⟨_, hresult, _⟩ | ⟨firewall, _, houtcome⟩
  · cases hresult
  rcases houtcome with ⟨_, hresult, _⟩ | ⟨hresult, hafter, _⟩
  · cases hresult
  obtain ⟨rfl, rfl⟩ := Store.Saved.mk.inj (Except.ok.inj hresult)
  have hid : (s.store.numbered firewall rule).id = s.store.nextRule := hnumber
  rw [hbus, hafter, hid, hnumber]
  refine ⟨fun hzero => ?_, hfree, ?_, fun id hne => ?_, ?_⟩
  · exact UInt64.lt_irrefl _ (hzero ▸ hnumbered.positive)
  · rw [Table.get?_insert, if_pos rfl]
  · rw [Table.get?_insert, if_neg hne]
  · rw [hfree]
    rfl

/-! ## The end of the numbers -/

namespace Demo

/-- A rule that asks for a number; zero asks for a new one. -/
def rule (id : UInt64) : Rule where
  id := id
  name := "x"
  mode := .inband
  action := .ban
  conditions := [{ field := "host", operator := "equals", value := "v" }]

/-- An application with a rule, and another rule that asks for the last number but one. -/
def operations : List Operation :=
  [.register { id := 1, uuid := "abc", name := "shop", serverId := 1 } { id := 1, enabled := true },
    .save "abc" (rule 0), .save "abc" (rule 0xFFFFFFFFFFFFFFFE)]

/-- An orchestrator with the store after some operations. -/
def orchestrator (operations : List Operation) : Orchestrator where
  store := .after {} operations

/-- The numbers of the saved rules are one and the last but one. -/
theorem lastIsLeft : LastIsLeft {} operations := by
  intro before operation rest heq huses
  rcases before with _ | ⟨first, _ | ⟨second, _ | ⟨third, before⟩⟩⟩
  all_goals
    simp only [operations, List.nil_append, List.cons_append, List.cons.injEq] at heq
  · rw [← heq.1] at huses
    exact huses
  · obtain ⟨rfl, rfl, -⟩ := heq
    exact absurd huses.1 (by decide +kernel)
  · obtain ⟨rfl, rfl, rfl, -⟩ := heq
    exact absurd huses.1 (by decide +kernel)
  · simp at heq

/-- The store with two more rules, the first of which got the last number. -/
def full : Orchestrator :=
  orchestrator (operations ++ [.save "abc" (rule 0), .save "abc" (rule 0)])

end Demo

/-- After the last number but one comes the last one. -/
theorem new_rule_takes_no_place_at_the_end :
    ((Demo.orchestrator Demo.operations).store = .after {} Demo.operations ∧
      LastIsLeft {} Demo.operations ∧ (Demo.rule 0).id = 0) ∧
    ∃ saved t, (Demo.orchestrator Demo.operations).saveRule "abc" (Demo.rule 0) = (.ok saved, t) ∧
      saved.id = last ∧ t.store.rules.get? last = some saved ∧
      (Demo.orchestrator Demo.operations).store.rules.get? last = none ∧
      t.ruleBus = ((Demo.orchestrator Demo.operations).ruleBus.publish (.saved last 1 none)).2 := by
  obtain ⟨saved, t, hsave, hid, hfirewall⟩ : ∃ saved t,
      (Demo.orchestrator Demo.operations).saveRule "abc" (Demo.rule 0) = (.ok saved, t) ∧
        saved.id = last ∧ saved.firewallId = 1 :=
    ⟨{ Demo.rule last with firewallId := 1 }, _, Prod.ext (by decide +kernel) rfl, rfl, rfl⟩
  have hstore : (Demo.orchestrator Demo.operations).store =
      .after (Demo.orchestrator Demo.operations).settings.scenarios Demo.operations := rfl
  have hnew : (Demo.rule 0).id = 0 := rfl
  obtain ⟨-, hfree, hsaved, -, hbus⟩ :=
    new_rule_takes_no_place hstore Demo.lastIsLeft hnew hsave
  rw [hid] at hfree hsaved
  rw [hid, hfirewall] at hbus
  exact ⟨⟨hstore, Demo.lastIsLeft, hnew⟩, saved, t, hsave, hid, hsaved, hfree, hbus⟩

/-- **After the last number there are none.** The next new rule is stored as number zero, and the
one after it in the place of the first rule, as its event says. -/
theorem new_rule_takes_a_place :
    Demo.full.store.rules.get? 0 = some { Demo.rule 0 with firewallId := 1 } ∧
    Demo.full.store.rules.get? 1 = some { Demo.rule 1 with firewallId := 1 } ∧
    (Demo.full.store.saveRule Demo.full.settings.scenarios "abc" (Demo.rule 0)).1 =
      .ok ⟨{ Demo.rule 1 with firewallId := 1 },
        .saved 1 1 (some { Demo.rule 1 with firewallId := 1 })⟩ := by
  decide +kernel

end Numbering

end Rampart
