import Rampart.Proofs.Bus
import Rampart.Proofs.Store.Reached
import Rampart.Proofs.Store.Registration

/-!
# What events tell of the store

Whoever listens to the bus of rule events does not see the store. What the events say of it is what
the answers to the operations say as well: a story that can be told from the answers alone.

* `Answer`, `Orchestrator.answer`: operations and their answers.
* `Faithful`: what an operation does to the store and to the bus, by its answer. One that is refused
  changes nothing, apart from the next new number and the counters.
* `versionAfter`: the version of a rule that answers have left; **`versionAfter_eq_some_iff`**: what
  the latest save of it has written.
* `story`: the events that follow from answers, each with the version that was there before.
* **`answer_faithful`**: every operation is faithful; `told_after`: what holds after a run.
* **`events_describe_store`**: both, and what a subscriber reads.
-/

namespace Rampart

/-- What an operation is answered. -/
inductive Answer
  | refused (failure : Failure)
  | registered
  | saved (rule : Rule)
  | deleted (rule : Rule)
  | changed (firewall : Firewall)
deriving DecidableEq, Repr

namespace Orchestrator

/-- A result as an answer, with the state after it. -/
def replied {α : Type} (granted : α → Answer) :
    Except Failure α × Orchestrator → Answer × Orchestrator
  | (.ok a, s) => (granted a, s)
  | (.error failure, s) => (.refused failure, s)

/-- Do what an operation asks for. -/
def answer (s : Orchestrator) : Operation → Answer × Orchestrator
  | .register application firewall =>
    replied (fun _ => .registered) (s.register application firewall)
  | .save uuid rule => replied .saved (s.saveRule uuid rule)
  | .delete uuid id => replied .deleted (s.deleteRule uuid id)
  | .update uuid u => replied .changed (s.updateFirewall uuid u)
  | .recordBouncer firewall name key => replied .changed (s.recordBouncer firewall name key)

/-- The state after several operations. -/
def afterAll (s : Orchestrator) (operations : List Operation) : Orchestrator :=
  operations.foldl (fun s operation => (s.answer operation).2) s

/-- The answers to several operations, one after another. -/
def answers (s : Orchestrator) : List Operation → List Answer
  | [] => []
  | operation :: operations =>
    (s.answer operation).1 :: (s.answer operation).2.answers operations

theorem afterAll_concat (s : Orchestrator) (operations : List Operation) (operation : Operation) :
    s.afterAll (operations ++ [operation]) = ((s.afterAll operations).answer operation).2 := by
  rw [afterAll, List.foldl_append]
  rfl

theorem answers_concat (s : Orchestrator) (operations : List Operation) (operation : Operation) :
    s.answers (operations ++ [operation]) =
      s.answers operations ++ [((s.afterAll operations).answer operation).1] := by
  induction operations generalizing s with
  | nil => rfl
  | cons first operations ih => exact congrArg (_ :: ·) (ih _)

theorem replied_snd {α : Type} (granted : α → Answer) (p : Except Failure α × Orchestrator) :
    (replied granted p).2 = p.2 := by
  obtain ⟨result, s⟩ := p
  cases result <;> rfl

/-- **A change of the store is taken over and announced**, or nothing happens. -/
theorem replied_commit {α : Type} (granted : α → Answer) (s : Orchestrator)
    (change : Except Failure (α × RuleEvent × Store)) :
    (∃ failure, replied granted (s.commit change) = (.refused failure, s)) ∨
      ∃ a event store, change = .ok (a, event, store) ∧
        replied granted (s.commit change) =
          (granted a, { s with store := store, ruleBus := (s.ruleBus.publish event).2 }) := by
  cases change with
  | error failure => exact .inl ⟨failure, rfl⟩
  | ok change => exact .inr ⟨change.1, change.2.1, change.2.2, rfl, rfl⟩

/-- Operations lead from reached states to reached states. -/
theorem IsReached.answer {s : Orchestrator} (h : s.IsReached) (operation : Operation) :
    (s.answer operation).2.IsReached := by
  cases operation with
  | register application firewall =>
    exact replied_snd _ (s.register application firewall) ▸ h.register application firewall
  | save uuid rule => exact replied_snd _ (s.saveRule uuid rule) ▸ h.saveRule uuid rule
  | delete uuid id => exact replied_snd _ (s.deleteRule uuid id) ▸ h.deleteRule uuid id
  | update uuid u => exact replied_snd _ (s.updateFirewall uuid u) ▸ h.updateFirewall uuid u
  | recordBouncer firewall name key =>
    exact replied_snd _ (s.recordBouncer firewall name key) ▸ h.recordBouncer firewall name key

/-- Firewalls stand under their own numbers. -/
theorem IsReached.firewall_id {s : Orchestrator} (h : s.IsReached) {number : UInt64}
    {firewall : Firewall} (hget : s.store.firewalls.get? number = some firewall) :
    firewall.id = number := by
  obtain ⟨operations, hstore⟩ := h
  rw [hstore] at hget
  exact ((isRegistered_after _ operations).firewalls number firewall hget).1

end Orchestrator

namespace Announcements

/-! ## One operation -/

/-- What an operation does to the store and to the bus, by its answer. -/
inductive Faithful (s t : Orchestrator) : Operation → Answer → Prop
  | refused {operation : Operation} {failure : Failure}
    (same : t = { s with
      store := { s.store with nextRule := t.store.nextRule }
      counters := t.counters }) :
    Faithful s t operation (.refused failure)
  | registered {application : Application} {firewall : Firewall}
    (rules : t.store.rules = s.store.rules) (bus : t.ruleBus = s.ruleBus) :
    Faithful s t (.register application firewall) .registered
  | saved {uuid : String} {rule saved : Rule}
    (content : saved = { rule with id := saved.id, firewallId := saved.firewallId })
    (rules : t.store.rules = s.store.rules.insert saved.id saved)
    (bus : t.ruleBus = (s.ruleBus.publish
      (.saved saved.id saved.firewallId (s.store.rules.get? saved.id))).2) :
    Faithful s t (.save uuid rule) (.saved saved)
  | deleted {uuid : String} {id : UInt64} {removed : Rule}
    (stored : s.store.rules.get? id = some removed)
    (rules : t.store.rules = s.store.rules.erase id)
    (bus : t.ruleBus = (s.ruleBus.publish (.deleted removed removed.firewallId)).2) :
    Faithful s t (.delete uuid id) (.deleted removed)
  | updated {uuid : String} {u : FirewallUpdate} {firewall : Firewall}
    (stored : t.store.firewalls.get? firewall.id = some firewall)
    (rules : t.store.rules = s.store.rules)
    (bus : t.ruleBus = (s.ruleBus.publish (.firewallChanged firewall.id)).2) :
    Faithful s t (.update uuid u) (.changed firewall)
  | recorded {number : UInt64} {name key : String} {firewall : Firewall}
    (stored : t.store.firewalls.get? firewall.id = some firewall)
    (rules : t.store.rules = s.store.rules)
    (bus : t.ruleBus = (s.ruleBus.publish (.firewallChanged firewall.id)).2) :
    Faithful s t (.recordBouncer number name key) (.changed firewall)

variable {s : Orchestrator}

theorem register_faithful (s : Orchestrator) (application : Application) (firewall : Firewall) :
    Faithful s (s.answer (.register application firewall)).2 (.register application firewall)
      (s.answer (.register application firewall)).1 := by
  have hanswer : s.answer (.register application firewall) =
      Orchestrator.replied (fun _ => .registered) (s.register application firewall) := rfl
  rw [hanswer, Orchestrator.register]
  cases hresult : s.store.register application firewall with
  | error failure => exact .refused (by rfl)
  | ok store =>
    obtain ⟨_, _, hstore⟩ := Except.bind_eq_ok_iff.mp hresult
    obtain rfl := Except.ok.inj hstore
    exact .registered (by rfl) (by rfl)

/-- The number of a refused rule stays used, and its compilation is counted. -/
theorem save_faithful (s : Orchestrator) (uuid : String) (rule : Rule) :
    Faithful s (s.answer (.save uuid rule)).2 (.save uuid rule)
      (s.answer (.save uuid rule)).1 := by
  have hanswer : s.answer (.save uuid rule) = Orchestrator.replied .saved (s.saveRule uuid rule) := rfl
  rcases hsave : s.store.saveRule s.settings.scenarios uuid rule with ⟨result, counter, store⟩
  rw [hanswer, Orchestrator.saveRule, hsave]
  rcases Store.saveRule_outcomes hsave with
    ⟨failure, rfl, rfl⟩ | ⟨firewall, _, ⟨failure, rfl, rfl⟩ | ⟨rfl, rfl, _⟩⟩
  · cases counter <;> exact .refused (by rfl)
  · cases counter <;> exact .refused (by rfl)
  · cases counter <;> exact .saved (by rfl) (by rfl) (by rfl)

theorem delete_faithful (s : Orchestrator) (uuid : String) (id : UInt64) :
    Faithful s (s.answer (.delete uuid id)).2 (.delete uuid id)
      (s.answer (.delete uuid id)).1 := by
  have hcommit : s.answer (.delete uuid id) =
      Orchestrator.replied .deleted (s.commit (s.store.deleteRule uuid id)) := rfl
  rw [hcommit]
  rcases Orchestrator.replied_commit .deleted s (s.store.deleteRule uuid id) with
    ⟨failure, hanswer⟩ | ⟨removed, event, store, hchange, hanswer⟩
  · rw [hanswer]
    exact .refused rfl
  · obtain rfl := Store.event_of_deleteRule hchange
    obtain ⟨_, _, hget, _, rfl⟩ := Store.deleteRule_spec hchange
    rw [hanswer]
    exact .deleted hget rfl rfl

theorem update_faithful (h : s.IsReached) (uuid : String) (u : FirewallUpdate) :
    Faithful s (s.answer (.update uuid u)).2 (.update uuid u) (s.answer (.update uuid u)).1 := by
  have hcommit : s.answer (.update uuid u) =
      Orchestrator.replied .changed (s.commit (s.store.updateFirewall uuid u)) := rfl
  rw [hcommit]
  rcases Orchestrator.replied_commit .changed s (s.store.updateFirewall uuid u) with
    ⟨failure, hanswer⟩ | ⟨updated, event, store, hchange, hanswer⟩
  · rw [hanswer]
    exact .refused rfl
  · obtain ⟨number, old, hold, rfl, rfl, rfl⟩ := Store.updateFirewall_outcome hchange
    have hid : (old.update u).id = number := by rw [old.update_id, h.firewall_id hold]
    rw [hanswer]
    refine .updated ?_ rfl (by rw [hid])
    simp only [Table.get?_insert, hid, ↓reduceIte]

theorem recordBouncer_faithful (h : s.IsReached) (number : UInt64) (name key : String) :
    Faithful s (s.answer (.recordBouncer number name key)).2 (.recordBouncer number name key)
      (s.answer (.recordBouncer number name key)).1 := by
  have hcommit : s.answer (.recordBouncer number name key) =
      Orchestrator.replied .changed (s.commit (s.store.recordBouncer number name key)) := rfl
  rw [hcommit]
  rcases Orchestrator.replied_commit .changed s (s.store.recordBouncer number name key) with
    ⟨failure, hanswer⟩ | ⟨updated, event, store, hchange, hanswer⟩
  · rw [hanswer]
    exact .refused rfl
  · obtain ⟨old, hold, rfl, rfl, rfl⟩ := Store.recordBouncer_outcome hchange
    have hid : old.id = number := h.firewall_id hold
    rw [hanswer]
    refine .recorded ?_ rfl (by simp only [hid])
    simp only [Table.get?_insert, hid, ↓reduceIte]

/-- **Every operation is faithful.** -/
theorem answer_faithful (h : s.IsReached) (operation : Operation) :
    Faithful s (s.answer operation).2 operation (s.answer operation).1 := by
  cases operation with
  | register application firewall => exact register_faithful s application firewall
  | save uuid rule => exact save_faithful s uuid rule
  | delete uuid id => exact delete_faithful s uuid id
  | update uuid u => exact update_faithful h uuid u
  | recordBouncer number name key => exact recordBouncer_faithful h number name key

/-! ## The story of the answers -/

/-- What an answer says about the version of every rule. -/
def note (version : UInt64 → Option Rule) : Answer → UInt64 → Option Rule
  | .saved rule => Function.update version rule.id (some rule)
  | .deleted rule => Function.update version rule.id none
  | _ => version

/-- The version of a rule that the last of some answers about it has left: none at the start, and
none after it was deleted. -/
def versionAfter (answers : List Answer) : UInt64 → Option Rule :=
  answers.foldl note fun _ => none

/-- The event that goes with an answer, where the rules had these versions before. -/
def eventOf? (version : UInt64 → Option Rule) : Answer → Option RuleEvent
  | .saved rule => some (.saved rule.id rule.firewallId (version rule.id))
  | .deleted rule => (version rule.id).map (.deleted · rule.firewallId)
  | .changed firewall => some (.firewallChanged firewall.id)
  | _ => none

/-- **The events that go with several answers**, each with the version that the latest of the
answers before it has left. -/
def story (version : UInt64 → Option Rule) : List Answer → List RuleEvent
  | [] => []
  | answer :: answers => (eventOf? version answer).toList ++ story (note version answer) answers

theorem versionAfter_concat (answers : List Answer) (answer : Answer) :
    versionAfter (answers ++ [answer]) = note (versionAfter answers) answer := by
  rw [versionAfter, List.foldl_append]
  rfl

theorem story_concat (version : UInt64 → Option Rule) (answers : List Answer) (answer : Answer) :
    story version (answers ++ [answer]) =
      story version answers ++ (eventOf? (answers.foldl note version) answer).toList := by
  induction answers generalizing version with
  | nil => exact List.append_nil _
  | cons first answers ih =>
    rw [List.cons_append, story, story, ih, List.append_assoc]
    rfl

/-- An answer that is about the rule of a number. -/
def IsAbout (id : UInt64) : Answer → Prop
  | .saved rule => rule.id = id
  | .deleted rule => rule.id = id
  | _ => False

theorem note_of_not_isAbout {id : UInt64} {answer : Answer} (h : ¬ IsAbout id answer)
    (version : UInt64 → Option Rule) : note version answer id = version id := by
  cases answer with
  | saved rule => exact Function.update_of_ne (fun heq => h heq.symm) _ _
  | deleted rule => exact Function.update_of_ne (fun heq => h heq.symm) _ _
  | refused failure => rfl
  | registered => rfl
  | changed firewall => rfl

theorem foldl_note_of_not_isAbout {id : UInt64} {answers : List Answer}
    (h : ∀ answer ∈ answers, ¬ IsAbout id answer) (version : UInt64 → Option Rule) :
    answers.foldl note version id = version id := by
  induction answers generalizing version with
  | nil => rfl
  | cons answer answers ih =>
    rw [List.forall_mem_cons] at h
    exact (ih h.2 _).trans (note_of_not_isAbout h.1 version)

theorem exists_save_of_versionAfter {answers : List Answer} {id : UInt64} {rule : Rule}
    (h : versionAfter answers id = some rule) : ∃ earlier later,
      answers = earlier ++ .saved rule :: later ∧ rule.id = id ∧
        ∀ answer ∈ later, ¬ IsAbout id answer := by
  induction answers using List.reverseRecOn with
  | nil => cases h
  | append_singleton answers answer ih =>
    rw [versionAfter_concat] at h
    by_cases habout : IsAbout id answer
    · cases answer with
      | saved saved =>
        obtain rfl : saved.id = id := habout
        rw [note, Function.update_self] at h
        obtain rfl := Option.some.inj h
        exact ⟨answers, [], rfl, rfl, nofun⟩
      | deleted removed =>
        obtain rfl : removed.id = id := habout
        rw [note, Function.update_self] at h
        cases h
      | refused failure => cases habout
      | registered => cases habout
      | changed firewall => cases habout
    · rw [note_of_not_isAbout habout] at h
      obtain ⟨earlier, later, rfl, hid, hlater⟩ := ih h
      refine ⟨earlier, later ++ [answer], by simp, hid, ?_⟩
      simpa [or_imp, forall_and] using ⟨hlater, habout⟩

/-- **The version of a rule is what the latest save has written**, with no deletion since. -/
theorem versionAfter_eq_some_iff {answers : List Answer} {id : UInt64} {rule : Rule} :
    versionAfter answers id = some rule ↔ ∃ earlier later,
      answers = earlier ++ .saved rule :: later ∧ rule.id = id ∧
        ∀ answer ∈ later, ¬ IsAbout id answer := by
  refine ⟨exists_save_of_versionAfter, ?_⟩
  rintro ⟨earlier, later, rfl, rfl, hlater⟩
  rw [versionAfter, List.foldl_append, List.foldl_cons, foldl_note_of_not_isAbout hlater]
  exact Function.update_self _ _ _

/-! ## Runs -/

/-- What answers tell of the state after them. -/
structure Told (s : Orchestrator) (answers : List Answer) (t : Orchestrator) : Prop where
  reached : t.IsReached
  versions : ∀ id, t.store.rules.get? id = versionAfter answers id
  bus : t.ruleBus = s.ruleBus.publishAll (story (fun _ => none) answers)

/-- **One more operation.** -/
theorem Told.step {t u : Orchestrator} {answers : List Answer} {operation : Operation}
    {answer : Answer} (h : Told s answers t) (hreached : u.IsReached)
    (hfaithful : Faithful t u operation answer) : Told s (answers ++ [answer]) u := by
  -- Rules and bus after an answer that goes with an event, or with none.
  have hbus : ∀ event : Option RuleEvent, eventOf? (versionAfter answers) answer = event →
      u.ruleBus = t.ruleBus.publishAll event.toList →
      u.ruleBus = s.ruleBus.publishAll (story (fun _ => none) (answers ++ [answer])) := by
    intro event hevent hu
    rw [story_concat, Bus.publishAll_append, ← h.bus, hu, ← hevent]
    rfl
  have hsame : u.store.rules = t.store.rules → note (versionAfter answers) answer =
      versionAfter answers → ∀ id, u.store.rules.get? id = versionAfter (answers ++ [answer]) id := by
    intro hrules hnote id
    rw [hrules, versionAfter_concat, hnote]
    exact h.versions id
  cases hfaithful with
  | refused same =>
    exact ⟨hreached, hsame (by rw [same]) rfl, hbus none rfl (by rw [same]; rfl)⟩
  | registered rules bus => exact ⟨hreached, hsame rules rfl, hbus none rfl bus⟩
  | @saved uuid rule saved _ rules bus =>
    refine ⟨hreached, fun id => ?_, hbus (some _) rfl ?_⟩
    · rw [rules, Table.get?_insert, versionAfter_concat, note, Function.update_apply, h.versions]
    · rw [bus, h.versions]
      rfl
  | @deleted uuid id removed stored rules bus =>
    rw [h.versions] at stored
    obtain ⟨_, _, _, hid, _⟩ := versionAfter_eq_some_iff.mp stored
    refine ⟨hreached, fun other => ?_, hbus (some (.deleted removed removed.firewallId)) ?_ bus⟩
    · rw [rules, Table.get?_erase, versionAfter_concat, note, Function.update_apply, hid,
        h.versions]
    · rw [eventOf?, hid, stored]
      rfl
  | updated _ rules bus => exact ⟨hreached, hsame rules rfl, hbus (some _) rfl bus⟩
  | recorded _ rules bus => exact ⟨hreached, hsame rules rfl, hbus (some _) rfl bus⟩

/-- **What answers tell of every run** from an empty store. -/
theorem told_after (h : s.store = {}) (operations : List Operation) :
    Told s (s.answers operations) (s.afterAll operations) := by
  induction operations using List.reverseRecOn with
  | nil => exact ⟨⟨[], h⟩, fun id => by rw [Orchestrator.afterAll, List.foldl_nil, h]; rfl, rfl⟩
  | append_singleton operations operation ih =>
    rw [Orchestrator.answers_concat, Orchestrator.afterAll_concat]
    exact ih.step (ih.reached.answer operation) (answer_faithful ih.reached operation)

/-- **Events describe the store.** Whatever is asked of an empty store, by anyone: the next
operation is faithful, so that one that is refused changes nothing but the next new number and
announces nothing, and any other announces what it has done, once, with the version that was stored
before; the version of every rule is the one that the latest save of it has written, unless it was
deleted since; and all that is announced is the story of the answers, which a subscriber who has not
fallen behind reads in full and in order. -/
theorem events_describe_store (h : s.store = {}) (operations : List Operation) :
    (∀ next, Faithful (s.afterAll operations) ((s.afterAll operations).answer next).2 next
      ((s.afterAll operations).answer next).1) ∧
    (∀ id, (s.afterAll operations).store.rules.get? id =
      versionAfter (s.answers operations) id) ∧
    (∀ id rule, versionAfter (s.answers operations) id = some rule ↔ ∃ earlier later,
      s.answers operations = earlier ++ .saved rule :: later ∧ rule.id = id ∧
        ∀ answer ∈ later, ¬ IsAbout id answer) ∧
    (s.afterAll operations).ruleBus =
      s.ruleBus.publishAll (story (fun _ => none) (s.answers operations)) ∧
    ∀ name position, s.ruleBus.Follows name position →
      ¬ (s.afterAll operations).ruleBus.IsBehind name →
      (s.afterAll operations).ruleBus.unread name =
        s.ruleBus.unread name ++ story (fun _ => none) (s.answers operations) := by
  have htold := told_after h operations
  refine ⟨answer_faithful htold.reached, htold.versions, fun _ _ => versionAfter_eq_some_iff,
    htold.bus, fun name position hfollows hnot => ?_⟩
  rw [htold.bus] at hnot ⊢
  exact (Bus.publishAll_unread hfollows hnot).2

namespace Demo

/-- Nothing has happened, and somebody listens. -/
def listening : Orchestrator where
  ruleBus := (Bus.ofCapacity 4).subscribe "reader"

/-- A rule about a host. -/
def hostRule (operator host : String) : Rule where
  id := 7
  name := "x"
  mode := .inband
  action := .ban
  conditions := [{ field := "host", operator := operator, value := host }]

/-- A rule is saved, changed, changed to one that does not compile, deleted, deleted again and saved
again under its number. -/
def operations : List Operation :=
  [.register { id := 1, uuid := "abc", name := "shop", serverId := 1 } { id := 1, enabled := true },
    .save "abc" (hostRule "equals" "one"), .save "abc" (hostRule "equals" "two"),
    .save "abc" (hostRule "sounds like" "two"), .delete "abc" 7, .delete "abc" 7,
    .save "abc" (hostRule "equals" "three")]

/-- A rule as it is stored. -/
def stored (host : String) : Rule :=
  { hostRule "equals" host with firewallId := 1 }

end Demo

/-- A rule that was changed, refused, deleted and saved again. -/
theorem events_describe_store_deleted_between :
    Demo.listening.store = {} ∧
    (Demo.listening.afterAll Demo.operations).ruleBus.unread "reader" =
      [.saved 7 1 none, .saved 7 1 (some (Demo.stored "one")), .deleted (Demo.stored "two") 1,
        .saved 7 1 none] := by
  have hfollows : Demo.listening.ruleBus.Follows "reader" 0 := ⟨by rfl, by decide, by decide⟩
  obtain ⟨-, -, -, -, hread⟩ := events_describe_store (s := Demo.listening) rfl Demo.operations
  have holdest : (Demo.listening.afterAll Demo.operations).ruleBus.oldest = 0 := by cbv
  refine ⟨rfl, (hread "reader" 0 hfollows ?_).trans (by cbv)⟩
  rintro ⟨position, -, hlt⟩
  exact Nat.not_lt_zero position (holdest ▸ hlt)

end Announcements

end Rampart
