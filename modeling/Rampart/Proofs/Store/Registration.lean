import Rampart.Proofs.Store.History

/-!
# What an application's context has in it

Registering an application writes four tables, and nobody is kept from using a uuid, or the number
of an application or of a firewall, together with others than before. A `Ledger` notes what was
asked of the store and granted, without looking at its tables.

* `Ledger.note`, `Ledger.of`: registrations, the firewall of every uuid, the rule of every number.
* `IsRegistered`: whatever the tables hold has come from registrations, however mixed they were.
* `GoTogether`: a uuid, an application and a firewall that are only registered with each other, and
  `IsTracked`: what the store then holds for them.
* **`context_as_noted`**: such an application's context is what the ledger says.
* **`context_of_another`**: registrations that share a number.
-/

namespace Rampart

/-- What was asked of a store and granted. -/
structure Ledger where
  registrations : List (Application × Firewall) := []
  /-- The firewall of every uuid, as it was registered or changed last. -/
  firewalls : String → Option Firewall := fun _ => none
  /-- Through which uuid the rule of every number was saved last, and as what. -/
  rules : Tenants.Log := fun _ => none

namespace Ledger

/-- A request that a store grants is noted. -/
def note (settings : Settings.Scenarios) (s : Store) (ledger : Ledger) : Operation → Ledger
  | .register application firewall => match s.register application firewall with
    | .ok _ => { ledger with
      registrations := (application, firewall) :: ledger.registrations
      firewalls := Function.update ledger.firewalls application.uuid
        (some { firewall with applicationId := application.id }) }
    | .error _ => ledger
  | .save uuid rule =>
    { ledger with rules := ledger.rules.note uuid ((s.saveRule settings uuid rule).1.map (·.rule)) }
  | .delete uuid id => match s.deleteRule uuid id with
    | .ok _ => { ledger with rules := Function.update ledger.rules id none }
    | .error _ => ledger
  | .update uuid u => match s.updateFirewall uuid u with
    | .ok _ => { ledger with
      firewalls := Function.update ledger.firewalls uuid
        ((ledger.firewalls uuid).map (·.update u)) }
    | .error _ => ledger
  | .recordBouncer number name key => match s.recordBouncer number name key with
    | .ok _ => { ledger with
      firewalls := fun uuid => (ledger.firewalls uuid).map fun firewall =>
        if firewall.id = number then { firewall with apiKey := key, bouncerName := some name }
        else firewall }
    | .error _ => ledger

/-- The ledger of several requests, the first one for an empty store. -/
def of (settings : Settings.Scenarios) (operations : List Operation) : Ledger :=
  (operations.foldl (fun (p : Store × Ledger) operation =>
    (p.1.perform settings operation, p.2.note settings p.1 operation)) ({}, {})).2

@[simp] theorem of_nil (settings : Settings.Scenarios) : of settings [] = {} := rfl

@[simp] theorem of_concat (settings : Settings.Scenarios) (operations : List Operation)
    (operation : Operation) :
    of settings (operations ++ [operation]) =
      (of settings operations).note settings (.after settings operations) operation := by
  have hstore : ∀ (s : Store) (ledger : Ledger),
      (operations.foldl (fun (p : Store × Ledger) operation =>
        (p.1.perform settings operation, p.2.note settings p.1 operation)) (s, ledger)).1 =
      operations.foldl (Store.perform settings) s := by
    intro s ledger
    exact (List.foldl_hom Prod.fst fun _ _ => rfl).symm
  rw [of, List.foldl_append, List.foldl_cons, List.foldl_nil, hstore]
  rfl

end Ledger

variable {settings : Settings.Scenarios} {s : Store} {ledger : Ledger}
  {registrations others : List (Application × Firewall)}

/-! ## Where things come from -/

/-- **Whatever the tables hold has come from registrations.** -/
structure IsRegistered (registrations : List (Application × Firewall)) (s : Store) : Prop where
  byUuid : ∀ uuid id, s.byUuid.get? uuid = some id →
    ∃ r ∈ registrations, r.1.uuid = uuid ∧ r.1.id = id
  byApplication : ∀ id number, s.byApplication.get? id = some number →
    ∃ r ∈ registrations, r.1.id = id ∧ r.2.id = number
  applications : ∀ id application, s.applications.get? id = some application →
    application.id = id ∧ ∃ r ∈ registrations, r.1 = application
  firewalls : ∀ number firewall, s.firewalls.get? number = some firewall →
    firewall.id = number ∧ ∃ r ∈ registrations, r.2.id = number ∧ r.1.id = firewall.applicationId

namespace IsRegistered

theorem empty : IsRegistered [] {} := ⟨nofun, nofun, nofun, nofun⟩

theorem mono (h : IsRegistered registrations s) (hsubset : registrations ⊆ others) :
    IsRegistered others s where
  byUuid uuid id hget := (h.byUuid uuid id hget).imp fun _ hr => ⟨hsubset hr.1, hr.2⟩
  byApplication id number hget :=
    (h.byApplication id number hget).imp fun _ hr => ⟨hsubset hr.1, hr.2⟩
  applications id application hget :=
    (h.applications id application hget).imp_right fun hr => hr.imp fun _ hr =>
      ⟨hsubset hr.1, hr.2⟩
  firewalls number firewall hget :=
    (h.firewalls number firewall hget).imp_right fun hr => hr.imp fun _ hr =>
      ⟨hsubset hr.1, hr.2⟩

/-- Rules come and go. -/
theorem withRules (h : IsRegistered registrations s) (rules : Table UInt64 Rule) (next : UInt64) :
    IsRegistered registrations { s with rules := rules, nextRule := next } :=
  ⟨h.byUuid, h.byApplication, h.applications, h.firewalls⟩

/-- A firewall changes, except for its number and its application. -/
theorem replace (h : IsRegistered registrations s) {number : UInt64} {old firewall : Firewall}
    (hold : s.firewalls.get? number = some old) (hid : firewall.id = old.id)
    (howner : firewall.applicationId = old.applicationId) :
    IsRegistered registrations { s with firewalls := s.firewalls.insert number firewall } := by
  refine ⟨h.byUuid, h.byApplication, h.applications, fun key found hget => ?_⟩
  rcases Table.of_get?_insert hget with ⟨rfl, rfl⟩ | hget
  · rw [hid, howner]
    exact h.firewalls key old hold
  · exact h.firewalls key found hget

theorem register (h : IsRegistered registrations s) {store : Store} {application : Application}
    {firewall : Firewall} (hregister : s.register application firewall = .ok store) :
    IsRegistered ((application, firewall) :: registrations) store := by
  have hbefore := h.mono (List.subset_cons_self (application, firewall) registrations)
  obtain ⟨_, _, hregister⟩ := Except.bind_eq_ok_iff.mp hregister
  obtain rfl := Except.ok.inj hregister
  refine ⟨fun uuid id hget => ?_, fun id number hget => ?_, fun id other hget => ?_,
    fun number other hget => ?_⟩
  all_goals rcases Table.of_get?_insert hget with ⟨rfl, rfl⟩ | hget
  · exact ⟨_, List.mem_cons_self, rfl, rfl⟩
  · exact hbefore.byUuid _ _ hget
  · exact ⟨_, List.mem_cons_self, rfl, rfl⟩
  · exact hbefore.byApplication _ _ hget
  · exact ⟨rfl, _, List.mem_cons_self, rfl⟩
  · exact hbefore.applications _ _ hget
  · exact ⟨rfl, _, List.mem_cons_self, rfl, rfl⟩
  · exact hbefore.firewalls _ _ hget

/-- **An operation.** -/
theorem perform (h : IsRegistered ledger.registrations s) (operation : Operation) :
    IsRegistered (ledger.note settings s operation).registrations
      (s.perform settings operation) := by
  cases operation with
  | register application firewall =>
    cases hregister : s.register application firewall with
    | error failure => simpa only [Ledger.note, Store.perform, hregister] using h
    | ok store =>
      simp only [Ledger.note, Store.perform, hregister]
      exact h.register hregister
  | save uuid rule =>
    rcases hsave : s.saveRule settings uuid rule with ⟨result, counter, store⟩
    have hstore : s.perform settings (.save uuid rule) = store := congrArg (·.2.2) hsave
    rw [hstore]
    rcases Store.saveRule_outcomes hsave with
      ⟨_, _, rfl⟩ | ⟨_, _, ⟨_, _, rfl⟩ | ⟨_, rfl, _⟩⟩
    · exact h
    · exact h.withRules s.rules _
    · exact h.withRules _ _
  | delete uuid id =>
    cases hdelete : s.deleteRule uuid id with
    | error failure => simpa only [Ledger.note, Store.perform, hdelete] using h
    | ok deleted =>
      obtain ⟨_, _, _, _, hstore⟩ := Store.deleteRule_spec hdelete
      simp only [Ledger.note, Store.perform, hdelete, hstore]
      exact h.withRules _ s.nextRule
  | update uuid u =>
    cases hupdate : s.updateFirewall uuid u with
    | error failure => simpa only [Ledger.note, Store.perform, hupdate] using h
    | ok updated =>
      obtain ⟨_, old, _, hold, hstore⟩ := Store.updateFirewall_spec hupdate
      simp only [Ledger.note, Store.perform, hupdate, hstore]
      exact h.replace hold (old.update_id u) (old.update_applicationId u)
  | recordBouncer number name key =>
    cases hrecord : s.recordBouncer number name key with
    | error failure => simpa only [Ledger.note, Store.perform, hrecord] using h
    | ok recorded =>
      obtain ⟨old, hold, hstore⟩ := Store.recordBouncer_spec hrecord
      simp only [Ledger.note, Store.perform, hrecord, hstore]
      exact h.replace hold (by rfl) (by rfl)

end IsRegistered

/-- **From the beginning on.** -/
theorem isRegistered_after (settings : Settings.Scenarios) (operations : List Operation) :
    IsRegistered (Ledger.of settings operations).registrations (.after settings operations) := by
  induction operations using List.reverseRecOn with
  | nil => exact .empty
  | append_singleton operations operation ih =>
    rw [Store.after_concat, Ledger.of_concat]
    exact ih.perform operation

/-! ## A uuid, an application and a firewall -/

/-- **They go together**: a registration that names one of them names all three. -/
def GoTogether (registrations : List (Application × Firewall)) (uuid : String)
    (id number : UInt64) : Prop :=
  ∀ r ∈ registrations, r.1.uuid = uuid ∨ r.1.id = id ∨ r.2.id = number →
    r.1.uuid = uuid ∧ r.1.id = id ∧ r.2.id = number

variable {uuid : String} {id number : UInt64}

instance (registrations : List (Application × Firewall)) (uuid : String) (id number : UInt64) :
    Decidable (GoTogether registrations uuid id number) :=
  inferInstanceAs (Decidable (∀ r ∈ registrations,
    r.1.uuid = uuid ∨ r.1.id = id ∨ r.2.id = number →
      r.1.uuid = uuid ∧ r.1.id = id ∧ r.2.id = number))

theorem GoTogether.of_subset (h : GoTogether others uuid id number)
    (hsubset : registrations ⊆ others) : GoTogether registrations uuid id number :=
  fun r hr => h r (hsubset hr)

theorem Ledger.registrations_subset_note (settings : Settings.Scenarios) (s : Store)
    (ledger : Ledger) (operation : Operation) :
    ledger.registrations ⊆ (ledger.note settings s operation).registrations := by
  cases operation <;> simp only [note]
  case save => exact List.Subset.refl _
  case register => split <;> simp only [List.Subset.refl, List.subset_cons_self]
  all_goals split <;> exact List.Subset.refl _

namespace IsRegistered

/-- **What is found for a uuid**: an application with its number, and a firewall with the number
that the application was registered with. -/
theorem of_firewallFor (h : IsRegistered registrations s) {name : String} {firewall : Firewall}
    (hfirewall : s.firewallFor name = .ok firewall) :
    ∃ r ∈ registrations, ∃ r' ∈ registrations,
      r.1.uuid = name ∧ r'.1.id = r.1.id ∧ r'.2.id = firewall.id ∧
      s.firewalls.get? firewall.id = some firewall := by
  obtain ⟨found, application, key, huuid, happlication, hkey, hget⟩ :=
    Store.firewallFor_eq_ok_iff.mp hfirewall
  obtain ⟨r, hr, hname, hid⟩ := h.byUuid _ _ huuid
  obtain ⟨r', hr', hid', hnumber⟩ := h.byApplication _ _ hkey
  have hfound := (h.applications _ _ happlication).1
  have hself := (h.firewalls _ _ hget).1
  exact ⟨r, hr, r', hr', hname, hid'.trans (hfound.trans hid.symm), hnumber.trans hself.symm,
    hself.symm ▸ hget⟩

/-- The firewall of the three is found for their uuid, and for no other. -/
theorem uuid_iff (h : IsRegistered registrations s)
    (htogether : GoTogether registrations uuid id number)
    {name : String} {firewall : Firewall} (hfirewall : s.firewallFor name = .ok firewall) :
    name = uuid ↔ firewall.id = number := by
  obtain ⟨r, hr, r', hr', rfl, hid, hnumber, -⟩ := h.of_firewallFor hfirewall
  constructor
  · intro hname
    obtain ⟨-, hmine, -⟩ := htogether r hr (.inl hname)
    rw [← hnumber]
    exact (htogether r' hr' (.inr (.inl (hid.trans hmine)))).2.2
  · intro hmine
    obtain ⟨-, hid', -⟩ := htogether r' hr' (.inr (.inr (hnumber.trans hmine)))
    exact (htogether r hr (.inr (.inl (hid.symm.trans hid')))).1

end IsRegistered

/-- **What the store holds for them** is what the ledger says. -/
structure IsTracked (ledger : Ledger) (uuid : String) (number : UInt64) (s : Store) : Prop where
  rulesOnce : s.rules.keys.Nodup
  rules : ∀ key, s.rules.get? key = (ledger.rules key).map (·.2)
  numbered : ∀ key name rule, ledger.rules key = some (name, rule) → rule.id = key
  owner : ∀ key name rule, ledger.rules key = some (name, rule) →
    (name = uuid ↔ rule.firewallId = number)
  firewall : ledger.firewalls uuid = s.firewalls.get? number

namespace IsTracked

theorem empty : IsTracked {} uuid number {} :=
  ⟨List.nodup_nil, fun _ => rfl, nofun, nofun, rfl⟩

theorem register (h : IsTracked ledger uuid number s) {store : Store} {application : Application}
    {firewall : Firewall} (hregister : s.register application firewall = .ok store)
    (htogether : GoTogether (ledger.note settings s (.register application firewall)).registrations
      uuid id number) :
    IsTracked (ledger.note settings s (.register application firewall)) uuid number store := by
  simp only [Ledger.note, hregister] at htogether ⊢
  obtain ⟨_, _, hregister⟩ := Except.bind_eq_ok_iff.mp hregister
  obtain rfl := Except.ok.inj hregister
  refine ⟨h.rulesOnce, h.rules, h.numbered, h.owner, ?_⟩
  have hmine := htogether (application, firewall) List.mem_cons_self
  change Function.update ledger.firewalls application.uuid _ uuid =
    (s.firewalls.insert firewall.id _).get? number
  rw [Table.get?_insert]
  by_cases huuid : application.uuid = uuid
  · rw [if_pos (hmine (.inl huuid)).2.2.symm, huuid, Function.update_self]
  · have hnumber : number ≠ firewall.id :=
      fun heq => huuid (hmine (.inr (.inr heq.symm))).1
    rw [if_neg hnumber, Function.update_of_ne (Ne.symm huuid)]
    exact h.firewall

theorem save (h : IsTracked ledger uuid number s)
    (hregistered : IsRegistered ledger.registrations s)
    (htogether : GoTogether ledger.registrations uuid id number) (name : String) (rule : Rule) :
    IsTracked (ledger.note settings s (.save name rule)) uuid number
      (s.perform settings (.save name rule)) := by
  rcases hsave : s.saveRule settings name rule with ⟨result, counter, store⟩
  have hstore : s.perform settings (.save name rule) = store := congrArg (·.2.2) hsave
  have hresult : (s.saveRule settings name rule).1 = result := congrArg (·.1) hsave
  simp only [Ledger.note, hstore, hresult]
  rcases Store.saveRule_outcomes hsave with
    ⟨_, rfl, rfl⟩ | ⟨firewall, hfirewall, ⟨_, rfl, rfl⟩ | ⟨rfl, rfl, _⟩⟩
  · exact h
  · exact ⟨h.rulesOnce, h.rules, h.numbered, h.owner, h.firewall⟩
  · have howner := hregistered.uuid_iff htogether hfirewall
    refine ⟨Table.nodup_keys_insert h.rulesOnce _ _, fun key => ?_, fun key other saved hkey => ?_,
      fun key other saved hkey => ?_, h.firewall⟩
    all_goals simp only [Except.map, Tenants.Log.note, Store.numbered] at *
    · rw [Table.get?_insert]
      by_cases hkey : key = s.numberFor rule
      · rw [if_pos hkey, hkey, Function.update_self]
        rfl
      · rw [if_neg hkey, Function.update_of_ne hkey]
        exact h.rules key
    · by_cases hself : key = s.numberFor rule
      · rw [hself, Function.update_self] at hkey
        cases hkey
        exact hself.symm
      · rw [Function.update_of_ne hself] at hkey
        exact h.numbered key other saved hkey
    · by_cases hself : key = s.numberFor rule
      · rw [hself, Function.update_self] at hkey
        cases hkey
        exact howner
      · rw [Function.update_of_ne hself] at hkey
        exact h.owner key other saved hkey

theorem delete (h : IsTracked ledger uuid number s) (name : String) (key : UInt64) :
    IsTracked (ledger.note settings s (.delete name key)) uuid number
      (s.perform settings (.delete name key)) := by
  cases hdelete : s.deleteRule name key with
  | error failure => simpa only [Ledger.note, Store.perform, hdelete] using h
  | ok deleted =>
    obtain ⟨_, _, _, _, hstore⟩ := Store.deleteRule_spec hdelete
    simp only [Ledger.note, Store.perform, hdelete, hstore]
    have hkept : ∀ other found, Function.update ledger.rules key none other = some found →
        ledger.rules other = some found := by
      intro other found hget
      by_cases hself : other = key
      · rw [hself, Function.update_self] at hget
        cases hget
      · rwa [Function.update_of_ne hself] at hget
    refine ⟨Table.nodup_keys_erase h.rulesOnce _, fun other => ?_,
      fun other _ _ hget => h.numbered other _ _ (hkept other _ hget),
      fun other _ _ hget => h.owner other _ _ (hkept other _ hget), h.firewall⟩
    rw [Table.get?_erase]
    by_cases hself : other = key
    · rw [if_pos hself, hself]
      simp only [Function.update_self, Option.map_none]
    · rw [if_neg hself]
      simp only [Function.update_of_ne hself]
      exact h.rules other

theorem update (h : IsTracked ledger uuid number s)
    (hregistered : IsRegistered ledger.registrations s)
    (htogether : GoTogether ledger.registrations uuid id number) (name : String)
    (u : FirewallUpdate) :
    IsTracked (ledger.note settings s (.update name u)) uuid number
      (s.perform settings (.update name u)) := by
  cases hupdate : s.updateFirewall name u with
  | error failure => simpa only [Ledger.note, Store.perform, hupdate] using h
  | ok updated =>
    obtain ⟨firewall, old, hfirewall, hold, hstore⟩ := Store.updateFirewall_spec hupdate
    simp only [Ledger.note, Store.perform, hupdate, hstore]
    refine ⟨h.rulesOnce, h.rules, h.numbered, h.owner, ?_⟩
    have howner := hregistered.uuid_iff htogether hfirewall
    change Function.update ledger.firewalls name _ uuid =
      (s.firewalls.insert firewall.id (old.update u)).get? number
    rw [Table.get?_insert]
    by_cases hname : name = uuid
    · have hnumber := howner.mp hname
      rw [if_pos hnumber.symm, hname, Function.update_self, h.firewall, ← hnumber, hold]
      rfl
    · rw [if_neg fun heq => hname (howner.mpr heq.symm), Function.update_of_ne (Ne.symm hname)]
      exact h.firewall

theorem recordBouncer (h : IsTracked ledger uuid number s)
    (hregistered : IsRegistered ledger.registrations s) (other : UInt64) (name key : String) :
    IsTracked (ledger.note settings s (.recordBouncer other name key)) uuid number
      (s.perform settings (.recordBouncer other name key)) := by
  cases hrecord : s.recordBouncer other name key with
  | error failure => simpa only [Ledger.note, Store.perform, hrecord] using h
  | ok recorded =>
    obtain ⟨old, hold, hstore⟩ := Store.recordBouncer_spec hrecord
    simp only [Ledger.note, Store.perform, hrecord, hstore]
    refine ⟨h.rulesOnce, h.rules, h.numbered, h.owner, ?_⟩
    change (ledger.firewalls uuid).map _ = (s.firewalls.insert other _).get? number
    rw [Table.get?_insert, h.firewall]
    by_cases hnumber : number = other
    · rw [if_pos hnumber, hnumber, hold, Option.map_some, if_pos (hregistered.firewalls _ _ hold).1]
    · rw [if_neg hnumber]
      cases hget : s.firewalls.get? number with
      | none => rfl
      | some found =>
        rw [Option.map_some, if_neg]
        exact fun heq => hnumber ((hregistered.firewalls _ _ hget).1.symm.trans heq)

/-- **An operation**, after which the three still go together. -/
theorem perform (h : IsTracked ledger uuid number s)
    (hregistered : IsRegistered ledger.registrations s) {operation : Operation}
    (htogether : GoTogether (ledger.note settings s operation).registrations uuid id number) :
    IsTracked (ledger.note settings s operation) uuid number (s.perform settings operation) := by
  have hbefore := htogether.of_subset (ledger.registrations_subset_note settings s operation)
  cases operation with
  | register application firewall =>
    cases hregister : s.register application firewall with
    | error failure => simpa only [Ledger.note, Store.perform, hregister] using h
    | ok store =>
      simp only [Store.perform, hregister]
      exact h.register hregister htogether
  | save name rule => exact h.save hregistered hbefore name rule
  | delete name key => exact h.delete name key
  | update name u => exact h.update hregistered hbefore name u
  | recordBouncer other name key => exact h.recordBouncer hregistered other name key

end IsTracked

/-- **From the beginning on**, if the three go together in the end. -/
theorem isTracked_after {operations : List Operation}
    (htogether : GoTogether (Ledger.of settings operations).registrations uuid id number) :
    IsTracked (.of settings operations) uuid number (.after settings operations) := by
  induction operations using List.reverseRecOn with
  | nil => exact .empty
  | append_singleton operations operation ih =>
    rw [Ledger.of_concat] at htogether
    rw [Store.after_concat, Ledger.of_concat]
    have hbefore := htogether.of_subset
      ((Ledger.of settings operations).registrations_subset_note settings _ operation)
    exact (ih hbefore).perform (isRegistered_after settings operations) htogether

/-! ## Contexts -/

/-- Nobody mixes what belongs to a uuid: whoever names it, or the application or the firewall that
it was registered with, names all three. -/
def IsUnmixed (ledger : Ledger) (uuid : String) : Prop :=
  ∀ r ∈ ledger.registrations, r.1.uuid = uuid → GoTogether ledger.registrations uuid r.1.id r.2.id

instance (ledger : Ledger) (uuid : String) : Decidable (IsUnmixed ledger uuid) :=
  inferInstanceAs (Decidable (∀ r ∈ ledger.registrations,
    r.1.uuid = uuid → GoTogether ledger.registrations uuid r.1.id r.2.id))

/-- **A context is what the ledger says.** Whatever was asked for before, by anyone, as long as
nobody mixes what belongs to a uuid: if there is a context for it, the application has this uuid,
its firewall is as it was registered or changed last, its rules are those that were saved through
this uuid, and no other uuid has the same firewall. -/
theorem context_as_noted {operations : List Operation} {uuid : String}
    (hunmixed : IsUnmixed (.of settings operations) uuid) {servers : Registry} {context : Context}
    (hcontext : (Store.after settings operations).contextFor servers uuid = .ok context) :
    context.application.uuid = uuid ∧
    (Ledger.of settings operations).firewalls uuid = some context.firewall ∧
    (∀ rule, rule ∈ context.rules ↔
      (Ledger.of settings operations).rules rule.id = some (uuid, rule)) ∧
    ∀ other, other ≠ uuid → ∀ firewall,
      (Store.after settings operations).firewallFor other = .ok firewall →
        firewall.id ≠ context.firewall.id := by
  have hregistered := isRegistered_after settings operations
  obtain ⟨firewall, hfirewall, hcontext⟩ := Except.bind_eq_ok_iff.mp hcontext
  obtain ⟨r, hr, r', -, huuid, -, -, hget⟩ := hregistered.of_firewallFor hfirewall
  have htogether := hunmixed r hr huuid
  have hnumber := (hregistered.uuid_iff htogether hfirewall).mp rfl
  have htracked := isTracked_after htogether
  rw [hnumber] at hget hcontext
  obtain ⟨found, hfound, hcontext⟩ := Except.bind_eq_ok_iff.mp hcontext
  rw [Store.firewall_eq_ok_iff, hget] at hfound
  obtain rfl := Option.some.inj hfound
  split at hcontext
  · cases hcontext
  rename_i application happlication
  obtain ⟨server, -, hcontext⟩ := Except.bind_eq_ok_iff.mp hcontext
  obtain rfl := Except.ok.inj hcontext
  obtain ⟨-, owner, howner, hnumber', hid⟩ := hregistered.firewalls _ _ hget
  have hmine := htogether owner howner (.inr (.inr hnumber'))
  obtain ⟨hself, mine, hmember, rfl⟩ := hregistered.applications _ _ happlication
  refine ⟨?_, htracked.firewall.trans hget, fun rule => ?_, fun other hother another hanother => ?_⟩
  · exact (htogether mine hmember (.inr (.inl (hself.trans (hid.symm.trans hmine.2.1))))).1
  · rw [Context.of, List.mem_mergeSort, Site.mem_rulesOf htracked.rulesOnce]
    constructor
    · rintro ⟨key, hrule, howned⟩
      rw [htracked.rules, Option.map_eq_some_iff] at hrule
      obtain ⟨⟨name, saved⟩, hsaved, rfl⟩ := hrule
      obtain rfl := htracked.numbered key name saved hsaved
      obtain rfl := (htracked.owner _ _ _ hsaved).mpr howned
      exact hsaved
    · intro hsaved
      refine ⟨rule.id, ?_, (htracked.owner _ _ _ hsaved).mp rfl⟩
      rw [htracked.rules, hsaved]
      rfl
  · intro hsame
    exact hother ((hregistered.uuid_iff htogether hanother).mpr (hsame.trans hnumber))

/-! ## Two applications -/

namespace Ledger.Demo

/-- Two applications with rules, one of which is switched off. -/
def operations : List Operation :=
  [.register { id := 1, uuid := "abc", name := "shop", serverId := 1 } { id := 1, enabled := true },
    .register { id := 2, uuid := "xyz", name := "blog", serverId := 1 }
      { id := 2, enabled := true },
    .save "abc" { Tenants.Demo.rule with id := 0 }, .save "xyz" Tenants.Demo.rule,
    .update "abc" { enabled := some false }]

/-- The second application is registered with the first one's number. -/
def mixed : List Operation :=
  [.register { id := 1, uuid := "abc", name := "shop", serverId := 1 } { id := 1, enabled := true },
    .register { id := 1, uuid := "xyz", name := "blog", serverId := 1 }
      { id := 2, enabled := true }]

end Ledger.Demo

/-- The context of the application that is switched off. -/
theorem context_as_noted_switched_off :
    IsUnmixed (.of {} Ledger.Demo.operations) "abc" ∧
    ∃ context, (Store.after {} Ledger.Demo.operations).contextFor Tenants.Demo.bare.registry "abc" =
        .ok context ∧
      context.application.uuid = "abc" ∧
      (Ledger.of {} Ledger.Demo.operations).firewalls "abc" = some context.firewall ∧
      ∀ rule, rule ∈ context.rules ↔
        (Ledger.of {} Ledger.Demo.operations).rules rule.id = some ("abc", rule) := by
  have hunmixed : IsUnmixed (.of {} Ledger.Demo.operations) "abc" := by decide +kernel
  cases hcontext :
      (Store.after {} Ledger.Demo.operations).contextFor Tenants.Demo.bare.registry "abc" with
  | error failure =>
    have hsome : ((Store.after {} Ledger.Demo.operations).contextFor Tenants.Demo.bare.registry
        "abc").toOption.isSome := by decide +kernel
    rw [hcontext] at hsome
    cases hsome
  | ok context =>
    obtain ⟨huuid, hfirewall, hrules, -⟩ := context_as_noted hunmixed hcontext
    exact ⟨hunmixed, context, rfl, huuid, hfirewall, hrules⟩

/-- **Registrations that share an application's number**: what is found for the first uuid is the
second application, with the firewall that was registered for it. -/
theorem context_of_another :
    ¬ IsUnmixed (.of {} Ledger.Demo.mixed) "abc" ∧
    ((Store.after {} Ledger.Demo.mixed).contextFor Tenants.Demo.bare.registry "abc").map
      (fun context => (context.application.uuid, context.firewall.id)) = .ok ("xyz", 2) ∧
    (Ledger.of {} Ledger.Demo.mixed).firewalls "abc" =
      some { id := 1, applicationId := 1, enabled := true } ∧
    (Store.after {} Ledger.Demo.mixed).firewallFor "xyz" =
      (Store.after {} Ledger.Demo.mixed).firewallFor "abc" := by
  decide +kernel

end Rampart
