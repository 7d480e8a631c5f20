import Rampart.Proofs.Orchestrator.Pulling
import Rampart.Proofs.Scenario.Ownership
import Rampart.Proofs.Store.Compilable
import Rampart.Proofs.Store.Directory

/-!
# To whom alerts go

An engine sees the traffic of all applications on its server. What it reports goes to the one that
the first source names, and to nobody if that one is not there.

* `Names ns alert uuid`: the sources of an owner, in their order. `names_iff`: the program follows
  them; `Names.unique`: an alert names one owner at most.
* `Orchestrator.ownerOf?_eq_some_iff`: to go to an application, an alert has to name it, and to
  come from its server.
* `AlertFeeds.of_mem_feed_after`: an entry of a feed has been there, or has come in for its
  application.
* `isListing`: whether a server has answered. `Orchestrator.IsRound.gathered_filter`: those that
  have not might as well not have been asked.
* **`alerts_go_to_owner`**: all of it, for the pulls of any store whose applications can be told
  apart.
-/

namespace Rampart

open Execution

/-! ## Sources -/

/-- **The owner that an alert names**: in its facts; if they name none, by its scenario; if that
names none, by the first of its decisions whose reason does. -/
inductive Names (ns : String) (alert : Engine.Alert) (uuid : String) : Prop
  | fact (h : alert.fact? "app_uuid" = some uuid)
  | scenario (hfact : alert.fact? "app_uuid" = none) (h : ownerOf? ns alert.scenario = some uuid)
  | reason (hfact : alert.fact? "app_uuid" = none) (hscenario : ownerOf? ns alert.scenario = none)
    {before after : List Engine.Decision} {d : Engine.Decision}
    (hdecisions : alert.decisionList = before ++ d :: after)
    (hbefore : ∀ d' ∈ before, ownerOf? ns d'.scenario = none)
    (h : ownerOf? ns d.scenario = some uuid)

variable {ns uuid : String} {alert : Engine.Alert}

/-- The sources, one after another. -/
theorem Orchestrator.namedBy?_eq (ns : String) (alert : Engine.Alert) :
    namedBy? ns alert = match alert.fact? "app_uuid" with
      | some uuid => some uuid
      | none => match Rampart.ownerOf? ns alert.scenario with
        | some uuid => some uuid
        | none => alert.decisionList.findSome? fun d => Rampart.ownerOf? ns d.scenario := by
  unfold namedBy?
  cases alert.fact? "app_uuid" with
  | some uuid => rfl
  | none => cases Rampart.ownerOf? ns alert.scenario <;> rfl

theorem names_iff : Names ns alert uuid ↔ Orchestrator.namedBy? ns alert = some uuid := by
  rw [Orchestrator.namedBy?_eq]
  cases hfact : alert.fact? "app_uuid" with
  | some named =>
    constructor
    · rintro (h | ⟨hnone, -⟩ | ⟨hnone, -⟩)
      · exact hfact.symm.trans h
      · cases hfact.symm.trans hnone
      · cases hfact.symm.trans hnone
    · exact fun h => .fact (hfact.trans h)
  | none =>
    cases hscenario : ownerOf? ns alert.scenario with
    | some named =>
      constructor
      · rintro (h | ⟨-, h⟩ | ⟨-, hnone, -⟩)
        · cases hfact.symm.trans h
        · exact hscenario.symm.trans h
        · cases hscenario.symm.trans hnone
      · exact fun h => .scenario hfact (hscenario.trans h)
    | none =>
      dsimp only
      rw [List.findSome?_eq_some_iff]
      constructor
      · rintro (h | ⟨-, h⟩ | ⟨-, -, hdecisions, hbefore, h⟩)
        · cases hfact.symm.trans h
        · cases hscenario.symm.trans h
        · exact ⟨_, _, _, hdecisions, h, hbefore⟩
      · rintro ⟨before, d, after, hdecisions, h, hbefore⟩
        exact .reason hfact hscenario hdecisions hbefore h

/-- An alert names one owner at most. -/
theorem Names.unique {other : String} (h : Names ns alert uuid) (h' : Names ns alert other) :
    uuid = other :=
  Option.some.inj ((names_iff.mp h).symm.trans (names_iff.mp h'))

namespace Orchestrator

variable {s : Orchestrator} {server : UInt64} {application : Application}
  {operations : List Operation}

/-- **To go to an application**, an alert has to name it and to come from its server. -/
theorem ownerOf?_eq_some_iff (hstore : s.store = .after s.settings.scenarios operations)
    (hapart : ToldApart (Ledger.of s.settings.scenarios operations).registrations) :
    s.ownerOf? server alert = some application ↔
      s.store.applications.get? application.id = some application ∧
        application.serverId = server ∧ Names s.settings.scenarios.ns alert application.uuid := by
  have hlookup : ∀ uuid, s.store.application uuid = .ok application ↔
      s.store.applications.get? application.id = some application ∧ application.uuid = uuid := by
    rw [hstore]
    exact fun uuid => Store.application_after_iff hapart
  have howner : s.ownerOf? server alert = some application ↔
      ∃ uuid, namedBy? s.settings.scenarios.ns alert = some uuid ∧
        s.store.application uuid = .ok application ∧ application.serverId = server := by
    unfold ownerOf?
    constructor
    · intro h
      split at h
      · cases h
      · next uuid hnamed =>
        split at h
        · next found hfound =>
          split at h
          · next hserver =>
            cases h
            exact ⟨uuid, hnamed, hfound, hserver⟩
          · cases h
        · cases h
    · rintro ⟨uuid, hnamed, hfound, hserver⟩
      rw [hnamed]
      dsimp only
      rw [hfound]
      exact if_pos hserver
  rw [howner]
  constructor
  · rintro ⟨uuid, hnamed, happlication, hserver⟩
    obtain ⟨hget, rfl⟩ := (hlookup uuid).mp happlication
    exact ⟨hget, hserver, names_iff.mpr hnamed⟩
  · rintro ⟨hget, hserver, hnames⟩
    exact ⟨_, names_iff.mp hnames, (hlookup _).mpr ⟨hget, rfl⟩, hserver⟩

end Orchestrator

/-! ## Feeds -/

/-- An entry of a feed has been there, or has come in for the application of the feed. -/
theorem AlertFeeds.of_mem_feed_after {f : AlertFeeds} {alerts : List Alert} {uuid : String}
    {entry : Alert} (h : entry ∈ (f.after alerts).feed uuid) :
    entry ∈ f.feed uuid ∨
      ∃ alert ∈ alerts, alert.uuid = uuid ∧ ∃ number, entry = { alert with id := number } := by
  induction alerts generalizing f with
  | nil => exact .inl h
  | cons alert alerts ih =>
    rcases ih (f := (f.record alert).2) h with hentry | ⟨other, hother, hrest⟩
    · cases hrefuses : f.refuses alert with
      | true =>
        rw [record_of_refuses hrefuses] at hentry
        exact .inl hentry
      | false =>
        rw [(record_of_not_refuses hrefuses).2.2] at hentry
        split at hentry
        · next huuid =>
          rcases List.mem_append.mp (List.mem_of_mem_drop hentry) with hold | hnew
          · exact .inl hold
          · exact .inr ⟨alert, List.mem_cons_self, huuid, _, List.mem_singleton.mp hnew⟩
        · exact .inl hentry
    · exact .inr ⟨other, List.mem_cons_of_mem alert hother, hrest⟩

/-! ## Servers that do not answer -/

/-- Whether an answer is a listing. -/
def isListing (answer : Except Failure String) : Bool :=
  match listed Engine.alertsIn answer with
  | .ok _ => true
  | .error _ => false

/-- What is no listing tells nothing. -/
theorem heard_eq_nil {answer : Except Failure String} (h : isListing answer = false) :
    heard answer = [] := by
  unfold isListing at h
  unfold heard
  cases hlisting : listed Engine.alertsIn answer with
  | ok alerts =>
    rw [hlisting] at h
    cases h
  | error failure => rfl

/-- **Servers whose listing fails** might as well not have been asked. -/
theorem Orchestrator.IsRound.gathered_filter {s : Orchestrator}
    {answer : Server → Remote.Call → Except Failure String} {visits : List Visit}
    (h : s.IsRound answer visits) :
    s.gathered (visits.filter fun v => isListing (answer v.server s.alertsCall)) =
      s.gathered visits := by
  have halerts := h.alerts
  clear h
  induction visits with
  | nil => rfl
  | cons v visits ih =>
    obtain ⟨hv, hvisits⟩ := List.forall_mem_cons.mp halerts
    rw [List.filter_cons, gathered_cons, ← ih hvisits]
    cases hanswer : isListing (answer v.server s.alertsCall) with
    | true => rw [if_pos rfl, gathered_cons]
    | false =>
      rw [if_neg Bool.false_ne_true, hv, heard_eq_nil hanswer]
      rfl

namespace AlertSync

/-- **Alerts go to their owner only.** Take any pull, over a store whose applications can be told
apart by number and by uuid. What the feed of an application gets has come from an alert that goes
to it. An alert goes to the application that its first source names, and to nobody if that one is
not known or is on another server. So alerts of a scenario, or of a ban, go to the application of
the rule that it was made for. A server whose listing fails adds nothing and takes nothing from
the others. -/
theorem alerts_go_to_owner {s : Orchestrator} {operations : List Operation}
    (hstore : s.store = .after s.settings.scenarios operations)
    (hapart : ToldApart (Ledger.of s.settings.scenarios operations).registrations)
    {answer : Server → Remote.Call → Except Failure String} {held : List Lock} {w' : Shared Unit}
    {n : Nat} (hpull : Alone (.steady answer) ⟨s, held, ()⟩ pull w' n) :
    let ns := s.settings.scenarios.ns
    let known := fun application : Application =>
      s.store.applications.get? application.id = some application
    ∃ visits, Pulled answer s visits w'.state n ∧
      (∀ uuid, ∀ entry ∈ w'.state.feeds.feed uuid, entry ∈ s.feeds.feed uuid ∨
        ∃ v ∈ visits, ∃ alert ∈ v.alerts, ∃ application recorded number,
          s.ownerOf? v.server.id alert = some application ∧ application.uuid = uuid ∧
          Alert.ofEngine? alert application v.server.id v.time = some recorded ∧
          entry = { recorded with id := number }) ∧
      (∀ server alert application, s.ownerOf? server alert = some application ↔
        known application ∧ application.serverId = server ∧ Names ns alert application.uuid) ∧
      (∀ alert uuid other, Names ns alert uuid → Names ns alert other → uuid = other) ∧
      (∀ server alert uuid, Names ns alert uuid →
        (∀ application, known application → application.uuid = uuid →
          application.serverId ≠ server) → s.ownerOf? server alert = none) ∧
      (∀ application, known application → ∀ alert : Engine.Alert,
        alert.fact? "app_uuid" = none →
        ((∃ rule, alert.scenario = scenarioName ns application.uuid rule) ∨
          ownerOf? ns alert.scenario = none ∧ ∃ before d after rule,
            alert.decisionList = before ++ d :: after ∧
            (∀ d' ∈ before, ownerOf? ns d'.scenario = none) ∧
            d.scenario = banReason ns application.uuid rule) →
        s.ownerOf? application.serverId alert = some application) ∧
      (∀ v ∈ visits, isListing (answer v.server s.alertsCall) = false → v.alerts = []) ∧
      w'.state.feeds = s.feeds.after
        (s.gathered (visits.filter fun v => isListing (answer v.server s.alertsCall))) := by
  intro ns known
  obtain ⟨visits, hpulled, -⟩ := alone_pull_iff.mp hpull
  have howner : ∀ server alert application, s.ownerOf? server alert = some application ↔
      known application ∧ application.serverId = server ∧ Names ns alert application.uuid :=
    fun _ _ _ => Orchestrator.ownerOf?_eq_some_iff hstore hapart
  refine ⟨visits, hpulled, fun uuid entry hentry => ?_, howner, fun _ _ _ => Names.unique,
    fun server alert uuid hnames hnone => ?_, fun application hknown alert hfact hmade => ?_,
    fun v hv hanswer => ?_, ?_⟩
  · rw [hpulled.feeds] at hentry
    refine (AlertFeeds.of_mem_feed_after hentry).imp_right ?_
    rintro ⟨recorded, hmem, huuid, number, rfl⟩
    obtain ⟨v, hv, hattributed⟩ := List.mem_flatMap.mp hmem
    obtain ⟨alert, halert, heq⟩ := List.mem_filterMap.mp hattributed
    obtain ⟨application, hwho, hmade⟩ := (s.attributed?_eq_some_iff _ _).mp heq
    refine ⟨v, hv, alert, halert, application, recorded, number, hwho, ?_, hmade, rfl⟩
    exact (Alert.of_ofEngine?_eq_some hmade).2.2.1.symm.trans huuid
  · rw [Option.eq_none_iff_forall_ne_some]
    intro application hwho
    obtain ⟨hknown, hserver, hnamed⟩ := (howner server alert application).mp hwho
    exact hnone application hknown (hnamed.unique hnames) hserver
  · have huuid : isUuid application.uuid = true := by
      have hget : s.store.applications.get? application.id = some application := hknown
      rw [hstore] at hget
      exact (Store.isSound_after _ operations).uuids _ (Table.mem_values_of_get? hget)
    refine (howner _ _ _).mpr ⟨hknown, rfl, ?_⟩
    rcases hmade with ⟨rule, hscenario⟩ | ⟨hscenario, before, d, after, rule, hlist, hbefore, hd⟩
    · exact .scenario hfact (hscenario ▸ ownerOf?_scenarioName huuid ns rule)
    · exact .reason hfact hscenario hlist hbefore (hd ▸ ownerOf?_banReason huuid ns rule)
  · rw [hpulled.round.alerts v hv, heard_eq_nil hanswer]
  · rw [hpulled.round.gathered_filter, hpulled.feeds]

namespace Tenancy

/-- Two applications, each on a server of its own. -/
def shop : Application := { id := 1, uuid := "shop", name := "shop", serverId := 1 }

/-- The uuid of this one extends the other's. -/
def mall : Application := { id := 2, uuid := "shop-2", name := "mall", serverId := 2 }

/-- Both are taken in, each with an active firewall. -/
def operations : List Operation :=
  [.register shop { id := 1, applicationId := 1, enabled := true, apiKey := "k" },
    .register mall { id := 2, applicationId := 2, enabled := true, apiKey := "k" }]

/-- A server with an engine. -/
def server (id : UInt64) : Server :=
  { id, name := "one", host := "one.test"
    status := { engineInstalled := true, engineAvailable := true } }

/-- Both servers, and the applications on them. -/
def state : Orchestrator where
  registry := ⟨[server 1, server 2]⟩
  store := .after {} operations

/-- The first server has nothing to tell, the second one fails. -/
def answer (server : Server) (_ : Remote.Call) : Except Failure String :=
  if server.id = 1 then .ok "[]" else .error (.transport "connection lost")

/-- An alert of a scenario. -/
def scanned : Engine.Alert where
  scenario := scenarioName "bastion" "shop" (Rampart.Demo.named "Scan" 1)

/-- An alert with the reason of a ban, behind a decision of nobody. -/
def banned : Engine.Alert where
  scenario := "ssh-bf"
  decisions := some [
    { id := 1, kind := "ban", scope := "Ip", value := "10.0.0.1", scenario := "manual" },
    { id := 2, kind := "ban", scope := "Ip", value := "10.0.0.1",
      scenario := banReason "bastion" "shop-2" 7 }]

end Tenancy

/-- A scenario of one application, and a ban of another whose uuid extends the first one's. -/
theorem alerts_go_to_owner_two_servers :
    ToldApart (Ledger.of {} Tenancy.operations).registrations ∧
      ∃ w' n, Alone (.steady Tenancy.answer) ⟨Tenancy.state, [], ()⟩ pull w' n ∧
        Tenancy.state.ownerOf? 1 Tenancy.scanned = some Tenancy.shop ∧
        Tenancy.state.ownerOf? 2 Tenancy.banned = some Tenancy.mall := by
  have hapart : ToldApart (Ledger.of {} Tenancy.operations).registrations := by decide +kernel
  obtain ⟨w', n, hpull⟩ := exists_alone_pull Tenancy.answer ⟨Tenancy.state, [], ()⟩
  have hstore : Tenancy.state.store =
      .after Tenancy.state.settings.scenarios Tenancy.operations := rfl
  obtain ⟨visits, -, -, -, -, -, howned, -⟩ := alerts_go_to_owner hstore hapart hpull
  have hshop := howned Tenancy.shop (by decide +kernel) Tenancy.scanned (by decide +kernel)
    (.inl ⟨Rampart.Demo.named "Scan" 1, rfl⟩)
  have hmall := howned Tenancy.mall (by decide +kernel) Tenancy.banned (by decide +kernel)
    (.inr ⟨by decide +kernel, [_], _, [], 7, rfl, by decide +kernel, rfl⟩)
  exact ⟨hapart, w', n, hpull, hshop, hmall⟩

end AlertSync

end Rampart
