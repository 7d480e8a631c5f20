import Rampart.Orchestrator.Work
import Rampart.Proofs.Alert
import Rampart.Proofs.Execution.Alone
import Rampart.Proofs.Execution.Discipline

/-!
# What a pull does

A pull of alerts as one change of the feeds: every listing that an engine gives is sifted for the
alerts that go to applications, and these come into the feeds one after another.

* `Orchestrator.attributed`: what of a listing goes to applications, in its order.
  `keepAlerts_eq`: keeping a listing is nothing but that coming into the feeds.
* `heard`: what is heard from a server; a server that does not answer, or not with a listing, says
  nothing. `Visit`: one server with its listing and the time. `IsRound`: the visits of a pull.
* **`alone_pull_iff`**: all that a pull can do, from its visits.
* `History`: any visits of any pulls, with anything in between that leaves the feeds alone.
  `pull_obeys`: whatever else happens, each step of a pull is one of these.
-/

namespace Rampart

open Execution

/-! ## One listing -/

namespace AlertFeeds

variable (f : AlertFeeds) (xs ys : List Alert)

theorem after_append : f.after (xs ++ ys) = (f.after xs).after ys :=
  List.foldl_append

theorem accepted_append :
    f.accepted (xs ++ ys) = f.accepted xs ++ (f.after xs).accepted ys := by
  induction xs generalizing f with
  | nil => rfl
  | cons x xs ih =>
    rw [List.cons_append, accepted, accepted, List.append_assoc, ih]
    rfl

end AlertFeeds

namespace Alert

variable {alert : Engine.Alert} {application : Application} {server : UInt64} {now : Instant}

/-- What an alert of an application has from the engine's alert and from the application. -/
theorem of_ofEngine?_eq_some {entry : Alert}
    (h : ofEngine? alert application server now = some entry) :
    alert.sourceIp? = some entry.ip ∧ entry.applicationId = application.id ∧
      entry.uuid = application.uuid ∧ entry.serverId = server ∧
      entry.engineAlertId = alert.id := by
  unfold ofEngine? at h
  split at h
  · cases h
  · next hip =>
    cases h
    exact ⟨hip, rfl, rfl, rfl, rfl⟩

/-- An alert that tells its time is the same whenever it is pulled. -/
theorem ofEngine?_eq_of_createdAt (h : alert.createdAt.isSome = true) (now' : Instant) :
    ofEngine? alert application server now = ofEngine? alert application server now' := by
  obtain ⟨time, htime⟩ := Option.isSome_iff_exists.mp h
  unfold ofEngine?
  rw [htime]
  rfl

end Alert

namespace Orchestrator

/-- The alert of an application that an engine's alert becomes, if it goes to one. -/
def attributed? (s : Orchestrator) (server : UInt64) (now : Instant) (alert : Engine.Alert) :
    Option Alert :=
  (s.ownerOf? server alert).bind fun application =>
    Alert.ofEngine? alert application server now

/-- What of a listing goes to applications, in its order. -/
def attributed (s : Orchestrator) (server : UInt64) (now : Instant)
    (alerts : List Engine.Alert) : List Alert :=
  alerts.filterMap (s.attributed? server now)

/-- The state after alerts have come into the feeds. -/
def fed (s : Orchestrator) (alerts : List Alert) : Orchestrator :=
  { s with feeds := s.feeds.after alerts }

section

variable (s : Orchestrator) (server : UInt64) (now : Instant)

theorem attributed?_eq_some_iff {alert : Engine.Alert} {entry : Alert} :
    s.attributed? server now alert = some entry ↔
      ∃ application, s.ownerOf? server alert = some application ∧
        Alert.ofEngine? alert application server now = some entry :=
  Option.bind_eq_some_iff

theorem attributed_cons (alert : Engine.Alert) (alerts : List Engine.Alert) :
    s.attributed server now (alert :: alerts) =
      (s.attributed? server now alert).toList ++ s.attributed server now alerts := by
  rw [attributed, List.filterMap_cons]
  cases s.attributed? server now alert <;> rfl

theorem fed_nil : s.fed [] = s := rfl

theorem fed_append (xs ys : List Alert) : s.fed (xs ++ ys) = (s.fed xs).fed ys := by
  unfold fed
  rw [AlertFeeds.after_append]

/-- The feeds have no say in what goes to an application. -/
theorem attributed_fed (entries : List Alert) :
    (s.fed entries).attributed server now = s.attributed server now :=
  rfl

theorem keepAlert_eq (alert : Engine.Alert) :
    s.keepAlert server now alert = match s.attributed? server now alert with
      | none => (false, s)
      | some entry => ((s.feeds.record entry).1.isSome, s.fed [entry]) := by
  unfold keepAlert attributed?
  cases s.ownerOf? server alert with
  | none => rfl
  | some application =>
    dsimp only [Option.bind_some]
    cases Alert.ofEngine? alert application server now <;> rfl

/-- **Keeping a listing** is letting what goes to applications into the feeds. -/
theorem keepAlerts_eq (alerts : List Engine.Alert) :
    s.keepAlerts server now alerts =
      ((s.feeds.accepted (s.attributed server now alerts)).length,
        s.fed (s.attributed server now alerts)) := by
  induction alerts generalizing s with
  | nil => rfl
  | cons alert alerts ih =>
    rw [keepAlerts, keepAlert_eq, attributed_cons]
    cases s.attributed? server now alert with
    | none =>
      dsimp only
      rw [ih]
      rfl
    | some entry =>
      dsimp only
      rw [ih, attributed_fed, Option.toList_some, AlertFeeds.accepted_append, fed_append,
        List.length_append, Nat.add_comm, AlertFeeds.accepted, AlertFeeds.accepted, List.append_nil]
      congr 2
      cases (s.feeds.record entry).1 <;> rfl

end

end Orchestrator

/-! ## A pull -/

/-- The call for the alerts of the last hours. -/
def Engine.Client.alertsCall (c : Engine.Client) (hours : UInt64) : Remote.Call :=
  .run [c.command ["alerts", "list", "--since", s!"{hours}h", "--limit", "100", "-o", "json"]]

/-- What an answer tells of alerts. One that is no listing tells nothing. -/
def heard (answer : Except Failure String) : List Engine.Alert :=
  match listed Engine.alertsIn answer with
  | .ok alerts => alerts
  | .error _ => []

/-- One server that is asked for its alerts. -/
structure Visit where
  server : Server
  time : Instant
  alerts : List Engine.Alert

namespace Orchestrator

/-- The call for alerts of an orchestrator. -/
def alertsCall (s : Orchestrator) : Remote.Call :=
  Engine.Client.alertsCall ⟨s.settings.engine⟩ s.settings.alerts.lookbackHours

/-- What all visits bring for applications, in their order. -/
def gathered (s : Orchestrator) (visits : List Visit) : List Alert :=
  visits.flatMap fun v => s.attributed v.server.id v.time v.alerts

theorem gathered_nil (s : Orchestrator) : s.gathered [] = [] := rfl

theorem gathered_cons (s : Orchestrator) (v : Visit) (visits : List Visit) :
    s.gathered (v :: visits) =
      s.attributed v.server.id v.time v.alerts ++ s.gathered visits :=
  List.flatMap_cons

theorem gathered_fed (s : Orchestrator) (entries : List Alert) :
    (s.fed entries).gathered = s.gathered :=
  rfl

/-- The visits of a pull: all servers whose engine is there, each with what it says. -/
structure IsRound (s : Orchestrator) (answer : Server → Remote.Call → Except Failure String)
    (visits : List Visit) : Prop where
  servers : visits.map (·.server) = s.engineServers
  alerts : ∀ v ∈ visits, v.alerts = heard (answer v.server s.alertsCall)

end Orchestrator

namespace AlertSync

/-- What a pull does to the state, with these visits, and how many alerts it has kept then. -/
structure Pulled (answer : Server → Remote.Call → Except Failure String) (s : Orchestrator)
    (visits : List Visit) (s' : Orchestrator) (n : Nat) : Prop where
  round : s.IsRound answer visits
  count : n = (s.feeds.accepted (s.gathered visits)).length
  state : s' = (s.fed (s.gathered visits)).count .alertsSynced n

variable {answer : Server → Remote.Call → Except Failure String} {w w' : Shared Unit} {n : Nat}

/-- Asking for alerts is one call. -/
theorem process_alerts (engine : Engine.Client) (hours : UInt64) (server : Server) :
    (engine.alerts server hours).process (σ := Orchestrator) =
      .call server (engine.alertsCall hours) fun answer => .done (listed Engine.alertsIn answer) :=
  process_listing Engine.alertsIn server _

/-- What a pull does about one server; gives how many alerts were kept. -/
def visit (engine : Engine.Client) (hours : UInt64) (server : Server) : Process Orchestrator Nat :=
  .call server (engine.alertsCall hours) fun answer => match listed Engine.alertsIn answer with
    | .error _ => .done 0
    | .ok alerts => .clock fun now => .modifyGet (·.keepAlerts server.id now alerts)

theorem pullFrom_cons (engine : Engine.Client) (hours : UInt64) (server : Server)
    (servers : List Server) :
    pullFrom engine hours (server :: servers) =
      (visit engine hours server).bind fun kept =>
        (pullFrom engine hours servers).bind fun others => .done (kept + others) := by
  rw [pullFrom, process_alerts]
  refine congrArg (Process.call server _) (funext fun answer => ?_)
  dsimp only [Process.pure_bind]
  cases listed Engine.alertsIn answer <;> rfl

/-- One server: its listing is kept at once, and if there is none then nothing happens. -/
theorem alone_visit_iff {engine : Engine.Client} {hours : UInt64} {server : Server} :
    Alone (.steady answer) w (visit engine hours server) w' n ↔
      ∃ v : Visit, v.server = server ∧ v.alerts = heard (answer server (engine.alertsCall hours)) ∧
        w' = { w with state := w.state.fed (w.state.attributed server.id v.time v.alerts) } ∧
        n = (w.state.feeds.accepted (w.state.attributed server.id v.time v.alerts)).length := by
  rw [visit, alone_call_iff]
  constructor
  · rintro ⟨_, _, rfl, hnext⟩
    unfold heard
    cases hlisting : listed Engine.alertsIn (answer server (engine.alertsCall hours)) with
    | error failure =>
      rw [hlisting] at hnext
      obtain ⟨rfl, rfl⟩ := alone_done_iff.mp hnext
      exact ⟨⟨server, default, []⟩, rfl, rfl, rfl, rfl⟩
    | ok alerts =>
      rw [hlisting] at hnext
      obtain ⟨time, hkeep⟩ := alone_clock_iff.mp hnext
      obtain ⟨rfl, rfl⟩ := alone_modifyGet_iff.mp hkeep
      refine ⟨⟨server, time, alerts⟩, rfl, rfl, ?_, ?_⟩ <;> rw [Orchestrator.keepAlerts_eq]
  · rintro ⟨v, rfl, halerts, rfl, rfl⟩
    refine ⟨_, (), rfl, ?_⟩
    rw [halerts, heard]
    cases listed Engine.alertsIn (answer v.server (engine.alertsCall hours)) with
    | error failure => exact .done _ _
    | ok alerts =>
      refine alone_clock_iff.mpr ⟨v.time, alone_modifyGet_iff.mpr ?_⟩
      rw [Orchestrator.keepAlerts_eq]
      exact ⟨rfl, rfl⟩

theorem alone_pullFrom_iff {engine : Engine.Client} {hours : UInt64} {servers : List Server} :
    Alone (.steady answer) w (pullFrom engine hours servers) w' n ↔
      ∃ visits : List Visit, visits.map (·.server) = servers ∧
        (∀ v ∈ visits, v.alerts = heard (answer v.server (engine.alertsCall hours))) ∧
        w' = { w with state := w.state.fed (w.state.gathered visits) } ∧
        n = (w.state.feeds.accepted (w.state.gathered visits)).length := by
  induction servers generalizing w w' n with
  | nil =>
    have hnil : pullFrom engine hours [] = .done 0 := rfl
    rw [hnil, alone_done_iff]
    constructor
    · rintro ⟨rfl, rfl⟩
      refine ⟨[], List.map_nil, fun _ h => absurd h List.not_mem_nil, ?_, rfl⟩
      rw [Orchestrator.gathered_nil, Orchestrator.fed_nil]
    · rintro ⟨visits, hservers, -, rfl, rfl⟩
      obtain rfl := List.map_eq_nil_iff.mp hservers
      rw [Orchestrator.gathered_nil, Orchestrator.fed_nil]
      exact ⟨rfl, rfl⟩
  | cons server servers ih =>
    rw [pullFrom_cons, alone_bind_iff]
    constructor
    · rintro ⟨v, kept, hvisit, hrest⟩
      obtain ⟨visit, rfl, halerts, rfl, rfl⟩ := alone_visit_iff.mp hvisit
      obtain ⟨v', others, hrest, hdone⟩ := alone_bind_iff.mp hrest
      obtain ⟨visits, rfl, hvisits, rfl, rfl⟩ := ih.mp hrest
      obtain ⟨rfl, rfl⟩ := alone_done_iff.mp hdone
      refine ⟨visit :: visits, rfl, ?_, ?_, ?_⟩
      · rintro other (_ | ⟨_, hother⟩)
        · exact halerts
        · exact hvisits other hother
      · rw [Orchestrator.gathered_cons, Orchestrator.fed_append, Orchestrator.gathered_fed]
      · rw [Orchestrator.gathered_cons, AlertFeeds.accepted_append, List.length_append,
          Orchestrator.gathered_fed]
        rfl
    · rintro ⟨visits, hservers, halerts, rfl, rfl⟩
      obtain ⟨visit, visits, rfl, rfl, rfl⟩ := List.map_eq_cons_iff.mp hservers
      refine ⟨_, _, alone_visit_iff.mpr ⟨visit, rfl, halerts _ List.mem_cons_self, rfl, rfl⟩, ?_⟩
      refine alone_bind_iff.mpr ⟨_, _, ih.mpr ⟨visits, rfl, fun v hv =>
        halerts v (List.mem_cons_of_mem _ hv), rfl, rfl⟩, ?_⟩
      rw [alone_done_iff, Orchestrator.gathered_fed, Orchestrator.gathered_cons,
        Orchestrator.fed_append, AlertFeeds.accepted_append, List.length_append]
      exact ⟨rfl, rfl⟩

/-- **All that a pull can do**, from its visits. -/
theorem alone_pull_iff :
    Alone (.steady answer) w pull w' n ↔
      ∃ visits, Pulled answer w.state visits w'.state n ∧ w'.held = w.held := by
  have hpull : Alone (.steady answer) w pull w' n ↔
      ∃ v, Alone (.steady answer) w (pullFrom ⟨w.state.settings.engine⟩
          w.state.settings.alerts.lookbackHours w.state.engineServers) v n ∧
        w' = { v with state := v.state.count .alertsSynced n } := by
    refine alone_bind_iff.trans ?_
    constructor
    · rintro ⟨_, _, hread, hrest⟩
      obtain ⟨rfl, rfl⟩ := alone_read_iff.mp hread
      obtain ⟨v, kept, hfrom, hcount⟩ := alone_bind_iff.mp hrest
      obtain ⟨_, _, hmodify, hdone⟩ := alone_bind_iff.mp hcount
      obtain ⟨rfl, rfl⟩ := alone_done_iff.mp hdone
      obtain rfl := alone_modify_iff.mp hmodify
      exact ⟨v, hfrom, rfl⟩
    · rintro ⟨v, hfrom, rfl⟩
      refine ⟨w, _, alone_read_iff.mpr ⟨rfl, rfl⟩, alone_bind_iff.mpr ⟨v, n, hfrom, ?_⟩⟩
      exact alone_bind_iff.mpr ⟨_, (), alone_modify_iff.mpr rfl, .done _ _⟩
  rw [hpull]
  constructor
  · rintro ⟨v, hfrom, rfl⟩
    obtain ⟨visits, hservers, halerts, rfl, rfl⟩ := alone_pullFrom_iff.mp hfrom
    exact ⟨visits, ⟨⟨hservers, halerts⟩, rfl, rfl⟩, rfl⟩
  · rintro ⟨visits, ⟨hround, rfl, hstate⟩, hheld⟩
    refine ⟨_, alone_pullFrom_iff.mpr ⟨visits, hround.servers, hround.alerts, rfl, rfl⟩, ?_⟩
    obtain ⟨state, held, _⟩ := w'
    obtain rfl : state = _ := hstate
    obtain rfl : held = _ := hheld
    rfl

/-- A pull always comes to its end. -/
theorem exists_alone_pull (answer : Server → Remote.Call → Except Failure String)
    (w : Shared Unit) : ∃ w' n, Alone (.steady answer) w pull w' n := by
  let visits : List Visit := w.state.engineServers.map fun server =>
    ⟨server, default, heard (answer server w.state.alertsCall)⟩
  have hround : w.state.IsRound answer visits := by
    refine ⟨?_, fun v hv => ?_⟩
    · rw [List.map_map]
      exact List.map_id _
    · obtain ⟨server, -, rfl⟩ := List.mem_map.mp hv
      rfl
  exact ⟨⟨_, w.held, ()⟩, _, alone_pull_iff.mpr ⟨visits, ⟨hround, rfl, rfl⟩, rfl⟩⟩

end AlertSync

/-! ## Any visits -/

/-- **What comes into the feeds in the course of time**: listings of any servers, each at once, and
in between anything that leaves the feeds alone. The alerts are those that were accepted. -/
inductive History : Orchestrator → List Alert → Orchestrator → Prop
  | refl (s : Orchestrator) : History s [] s
  | visit {s t : Orchestrator} {taken : List Alert} (h : History s taken t) (server : UInt64)
    (now : Instant) (alerts : List Engine.Alert) :
    History s (taken ++ t.feeds.accepted (t.attributed server now alerts))
      (t.keepAlerts server now alerts).2
  /-- Anything else. -/
  | other {s t u : Orchestrator} {taken : List Alert} (h : History s taken t)
    (hsame : u.feeds = t.feeds) : History s taken u

namespace History

variable {s t u : Orchestrator} {taken more : List Alert}

theorem trans (h : History s taken t) (h' : History t more u) :
    History s (taken ++ more) u := by
  induction h' with
  | refl =>
    rw [List.append_nil]
    exact h
  | visit _ server now alerts ih =>
    rw [← List.append_assoc]
    exact .visit ih server now alerts
  | other _ hsame ih => exact .other ih hsame

/-- The visits of a pull. -/
theorem of_visits (s : Orchestrator) (visits : List Visit) :
    History s (s.feeds.accepted (s.gathered visits)) (s.fed (s.gathered visits)) := by
  induction visits generalizing s with
  | nil => exact .refl s
  | cons v visits ih =>
    have hvisit := (History.refl s).visit v.server.id v.time v.alerts
    rw [Orchestrator.keepAlerts_eq, List.nil_append] at hvisit
    rw [Orchestrator.gathered_cons, AlertFeeds.accepted_append, Orchestrator.fed_append]
    exact hvisit.trans (ih _)

end History

namespace AlertSync.Pulled

variable {answer : Server → Remote.Call → Except Failure String} {s s' : Orchestrator}
  {visits : List Visit} {n : Nat}

theorem feeds (h : Pulled answer s visits s' n) :
    s'.feeds = s.feeds.after (s.gathered visits) := by
  rw [h.state]
  rfl

/-- A pull changes nothing but the feeds and a counter. -/
theorem unchanged (h : Pulled answer s visits s' n) :
    s'.store = s.store ∧ s'.registry = s.registry ∧ s'.settings = s.settings := by
  rw [h.state]
  exact ⟨rfl, rfl, rfl⟩

/-- The alerts that a pull accepted. -/
theorem history (h : Pulled answer s visits s' n) :
    History s (s.feeds.accepted (s.gathered visits)) s' :=
  .other (History.of_visits s visits) h.feeds

end AlertSync.Pulled

/-- The steps of a history. -/
def visiting : Discipline where
  state _ := True
  change s t := t.feeds = s.feeds ∨
    ∃ server now alerts, t = (s.keepAlerts server now alerts).2
  idle _ := .inl rfl
  call _ _ := True
  answer _ _ _ := True
  lock _ := False

/-- **Every step of a pull** is one of a history, whatever others do before and after it. -/
theorem AlertSync.pull_obeys : AlertSync.pull.Obeys visiting fun _ => True := by
  have hfrom : ∀ (engine : Engine.Client) (hours : UInt64) (servers : List Server),
      (AlertSync.pullFrom engine hours servers).Obeys visiting fun _ => True := by
    intro engine hours servers
    induction servers with
    | nil => exact trivial
    | cons server servers ih =>
      rw [AlertSync.pullFrom_cons]
      have hvisit : (AlertSync.visit engine hours server).Obeys visiting fun _ => True := by
        refine ⟨trivial, fun answer _ => ?_⟩
        dsimp only
        cases listed Engine.alertsIn answer with
        | error failure => exact trivial
        | ok alerts => exact fun now s _ => ⟨.inr ⟨_, _, _, rfl⟩, trivial⟩
      exact Process.Obeys.bind (hvisit.mono fun _ _ =>
        Process.Obeys.bind (ih.mono fun _ _ => trivial))
  refine fun s _ => ⟨.inl rfl, ?_⟩
  exact Process.Obeys.bind (p := AlertSync.pullFrom _ _ _)
    ((hfrom _ _ _).mono fun _ _ _ _ => ⟨.inl rfl, trivial⟩)

end Rampart
