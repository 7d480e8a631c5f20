import Rampart.Proofs.Deployment.Missed
import Rampart.Proofs.Deployment.Scratch

/-!
# A deployment from scratch after lost events

When the events of requests are lost everything is deployed from scratch. That puts the same
scenario files into place as if every event had been handled, and it makes all bans that are called
for. It lifts none: a ban of a rule that was deleted, switched off or changed meanwhile stays.

* `Recovered`: requests are missed, and what is planned from scratch is done.
* `Recovered.hasExactly`, `Recovered.mem_heldPairs_iff`: files and bans afterwards.
* **`recovery_only_adds_bans`**: compared with requests that are followed.
* **`missed_ban_outlives_recovery`**: a ban that is replaced while nobody hears of it.
-/

namespace Rampart

open Execution Orchestrator
open Remote (Files)

/-- A context has a rule that bans a value for a reason. -/
def Context.Bans (c : Context) (settings : Settings.Scenarios) (value reason : String) : Prop :=
  ∃ rule ∈ c.banRules, ∃ ds, c.decisions settings rule = .ok ds ∧
    ∃ d ∈ ds, d.ip = value ∧ d.reason = reason

namespace Recovery

open Bans (Settled Reliable IsLocal Rising exactly heldPairs)

section

variable {ρ : Type} {site : Site} {firewall : Firewall} {o : Outside ρ}
  {files : ρ → UInt64 → Files} {held : ρ → List Engine.Decision} {c d e : Config ρ}
  {rs : List Request}

/-- **Requests are missed, and everything is deployed from scratch**: what is planned then is done,
under an active firewall with its bouncer. -/
structure Recovered (site : Site) (o : Outside ρ) (c : Config ρ) (rs : List Request)
    (d : Config ρ) : Prop where
  ready : Ready site (missed c.state rs).store
  work : WorkedOff site o c.state.lost { c with state := (missed c.state rs).resync.2 } d

/-! ## Requests that are missed -/

/-- Requests that are missed leave a state that knows the application, and plan and announce
nothing. -/
theorem missed_spec {s : Orchestrator} (hs : s.KnowsSite site)
    (hrs : ∀ r ∈ rs, r.uuid = site.uuid) :
    (missed s rs).KnowsSite site ∧ (missed s rs).scheduler = s.scheduler ∧
      (missed s rs).ruleBus = s.ruleBus ∧ s.lost ≤ (missed s rs).lost := by
  induction rs generalizing s with
  | nil => exact ⟨hs, rfl, rfl, Nat.le_refl _⟩
  | cons r rs ih =>
    obtain ⟨hr, hrs⟩ := List.forall_mem_cons.mp hrs
    obtain ⟨_, _, hstate, _⟩ := Site.perform_spec hs.settings hs.store hr
    obtain ⟨hknows, hscheduler, hbus, hlost⟩ := ih (hs.perform hr) hrs
    refine ⟨hknows, hscheduler.trans ?_, hbus.trans ?_,
      Nat.le_trans (Bans.lost_le_perform r s) hlost⟩
    · rw [hstate]
    · rw [hstate]

/-- Nothing has been announced that is not heard. -/
theorem Matches.unread_eq_nil (hc : Matches site files held c) :
    c.state.ruleBus.unread Simulation.deployer = [] := by
  obtain ⟨_, hsettled⟩ := hc.settled
  obtain ⟨position, hfollows⟩ := hc.listens
  have hmail : Simulation.hasNext c.state.ruleBus Simulation.deployer = false := hsettled.noMail
  rcases Bus.next_cases hfollows with ⟨_, _, _, _, hnext, _⟩ | ⟨_, _, _, _, hnext, _⟩ |
    ⟨_, hunread, _⟩
  · rw [Simulation.hasNext, hnext] at hmail
    cases hmail
  · rw [Simulation.hasNext, hnext] at hmail
    cases hmail
  · exact hunread

/-! ## What is left in the end -/

/-- What holds of the bans when all jobs are done. -/
theorem Recovered.rising (hreliable : Reliable site o held exactly) (hlocal : IsLocal site o held)
    (hc : Matches site files held c) (hrs : ∀ r ∈ rs, r.uuid = site.uuid)
    (hd : Recovered site o c rs d) :
    ∃ firewall, firewall.isActive = true ∧ firewall.needsBouncer = false ∧
      (missed c.state rs).store.firewalls.get? site.firewall = some firewall ∧
      Rising site firewall (missed c.state rs).store o held (held c.outside) c.state.lost d := by
  obtain ⟨_, hsettled⟩ := hc.settled
  obtain ⟨firewall, hfirewall, hactive, hbouncer⟩ := hd.ready
  obtain ⟨n, hrun, _⟩ := hd.work
  obtain ⟨hknows, hscheduler, hbus, hlost⟩ := missed_spec hsettled.knows hrs
  have hself : ∀ ip, exactly ip ip = true := fun ip => decide_eq_true rfl
  have hbegin : Rising site firewall (missed c.state rs).store o held (held c.outside) c.state.lost
      { c with state := (missed c.state rs).resync.2 } :=
    .of_resync hknows hfirewall hactive hbouncer (hbus ▸ hc.listens) (hbus ▸ hc.unread_eq_nil)
      hsettled.unannounced (hscheduler ▸ hsettled.fit) (Bans.jobs_of_idle hsettled.idle hscheduler)
      hsettled.idle.2.2 hlost
  exact ⟨firewall, hactive, hbouncer, hfirewall,
    hbegin.run hreliable hself hlocal hactive hbouncer hrun⟩

/-- **The files afterwards** are those that the rules call for. -/
theorem Recovered.hasExactly (hfaultless : Convergence.Faultless o files)
    (hc : Matches site files held c) (hrs : ∀ r ∈ rs, r.uuid = site.uuid)
    (hd : Recovered site o c rs d) (hready : Ready site d.state.store) :
    HasExactly site.dir site.uuid (files d.outside site.server.id)
      (site.IsTarget d.state.store) := by
  obtain ⟨_, hsettled⟩ := hc.settled
  obtain ⟨firewall, hfirewall, hactive, hbouncer⟩ := hd.ready
  obtain ⟨hknows, hscheduler, hbus, _⟩ := missed_spec hsettled.knows hrs
  obtain ⟨added, hplans, houtcome⟩ := resync_spec hknows hfirewall
  have hsync : added.filterMap (Job.syncOf? site.firewall) =
      [(missed c.state rs).generation site.firewall + 1] := by
    rcases houtcome with hsync | ⟨_, hinactive | hno | ⟨hneeds, _⟩⟩
    · exact hsync
    · rw [hactive] at hinactive
      cases hinactive
    · exact hno.elim
    · rw [hbouncer] at hneeds
      cases hneeds
  obtain ⟨n, roles, hinv⟩ := hd.work.invariant hfaultless
    (invariant_of_plans hknows (hbus ▸ hc.listens) (hscheduler ▸ hsettled.fit)
      (Bans.jobs_of_idle hsettled.idle hscheduler) hsettled.idle.2.2 (fun _ => hc.blankFree) hplans
      (.inl hsync))
  obtain ⟨_, _, _, hheard, hidle, _⟩ := hd.work
  exact hasExactly_of_idle hinv hheard hidle hready

/-- What the rules of a store call for, by the context that is made of it. -/
theorem callsFor_iff {s : Store} (h : site.Knows s) {v r : String} :
    Bans.CallsFor site firewall s v r ↔ (Context.of site.application firewall
      (s.rulesOf site.firewall) site.server).Bans site.settings.scenarios v r := by
  constructor
  · rintro ⟨id, d, hd, hmatch⟩
    obtain ⟨rule, hrule, ds, hds, hmem⟩ := (Site.mem_wanted_iff h).mp ⟨id, hd⟩
    exact ⟨rule, hrule, ds, hds, d, hmem, hmatch⟩
  · rintro ⟨rule, hrule, ds, hds, d, hmem, hmatch⟩
    obtain ⟨id, hd⟩ := (Site.mem_wanted_iff h).mpr ⟨rule, hrule, ds, hds, hmem⟩
    exact ⟨id, d, hd, hmatch⟩

/-- **Recovery only adds bans.** When the events of requests are lost and everything is deployed
from scratch, the scenario files are those that the rules call for, and the bans are those that were
held before and those that the rules call for. When every event is handled instead the files are the
same, and the bans are those that the rules call for; so both leave the same bans if and only if all
that was held before is still called for. -/
theorem recovery_only_adds_bans (hfaultless : Convergence.Faultless o files)
    (hreliable : Reliable site o held exactly) (hlocal : IsLocal site o held)
    (hc : Matches site files held c) (hrs : ∀ r ∈ rs, r.uuid = site.uuid)
    (hd : Recovered site o c rs d) :
    ∃ context targets, d.state.contextOf site.firewall = .ok context ∧
      context.files d.state.settings.scenarios = .ok targets ∧
      HasExactly site.dir site.uuid (files d.outside site.server.id) (· ∈ targets) ∧
      (∀ v r, (v, r) ∈ heldPairs site (held d.outside) ↔
        (v, r) ∈ heldPairs site (held c.outside) ∨
          context.Bans d.state.settings.scenarios v r) ∧
      ∀ e, Followed site o c rs e →
        HasExactly site.dir site.uuid (files e.outside site.server.id) (· ∈ targets) ∧
        (∀ v r, (v, r) ∈ heldPairs site (held e.outside) ↔
          context.Bans d.state.settings.scenarios v r) ∧
        ((∀ p, p ∈ heldPairs site (held d.outside) ↔ p ∈ heldPairs site (held e.outside)) ↔
          ∀ p ∈ heldPairs site (held c.outside), p ∈ heldPairs site (held e.outside)) := by
  obtain ⟨firewall, hactive, hbouncer, hfirewall, hrising⟩ := hd.rising hreliable hlocal hc hrs
  have hexactly := hd.hasExactly hfaultless hc hrs ⟨firewall, hrising.current, hactive, hbouncer⟩
  obtain ⟨_, _, _, _, hidle, hlost⟩ := hd.work
  have hknows := hrising.knows
  obtain ⟨targets, htargets, _, hmem⟩ := Site.files_eq hknows.store hrising.current
  have hbans : ∀ v r, (v, r) ∈ heldPairs site (held d.outside) ↔
      (v, r) ∈ heldPairs site (held c.outside) ∨
        Bans.CallsFor site firewall d.state.store v r := by
    intro v r
    rw [hrising.mem_heldPairs_iff hidle hlost, Bans.callsFor_congr hrising.rules]
  rw [hknows.settings]
  refine ⟨_, targets, hknows.contextOf hrising.current, htargets,
    Convergence.hasExactly_congr hmem hexactly, fun v r => ?_, fun e he => ?_⟩
  · rw [hbans, callsFor_iff hknows.store]
  · obtain ⟨hmatches, hstore⟩ := hc.followed hfaultless hreliable hrs he
    obtain ⟨other, hsettled⟩ := hmatches.settled
    have hother : other = firewall := by
      have hcurrent := hsettled.ordered.current
      rw [hstore, hfirewall] at hcurrent
      exact (Option.some.inj hcurrent).symm
    have hrules : e.state.store.rules = d.state.store.rules := by rw [hstore, hrising.rules]
    have hcalled : ∀ v r, (v, r) ∈ heldPairs site (held e.outside) ↔
        Bans.CallsFor site firewall d.state.store v r := by
      intro v r
      rw [hsettled.agrees.mem_heldPairs_iff hsettled.knows.store, hother]
      exact Bans.callsFor_congr hrules
    refine ⟨Convergence.hasExactly_congr (fun f => ?_) hmatches.hasExactly, fun v r => ?_, ?_⟩
    · rw [hmem, Convergence.isTarget_congr hrules]
      rw [hsettled.ordered.current, hrising.current, hother]
    · rw [hcalled, callsFor_iff hknows.store]
    · constructor
      · rintro hsame ⟨v, r⟩ hp
        exact (hsame _).mp ((hbans v r).mpr (.inl hp))
      · rintro hkept ⟨v, r⟩
        rw [hbans, ← hcalled]
        exact or_iff_right_of_imp (hkept _)

end

/-! ## A ban that is replaced -/

namespace Demo

/-- The calls to servers that had no files, and the decisions of one engine. -/
abbrev World := Convergence.Demo.Log × List Engine.Decision

/-- The files after the calls. -/
def files (x : World) : UInt64 → Files :=
  Convergence.Demo.filesAfter x.1

/-- Whether a call is a command of the engine's client. -/
def isClient : Remote.Call → Bool
  | .run [line] => (Bans.Demo.arguments? line).isSome
  | _ => false

/-- Servers that do all calls, and an engine that does what it is told. -/
def oracle : Oracle World := fun server c answer x =>
  let plain := if isClient c then answer.map fun _ => "" else answer
  (Convergence.Demo.oracle server c plain x.1).bind fun log =>
    (if server.id = 1 then Bans.Demo.oracle server c answer x.2 else some x.2).map (log, ·)

theorem oracle_cases {server : Server} {c : Remote.Call} {x y : World}
    {answer : Except Failure String} (h : oracle.outside.answers server c x answer y) :
    Convergence.Demo.oracle.outside.answers server c x.1
        (if isClient c then answer.map fun _ => "" else answer) y.1 ∧
      ((server.id = 1 ∧ Bans.Demo.oracle.outside.answers server c x.2 answer y.2) ∨
        (server.id ≠ 1 ∧ y.2 = x.2)) := by
  obtain ⟨log, hlog, h⟩ := Option.bind_eq_some_iff.mp h
  obtain ⟨decisions, hdecisions, rfl⟩ := Option.map_eq_some_iff.mp h
  refine ⟨hlog, ?_⟩
  split at hdecisions
  · rename_i hserver
    exact .inl ⟨hserver, hdecisions⟩
  · rename_i hserver
    exact .inr ⟨hserver, (Option.some.inj hdecisions).symm⟩

theorem isLocal : IsLocal Shop.site oracle.outside Prod.snd := by
  intro server c x answer y hother h
  exact ((oracle_cases h).2.resolve_left fun hown => hother hown.1).2

theorem reliable : Reliable Shop.site oracle.outside Prod.snd exactly := by
  have hown : ∀ {c x answer y}, oracle.outside.answers Shop.site.server c x answer y →
      Bans.Demo.oracle.outside.answers Shop.site.server c x.2 answer y.2 := fun h =>
    ((oracle_cases h).2.resolve_right fun hother => hother.1 rfl).2
  refine ⟨fun d x answer y h => Bans.Demo.reliable.add d _ _ _ (hown h),
    fun id x answer y h => Bans.Demo.reliable.remove id _ _ _ (hown h),
    fun ip x answer y h => Bans.Demo.reliable.list ip _ _ _ (hown h),
    fun server c x answer y hspares h => ?_⟩
  rcases (oracle_cases h).2 with ⟨_, h⟩ | ⟨_, hsame⟩
  · exact Bans.Demo.reliable.others _ _ _ _ _ hspares h
  · exact hsame

/-- A listing of files is no command of the engine's client. -/
theorem not_isClient_listCommand (d : ScenarioDir) :
    isClient (.run [d.listCommand]) = false := by
  refine Bool.eq_false_iff.mpr fun h => ?_
  obtain ⟨arguments, harguments⟩ := Option.isSome_iff_exists.mp h
  have hline := congrArg String.toList (Bans.Demo.line_of_arguments? harguments)
  have hlist : d.listCommand.toList = 'l' :: ("s -1A ".toList ++
      ((Text.Word.quote d.path).toList ++ " 2>/dev/null || true".toList)) := by
    have heq : d.listCommand = "ls -1A " ++ Text.Word.quote d.path ++ " 2>/dev/null || true" := rfl
    rw [heq, String.toList_append, String.toList_append, List.append_assoc]
    rfl
  -- Commands of the client begin with another letter.
  have hclient : (Shop.site.engine.command arguments).toList.head? = some 'd' := by
    rw [Engine.Client.command, Engine.Client.words, List.cons_append, Text.Word.toList_line_cons]
    rfl
  rw [← hline, hlist, List.head?_cons] at hclient
  exact absurd hclient (by decide)

theorem faultless : Convergence.Faultless oracle.outside files where
  effect server c x answer y h :=
    Convergence.Demo.faultless.effect _ _ _ _ _ (oracle_cases h).1
  success server c x answer y h hdone := by
    obtain ⟨output, houtput⟩ :=
      Convergence.Demo.faultless.success _ _ _ _ _ (oracle_cases h).1 hdone
    split at houtput
    · cases answer with
      | ok output => exact ⟨output, rfl⟩
      | error failure => cases houtput
    · exact ⟨output, houtput⟩
  listing server d x output y h := by
    have hfiles := (oracle_cases h).1
    rw [not_isClient_listCommand, if_neg Bool.false_ne_true] at hfiles
    exact Convergence.Demo.faultless.listing _ _ _ _ _ hfiles
  credential server engine name key x output y h :=
    Convergence.Demo.faultless.credential _ _ _ _ _ _ _ (oracle_cases h).1

/-- The rule that has been saved. -/
def saved : Rule :=
  { Bans.Demo.rule with id := 1, firewallId := 1 }

/-- Its decision. -/
def decision : Engine.Decision where
  id := 1
  kind := "ban"
  scope := "Ip"
  value := "10.0.0.1"
  scenario := Shop.site.reason 1

/-- A rule has been saved, and its address is banned. -/
def start : Config World where
  state := (Bans.Demo.edit.perform Shop.state).2
  held := []
  outside := ([], [decision])

theorem start_rules : start.state.store.rules = ⟨[(1, saved)]⟩ := by
  decide +kernel

theorem rule_of_start {id : UInt64} {rule : Rule}
    (h : start.state.store.rules.get? id = some rule) : id = 1 ∧ rule = saved := by
  rw [start_rules] at h
  have hmem := (Table.get?_eq_some_iff (by decide)).mp h
  exact Prod.mk.inj (List.mem_singleton.mp hmem)

theorem wanted_start (id : UInt64) : Shop.site.wanted Shop.firewall start.state.store id =
    if id = 1 then [⟨"10.0.0.1", .ip, .ban, 14400, Shop.site.reason 1⟩] else [] := by
  by_cases hid : id = 1
  · subst hid
    rw [if_pos rfl]
    decide +kernel
  · rw [if_neg hid, Site.wanted]
    cases hrule : Shop.site.banRule? start.state.store id with
    | none => rfl
    | some rule =>
      obtain ⟨hget, _⟩ := Site.banRule?_eq_some_iff.mp hrule
      exact absurd (rule_of_start hget).1 hid

theorem start_settled : Settled Shop.site Shop.firewall Prod.snd start where
  knows := Shop.knows.perform rfl
  ordered := {
    current := by decide +kernel
    numbered := fun id rule h => by
      obtain ⟨rfl, rfl⟩ := rule_of_start h
      rfl
    compiled := fun id rule h => by
      obtain ⟨rfl, rfl⟩ := rule_of_start (Site.banRule?_eq_some_iff.mp h).1
      exact ⟨_, rfl⟩ }
  fit := ⟨by decide +kernel, by decide +kernel, by decide +kernel⟩
  unannounced := rfl
  noMail := by decide +kernel
  idle := ⟨by decide +kernel, by decide +kernel, fun _ => rfl⟩
  agrees := {
    numbers := List.nodup_singleton _
    owned := fun e he _ => ⟨1, by rw [List.mem_singleton.mp he]; rfl⟩
    once := fun id e he f hf _ _ _ =>
      (List.mem_singleton.mp he).trans (List.mem_singleton.mp hf).symm
    bans := fun id v => by
      have hheld : start.outside.2 = [decision] := rfl
      rw [wanted_start, hheld]
      by_cases hid : id = 1
      · subst hid
        simp [decision]
      · have hreason : Shop.site.reason 1 ≠ Shop.site.reason id := fun heq =>
          hid (banReason_inj heq).symm
        simp [decision, hid, hreason] }

theorem start_matches : Matches Shop.site files Prod.snd start where
  settled := ⟨_, start_settled⟩
  listens := ⟨0, by decide +kernel, by decide +kernel, by decide +kernel⟩
  hasExactly name _ contents := by
    refine ⟨nofun, ?_⟩
    rintro ⟨id, rule, _, _, hget, _, _, hban, _⟩
    obtain ⟨rfl, rfl⟩ := rule_of_start hget
    cases hban

/-- The rule is to ban another address. -/
def replacement : Request :=
  .save "abc" { saved with conditions := [
    { field := "ip_address", operator := "equals", value := "10.0.0.2" }] }

/-- What the engine lists for the first address. -/
def listing : String :=
  "[\x7b\"decisions\":[\x7b\"id\":1,\"type\":\"ban\",\"scope\":\"Ip\"," ++
    "\"value\":\"10.0.0.1\",\"scenario\":\"bastion/abc/rule-1\"\x7d]\x7d]"

/-- A job that takes so many steps. -/
def job (steps : Nat) : List Choice :=
  [.arrive, .start 0] ++ Bans.Demo.go steps ++ [.leave 0]

/-- The files are synchronized and the new address is banned. -/
def recovery : List Choice :=
  job 15 ++ [.pass 2] ++ job 7 ++ job 5 ++ [.pass 4] ++ job 5

/-- The old address is listed and lifted, and the new one is banned. -/
def edit : List Choice :=
  [.pass 2, .arrive, .start 0] ++ Bans.Demo.go 2 ++ [.advance 0 (.ok listing)] ++
    Bans.Demo.go 2 ++ [.leave 0] ++ job 7 ++ [.pass 4] ++ job 5

/-- Choices after which no job is left, and what is held then. -/
theorem workedOff_of_follow {choices : List Choice} {s : Orchestrator}
    {pairs : List (String × String)}
    (hall : (follow oracle choices { start with state := s }).map (fun d =>
      (d.isSettled 1 && d.state.lost == 0, heldPairs Shop.site d.outside.2)) = some (true, pairs))
    (hn : (s.generation 1).toNat + choices.length < 2 ^ 64)
    (hrequests : choices.filterMap Choice.request? = [])
    (hworkers : ∀ i ∈ choices.filterMap Choice.worker?, i < 1) :
    ∃ d, WorkedOff Shop.site oracle.outside 0 { start with state := s } d ∧
      heldPairs Shop.site d.outside.2 = pairs := by
  obtain ⟨d, hfollow, hend⟩ := Option.map_eq_some_iff.mp hall
  obtain ⟨hdone, hpairs⟩ := Prod.mk.inj hend
  rw [Bool.and_eq_true, beq_iff_eq] at hdone
  obtain ⟨hheard, hidle⟩ := settled_of_follow hfollow hdone.1 hworkers fun _ => rfl
  refine ⟨d, ⟨choices.length, run_of_follow (fun r hr => ?_) hfollow, hn, hheard, hidle, hdone.2⟩,
    hpairs⟩
  rw [hrequests] at hr
  cases hr

theorem ready : Ready Shop.site (replacement.perform start.state).2.store :=
  ⟨Shop.firewall, by decide +kernel, by decide, by decide⟩

/-- When the request is missed both addresses are banned in the end. -/
theorem recovered : ∃ d, Recovered Shop.site oracle.outside start [replacement] d ∧
    heldPairs Shop.site d.outside.2 =
      [("10.0.0.2", Shop.site.reason 1), ("10.0.0.1", Shop.site.reason 1)] := by
  obtain ⟨d, hd, hpairs⟩ := @workedOff_of_follow recovery
    (missed start.state [replacement]).resync.2
    [("10.0.0.2", Shop.site.reason 1), ("10.0.0.1", Shop.site.reason 1)]
    (by decide +kernel) (by decide +kernel) (by decide) (by decide)
  exact ⟨d, ⟨ready, hd⟩, hpairs⟩

/-- When its event is handled only the new address is. -/
theorem followed : ∃ e, Followed Shop.site oracle.outside start [replacement] e ∧
    heldPairs Shop.site e.outside.2 = [("10.0.0.2", Shop.site.reason 1)] := by
  obtain ⟨e, he, hpairs⟩ := @workedOff_of_follow edit (Bans.handled start.state replacement).2
    [("10.0.0.2", Shop.site.reason 1)]
    (by decide +kernel) (by decide +kernel) (by decide) (by decide)
  exact ⟨e, .cons ready he (.nil e), hpairs⟩

end Demo

/-- In the run of `Demo.recovery`, after which the address that was replaced is still banned. -/
theorem recovery_only_adds_bans_replaced : ∃ d : Config Demo.World,
    (Convergence.Faultless Demo.oracle.outside Demo.files ∧
      Reliable Shop.site Demo.oracle.outside Prod.snd exactly ∧
      IsLocal Shop.site Demo.oracle.outside Prod.snd ∧
      Matches Shop.site Demo.files Prod.snd Demo.start ∧
      (∀ r ∈ [Demo.replacement], r.uuid = Shop.site.uuid) ∧
      Recovered Shop.site Demo.oracle.outside Demo.start [Demo.replacement] d) ∧
    ∃ context targets, d.state.contextOf Shop.site.firewall = .ok context ∧
      context.files d.state.settings.scenarios = .ok targets ∧
      HasExactly Shop.site.dir Shop.site.uuid (Demo.files d.outside Shop.site.server.id)
        (· ∈ targets) ∧
      (∀ v r, (v, r) ∈ heldPairs Shop.site d.outside.2 ↔
        (v, r) ∈ heldPairs Shop.site Demo.start.outside.2 ∨
          context.Bans d.state.settings.scenarios v r) ∧
      ∀ e, Followed Shop.site Demo.oracle.outside Demo.start [Demo.replacement] e →
        HasExactly Shop.site.dir Shop.site.uuid (Demo.files e.outside Shop.site.server.id)
          (· ∈ targets) ∧
        (∀ v r, (v, r) ∈ heldPairs Shop.site e.outside.2 ↔
          context.Bans d.state.settings.scenarios v r) ∧
        ((∀ p, p ∈ heldPairs Shop.site d.outside.2 ↔ p ∈ heldPairs Shop.site e.outside.2) ↔
          ∀ p ∈ heldPairs Shop.site Demo.start.outside.2,
            p ∈ heldPairs Shop.site e.outside.2) := by
  have hown : ∀ r ∈ [Demo.replacement], r.uuid = Shop.site.uuid := fun r hr => by
    rw [List.mem_singleton.mp hr]
    rfl
  obtain ⟨d, hd, _⟩ := Demo.recovered
  exact ⟨d, ⟨Demo.faultless, Demo.reliable, Demo.isLocal, Demo.start_matches, hown, hd⟩,
    recovery_only_adds_bans Demo.faultless Demo.reliable Demo.isLocal Demo.start_matches hown hd⟩

/-- **A ban outlives the recovery from a lost event** that replaced its address, and would not have
outlived the event. -/
theorem missed_ban_outlives_recovery : ∃ d e : Config Demo.World,
    Convergence.Faultless Demo.oracle.outside Demo.files ∧
    Reliable Shop.site Demo.oracle.outside Prod.snd exactly ∧
    Matches Shop.site Demo.files Prod.snd Demo.start ∧
    Ready Shop.site Demo.start.state.store ∧
    Recovered Shop.site Demo.oracle.outside Demo.start [Demo.replacement] d ∧
    Followed Shop.site Demo.oracle.outside Demo.start [Demo.replacement] e ∧
    ("10.0.0.1", Shop.site.reason 1) ∈ heldPairs Shop.site d.outside.2 ∧
    ("10.0.0.1", Shop.site.reason 1) ∉ heldPairs Shop.site e.outside.2 := by
  obtain ⟨d, hd, hdpairs⟩ := Demo.recovered
  obtain ⟨e, he, hepairs⟩ := Demo.followed
  have hready : Ready Shop.site Demo.start.state.store :=
    ⟨Shop.firewall, Demo.start_settled.ordered.current, by decide, by decide⟩
  refine ⟨d, e, Demo.faultless, Demo.reliable, Demo.start_matches, hready, hd, he, ?_, ?_⟩
  · rw [hdpairs]
    simp
  · rw [hepairs]
    simp

end Recovery

end Rampart
