import Mathlib.Logic.Relation
import Rampart.Proofs.Deployment.Edits
import Rampart.Proofs.Deployment.Shop
import Rampart.Proofs.Execution.Schedule

/-!
# Bans converge

From an engine without decisions of an application and a store without rules of it, any number of
edits leaves the engine with the decisions of the rules that are in force, and with no others.

* `Beginning`: an active firewall, no rules and no decisions.
* `heldPairs`: what an engine holds for an application.
* **`bans_converge`**: after every sequence of edits.
* `Demo.oracle`: an engine that reads its commands; `Demo.reliable`: it does what it is told.
-/

namespace Rampart.Bans

open Execution Orchestrator

variable {ρ : Type}

/-- **How it begins**: an active firewall, and no rules, decisions, events and jobs of it. -/
structure Beginning (site : Site) (firewall : Firewall) (held : ρ → List Engine.Decision)
    (c : Config ρ) : Prop where
  knows : c.state.KnowsSite site
  current : c.state.store.firewalls.get? site.firewall = some firewall
  active : firewall.isActive = true
  numbered : ∀ id rule, c.state.store.rules.get? id = some rule → rule.id = id
  noRules : ∀ id rule, c.state.store.rules.get? id = some rule → rule.firewallId ≠ site.firewall
  noDecisions : ∀ e ∈ held c.outside,
    ownerOf? site.settings.scenarios.ns e.scenario ≠ some site.uuid
  numbers : ((held c.outside).map (·.id)).Nodup
  fit : c.state.scheduler.IsFit
  unannounced : c.unannounced = []
  noMail : Simulation.World.hasMail Simulation.deployer c.state = false
  idle : c.Idle

/-- What an engine holds for an application: values with reasons. -/
def heldPairs (site : Site) (h : List Engine.Decision) : List (String × String) :=
  (h.filter fun e => ownerOf? site.settings.scenarios.ns e.scenario = some site.uuid).map
    fun e => (e.value, e.scenario)

variable {site : Site} {firewall : Firewall} {o : Outside ρ} {held : ρ → List Engine.Decision}

theorem Beginning.settled {c : Config ρ} (h : Beginning site firewall held c) :
    Settled site firewall held c := by
  have hnone : ∀ id, site.banRule? c.state.store id = none := by
    intro id
    refine Option.eq_none_iff_forall_ne_some.mpr fun rule hrule => ?_
    obtain ⟨hget, hf, _⟩ := Site.banRule?_eq_some_iff.mp hrule
    exact h.noRules id rule hget hf
  have hother : ∀ e ∈ held c.outside, ∀ id, e.scenario ≠ site.reason id := by
    intro e he id hreason
    refine h.noDecisions e he ?_
    rw [hreason]
    exact ownerOf?_banReason h.knows.store.isUuid _ id
  refine ⟨h.knows, ⟨h.current, h.numbered, fun id rule hrule => ?_⟩, h.fit, h.unannounced, h.noMail,
    h.idle, ⟨h.numbers, fun e he howner => absurd howner (h.noDecisions e he),
      fun id e he _ _ hreason => absurd hreason (hother e he id), fun id v => ?_⟩⟩
  · rw [hnone] at hrule
    cases hrule
  · constructor
    · rintro ⟨e, he, hreason, _⟩
      exact absurd hreason (hother e he id)
    · rintro ⟨d, hd, _⟩
      rw [Site.wanted, hnone] at hd
      cases hd

/-- What an engine holds that agrees with a store. -/
theorem Agrees.heldPairs_nodup {s : Store} {h : List Engine.Decision}
    (hagrees : Agrees site firewall s h) : (heldPairs site h).Nodup := by
  have hnodup : (h.filter fun e =>
      ownerOf? site.settings.scenarios.ns e.scenario = some site.uuid).Nodup :=
    (List.Nodup.of_map _ hagrees.numbers).filter _
  refine List.Nodup.map_on (fun e he f hf heq => ?_) hnodup
  obtain ⟨hvalue, hscenario⟩ := Prod.mk.inj heq
  obtain ⟨he, howner⟩ := List.mem_filter.mp he
  obtain ⟨id, hreason⟩ := hagrees.owned e he (of_decide_eq_true howner)
  exact hagrees.once id e he f (List.mem_filter.mp hf).1 hreason (hscenario ▸ hreason) hvalue

theorem Agrees.mem_heldPairs_iff {s : Store} {h : List Engine.Decision} (hs : site.Knows s)
    (hagrees : Agrees site firewall s h) {v r : String} :
    (v, r) ∈ heldPairs site h ↔ ∃ id, ∃ d ∈ site.wanted firewall s id, d.ip = v ∧ d.reason = r := by
  unfold heldPairs
  rw [List.mem_map]
  constructor
  · rintro ⟨e, he, heq⟩
    obtain ⟨rfl, rfl⟩ := Prod.mk.inj heq
    obtain ⟨he, howner⟩ := List.mem_filter.mp he
    obtain ⟨id, hreason⟩ := hagrees.owned e he (of_decide_eq_true howner)
    obtain ⟨d, hd, hip⟩ := (hagrees.bans id e.value).mp ⟨e, he, hreason, rfl⟩
    exact ⟨id, d, hd, hip, (Site.reason_of_mem_wanted hs hd).trans hreason.symm⟩
  · rintro ⟨id, d, hd, rfl, rfl⟩
    have hreason := Site.reason_of_mem_wanted hs hd
    obtain ⟨e, he, hscenario, hvalue⟩ := (hagrees.bans id d.ip).mpr ⟨d, hd, rfl⟩
    refine ⟨e, List.mem_filter.mpr ⟨he, decide_eq_true ?_⟩, ?_⟩
    · rw [hscenario]
      exact ownerOf?_banReason hs.isUuid _ id
    · rw [hvalue, hscenario, hreason]

/-- **Bans converge.** After any number of edits, each followed by its event and its jobs, every
rule that bans compiles, and what the engine holds for the application are the targets of those
rules with their reasons, each once. -/
theorem bans_converge (hreliable : Reliable site o held exactly) {c d : Config ρ}
    (hbeginning : Beginning site firewall held c)
    (hedits : Relation.ReflTransGen (Edited site o) c d) :
    (heldPairs site (held d.outside)).Nodup ∧
    ∃ context, d.state.contextOf site.firewall = .ok context ∧
      (∀ rule ∈ context.banRules, ∃ ds,
        context.decisions d.state.settings.scenarios rule = .ok ds) ∧
      ∀ v r, (v, r) ∈ heldPairs site (held d.outside) ↔
        ∃ rule ∈ context.banRules,
          r = banReason d.state.settings.scenarios.ns context.uuid rule.id ∧
          ∃ ds, context.decisions d.state.settings.scenarios rule = .ok ds ∧
            v ∈ ds.map (·.ip) := by
  have hd : Settled site firewall held d := by
    induction hedits with
    | refl => exact hbeginning.settled
    | tail _ hedit ih => exact ih.edited hreliable hbeginning.active hedit
  have hknows := hd.knows.store
  refine ⟨hd.agrees.heldPairs_nodup, _, hd.knows.contextOf hd.ordered.current, fun rule hrule => ?_,
    fun v r => ?_⟩
  · obtain ⟨hmem, hforce⟩ := List.mem_filter.mp hrule
    obtain ⟨henabled, hban⟩ := Bool.and_eq_true_iff.mp hforce
    obtain ⟨id, hget, hf⟩ := (Site.mem_context_rules hknows.rules).mp hmem
    rw [hd.knows.settings, Site.decisions_eq hknows.isUuid]
    exact hd.ordered.compiled id rule
      (Site.banRule?_eq_some_iff.mpr ⟨hget, hf, hban, henabled⟩)
  · rw [hd.agrees.mem_heldPairs_iff hknows, hd.knows.settings]
    have hreason : ∀ (rule : Rule) (ds : List Decision),
        (Context.of site.application firewall (d.state.store.rulesOf site.firewall)
          site.server).decisions site.settings.scenarios rule = .ok ds →
        ∀ e ∈ ds, e.reason = banReason site.settings.scenarios.ns site.uuid rule.id := by
      intro rule ds hds
      rw [Site.decisions_eq hknows.isUuid] at hds
      exact reason_of_decisionsOf hds
    constructor
    · rintro ⟨id, e, he, rfl, rfl⟩
      obtain ⟨rule, hrule, ds, hds, he⟩ := (Site.mem_wanted_iff hknows).mp ⟨id, he⟩
      exact ⟨rule, hrule, hreason rule ds hds e he, ds, hds, List.mem_map_of_mem he⟩
    · rintro ⟨rule, hrule, rfl, ds, hds, hv⟩
      obtain ⟨e, he, rfl⟩ := List.mem_map.mp hv
      obtain ⟨id, hwanted⟩ := (Site.mem_wanted_iff hknows).mpr ⟨rule, hrule, ds, hds, he⟩
      exact ⟨id, e, hwanted, rfl, hreason rule ds hds e he⟩

/-! ## A run

An engine that reads its commands, and one rule. -/

namespace Demo

/-- The arguments of a command of the engine's client. -/
def arguments? (line : String) : Option (List String) :=
  match Text.Word.split line with
  | some (_ :: _ :: _ :: _ :: arguments) =>
    if line = Shop.site.engine.command arguments then some arguments else none
  | _ => none

/-- What becomes of the decisions, if the engine may give an answer; a number is not given twice at
a time, and a listing that can be read is right. -/
def after? (answer : Except Failure String) (h : List Engine.Decision) :
    List String → Option (List Engine.Decision)
  | ["decisions", "add", _, ip, _, _, _, _, _, reason] =>
    let id := UInt64.ofNat h.length + 1
    if id ∈ h.map (·.id) then none
    else some ({ id, kind := "ban", scope := "Ip", value := ip, scenario := reason } :: h)
  | ["decisions", "delete", "--id", id] => some (h.filter fun e => toString e.id != id)
  | ["decisions", "list", _, ip, _, _] => match answer.toOption.bind Engine.decisionsIn with
    | some ds => if ds = h.filter (exactly ip ·.value) then some h else none
    | none => some h
  | _ => some h

/-- An engine that does what it is told. -/
def oracle : Oracle (List Engine.Decision) := fun _ c answer h =>
  match c with
  | .run [line] => match arguments? line with
    | some arguments => after? answer h arguments
    | none => some h
  | _ => some h

theorem arguments?_command (arguments : List String) :
    arguments? (Shop.site.engine.command arguments) = some arguments := by
  have hsplit : Text.Word.split (Shop.site.engine.command arguments) =
      some (Shop.site.engine.words arguments) := Text.Word.split_line _
  rw [arguments?, hsplit]
  exact if_pos rfl

theorem line_of_arguments? {line : String} {arguments : List String}
    (h : arguments? line = some arguments) : line = Shop.site.engine.command arguments := by
  unfold arguments? at h
  split at h
  · split at h
    · rename_i hline
      rwa [← Option.some.inj h]
    · cases h
  · cases h

theorem oracle_command {arguments : List String} {server : Server} {x y : List Engine.Decision}
    {answer : Except Failure String}
    (h : oracle.outside.answers server (.run [Shop.site.engine.command arguments]) x answer y) :
    after? answer x arguments = some y := by
  simp only [Oracle.outside, oracle, arguments?_command] at h
  exact h

theorem reliable : Reliable Shop.site oracle.outside (fun h => h) exactly where
  add d x answer y h := by
    have hafter := oracle_command h
    simp only [after?] at hafter
    split at hafter
    · cases hafter
    · rename_i hid
      obtain rfl := Option.some.inj hafter
      exact .inl ⟨_, rfl, rfl, hid, .refl _⟩
  remove id x answer y h := by
    have hafter := oracle_command h
    refine .inl ?_
    rw [← Option.some.inj hafter]
    refine List.filter_congr fun e _ => ?_
    rw [Bool.eq_iff_iff, bne_iff_ne, bne_iff_ne]
    exact not_congr ⟨Text.toString_inj, congrArg toString⟩
  list ip x answer y h := by
    have hafter := oracle_command h
    simp only [after?] at hafter
    split at hafter
    · rename_i ds hds
      split at hafter
      · rename_i hlisted
        obtain rfl := Option.some.inj hafter
        refine ⟨rfl, fun output listed houtput hparsed => ?_⟩
        rw [houtput] at hds
        have hsame : listed = ds := Option.some.inj (hparsed.symm.trans hds)
        rw [hsame, hlisted]
      · cases hafter
    · rename_i hnone
      obtain rfl := Option.some.inj hafter
      refine ⟨rfl, fun output listed houtput hparsed => ?_⟩
      rw [houtput] at hnone
      cases hparsed.symm.trans hnone
  others server c x answer y hspares h := by
    simp only [Oracle.outside, oracle] at h
    split at h
    · rename_i line
      split at h
      · rename_i arguments harguments
        have hline := line_of_arguments? harguments
        have hother : ∀ rest, arguments ≠ "decisions" :: rest := by
          rintro rest rfl
          exact hspares rest (by rw [hline])
        unfold after? at h
        split at h
        · exact absurd rfl (hother _)
        · exact absurd rfl (hother _)
        · exact absurd rfl (hother _)
        · exact (Option.some.inj h).symm
      · exact (Option.some.inj h).symm
    · exact (Option.some.inj h).symm

/-- The application is known and nothing has happened. -/
def start : Config (List Engine.Decision) where
  state := Shop.state
  held := []
  outside := []

theorem beginning : Beginning Shop.site Shop.firewall (fun h => h) start where
  knows := Shop.knows
  current := rfl
  active := by decide
  numbered := nofun
  noRules := nofun
  noDecisions := nofun
  numbers := List.nodup_nil
  fit := ⟨rfl, List.nodup_nil, nofun⟩
  unannounced := rfl
  noMail := by decide
  idle := ⟨rfl, rfl, fun _ => rfl⟩

/-- A rule that bans an address. -/
def rule : Rule where
  name := "x"
  mode := .ipBan
  action := .ban
  conditions := [{ field := "ip_address", operator := "equals", value := "10.0.0.1" }]

/-- The rule is saved. -/
def edit : Request :=
  .save "abc" rule

/-- What is planned then. -/
def planned : Config (List Engine.Decision) :=
  { start with state := ((edit.perform start.state).2.handleEvent (.saved 1 1 none)).2 }

/-- Several steps of the only worker. -/
def go (steps : Nat) : List Choice :=
  List.replicate steps (.advance 0 (.ok ""))

/-- The engine is asked for the decision and gets it, and then the proxy is told. -/
def choices : List Choice :=
  [.pass 100, .arrive, .start 0] ++ go 7 ++ [.leave 0, .pass 200, .arrive, .start 0] ++ go 5 ++
    [.leave 0]

end Demo

/-- In the run of `Demo.choices`, where a rule is saved and its address is banned. -/
theorem bans_converge_one_address :
    ∃ d : Config (List Engine.Decision),
      (Reliable Shop.site Demo.oracle.outside (fun h => h) exactly ∧
        Beginning Shop.site Shop.firewall (fun h => h) Demo.start ∧
        Relation.ReflTransGen (Edited Shop.site Demo.oracle.outside) Demo.start d ∧
        d.outside.length = 1) ∧
      (heldPairs Shop.site d.outside).Nodup ∧
      ∃ context, d.state.contextOf Shop.site.firewall = .ok context ∧
        (∀ rule ∈ context.banRules, ∃ ds,
          context.decisions d.state.settings.scenarios rule = .ok ds) ∧
        ∀ v r, (v, r) ∈ heldPairs Shop.site d.outside ↔
          ∃ rule ∈ context.banRules,
            r = banReason d.state.settings.scenarios.ns context.uuid rule.id ∧
            ∃ ds, context.decisions d.state.settings.scenarios rule = .ok ds ∧
              v ∈ ds.map (·.ip) := by
  have hall : (follow Demo.oracle Demo.choices Demo.planned).map (fun c =>
      c.isSettled 1 && c.state.lost == 0 && c.outside.length == 1) = some true := by
    decide +kernel
  obtain ⟨d, hfollow, hend⟩ := Option.map_eq_some_iff.mp hall
  rw [Bool.and_eq_true, Bool.and_eq_true, beq_iff_eq, beq_iff_eq] at hend
  obtain ⟨⟨hsettled, hlost⟩, hheld⟩ := hend
  have hrun : Run Demo.oracle.outside (fun _ => False) Demo.choices.length Demo.planned d :=
    run_of_follow (by decide) hfollow
  obtain ⟨_, hidle⟩ := settled_of_follow hfollow hsettled (by decide) fun _ => rfl
  have hsuccess : (Demo.edit.perform Demo.start.state).1 = some (.saved 1 1 none) := by
    decide +kernel
  have hedited : Edited Shop.site Demo.oracle.outside Demo.start d :=
    .mk (r := Demo.edit) trivial rfl hsuccess hrun hidle hlost
  exact ⟨d, ⟨Demo.reliable, Demo.beginning, .single hedited, hheld⟩,
    bans_converge Demo.reliable Demo.beginning (.single hedited)⟩

end Rampart.Bans
