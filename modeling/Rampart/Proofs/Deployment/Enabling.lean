import Rampart.Proofs.Deployment.BanConvergence

/-!
# A firewall that is switched on

Rules may be saved while their firewall is inactive, and nothing is deployed for them. The change
that makes the firewall active leads to a sync of the scenario files, and to nothing that makes
bans: only a deployment from scratch makes those.

* `handleEvent_of_isActive`, `resyncOne_of_isActive`: what is planned, and what is planned from
  scratch.
* `Calm`: no job and no worker has to do with bans; **`Calm.step`**: every step keeps it.
* **`enabling_makes_no_bans`**: what is planned for the change differs from what is planned from
  scratch by the bans, and however the jobs run the engine's decisions stay as they were.
-/

namespace Rampart

open Execution

namespace Orchestrator

/-! ## What is planned -/

theorem planAllDecisions_actions (s : Orchestrator) (firewall : UInt64) (rules : List Rule) :
    (s.planAllDecisions firewall rules).1 = rules.map fun rule => .applyDecisions rule.id := by
  have hall : ∀ plan : Planned, (rules.foldl (fun plan rule =>
      planBoth plan fun s => s.planDecisions firewall rule.id) plan).1 =
        plan.1 ++ rules.map fun rule => .applyDecisions rule.id := by
    induction rules with
    | nil => exact fun plan => (List.append_nil _).symm
    | cons rule rules ih =>
      intro plan
      rw [List.foldl_cons, ih, List.map_cons]
      exact List.append_assoc plan.1 [.applyDecisions rule.id] _
  exact hall ([], s)

variable {s : Orchestrator} {c : Context} {firewall : UInt64}

/-- **A change of a firewall that is active then** leads to a sync. -/
theorem handleEvent_of_isActive (hc : s.contextOf firewall = .ok c)
    (hbouncer : c.firewall.needsBouncer = false) (hactive : c.firewall.isActive = true) :
    s.handleEvent (.firewallChanged firewall) = s.planSync firewall true := by
  rw [handleEvent_firewallChanged hc, hbouncer, hactive]
  rfl

/-- **A deployment from scratch** is a sync, and the decisions of all rules that ban. -/
theorem resyncOne_of_isActive (hc : s.contextOf firewall = .ok c)
    (hbouncer : c.firewall.needsBouncer = false) (hactive : c.firewall.isActive = true) :
    s.resyncOne firewall = planBoth (s.planSync firewall true) fun s =>
      s.planAllDecisions firewall c.banRules := by
  simp only [resyncOne, hc, hbouncer, hactive]
  rfl

end Orchestrator

namespace Bans

open Orchestrator

/-! ## Nothing to do with bans -/

variable {ρ : Type} {site : Site} {o : Outside ρ} {held : ρ → List Engine.Decision}
  {covers : String → String → Bool} {c d : Config ρ}

/-- **Nothing that is on the way has to do with bans.** -/
structure Calm (site : Site) (c : Config ρ) : Prop where
  settings : c.state.settings = site.settings
  fit : c.state.scheduler.IsFit
  unannounced : c.unannounced = []
  noMail : Simulation.World.hasMail Simulation.deployer c.state = false
  jobs : ∀ job ∈ c.state.jobs, job.SparesBans
  workers : ∀ i p, c.workers i = some p → p.Obeys (sparing site) fun _ => True

namespace Calm

/-- The state changes in a way that no ban notices. -/
theorem unnoticed (h : Calm site c) {w : Shared ρ} (hs : Unnoticed c.state w.state) :
    Calm site { c with toShared := w } := by
  refine ⟨hs.settings.trans h.settings, hs.fit h.fit, h.unannounced, hs.hasMail.trans h.noMail,
    fun job hjob => ?_, h.workers⟩
  obtain ⟨added, hperm, hadded⟩ := hs.jobs
  rcases List.mem_append.mp (hperm.mem_iff.mp hjob) with hjob | hjob
  · exact hadded job hjob
  · exact h.jobs job hjob

/-- One worker goes on. -/
theorem worker (h : Calm site c) {i : Nat} {p : Option (Process Orchestrator Unit)}
    (hp : ∀ q, p = some q → q.Obeys (sparing site) fun _ => True) :
    Calm site { c with workers := Function.update c.workers i p } := by
  refine ⟨h.settings, h.fit, h.unannounced, h.noMail, h.jobs, fun j q hj => ?_⟩
  have hj := (Function.update_apply c.workers i p j).symm.trans hj
  split at hj
  · exact hp q hj
  · exact h.workers j q hj

/-- A job is taken out of the scheduler. -/
theorem picked (h : Calm site c) {e : Entry Job} {rest : Scheduler Job}
    (hpick : c.state.scheduler.pick? = some (e, rest)) :
    e.job.SparesBans ∧ Calm site { c with state := { c.state with scheduler := rest } } := by
  have hperm : c.state.jobs.Perm (e.job :: rest.entries.map (·.job)) := by
    have hentries := (Scheduler.pick?_entries hpick).map (·.job)
    rwa [List.map_cons] at hentries
  exact ⟨h.jobs _ (hperm.mem_iff.mpr List.mem_cons_self),
    h.settings, Scheduler.pick?_isFit h.fit hpick, h.unannounced, h.noMail,
    fun job hjob => h.jobs job (hperm.mem_iff.mpr (List.mem_cons_of_mem _ hjob)), h.workers⟩

/-- **Every step keeps it**, while nobody asks for anything; the store and the engine's decisions
stay as they are. -/
theorem step (hreliable : Reliable site o held covers) (h : Calm site c)
    (hstep : Step o (fun _ => False) c d) :
    Calm site d ∧ d.state.store = c.state.store ∧ held d.outside = held c.outside := by
  cases hstep with
  | request hasked => exact hasked.elim
  | announce hevents =>
    rw [h.unannounced] at hevents
    simp at hevents
  | hear hmail =>
    rw [h.noMail] at hmail
    cases hmail
  | pass _ =>
    exact ⟨h.unnoticed (w := { c.toShared with state := _ })
      (.of_scheduler [] (.refl _) (fun _ hmem => absurd hmem List.not_mem_nil)
        (fun hfit => ⟨hfit.isOpen, hfit.numbers, hfit.issued⟩) (Nat.le_refl _)), rfl, rfl⟩
  | arrive hwaits _ =>
    exact ⟨h.unnoticed (w := { c.toShared with state := _ })
      (.of_scheduler [] (Scheduler.arrive_entries h.fit hwaits)
        (fun _ hmem => absurd hmem List.not_mem_nil)
        (fun hfit => Scheduler.arrive_isFit hfit hwaits) (Nat.le_refl _)), rfl, rfl⟩
  | start hfree hpick =>
    obtain ⟨hspares, hrest⟩ := h.picked hpick
    exact ⟨hrest.worker fun q hq => Option.some.inj hq ▸ sparing_attempt site hspares, rfl, rfl⟩
  | advance hi hadvance =>
    obtain ⟨hdisciplined, hp'⟩ := Obeys.of_advance (d := sparing site)
      (fun _ _ _ _ _ _ => trivial) (h.workers _ _ hi) h.settings hadvance
    have hchange : Unnoticed c.state _ := hdisciplined.state
    refine ⟨(h.unnoticed hchange).worker fun q hq => ?_, hchange.store,
      held_of_touched hreliable hdisciplined.outside⟩
    exact Option.some.inj hq ▸ hp'
  | leave hi => exact ⟨h.worker nofun, rfl, rfl⟩

theorem run (hreliable : Reliable site o held covers) (h : Calm site c) {n : Nat}
    (hrun : Run o (fun _ => False) n c d) :
    d.state.store = c.state.store ∧ held d.outside = held c.outside := by
  refine (@invariant_of_run _ _ _ (fun _ d => Calm site d ∧ d.state.store = c.state.store ∧
    held d.outside = held c.outside) (fun _ _ _ hinv hs => ?_) _ _ _ hrun ⟨h, rfl, rfl⟩).2
  obtain ⟨hcalm, hstore, hheld⟩ := hinv.1.step hreliable hs
  exact ⟨hcalm, hstore.trans hinv.2.1, hheld.trans hinv.2.2⟩

/-- A sync is planned. -/
theorem planSync (h : Calm site c) (firewall : UInt64) :
    Calm site { c with state := (c.state.planSync firewall true).2 } := by
  have hplans := planSync_plans c.state firewall true
  obtain ⟨scheduler, syncs, hframe⟩ := hplans.frame
  refine h.unnoticed (w := { c.toShared with state := _ }) ?_
  exact ⟨by rw [hframe], by rw [hframe], by rw [hframe], by rw [hframe],
    ⟨_, hplans.jobs, fun job hjob => by rw [List.mem_singleton.mp hjob]; trivial⟩, hplans.fit,
    by rw [hframe]; exact Nat.le_refl _⟩

end Calm

/-- **Switching a firewall on makes no bans.** When a firewall is active after a change, and nothing
else is on the way that has to do with bans, then what is planned for the change is the sync that a
deployment from scratch begins with, without the decisions that follow there; and however the jobs
run, as often as they fail, the store and the engine's decisions stay as they were. -/
theorem enabling_makes_no_bans (hreliable : Reliable site o held covers)
    (hknows : c.state.KnowsSite site) {firewall : Firewall}
    (hfirewall : c.state.store.firewalls.get? site.firewall = some firewall)
    (hbouncer : firewall.needsBouncer = false) (hactive : firewall.isActive = true)
    (hcalm : Calm site c) {n : Nat}
    (hrun : Run o (fun _ => False) n
      { c with state := (c.state.handleEvent (.firewallChanged site.firewall)).2 } d) :
    ∃ context generation, c.state.contextOf site.firewall = .ok context ∧
      (c.state.handleEvent (.firewallChanged site.firewall)).1 =
        [.sync site.firewall generation true] ∧
      (c.state.resyncOne site.firewall).1 = .sync site.firewall generation true ::
        context.banRules.map (fun rule => .applyDecisions rule.id) ∧
      d.state.store = c.state.store ∧ held d.outside = held c.outside := by
  have hcontext := hknows.contextOf hfirewall
  rw [handleEvent_of_isActive hcontext hbouncer hactive] at hrun ⊢
  obtain ⟨hstore, hheld⟩ := (hcalm.planSync site.firewall).run hreliable hrun
  obtain ⟨_, _, hframe⟩ := (planSync_plans c.state site.firewall true).frame
  refine ⟨_, _, hcontext, rfl, ?_, hstore.trans ?_, hheld⟩
  · rw [resyncOne_of_isActive hcontext hbouncer hactive]
    exact congrArg _ (planAllDecisions_actions _ _ _)
  · rw [hframe]

/-! ## A rule that waits for its firewall -/

/-- A request, and its event is handled. -/
def handled (s : Orchestrator) (r : Request) : Planned :=
  match r.perform s with
  | (some event, s) => s.handleEvent event
  | (none, s) => ([], s)

theorem knowsSite_handled {s : Orchestrator} (h : s.KnowsSite site) {r : Request}
    (hr : r.uuid = site.uuid) : (handled s r).2.KnowsSite site := by
  have hafter := h.perform hr
  unfold handled
  rcases hperform : r.perform s with ⟨event, t⟩
  rw [hperform] at hafter
  cases event with
  | none => exact hafter
  | some event =>
    obtain ⟨_, hplans, _⟩ := handleEvent_plans t event
    exact hafter.of_plans hplans

namespace Demo

/-- The shop is switched off, and then a rule that bans is saved. -/
def closed : Orchestrator :=
  (handled (handled Shop.state (.update "abc" { enabled := some false })).2 edit).2

/-- The shop is switched on. -/
def opening : Request :=
  .update "abc" { enabled := some true }

/-- Afterwards nothing has been handled yet. -/
def opened : Config (List Engine.Decision) where
  state := (opening.perform closed).2
  held := []
  outside := []

theorem opened_knows : opened.state.KnowsSite Shop.site :=
  (knowsSite_handled (knowsSite_handled Shop.knows rfl) rfl).perform rfl

theorem opened_calm : Calm Shop.site opened where
  settings := rfl
  fit := ⟨by decide +kernel, by decide +kernel, by decide +kernel⟩
  unannounced := rfl
  noMail := by decide +kernel
  jobs := by
    have hnone : opened.state.jobs = [] := by decide +kernel
    rw [hnone]
    exact nofun
  workers := nofun

/-- The sync is carried out, and then the proxy is told. -/
def deployment : List Choice :=
  [.arrive, .start 0] ++ go 15 ++ [.leave 0, .pass 100000, .arrive, .start 0] ++ go 5 ++ [.leave 0]

end Demo

/-- In the run of `Demo.deployment`, after which no job is left and no ban has been made. -/
theorem enabling_makes_no_bans_opened :
    ∃ d : Config (List Engine.Decision),
      (Reliable Shop.site Demo.oracle.outside (fun h => h) exactly ∧
        Demo.opened.state.KnowsSite Shop.site ∧
        Demo.opened.state.store.firewalls.get? Shop.site.firewall = some Shop.firewall ∧
        Shop.firewall.needsBouncer = false ∧ Shop.firewall.isActive = true ∧
        Calm Shop.site Demo.opened ∧
        Run Demo.oracle.outside (fun _ => False) Demo.deployment.length
          { Demo.opened with
            state := (Demo.opened.state.handleEvent (.firewallChanged Shop.site.firewall)).2 } d ∧
        d.Idle ∧ d.state.lost = 0) ∧
      ∃ context generation, Demo.opened.state.contextOf Shop.site.firewall = .ok context ∧
        (Demo.opened.state.handleEvent (.firewallChanged Shop.site.firewall)).1 =
          [.sync Shop.site.firewall generation true] ∧
        (Demo.opened.state.resyncOne Shop.site.firewall).1 =
          .sync Shop.site.firewall generation true ::
            context.banRules.map (fun rule => .applyDecisions rule.id) ∧
        d.state.store = Demo.opened.state.store ∧ d.outside = [] := by
  have hall : (follow Demo.oracle Demo.deployment { Demo.opened with
      state := (Demo.opened.state.handleEvent (.firewallChanged Shop.site.firewall)).2 }).map
        (fun c => c.isSettled 1 && c.state.lost == 0) = some true := by
    decide +kernel
  obtain ⟨d, hfollow, hend⟩ := Option.map_eq_some_iff.mp hall
  rw [Bool.and_eq_true, beq_iff_eq] at hend
  have hrun := @run_of_follow _ _ (fun _ => False) _ _ _ (by decide) hfollow
  obtain ⟨_, hidle⟩ := settled_of_follow hfollow hend.1 (by decide) fun _ => rfl
  have hfirewall : Demo.opened.state.store.firewalls.get? Shop.site.firewall =
      some Shop.firewall := by
    decide +kernel
  exact ⟨d, ⟨Demo.reliable, Demo.opened_knows, hfirewall, by decide, by decide, Demo.opened_calm,
    hrun, hidle, hend.2⟩, enabling_makes_no_bans Demo.reliable Demo.opened_knows hfirewall
      (by decide) (by decide) Demo.opened_calm hrun⟩

/-- **When the shop is switched on only a sync is planned**, although a deployment from scratch would
also make the decisions of the rule that was saved before. -/
theorem opening_without_decisions :
    (handled (handled Shop.state (.update "abc" { enabled := some false })).2 Demo.edit).1 =
      [.skipped "firewall inactive"] ∧
    (handled Demo.closed Demo.opening).1 = [.sync 1 1 true] ∧
    Demo.opened.state.resync.1 = [.sync 1 1 true, .applyDecisions 1] := by
  decide +kernel

end Bans

end Rampart
