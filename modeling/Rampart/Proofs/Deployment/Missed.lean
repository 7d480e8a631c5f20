import Rampart.Proofs.Deployment.Convergence
import Rampart.Proofs.Deployment.Enabling
import Rampart.Proofs.Store.Compilable

/-!
# Requests that are followed, and requests that are missed

Rules are saved and deleted and the firewall is changed. Either the event of every request is
handled and its jobs are done before the next request comes, or nobody hears of any event.

* `WorkedOff`: all jobs are done; `Followed`: after every request; `missed`: requests alone.
* `Matches`: files and bans are those that the rules call for.
* `invariant_of_plans`, `WorkedOff.hasExactly`: the files after the jobs that were planned.
* **`Matches.followed`**: requests that are followed leave files and bans that match.
-/

namespace Rampart

open Execution

namespace Bans

open Orchestrator

/-! ## Durations -/

/-- The addresses that a rule bans are the same under all firewalls. -/
theorem exists_mem_bans_congr {site : Site} {firewall firewall' : Firewall} {rule : Rule}
    {v : String} (h : ∃ d ∈ site.bans firewall rule, d.ip = v) :
    ∃ d ∈ site.bans firewall' rule, d.ip = v := by
  unfold Site.bans at h ⊢
  split at h
  · rename_i ds hds
    obtain ⟨ds', hds'⟩ := exists_decisionsOf_iff.mpr (exists_decisionsOf_iff.mp ⟨ds, hds⟩)
    rw [hds']
    exact (exists_mem_decisionsOf_iff hds').mpr ((exists_mem_decisionsOf_iff hds).mp h)
  · obtain ⟨d, hd, _⟩ := h
    cases hd

theorem exists_mem_wanted_congr {site : Site} {firewall firewall' : Firewall} {s t : Store}
    (hrules : t.rules = s.rules) {id : UInt64} {v : String} :
    (∃ d ∈ site.wanted firewall' t id, d.ip = v) ↔ ∃ d ∈ site.wanted firewall s id, d.ip = v := by
  have hsame : site.banRule? t id = site.banRule? s id := by
    unfold Site.banRule?
    rw [hrules]
  unfold Site.wanted
  rw [hsame]
  cases site.banRule? s id with
  | none => exact Iff.rfl
  | some rule => exact ⟨exists_mem_bans_congr, exists_mem_bans_congr⟩

section

variable {ρ : Type} {site : Site} {firewall firewall' : Firewall} {s t : Store}

/-- The firewall may be another one. -/
theorem IsOrdered.of_rules (h : IsOrdered site firewall s) (hrules : t.rules = s.rules)
    (hcurrent : t.firewalls.get? site.firewall = some firewall') : IsOrdered site firewall' t := by
  refine ⟨hcurrent, hrules ▸ h.numbered, fun id rule hrule => ?_⟩
  unfold Site.banRule? at hrule
  rw [hrules] at hrule
  exact exists_decisionsOf_iff.mpr (exists_decisionsOf_iff.mp (h.compiled id rule hrule))

theorem Agrees.of_rules {h : List Engine.Decision} (hagrees : Agrees site firewall s h)
    (hrules : t.rules = s.rules) : Agrees site firewall' t h :=
  ⟨hagrees.numbers, hagrees.owned, hagrees.once,
    fun id v => (hagrees.bans id v).trans (exists_mem_wanted_congr hrules).symm⟩

variable {held : ρ → List Engine.Decision} {c : Config ρ}

/-- No job is left, and none is added by a change that leaves the scheduler alone. -/
theorem jobs_of_idle (h : c.Idle) {s : Orchestrator}
    (hscheduler : s.scheduler = c.state.scheduler) : s.jobs = [] := by
  obtain ⟨hwaiting, hqueued, _⟩ := h
  rw [Orchestrator.jobs, hscheduler, Scheduler.entries, hwaiting, hqueued]
  rfl

/-- What is planned for a settled application has nothing to do with bans. -/
theorem Settled.calm (hc : Settled site firewall held c) {s t : Orchestrator} {added : List Job}
    (hknows : s.KnowsSite site) (hscheduler : s.scheduler = c.state.scheduler)
    (hbus : s.ruleBus = c.state.ruleBus) (hplans : Plans s t added)
    (hadded : ∀ job ∈ added, job.SparesBans) : Calm site { c with state := t } := by
  have hfit := hplans.fit (hscheduler ▸ hc.fit)
  have hjobs := hplans.jobs
  rw [jobs_of_idle hc.idle hscheduler, List.append_nil] at hjobs
  obtain ⟨scheduler, syncs, rfl⟩ := hplans.frame
  refine ⟨hknows.settings, hfit, hc.unannounced, ?_, fun job hjob => hadded job ?_,
    fun i p hi => ?_⟩
  · rw [← hc.noMail]
    simp only [Simulation.World.hasMail, hbus]
    rfl
  · exact hjobs.mem_iff.mp hjob
  · rw [hc.idle.2.2 i] at hi
    cases hi

end

end Bans

namespace Recovery

open Orchestrator Bans
open Remote (Files)

section

variable {ρ : Type} {site : Site} {firewall : Firewall} {o : Outside ρ}
  {files : ρ → UInt64 → Files} {held : ρ → List Engine.Decision} {c d : Config ρ} {lost : Nat}

/-! ## Requests and their jobs -/

/-- **All jobs are done**, side by side and with as many attempts as they take, and no more are lost
than had been lost before. -/
def WorkedOff (site : Site) (o : Outside ρ) (lost : Nat) (c d : Config ρ) : Prop :=
  ∃ n, Run o (fun _ => False) n c d ∧ (c.state.generation site.firewall).toNat + n < 2 ^ 64 ∧
    d.Heard ∧ d.Idle ∧ d.state.lost = lost

/-- The firewall of an application is active and has its bouncer. -/
def Ready (site : Site) (s : Store) : Prop :=
  ∃ firewall, s.firewalls.get? site.firewall = some firewall ∧ firewall.isActive = true ∧
    firewall.needsBouncer = false

/-- **The event of every request is handled**, and its jobs are done before the next one. -/
inductive Followed (site : Site) (o : Outside ρ) : Config ρ → List Request → Config ρ → Prop
  | nil (c : Config ρ) : Followed site o c [] c
  | cons {c d e : Config ρ} {r : Request} {rs : List Request}
    (hready : Ready site (r.perform c.state).2.store)
    (hwork : WorkedOff site o c.state.lost { c with state := (handled c.state r).2 } d)
    (hrest : Followed site o d rs e) : Followed site o c (r :: rs) e

/-- Requests of which nobody hears. -/
def missed (s : Orchestrator) (rs : List Request) : Orchestrator :=
  rs.foldl (fun s r => (r.perform s).2) s

/-- **Files and bans are those that the rules call for**, and nothing is under way. -/
structure Matches (site : Site) (files : ρ → UInt64 → Files) (held : ρ → List Engine.Decision)
    (c : Config ρ) : Prop where
  settled : ∃ firewall, Settled site firewall held c
  listens : ∃ position, c.state.ruleBus.Follows Simulation.deployer position
  hasExactly : HasExactly site.dir site.uuid (files c.outside site.server.id)
    (site.IsTarget c.state.store)

/-! ## Stores -/

/-- What a request does to the store depends on nothing but the store and the settings. -/
theorem perform_store_congr {s t : Orchestrator} (hstore : s.store = t.store)
    (hsettings : s.settings = t.settings) (r : Request) :
    (r.perform s).2.store = (r.perform t).2.store ∧
      (r.perform s).2.settings = (r.perform t).2.settings := by
  cases r with
  | save uuid rule =>
    simp only [Request.perform, hstore, hsettings]
    rcases t.store.saveRule t.settings.scenarios uuid rule with ⟨result, counter, store⟩
    cases counter <;> exact ⟨rfl, rfl⟩
  | delete uuid id =>
    simp only [Request.perform, hstore]
    cases t.store.deleteRule uuid id with
    | ok _ => exact ⟨rfl, hsettings⟩
    | error _ => exact ⟨hstore, hsettings⟩
  | update uuid u =>
    simp only [Request.perform, hstore]
    cases t.store.updateFirewall uuid u with
    | ok _ => exact ⟨rfl, hsettings⟩
    | error _ => exact ⟨hstore, hsettings⟩

theorem missed_store_congr {s t : Orchestrator} (hstore : s.store = t.store)
    (hsettings : s.settings = t.settings) (rs : List Request) :
    (missed s rs).store = (missed t rs).store := by
  induction rs generalizing s t with
  | nil => exact hstore
  | cons r rs ih =>
    obtain ⟨hstore', hsettings'⟩ := perform_store_congr hstore hsettings r
    exact ih hstore' hsettings'

/-- A request that is no edit, or is refused, leaves the rules as they are, and an edit leaves the
firewalls as they are. -/
theorem perform_kind {s : Orchestrator} (hs : s.KnowsSite site) {r : Request}
    (hr : r.uuid = site.uuid) :
    (((r.perform s).1 = none ∨ (r.perform s).1 = some (.firewallChanged site.firewall)) ∧
        (r.perform s).2.store.rules = s.store.rules) ∨
      ∃ event, r.IsEdit ∧ (r.perform s).1 = some event ∧
        (r.perform s).2.store.firewalls = s.store.firewalls := by
  obtain ⟨firewall, hfirewall⟩ := hs.store.firewall
  have hid := hs.store.numbered _ _ hfirewall
  cases r with
  | save uuid rule =>
    obtain rfl : uuid = site.uuid := hr
    rcases hsave : s.store.saveRule s.settings.scenarios site.uuid rule with
      ⟨result, counter, store⟩
    simp only [Request.perform, hsave]
    rcases Site.saveRule_cases hs.store hfirewall (hs.settings ▸ hsave) with
      ⟨_, _, rfl, rfl⟩ | ⟨_, _, rfl, rfl, _⟩
    · cases counter <;> exact .inl ⟨.inl rfl, rfl⟩
    · cases counter <;> exact .inr ⟨_, trivial, rfl, rfl⟩
  | delete uuid id =>
    obtain rfl : uuid = site.uuid := hr
    simp only [Request.perform, Store.deleteRule, Site.firewallFor_eq hs.store hfirewall, bind,
      Except.bind]
    cases (s.store.rules.get? id).filter (·.firewallId == firewall.id) with
    | none => exact .inl ⟨.inl rfl, rfl⟩
    | some _ => exact .inr ⟨_, trivial, rfl, rfl⟩
  | update uuid u =>
    obtain rfl : uuid = site.uuid := hr
    simp only [Request.perform, Store.updateFirewall, Site.firewallFor_eq hs.store hfirewall, bind,
      Except.bind, hid, Store.firewall, hfirewall]
    exact .inl ⟨.inr rfl, rfl⟩

/-! ## Files -/

/-- **When jobs have been planned**, a sync is one of them, or the files are right. -/
theorem invariant_of_plans {s t : Orchestrator} {added : List Job} (hknows : s.KnowsSite site)
    (hlistens : ∃ position, s.ruleBus.Follows Simulation.deployer position)
    (hfit : s.scheduler.IsFit) (hnone : s.jobs = []) (hfree : ∀ i, c.workers i = none)
    (hblankFree : ∀ name, IsScenarioName site.uuid name →
      files c.outside site.server.id (site.dir.file name) ≠ none → IsBlankFree name)
    (hplans : Plans s t added)
    (hsync : added.filterMap (Job.syncOf? site.firewall) = [s.generation site.firewall + 1] ∨
      (added.filterMap (Job.syncOf? site.firewall) = [] ∧ HasExactly site.dir site.uuid
        (files c.outside site.server.id) (site.IsTarget s.store))) :
    Convergence.Invariant site o files (t.generation site.firewall).toNat { c with state := t }
      fun _ => .idle := by
  have hjobs := hplans.jobs
  have hcounts := hplans.counts site.firewall
  have hfit' := hplans.fit hfit
  have hknows' := hknows.of_plans hplans
  rw [hnone, List.append_nil] at hjobs
  have hsyncs : (Convergence.syncs site t).Perm (added.filterMap (Job.syncOf? site.firewall)) :=
    hjobs.filterMap _
  have hnewest : ∀ g ∈ added.filterMap (Job.syncOf? site.firewall),
      g = t.generation site.firewall := by
    intro g hg
    rcases hsync with hone | ⟨hnil, _⟩
    · rw [hone] at hg hcounts
      rw [List.mem_singleton.mp hg, hcounts.eq_of_singleton.2]
    · rw [hnil] at hg
      cases hg
  have hdistinct : (added.filterMap (Job.syncOf? site.firewall)).Nodup := by
    rcases hsync with hone | ⟨hnil, _⟩
    · rw [hone]
      exact List.nodup_singleton _
    · rw [hnil]
      exact List.nodup_nil
  have hsupply : t.generation site.firewall ∈ Convergence.syncs site t ∨
      HasExactly site.dir site.uuid (files c.outside site.server.id) (site.IsTarget s.store) := by
    refine hsync.imp (fun hone => hsyncs.mem_iff.mpr ?_) And.right
    rw [hone] at hcounts ⊢
    rw [hcounts.eq_of_singleton.2]
    exact List.mem_singleton_self _
  have hdeployment : ∀ job ∈ t.jobs, job.IsDeployment := fun job hjob =>
    hplans.deployment job (hjobs.mem_iff.mp hjob)
  obtain ⟨scheduler, table, hframe⟩ := hplans.frame
  refine ⟨⟨hknows', ?_, hfit', hdeployment, Nat.le_refl _, fun g hg => ?_,
    hsyncs.nodup_iff.mpr hdistinct, hblankFree⟩, ⟨hfree, fun _ => trivial, nofun, nofun, nofun,
      nofun⟩, fun _ _ _ => .inr (.inr (.inr ⟨fun _ => trivial, ?_⟩))⟩
  · rw [hframe]
    exact hlistens
  · rw [hnewest g (hsyncs.mem_iff.mp hg)]
    exact UInt64.le_refl _
  · refine hsupply.imp_right fun hexactly => .inr (.inr ⟨?_, fun _ => trivial⟩)
    rw [hframe]
    exact hexactly

/-- What holds when all jobs are done. -/
theorem WorkedOff.invariant (hfaultless : Convergence.Faultless o files)
    (h : WorkedOff site o lost c d)
    (hc : Convergence.Invariant site o files (c.state.generation site.firewall).toNat c
      fun _ => .idle) : ∃ n roles, Convergence.Invariant site o files n d roles := by
  obtain ⟨n, hrun, hn, _⟩ := h
  let start := (c.state.generation site.firewall).toNat
  have hall := @invariant_of_run _ _ _ (fun n d => start + n < 2 ^ 64 →
    ∃ roles, Convergence.Invariant site o files (start + n) d roles)
    (fun n d e ih hs hn => by
      obtain ⟨roles, hd⟩ := ih (Nat.lt_of_succ_lt hn)
      exact Convergence.invariant_of_step hfaultless hn hd (hs.mono fun _ => False.elim))
    _ _ _ hrun
  exact ⟨_, hall (fun _ => ⟨_, hc⟩) hn⟩

/-- Nothing is under way: the files of an active firewall are those that its rules call for. -/
theorem hasExactly_of_idle {n : Nat} {roles : Nat → Convergence.Role}
    (h : Convergence.Invariant site o files n c roles) (hheard : c.Heard) (hidle : c.Idle)
    (hready : Ready site c.state.store) : HasExactly site.dir site.uuid
      (files c.outside site.server.id) (site.IsTarget c.state.store) := by
  obtain ⟨firewall, hfirewall, hactive, hbouncer⟩ := hready
  have hroles : ∀ i, roles i = .idle := fun i => Convergence.role_eq_idle h.cast (hidle.2.2 i)
  have hsyncs : Convergence.syncs site c.state = [] := by
    rw [Convergence.syncs, jobs_of_idle hidle rfl]
    rfl
  rcases h.news firewall hfirewall hactive with hnotice | ⟨i, hi⟩ | ⟨hneeds, _⟩ |
    ⟨_, hjob | ⟨i, hi⟩ | ⟨i, hi⟩ | ⟨hexactly, _⟩⟩
  · exact absurd hnotice (Convergence.not_notice_of_heard h.base hheard)
  · rw [hroles i] at hi
    cases hi
  · rw [hbouncer] at hneeds
    cases hneeds
  · rw [hsyncs] at hjob
    cases hjob
  · rw [hroles i] at hi
    cases hi
  · rw [hroles i] at hi
    cases hi
  · exact hexactly

/-! ## Requests that are followed -/

/-- Files that the rules call for have no blanks in their names. -/
theorem Matches.blankFree (hc : Matches site files held c) {name : String}
    (hname : IsScenarioName site.uuid name)
    (hthere : files c.outside site.server.id (site.dir.file name) ≠ none) : IsBlankFree name := by
  obtain ⟨firewall, hsettled⟩ := hc.settled
  obtain ⟨contents, hcontents⟩ := Option.ne_none_iff_exists'.mp hthere
  obtain ⟨targets, _, htargets, hmem⟩ := Site.files_eq hsettled.knows.store hsettled.ordered.current
  exact htargets.blankFree _ ((hmem _).mpr ((hc.hasExactly name hname contents).mp hcontents))

/-- **What is planned for a request**: a sync, unless the files are to stay as they are. -/
theorem handled_spec {s : Orchestrator} (hs : s.KnowsSite site) {r : Request}
    (hr : r.uuid = site.uuid) (hready : Ready site (r.perform s).2.store) :
    ∃ added, Plans (r.perform s).2 (handled s r).2 added ∧
      (added.filterMap (Job.syncOf? site.firewall) =
          [(r.perform s).2.generation site.firewall + 1] ∨
        (added.filterMap (Job.syncOf? site.firewall) = [] ∧
          ∀ f, site.IsTarget (r.perform s).2.store f ↔ site.IsTarget s.store f)) := by
  obtain ⟨firewall, hfirewall, hactive, hbouncer⟩ := hready
  have hknows := hs.perform hr
  obtain ⟨store, counters, hstate, _, hkind⟩ := Site.perform_spec hs.settings hs.store hr
  have hstore : (r.perform s).2.store = store := by rw [hstate]
  rw [← hstore] at hkind
  unfold handled
  rcases hperform : r.perform s with ⟨event, t⟩
  rw [hperform] at hkind hknows hfirewall
  rcases hkind with ⟨rfl, hrules, hfirewalls⟩ | ⟨e, rfl, hannounces⟩
  · exact ⟨[], .refl t, .inr ⟨rfl, Convergence.isTarget_congr hrules (by rw [hfirewalls])⟩⟩
  · obtain ⟨added, hplans, hsync | ⟨hnil, hinactive | hnot | ⟨hneeds, _⟩⟩⟩ :=
      handleEvent_spec hknows hfirewall e
    · exact ⟨added, hplans, .inl hsync⟩
    · rw [hactive] at hinactive
      cases hinactive
    · exact ⟨added, hplans, .inr ⟨hnil, (hannounces.same.resolve_left hnot).1⟩⟩
    · rw [hbouncer] at hneeds
      cases hneeds

/-- What is planned for a change of the firewall, or for a request that was refused, has nothing to
do with bans. -/
theorem handled_spares {s : Orchestrator} (hs : s.KnowsSite site) {r : Request}
    (hr : r.uuid = site.uuid) (hready : Ready site (r.perform s).2.store)
    (hkind : (r.perform s).1 = none ∨
      (r.perform s).1 = some (.firewallChanged site.firewall)) :
    ∃ added, Plans (r.perform s).2 (handled s r).2 added ∧ ∀ job ∈ added, job.SparesBans := by
  obtain ⟨firewall, hfirewall, hactive, hbouncer⟩ := hready
  have hknows := hs.perform hr
  unfold handled
  rcases hperform : r.perform s with ⟨event, t⟩
  rw [hperform] at hkind hknows hfirewall
  rcases hkind with rfl | rfl
  · exact ⟨[], .refl t, fun _ hjob => absurd hjob List.not_mem_nil⟩
  · refine ⟨[.sync site.firewall (t.generation site.firewall + 1)], ?_, fun job hjob => ?_⟩
    · simp only [handleEvent_of_isActive (hknows.contextOf hfirewall) hbouncer hactive]
      exact planSync_plans t site.firewall true
    · rw [List.mem_singleton.mp hjob]
      trivial

/-- After one request and its jobs the bans match again. -/
theorem settled_after (hreliable : Reliable site o held exactly)
    (hc : Settled site firewall held c) {r : Request} (hr : r.uuid = site.uuid)
    (hready : Ready site (r.perform c.state).2.store)
    (hwork : WorkedOff site o c.state.lost { c with state := (handled c.state r).2 } d)
    (hknows : d.state.KnowsSite site) (hfit : d.state.scheduler.IsFit) :
    (∃ firewall, Settled site firewall held d) ∧
      d.state.store = (r.perform c.state).2.store := by
  obtain ⟨n, hrun, _, hheard, hidle, hlost⟩ := hwork
  obtain ⟨current, hcurrent, hactive, hbouncer⟩ := hready
  rcases perform_kind hc.knows hr with ⟨hcalm, hrules⟩ | ⟨event, hedit, hevent, hfirewalls⟩
  · obtain ⟨store, counters, hstate, _⟩ := Site.perform_spec hc.knows.settings hc.knows.store hr
    obtain ⟨added, hplans, hspares⟩ :=
      handled_spares hc.knows hr ⟨current, hcurrent, hactive, hbouncer⟩ hcalm
    obtain ⟨hstore, hheld⟩ := (hc.calm (hc.knows.perform hr) (by rw [hstate]) (by rw [hstate])
      hplans hspares).run hreliable hrun
    obtain ⟨scheduler, syncs, hframe⟩ := hplans.frame
    have hsame : d.state.store = (r.perform c.state).2.store := by
      rw [hstore]
      simp only [hframe]
    refine ⟨⟨current, hknows, ?_, hfit, hheard.1, hheard.2, hidle, ?_⟩, hsame⟩
    · rw [hsame]
      exact hc.ordered.of_rules hrules hcurrent
    · rw [hsame, hheld]
      exact hc.agrees.of_rules hrules
  · have hsame : current = firewall := by
      rw [hfirewalls, hc.ordered.current] at hcurrent
      exact (Option.some.inj hcurrent).symm
    have hhandled : handled c.state r = (r.perform c.state).2.handleEvent event := by
      unfold handled
      rcases hperform : r.perform c.state with ⟨e, t⟩
      rw [hperform] at hevent
      obtain rfl : e = some event := hevent
      rfl
    rw [hhandled] at hrun
    obtain ⟨hsettled, hstore⟩ :=
      hc.performed hreliable (hsame ▸ hactive) hedit hr hevent hrun hidle hlost
    exact ⟨⟨firewall, hsettled⟩, hstore⟩

/-- **After one request and its jobs** files and bans match again. -/
theorem Matches.after (hfaultless : Convergence.Faultless o files)
    (hreliable : Reliable site o held exactly) (hc : Matches site files held c) {r : Request}
    (hr : r.uuid = site.uuid) (hready : Ready site (r.perform c.state).2.store)
    (hwork : WorkedOff site o c.state.lost { c with state := (handled c.state r).2 } d) :
    Matches site files held d ∧ d.state.store = (r.perform c.state).2.store := by
  obtain ⟨firewall, hsettled⟩ := hc.settled
  obtain ⟨store, counters, hstate, _⟩ :=
    Site.perform_spec hsettled.knows.settings hsettled.knows.store hr
  have hscheduler : (r.perform c.state).2.scheduler = c.state.scheduler := by rw [hstate]
  have hbus : (r.perform c.state).2.ruleBus = c.state.ruleBus := by rw [hstate]
  obtain ⟨added, hplans, hsync⟩ := handled_spec hsettled.knows hr hready
  obtain ⟨n, roles, hinv⟩ := hwork.invariant hfaultless
    (invariant_of_plans (hsettled.knows.perform hr) (hbus ▸ hc.listens)
      (hscheduler ▸ hsettled.fit) (jobs_of_idle hsettled.idle hscheduler) hsettled.idle.2.2
      (fun _ => hc.blankFree) hplans (hsync.imp_right fun hkeeps =>
        ⟨hkeeps.1, Convergence.hasExactly_congr hkeeps.2 hc.hasExactly⟩))
  obtain ⟨hbans, hstore⟩ :=
    settled_after hreliable hsettled hr hready hwork hinv.base.knows hinv.base.fit
  obtain ⟨_, _, _, hheard, hidle, _⟩ := hwork
  exact ⟨⟨hbans, hinv.base.bus, hasExactly_of_idle hinv hheard hidle (hstore ▸ hready)⟩, hstore⟩

/-- **Requests that are followed** leave files and bans that match. -/
theorem Matches.followed (hfaultless : Convergence.Faultless o files)
    (hreliable : Reliable site o held exactly) (hc : Matches site files held c) {rs : List Request}
    (hrs : ∀ r ∈ rs, r.uuid = site.uuid) (h : Followed site o c rs d) :
    Matches site files held d ∧ d.state.store = (missed c.state rs).store := by
  induction h with
  | nil c => exact ⟨hc, rfl⟩
  | @cons c d e r rs hready hwork hrest ih =>
    obtain ⟨hr, hrs⟩ := List.forall_mem_cons.mp hrs
    obtain ⟨hd, hstore⟩ := hc.after hfaultless hreliable hr hready hwork
    obtain ⟨he, hstore'⟩ := ih hd hrs
    refine ⟨he, hstore'.trans (missed_store_congr hstore ?_ rs)⟩
    obtain ⟨_, hsettled⟩ := hc.settled
    obtain ⟨_, hsettled'⟩ := hd.settled
    exact hsettled'.knows.settings.trans (hsettled.knows.perform hr).settings.symm

end

end Recovery

end Rampart
