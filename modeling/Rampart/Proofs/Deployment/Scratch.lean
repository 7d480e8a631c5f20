import Rampart.Proofs.Bus
import Rampart.Proofs.Deployment.Enabling
import Rampart.Proofs.Deployment.Making

/-!
# A deployment from scratch

What becomes of the decisions of an application while everything is deployed from scratch, with all
other applications that the orchestrator knows: their bouncers may have to be registered first, and
that may be heard while the jobs run.

* **`resync_deploys`**: what is planned, with every rule that bans.
* `Applying`: a worker makes the decisions of a rule.
* `Rising`: what holds at all times; **`Rising.step`**: every step keeps it.
* **`Rising.mem_heldPairs_iff`**: when no job is left and none was lost, what is held for the
  application is what was held before and what its rules call for.
-/

namespace Rampart

open Execution

namespace Orchestrator

/-! ## What is planned -/

/-- **What is planned when events were lost** lifts nothing, and makes the decisions of every rule
of an active firewall that bans. -/
theorem resync_deploys {s : Orchestrator} {site : Site} (h : s.KnowsSite site)
    {firewall : Firewall} (hfirewall : s.store.firewalls.get? site.firewall = some firewall)
    (hactive : firewall.isActive = true) (hbouncer : firewall.needsBouncer = false) :
    ∃ added, Plans s s.resync.2 added ∧ (∀ job ∈ added, job.Deploys site.firewall) ∧
      ∀ rule ∈ (Context.of site.application firewall (s.store.rulesOf site.firewall)
        site.server).banRules, .applyDecisions site.firewall rule.id ∈ added := by
  have hcontext := h.contextOf hfirewall
  refine ⟨_, resync_plans h.store.distinct, fun job hjob => ?_, fun rule hrule => ?_⟩
  · obtain ⟨id, _, hjob⟩ := List.mem_flatMap.mp hjob
    rcases mem_resyncJobs hjob with ⟨rfl, c, hc, hneeds⟩ | rfl | ⟨rule, rfl⟩
    · rintro rfl
      rw [hcontext] at hc
      obtain rfl := Except.ok.inj hc
      exact absurd hneeds (Bool.eq_false_iff.mp hbouncer)
    · trivial
    · trivial
  · have hsame : (Context.of site.application firewall (s.store.rulesOf site.firewall)
      site.server).firewall = firewall := rfl
    refine List.mem_flatMap.mpr
      ⟨site.firewall, mem_reverse_firewallIds h.store.distinct hfirewall, ?_⟩
    rw [resyncJobs_of_context hcontext, hsame, hbouncer, hactive]
    exact List.mem_append_left _ (List.mem_map.mpr ⟨rule, List.mem_reverse.mpr hrule, rfl⟩)

/-- What follows a change of a firewall lifts nothing. -/
theorem handleEvent_deploys {s : Orchestrator} {site : Site} (h : s.KnowsSite site)
    {firewall : Firewall} (hfirewall : s.store.firewalls.get? site.firewall = some firewall)
    (hbouncer : firewall.needsBouncer = false) (id : UInt64) :
    ∃ added, Plans s (s.handleEvent (.firewallChanged id)).2 added ∧
      ∀ job ∈ added, job.Deploys site.firewall := by
  cases hc : s.contextOf id with
  | error failure =>
    have hevent : s.contextOf (RuleEvent.firewallChanged id).firewall = .error failure := hc
    simp only [handleEvent, hevent]
    exact ⟨[], .refl s, fun _ hjob => absurd hjob List.not_mem_nil⟩
  | ok c =>
    rw [handleEvent_firewallChanged hc]
    split
    · rename_i hneeds
      refine ⟨_, planProvision_plans s id, fun job hjob => ?_⟩
      rw [List.mem_singleton.mp hjob]
      rintro rfl
      rw [h.contextOf hfirewall] at hc
      rw [← Except.ok.inj hc] at hneeds
      exact absurd hneeds (Bool.eq_false_iff.mp hbouncer)
    · split
      · exact ⟨[], .refl s, fun _ hjob => absurd hjob List.not_mem_nil⟩
      · refine ⟨_, planSync_plans s id true, fun job hjob => ?_⟩
        rw [List.mem_singleton.mp hjob]
        trivial

end Orchestrator

namespace Bans

open Orchestrator

section

variable {ρ : Type} {site : Site} {firewall : Firewall} {store : Store} {o : Outside ρ}
  {held : ρ → List Engine.Decision} {covers : String → String → Bool}

/-! ## Workers -/

/-- **A worker makes the decisions of a rule**, or is about to. -/
inductive Applying (site : Site) (firewall : Firewall) (store : Store) (o : Outside ρ)
    (held : ρ → List Engine.Decision) (id : UInt64) (x : ρ) : Process Orchestrator Unit → Prop
  | beginning {e : Entry Job} (he : e.job = .applyDecisions site.firewall id) :
    Applying site firewall store o held id x (works.attempt e)
  | busy {e : Entry Job} (he : e.job = .applyDecisions site.firewall id)
    {q : Process Orchestrator (Except Failure Unit)}
    (hq : q.Meets (making site firewall store held) o
      (fun result y => ∀ u, result = .ok u → Made site firewall store id (held y)) x) :
    Applying site firewall store o held id x (q.bind (ending e))

/-- Whoever applies a rule is not done. -/
theorem Applying.ne_done {id : UInt64} {x : ρ} {p : Process Orchestrator Unit}
    (h : Applying site firewall store o held id x p) : p ≠ .done () := by
  cases h with
  | beginning _ =>
    rw [attempt_eq]
    intro hdone
    cases hdone
  | @busy e _ q _ =>
    intro hdone
    cases q <;> cases hdone

/-- What others do does not keep the worker from it. -/
theorem Applying.later {id : UInt64} {x y : ρ} {p : Process Orchestrator Unit}
    (h : Applying site firewall store o held id x p)
    (hxy : Accrues site firewall store (held x) (held y)) :
    Applying site firewall store o held id y p := by
  cases h with
  | beginning he => exact .beginning he
  | busy he hq =>
    have hstable (result : Except Failure Unit) :
        (making site firewall store held).Stable fun y =>
          ∀ u, result = .ok u → Made site firewall store id (held y) :=
      fun _ _ hlater hmade u hu => (hmade u hu).lasts hlater
    exact .busy he (hq.rely hstable hxy)

/-- A worker makes the decisions of a rule of the application, or none of the application. -/
def IsRising (site : Site) (firewall : Firewall) (store : Store) (o : Outside ρ)
    (held : ρ → List Engine.Decision) (p : Process Orchestrator Unit) (x : ρ) : Prop :=
  (p.Obeys (beside site) fun _ => True) ∨ ∃ id, Applying site firewall store o held id x p

theorem IsRising.later {p : Process Orchestrator Unit} {x y : ρ}
    (h : IsRising site firewall store o held p x)
    (hxy : Accrues site firewall store (held x) (held y)) :
    IsRising site firewall store o held p y :=
  h.imp_right fun ⟨id, happlying⟩ => ⟨id, happlying.later hxy⟩

/-- **A worker that applies a rule takes a step**: it is still at it, or the decisions are made, or
the job was lost, or is to be done again. -/
theorem Applying.advance (hreliable : Reliable site o held covers)
    (hself : ∀ ip, covers ip ip = true) {id : UInt64} {w w' : Shared ρ}
    {p p' : Process Orchestrator Unit} (h : Applying site firewall store o held id w.outside p)
    (hs : (making site firewall store held).state w.state) (hstep : Advance o w p w' p') :
    (Onward site w.state w'.state ∧ Accrues site firewall store (held w.outside) (held w'.outside) ∧
      IsRising site firewall store o held p' w'.outside) ∧
    (w.state.lost < w'.state.lost ∨ Made site firewall store id (held w'.outside) ∨
      .applyDecisions site.firewall id ∈ w'.state.jobs ∨
      Applying site firewall store o held id w'.outside p') := by
  cases h with
  | @beginning e he =>
    rw [attempt_eq] at hstep
    obtain ⟨rfl, rfl⟩ := hstep.of_atomic
    have he' : (e.begin w.state.scheduler.now).job = .applyDecisions site.firewall id := he
    have hbusy : Applying site firewall store o held id w.outside
        ((handle e.job (e.attempts + 1)).process.bind
          (ending (e.begin w.state.scheduler.now))) := by
      refine .busy he' ?_
      rw [he]
      exact applyDecisions_makes hreliable hself id w.outside
    exact ⟨⟨.refl w.state, .refl _, .inr ⟨id, hbusy⟩⟩, .inr (.inr (.inr hbusy))⟩
  | @busy e he q hq =>
    rcases hstep.of_bind with ⟨result, rfl, hending⟩ | ⟨q', hgoes, rfl⟩
    · obtain ⟨rfl, rfl⟩ := hending.of_atomic
      have hdeploys : e.job.Deploys site.firewall := by
        rw [he]
        trivial
      have hrest : (ending e result).Obeys (beside site) fun _ => True := ending_obeys
        (Quiet.failed_eq hdeploys.isDeployment) (fun s _ => .settle hdeploys result s)
        fun s _ => .of_unnoticed (.finish s)
      refine ⟨⟨.settle hdeploys result w.state, .refl _, .inl (hrest w.state hs.1).2⟩, ?_⟩
      rcases Unnoticed.settle_cases e result w.state with ⟨_, rfl | hlt⟩ | ⟨due, _, heq⟩
      · exact .inr (.inl (hq () rfl))
      · exact .inl hlt
      · have hentries := (Scheduler.delayUntil_entries w.state.scheduler due e).map (·.job)
        refine .inr (.inr (.inl ?_))
        rw [heq]
        exact hentries.mem_iff.mpr (he ▸ List.mem_cons_self)
    · obtain ⟨hchange, hlater, _, hq'⟩ := hq.of_advance hs trivial hgoes
      have hbusy := Applying.busy he hq'
      exact ⟨⟨hchange, hlater, .inr ⟨id, hbusy⟩⟩, .inr (.inr (.inr hbusy))⟩

/-- A step of any such worker. -/
theorem IsRising.advance (hreliable : Reliable site o held covers)
    (hself : ∀ ip, covers ip ip = true) (hlocal : IsLocal site o held) {w w' : Shared ρ}
    {p p' : Process Orchestrator Unit} (h : IsRising site firewall store o held p w.outside)
    (hs : (making site firewall store held).state w.state) (hstep : Advance o w p w' p') :
    Onward site w.state w'.state ∧ Accrues site firewall store (held w.outside) (held w'.outside) ∧
      IsRising site firewall store o held p' w'.outside := by
  rcases h with hobeys | ⟨id, happlying⟩
  · obtain ⟨hdisciplined, hp'⟩ := Obeys.of_advance (d := beside site)
      (fun _ _ _ _ _ _ => trivial) hobeys hs.1 hstep
    exact ⟨hdisciplined.state, accrues_of_touched hreliable hlocal hdisciplined.outside, .inl hp'⟩
  · exact (happlying.advance hreliable hself hs hstep).1

/-! ## What holds at all times -/

/-- Where the decisions of a rule are: made, or their job waits, or a worker is at it; or jobs have
been lost. -/
def Pending (site : Site) (firewall : Firewall) (store : Store) (o : Outside ρ)
    (held : ρ → List Engine.Decision) (lost : Nat) (c : Config ρ) (id : UInt64) : Prop :=
  lost < c.state.lost ∨ Made site firewall store id (held c.outside) ∨
    .applyDecisions site.firewall id ∈ c.state.jobs ∨
    ∃ i p, c.workers i = some p ∧ Applying site firewall store o held id c.outside p

/-- **What holds at all times** of a deployment from scratch, where `before` was held when it began
and `lost` jobs had been lost. -/
structure Rising (site : Site) (firewall : Firewall) (store : Store) (o : Outside ρ)
    (held : ρ → List Engine.Decision) (before : List Engine.Decision) (lost : Nat)
    (c : Config ρ) : Prop where
  knows : c.state.KnowsSite site
  rules : c.state.store.rules = store.rules
  current : c.state.store.firewalls.get? site.firewall = some firewall
  listens : ∃ position, c.state.ruleBus.Follows Simulation.deployer position
  /-- All that can be heard are changes of firewalls. -/
  news : ∀ e ∈ c.state.ruleBus.unread Simulation.deployer, ∃ id, e = .firewallChanged id
  unannounced : c.unannounced = []
  fit : c.state.scheduler.IsFit
  jobs : ∀ job ∈ c.state.jobs, job.Deploys site.firewall
  workers : ∀ i p, c.workers i = some p → IsRising site firewall store o held p c.outside
  accrues : Accrues site firewall store before (held c.outside)
  since : lost ≤ c.state.lost
  pending : ∀ id, Pending site firewall store o held lost c id

namespace Rising

variable {before : List Engine.Decision} {lost : Nat} {c d : Config ρ}

/-- The state changes. -/
theorem onward (h : Rising site firewall store o held before lost c) {s : Orchestrator}
    (hs : Onward site c.state s) :
    Rising site firewall store o held before lost { c with state := s } := by
  obtain ⟨position, hfollows⟩ := h.listens
  refine ⟨hs.knowsSite h.knows, hs.rules.trans h.rules, hs.firewall.trans h.current, ?_, ?_,
    h.unannounced, hs.fit h.fit, hs.deploys h.jobs, h.workers, h.accrues,
    Nat.le_trans h.since hs.lost, fun id => ?_⟩
  · refine ⟨position, ?_⟩
    rcases hs.bus with hsame | ⟨id, hpublished⟩
    · exact hsame ▸ hfollows
    · exact hpublished ▸ Bus.publish_follows hfollows _
  · intro e he
    rcases hs.bus with hsame | ⟨id, hpublished⟩
    · exact h.news e (hsame ▸ he)
    · rcases Bus.mem_unread_of_publish hfollows (hpublished ▸ he) with he | rfl
      · exact h.news e he
      · exact ⟨id, rfl⟩
  · exact (h.pending id).imp (fun hlt => Nat.lt_of_lt_of_le hlt hs.lost) (Or.imp_right
      (Or.imp_left hs.mem_jobs))

/-- What is heard changes only what is left to be heard. -/
theorem heard (h : Rising site firewall store o held before lost c) {bus : Bus RuleEvent}
    {position : Nat} (hfollows : bus.Follows Simulation.deployer position)
    (hunread : bus.unread Simulation.deployer ⊆
      c.state.ruleBus.unread Simulation.deployer) :
    Rising site firewall store o held before lost
      { c with state := { c.state with ruleBus := bus } } :=
  ⟨⟨h.knows.settings, h.knows.server, h.knows.store⟩, h.rules, h.current, ⟨position, hfollows⟩,
    fun e he => h.news e (hunread he), h.unannounced, h.fit, h.jobs, h.workers, h.accrues, h.since,
    h.pending⟩

theorem hear (h : Rising site firewall store o held before lost c)
    (hactive : firewall.isActive = true) (hbouncer : firewall.needsBouncer = false) :
    Rising site firewall store o held before lost
      { c with state := Simulation.World.hearRule c.state } := by
  obtain ⟨position, hfollows⟩ := h.listens
  rcases Bus.next_cases hfollows with ⟨_, k, after, _, hnext, hafter, _, hunread⟩ |
    ⟨_, e, after, _, hnext, hafter, _, hunread⟩ | ⟨_, _, hnext⟩
  · have hread := h.heard hafter (hunread ▸ fun _ => id)
    obtain ⟨added, hplans, hdeploys, _⟩ :=
      resync_deploys hread.knows hread.current hactive hbouncer
    simp only [Simulation.World.hearRule, hnext]
    exact hread.onward (.of_plans hplans hdeploys)
  · have hread := h.heard hafter (hunread ▸ fun _ => List.mem_cons_of_mem e)
    obtain ⟨id, rfl⟩ := h.news e (hunread ▸ List.mem_cons_self)
    obtain ⟨added, hplans, hdeploys⟩ := handleEvent_deploys hread.knows hread.current hbouncer id
    simp only [Simulation.World.hearRule, hnext]
    exact hread.onward (.of_plans hplans hdeploys)
  · have hheard : Simulation.World.hearRule c.state = c.state := by
      rcases hnext with hnext | hnext <;> simp only [Simulation.World.hearRule, hnext]
    rw [hheard]
    exact h

/-- A free worker takes a job. -/
theorem start (h : Rising site firewall store o held before lost c) {i : Nat} {e : Entry Job}
    {rest : Scheduler Job} (hfree : c.workers i = none)
    (hpick : c.state.scheduler.pick? = some (e, rest)) :
    Rising site firewall store o held before lost
      { c with
        state := { c.state with scheduler := rest }
        workers := Function.update c.workers i (some (works.attempt e)) } := by
  have hperm : c.state.jobs.Perm (e.job :: rest.entries.map (·.job)) := by
    have hentries := (Scheduler.pick?_entries hpick).map (·.job)
    rwa [List.map_cons] at hentries
  have hdeploys := h.jobs e.job (hperm.mem_iff.mpr List.mem_cons_self)
  have hworker : IsRising site firewall store o held (works.attempt e) c.outside := by
    by_cases happly : ∃ id, e.job = .applyDecisions site.firewall id
    · obtain ⟨id, he⟩ := happly
      exact .inr ⟨id, .beginning he⟩
    · exact .inl (beside_attempt hdeploys fun id he => happly ⟨id, he⟩)
  refine ⟨⟨h.knows.settings, h.knows.server, h.knows.store⟩, h.rules, h.current, h.listens, h.news,
    h.unannounced, Scheduler.pick?_isFit h.fit hpick, fun job hjob => ?_, fun j q hj => ?_,
    h.accrues, h.since, fun id => ?_⟩
  · exact h.jobs job (hperm.mem_iff.mpr (List.mem_cons_of_mem _ hjob))
  · have hj := (Function.update_apply c.workers i _ j).symm.trans hj
    split at hj
    · exact Option.some.inj hj ▸ hworker
    · exact h.workers j q hj
  · refine (h.pending id).imp_right (Or.imp_right fun hpending => ?_)
    rcases hpending with hjob | ⟨j, q, hj, happlying⟩
    · rcases List.mem_cons.mp (hperm.mem_iff.mp hjob) with he | hjob
      · exact .inr ⟨i, _, Function.update_self i _ c.workers, .beginning he.symm⟩
      · exact .inl hjob
    · have hji : j ≠ i := by
        rintro rfl
        rw [hfree] at hj
        cases hj
      exact .inr ⟨j, q, (Function.update_of_ne hji _ c.workers).trans hj, happlying⟩

/-- A worker goes on. -/
theorem advance (hreliable : Reliable site o held covers) (hself : ∀ ip, covers ip ip = true)
    (hlocal : IsLocal site o held) (h : Rising site firewall store o held before lost c) {i : Nat}
    {p p' : Process Orchestrator Unit} {w : Shared ρ} (hi : c.workers i = some p)
    (hstep : Advance o c.toShared p w p') :
    Rising site firewall store o held before lost
      { c with toShared := w, workers := Function.update c.workers i (some p') } := by
  have hstate : (making site firewall store held).state c.state := ⟨h.knows, h.rules, h.current⟩
  obtain ⟨hs, hlater, hp'⟩ := (h.workers i p hi).advance hreliable hself hlocal hstate hstep
  have hmoved := h.onward hs
  refine ⟨hmoved.knows, hmoved.rules, hmoved.current, hmoved.listens, hmoved.news, h.unannounced,
    hmoved.fit, hmoved.jobs, fun j q hj => ?_, h.accrues.trans hlater, hmoved.since, fun id => ?_⟩
  · have hj := (Function.update_apply c.workers i _ j).symm.trans hj
    split at hj
    · exact Option.some.inj hj ▸ hp'
    · exact (h.workers j q hj).later hlater
  · rcases h.pending id with hlt | hmade | hjob | ⟨j, q, hj, happlying⟩
    · exact .inl (Nat.lt_of_lt_of_le hlt hs.lost)
    · exact .inr (.inl (hmade.lasts hlater))
    · exact .inr (.inr (.inl (hs.mem_jobs hjob)))
    · by_cases hji : j = i
      · subst hji
        obtain rfl := Option.some.inj (hi.symm.trans hj)
        rcases (happlying.advance hreliable hself hstate hstep).2 with
          hlt | hmade | hjob | happlying
        · exact .inl (Nat.lt_of_le_of_lt h.since hlt)
        · exact .inr (.inl hmade)
        · exact .inr (.inr (.inl hjob))
        · exact .inr (.inr (.inr ⟨j, p', Function.update_self j _ c.workers, happlying⟩))
      · exact .inr (.inr (.inr ⟨j, q, (Function.update_of_ne hji _ c.workers).trans hj,
          happlying.later hlater⟩))

/-- A worker has done its job. -/
theorem leave (h : Rising site firewall store o held before lost c) {i : Nat}
    (hi : c.workers i = some (.done ())) :
    Rising site firewall store o held before lost
      { c with workers := Function.update c.workers i none } := by
  refine ⟨h.knows, h.rules, h.current, h.listens, h.news, h.unannounced, h.fit, h.jobs,
    fun j q hj => ?_, h.accrues, h.since, fun id => ?_⟩
  · have hj := (Function.update_apply c.workers i none j).symm.trans hj
    split at hj
    · cases hj
    · exact h.workers j q hj
  · refine (h.pending id).imp_right (Or.imp_right (Or.imp_right ?_))
    rintro ⟨j, q, hj, happlying⟩
    have hji : j ≠ i := by
      rintro rfl
      exact happlying.ne_done (Option.some.inj (hj.symm.trans hi))
    exact ⟨j, q, (Function.update_of_ne hji none c.workers).trans hj, happlying⟩

/-- **Every step keeps it**, while nobody asks for anything. -/
theorem step (hreliable : Reliable site o held covers) (hself : ∀ ip, covers ip ip = true)
    (hlocal : IsLocal site o held) (hactive : firewall.isActive = true)
    (hbouncer : firewall.needsBouncer = false)
    (h : Rising site firewall store o held before lost c) (hstep : Step o (fun _ => False) c d) :
    Rising site firewall store o held before lost d := by
  cases hstep with
  | request hasked => exact hasked.elim
  | announce hevents =>
    rw [h.unannounced] at hevents
    simp at hevents
  | hear _ => exact h.hear hactive hbouncer
  | pass _ =>
    exact h.onward (.of_unnoticed (.of_scheduler [] (.refl _)
      (fun _ hjob => absurd hjob List.not_mem_nil)
      (fun hfit => ⟨hfit.isOpen, hfit.numbers, hfit.issued⟩) (Nat.le_refl _)))
  | arrive hwaits _ =>
    exact h.onward (.of_unnoticed (.of_scheduler [] (Scheduler.arrive_entries h.fit hwaits)
      (fun _ hjob => absurd hjob List.not_mem_nil)
      (fun hfit => Scheduler.arrive_isFit hfit hwaits) (Nat.le_refl _)))
  | start hfree hpick => exact h.start hfree hpick
  | advance hi hadvance => exact h.advance hreliable hself hlocal hi hadvance
  | leave hi => exact h.leave hi

theorem run (hreliable : Reliable site o held covers) (hself : ∀ ip, covers ip ip = true)
    (hlocal : IsLocal site o held) (hactive : firewall.isActive = true)
    (hbouncer : firewall.needsBouncer = false)
    (h : Rising site firewall store o held before lost c) {n : Nat}
    (hrun : Run o (fun _ => False) n c d) : Rising site firewall store o held before lost d :=
  @invariant_of_run _ _ _ (fun _ d => Rising site firewall store o held before lost d)
    (fun _ _ _ hinv hs => hinv.step hreliable hself hlocal hactive hbouncer hs) _ _ _ hrun h

/-! ## The beginning and the end -/

/-- **How it begins**: nothing is under way, and everything is planned. -/
theorem of_resync {s : Orchestrator} (hknows : s.KnowsSite site)
    (hcurrent : s.store.firewalls.get? site.firewall = some firewall)
    (hactive : firewall.isActive = true) (hbouncer : firewall.needsBouncer = false)
    (hlistens : ∃ position, s.ruleBus.Follows Simulation.deployer position)
    (hunread : s.ruleBus.unread Simulation.deployer = []) (hunannounced : c.unannounced = [])
    (hfit : s.scheduler.IsFit) (hnone : s.jobs = []) (hfree : ∀ i, c.workers i = none)
    (hlost : lost ≤ s.lost) :
    Rising site firewall s.store o held (held c.outside) lost { c with state := s.resync.2 } := by
  obtain ⟨added, hplans, hdeploys, hrules⟩ := resync_deploys hknows hcurrent hactive hbouncer
  have hs : Onward site s s.resync.2 := .of_plans hplans hdeploys
  obtain ⟨scheduler, syncs, hframe⟩ := hplans.frame
  have hjobs : ∀ job ∈ s.jobs, job.Deploys site.firewall := by
    rw [hnone]
    exact fun _ hjob => absurd hjob List.not_mem_nil
  refine ⟨hs.knowsSite hknows, hs.rules, hs.firewall.trans hcurrent, ?_, ?_, hunannounced,
    hs.fit hfit, hs.deploys hjobs, fun i p hi => ?_, .refl _, Nat.le_trans hlost hs.lost,
    fun id => ?_⟩
  · rw [hframe]
    exact hlistens
  · rw [hframe, hunread]
    exact fun _ he => absurd he List.not_mem_nil
  · rw [hfree i] at hi
    cases hi
  · cases hrule : site.banRule? s.store id with
    | none =>
      refine .inr (.inl fun d hd => ?_)
      rw [Site.wanted, hrule] at hd
      cases hd
    | some rule =>
      obtain ⟨hget, hf, hban, henabled⟩ := Site.banRule?_eq_some_iff.mp hrule
      have hforce : (rule.enabled && rule.isBan) = true := by
        rw [hban, henabled]
        rfl
      have hmem := hrules rule (List.mem_filter.mpr
        ⟨(Site.mem_context_rules hknows.store.rules).mpr ⟨id, hget, hf⟩, hforce⟩)
      rw [(hknows.store.compiled id rule hget hf).1] at hmem
      exact .inr (.inr (.inl (hplans.jobs.mem_iff.mpr (List.mem_append_left _ hmem))))

/-- When no job is left and none was lost, all that the rules call for has been made. -/
theorem made (h : Rising site firewall store o held before lost c) (hidle : c.Idle)
    (hlost : c.state.lost = lost) (id : UInt64) :
    Made site firewall store id (held c.outside) := by
  obtain ⟨hwaiting, hqueued, hfree⟩ := hidle
  rcases h.pending id with hlt | hmade | hjob | ⟨i, p, hi, _⟩
  · exact absurd hlt (hlost ▸ Nat.lt_irrefl _)
  · exact hmade
  · rw [Orchestrator.jobs, Scheduler.entries, hwaiting, hqueued] at hjob
    cases hjob
  · rw [hfree i] at hi
    cases hi

/-- **What is held in the end** for the application is what was held before and what its rules call
for. -/
theorem mem_heldPairs_iff (h : Rising site firewall store o held before lost c) (hidle : c.Idle)
    (hlost : c.state.lost = lost) {v r : String} :
    (v, r) ∈ heldPairs site (held c.outside) ↔
      (v, r) ∈ heldPairs site before ∨ CallsFor site firewall store v r := by
  unfold heldPairs
  rw [List.mem_map, List.mem_map]
  constructor
  · rintro ⟨e, he, heq⟩
    obtain ⟨he, howner⟩ := List.mem_filter.mp he
    obtain ⟨rfl, rfl⟩ := Prod.mk.inj heq
    rcases h.accrues.2 e he with hbefore | hforeign | hcalled
    · exact .inl ⟨e, List.mem_filter.mpr ⟨hbefore, howner⟩, rfl⟩
    · exact absurd (of_decide_eq_true howner) hforeign
    · exact .inr hcalled
  · rintro (⟨e, he, heq⟩ | ⟨id, d, hd, rfl, rfl⟩)
    · obtain ⟨he, howner⟩ := List.mem_filter.mp he
      exact ⟨e, List.mem_filter.mpr ⟨h.accrues.1 e he, howner⟩, heq⟩
    · obtain ⟨e, he, hscenario, hvalue⟩ := h.made hidle hlost id d hd
      have hreason : d.reason = site.reason id := by
        rw [wanted_congr h.rules.symm] at hd
        exact Site.reason_of_mem_wanted h.knows.store hd
      refine ⟨e, List.mem_filter.mpr ⟨he, decide_eq_true ?_⟩, ?_⟩
      · rw [hscenario, hreason]
        exact ownerOf?_banReason h.knows.store.isUuid _ id
      · rw [hvalue, hscenario]

end Rising

end

end Bans

end Rampart
