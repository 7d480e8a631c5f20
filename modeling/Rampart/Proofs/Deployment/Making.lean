import Rampart.Proofs.Deployment.Errands
import Rampart.Proofs.Deployment.Quiet

/-!
# Decisions that are only made

A deployment from scratch makes decisions and lifts none. Seen from one application it makes those
that the application's rules call for, whoever else has decisions made on the same engine.

* `Job.Deploys`: the jobs of a deployment from scratch; `Onward`: what they do to the state.
* `Accrues`: what they do to the decisions of an engine.
* `beside`: the discipline of those who make no decisions for the application;
  **`beside_attempt`**: all jobs but those that apply its rules keep to it.
* `making`: what those rely on and guarantee; **`applyDecisions_makes`**.
-/

namespace Rampart

open Execution

/-- The jobs that a deployment from scratch leads to, where a firewall has its bouncer. -/
def Job.Deploys (firewall : UInt64) : Job → Prop
  | .sync _ _ | .applyDecisions _ _ | .reloadBouncers _ => True
  | .provision other => other ≠ firewall
  | _ => False

theorem Job.Deploys.isDeployment {firewall : UInt64} {job : Job} (h : job.Deploys firewall) :
    job.IsDeployment := by
  cases job with
  | sync _ _ | applyDecisions _ _ | provision _ | reloadBouncers _ => trivial
  | _ => exact h.elim

namespace Bans

open Orchestrator Rampart.Task

/-! ## The state -/

/-- **A change of the state** that leaves the rules and the firewall of an application as they are.
Jobs of a deployment from scratch may be added, and changes of firewalls announced. -/
structure Onward (site : Site) (s t : Orchestrator) : Prop where
  settings : t.settings = s.settings
  registry : t.registry = s.registry
  knows : site.Knows s.store → site.Knows t.store
  rules : t.store.rules = s.store.rules
  firewall : t.store.firewalls.get? site.firewall = s.store.firewalls.get? site.firewall
  bus : t.ruleBus = s.ruleBus ∨
    ∃ firewall, t.ruleBus = (s.ruleBus.publish (.firewallChanged firewall)).2
  jobs : ∃ added, t.jobs.Perm (added ++ s.jobs) ∧ ∀ job ∈ added, job.Deploys site.firewall
  fit : s.scheduler.IsFit → t.scheduler.IsFit
  lost : s.lost ≤ t.lost

namespace Onward

variable {site : Site} {s t : Orchestrator}

theorem of_unnoticed (h : Unnoticed s t) : Onward site s t := by
  obtain ⟨added, hperm, hadded⟩ := h.jobs
  refine ⟨h.settings, h.registry, h.store ▸ id, by rw [h.store], by rw [h.store], .inl h.bus,
    ⟨added, hperm, fun job hjob => ?_⟩, h.fit, h.lost⟩
  have hspares := hadded job hjob
  cases job with
  | sync _ _ | reloadBouncers _ => trivial
  | _ => exact hspares.elim

theorem refl (s : Orchestrator) : Onward site s s := .of_unnoticed (.refl s)

/-- Jobs are planned. -/
theorem of_plans {added : List Job} (h : Plans s t added)
    (hadded : ∀ job ∈ added, job.Deploys site.firewall) : Onward site s t := by
  obtain ⟨hframe, hjobs, hfit, _, _⟩ := h
  obtain ⟨scheduler, syncs, rfl⟩ := hframe
  exact ⟨rfl, rfl, id, rfl, rfl, .inl rfl, ⟨added, hjobs, hadded⟩, hfit, Nat.le_refl _⟩

/-- A job may be done again. -/
theorem settle {e : Entry Job} (h : e.job.Deploys site.firewall) (result : Except Failure Unit)
    (s : Orchestrator) : Onward site s (works.settle e result s).2 := by
  rcases Unnoticed.settle_cases e result s with ⟨hunnoticed, _⟩ | ⟨due, _, heq⟩
  · exact .of_unnoticed hunnoticed
  · have hentries := (Scheduler.delayUntil_entries s.scheduler due e).map (·.job)
    rw [heq]
    refine ⟨rfl, rfl, id, rfl, rfl, .inl rfl, ⟨[e.job], hentries, fun job hjob => ?_⟩,
      fun hfit => Scheduler.delayUntil_isFit hfit due e, s.lost_le_count (.jobs .retried) 1⟩
    rw [List.mem_singleton.mp hjob]
    exact h

/-- The bouncer of another application. -/
theorem recordBouncer {firewall : UInt64} (hne : firewall ≠ site.firewall) (s : Orchestrator)
    (name key : String) : Onward site s (s.recordBouncer firewall name key).2 := by
  have hquiet := @Harmless.recordBouncer site s firewall hne name key
  cases hget : s.store.firewalls.get? firewall with
  | none =>
    simp only [Orchestrator.recordBouncer, Store.recordBouncer, Store.firewall, hget, bind,
      Except.bind, Orchestrator.commit]
    exact refl s
  | some old =>
    simp only [Orchestrator.recordBouncer, Store.recordBouncer, Store.firewall, hget, bind,
      Except.bind, pure, Except.pure, Orchestrator.commit, Orchestrator.announce] at hquiet ⊢
    exact ⟨hquiet.settings, hquiet.registry, hquiet.knows, hquiet.rules, hquiet.firewall,
      .inr ⟨firewall, rfl⟩, ⟨[], .refl _, fun _ hjob => absurd hjob List.not_mem_nil⟩, id,
      Nat.le_refl _⟩

theorem knowsSite (h : Onward site s t) (hs : s.KnowsSite site) : t.KnowsSite site :=
  ⟨h.settings.trans hs.settings, h.registry ▸ hs.server, h.knows hs.store⟩

theorem deploys (h : Onward site s t) (hs : ∀ job ∈ s.jobs, job.Deploys site.firewall) :
    ∀ job ∈ t.jobs, job.Deploys site.firewall := by
  obtain ⟨added, hperm, hadded⟩ := h.jobs
  intro job hjob
  rcases List.mem_append.mp (hperm.mem_iff.mp hjob) with hjob | hjob
  · exact hadded job hjob
  · exact hs job hjob

theorem mem_jobs (h : Onward site s t) {job : Job} (hjob : job ∈ s.jobs) : job ∈ t.jobs := by
  obtain ⟨added, hperm, _⟩ := h.jobs
  exact hperm.mem_iff.mpr (List.mem_append_right added hjob)

end Onward

/-! ## Decisions -/

/-- The rules in a store call for a ban of a value, for a reason. -/
def CallsFor (site : Site) (firewall : Firewall) (s : Store) (value reason : String) : Prop :=
  ∃ id, ∃ d ∈ site.wanted firewall s id, d.ip = value ∧ d.reason = reason

/-- **Decisions are added**, and those of the application only where its rules call for them. -/
def Accrues (site : Site) (firewall : Firewall) (s : Store)
    (before after : List Engine.Decision) : Prop :=
  (∀ e ∈ before, e ∈ after) ∧ ∀ e ∈ after, e ∈ before ∨
    ownerOf? site.settings.scenarios.ns e.scenario ≠ some site.uuid ∨
      CallsFor site firewall s e.value e.scenario

namespace Accrues

variable {site : Site} {firewall : Firewall} {s : Store} {a b c : List Engine.Decision}

theorem refl (h : List Engine.Decision) : Accrues site firewall s h h :=
  ⟨fun _ he => he, fun _ he => .inl he⟩

theorem trans (h : Accrues site firewall s a b) (h' : Accrues site firewall s b c) :
    Accrues site firewall s a c := by
  refine ⟨fun e he => h'.1 e (h.1 e he), fun e he => ?_⟩
  rcases h'.2 e he with hb | hnew
  · exact h.2 e hb
  · exact .inr hnew

/-- One decision is added. -/
theorem of_perm {e : Engine.Decision} (hperm : b.Perm (e :: a))
    (he : ownerOf? site.settings.scenarios.ns e.scenario ≠ some site.uuid ∨
      CallsFor site firewall s e.value e.scenario) : Accrues site firewall s a b := by
  refine ⟨fun f hf => hperm.mem_iff.mpr (List.mem_cons_of_mem e hf), fun f hf => ?_⟩
  rcases List.mem_cons.mp (hperm.mem_iff.mp hf) with rfl | hf
  · exact .inr he
  · exact .inl hf

end Accrues

/-- What the rule of a number calls for is held. -/
def Made (site : Site) (firewall : Firewall) (s : Store) (id : UInt64)
    (h : List Engine.Decision) : Prop :=
  ∀ d ∈ site.wanted firewall s id, ∃ e ∈ h, e.scenario = d.reason ∧ e.value = d.ip

theorem Made.lasts {site : Site} {firewall : Firewall} {s : Store} {id : UInt64}
    {h h' : List Engine.Decision} (hmade : Made site firewall s id h)
    (hlater : Accrues site firewall s h h') : Made site firewall s id h' := by
  intro d hd
  obtain ⟨e, he, hmatch⟩ := hmade d hd
  exact ⟨e, hlater.1 e he, hmatch⟩

/-! ## Those who make no decisions for the application -/

/-- The decisions are those of the application's server. -/
def IsLocal {ρ : Type} (site : Site) (o : Outside ρ) (held : ρ → List Engine.Decision) : Prop :=
  ∀ server c x answer y, server.id ≠ site.server.id → o.answers server c x answer y →
    held y = held x

/-- Calls that lift no decisions on the application's server, and make none for the application. -/
def SparesOwn (site : Site) (server : Server) (c : Remote.Call) : Prop :=
  SparesBans site.engine c ∨ server.id ≠ site.server.id ∨ (server = site.server ∧
    ((∃ ip, c = .run [site.engine.listCommand ip]) ∨ ∃ d : Decision,
      c = .run [site.engine.addCommand d] ∧
        ownerOf? site.settings.scenarios.ns d.reason ≠ some site.uuid))

/-- The discipline of those who make no decisions for the application. -/
def beside (site : Site) : Discipline where
  state s := s.KnowsSite site
  change := Onward site
  idle := Onward.refl
  call := SparesOwn site
  answer _ _ _ := True
  lock _ := True

namespace Beside

variable {site : Site}

theorem upkeep : (beside site).Upkeep :=
  ⟨fun s _ _ _ => .of_unnoticed (.count s _ _), fun s _ _ => .of_unnoticed (.dispatchReload s _)⟩

/-- The server of a context is registered. -/
theorem server_of_contextOf {s : Orchestrator} {firewall : UInt64} {c : Context}
    (h : s.contextOf firewall = .ok c) : ∃ n, s.registry.get n = .ok c.server := by
  unfold Orchestrator.contextOf Store.contextOf at h
  obtain ⟨fw, _, h⟩ := Except.bind_eq_ok_iff.mp h
  split at h
  · cases h
  · obtain ⟨server, hserver, h⟩ := Except.bind_eq_ok_iff.mp h
    rw [← Except.ok.inj h]
    exact ⟨_, hserver⟩

/-- A server with the number of the application's server is that server. -/
theorem server_eq {s : Orchestrator} (h : s.KnowsSite site) {n : UInt64} {server : Server}
    (hget : s.registry.get n = .ok server) (hid : server.id = site.server.id) :
    server = site.server := by
  have hnumber : ∀ {n : UInt64} {server : Server}, s.registry.get n = .ok server →
      server.id = n := by
    intro n server hget
    unfold Registry.get at hget
    split at hget
    · rename_i hfind
      have hid := List.find?_some hfind
      rw [← Except.ok.inj hget]
      exact beq_iff_eq.mp hid
    · cases hget
  have hsame := h.server
  rw [← hnumber hsame, ← hid, hnumber hget, hget] at hsame
  exact Except.ok.inj hsame

/-- Decisions that are not the application's may be made. -/
theorem addMissing {server : Server} (hserver : server.id = site.server.id → server = site.server)
    {ds : List Decision}
    (hds : ∀ d ∈ ds, ownerOf? site.settings.scenarios.ns d.reason ≠ some site.uuid) :
    Deploy.Keeps (beside site) (Deploy.addMissing site.engine server ds) := by
  have hcall : ∀ c, (server = site.server → SparesOwn site server c) →
      SparesOwn site server c := by
    intro c hc
    by_cases hid : server.id = site.server.id
    · exact hc (hserver hid)
    · exact .inr (.inl hid)
  induction ds with
  | nil => exact Deploy.keeps_pure ()
  | cons d ds ih =>
    have ih := ih fun d' hd' => hds d' (List.mem_cons_of_mem d hd')
    have hlist : SparesOwn site server (.run [site.engine.listCommand d.ip]) :=
      hcall _ fun heq => .inr (.inr ⟨heq, .inl ⟨d.ip, rfl⟩⟩)
    have hadd : SparesOwn site server (.run [site.engine.addCommand d]) :=
      hcall _ fun heq => .inr (.inr ⟨heq, .inr ⟨d, rfl, hds d List.mem_cons_self⟩⟩)
    refine Deploy.keeps_bind (Deploy.keeps_bind (Deploy.keeps_bind (Deploy.keeps_run hlist)
      fun _ => trivial) fun _ => Deploy.keeps_pure _) fun present => ?_
    cases present with
    | true => exact ih
    | false =>
      refine Deploy.keeps_bind (Deploy.keeps_bind (Deploy.keeps_run hadd)
        fun _ => Deploy.keeps_pure ()) fun _ => ?_
      exact Deploy.keeps_bind (Deploy.keeps_modify fun s hs => upkeep.count s hs _ _) fun _ => ih

/-- The rules of another application are applied. -/
theorem applyDecisions {firewall : UInt64} (hne : firewall ≠ site.firewall) (id : UInt64) :
    Deploy.Keeps (beside site) (Deploy.applyDecisions firewall id) := by
  refine Deploy.keeps_bind_read fun s a hs ha => ?_
  have hs : s.KnowsSite site := hs
  obtain ⟨c, engine, decisions⟩ := a
  obtain ⟨c', hc', ha⟩ := Except.bind_eq_ok_iff.mp ha
  obtain ⟨found, hfound, hactive⟩ := Except.bind_eq_ok_iff.mp hc'
  have hsame : found = c' := by
    split at hactive
    · exact Except.ok.inj hactive
    · cases hactive
  subst hsame
  split at ha
  · obtain ⟨rfl, hrest⟩ := Prod.mk.inj (Except.ok.inj ha)
    obtain ⟨_, rfl⟩ := Prod.mk.inj hrest
    exact Deploy.keeps_pure ()
  · rename_i rule _
    obtain ⟨ds, hds, ha⟩ := Except.bind_eq_ok_iff.mp ha
    obtain ⟨rfl, hrest⟩ := Prod.mk.inj (Except.ok.inj ha)
    obtain ⟨rfl, rfl⟩ := Prod.mk.inj hrest
    obtain ⟨hvalid, hother⟩ := Quiet.other_uuid hs hne hfound
    obtain ⟨n, hserver⟩ := server_of_contextOf hfound
    have hmade : decisionsOf site.settings.scenarios.ns found.uuid rule
        (rule.durationIn found.firewall) = .ok ds := by
      rw [hs.settings, Context.decisions, checkUuid, if_pos hvalid] at hds
      cases hmade : decisionsOf site.settings.scenarios.ns found.uuid rule
          (rule.durationIn found.firewall) with
      | ok made => exact congrArg _ (Except.ok.inj (hmade ▸ hds))
      | error fault => cases (hmade ▸ hds : Failure.ofRule (.error fault) = .ok ds)
    rw [hs.engine]
    refine Deploy.keeps_bind (addMissing (server_eq hs hserver) fun d hd howner => hother ?_)
      fun _ => Deploy.keeps_modify fun s hs => upkeep.reload s hs _
    rw [reason_of_decisionsOf hmade d hd, ownerOf?_banReason hvalid] at howner
    exact Option.some.inj howner

/-- What the jobs do that make no decisions for the application. -/
theorem handle {job : Job} (hjob : job.Deploys site.firewall)
    (hnot : ∀ id, job ≠ .applyDecisions site.firewall id) (attempt : Nat) :
    Deploy.Keeps (beside site) (Orchestrator.handle job attempt) := by
  have hengine : ∀ s, (beside site).state s → s.engine = site.engine := fun s hs =>
    KnowsSite.engine hs
  cases job with
  | sync firewall generation =>
    refine Deploy.sync_keeps generation upkeep (fun s _ c files _ _ => ?_) (fun s hs server => ?_)
      fun s _ => .of_unnoticed (.takeRedeploy s firewall)
    · exact Sparing.mayReplace (fun _ => trivial) (fun _ _ => Or.inl) _ _ _ _
    · rw [hengine s hs]
      exact .inl (Sparing.sparesBans_reload site.engine)
  | applyDecisions firewall id => exact applyDecisions (fun heq => hnot id (heq ▸ rfl)) id
  | provision firewall =>
    refine Deploy.provision_keeps upkeep (fun s hs server name key => .inl fun arguments heq => ?_)
      fun s _ name key => .recordBouncer hjob s name key
    cases (List.cons.inj (Remote.Call.run.inj heq)).2
  | reloadBouncers server =>
    exact Deploy.reloadBouncers_keeps (fun _ _ _ _ => Or.inl (Sparing.sparesBans_upload _ _)) server
  | _ => exact hjob.elim

end Beside

/-- **An attempt of a job** that makes no decisions for the application. -/
theorem beside_attempt {site : Site} {e : Entry Job} (hjob : e.job.Deploys site.firewall)
    (hnot : ∀ id, e.job ≠ .applyDecisions site.firewall id) :
    (works.attempt e).Obeys (beside site) fun _ => True :=
  attempt_obeys (Beside.handle hjob hnot _) (Quiet.failed_eq hjob.isDeployment)
    (fun now result s _ => .settle (e := e.begin now) hjob result s)
    fun s _ => .of_unnoticed (.finish s)

section

variable {ρ : Type} {site : Site} {firewall : Firewall} {store : Store} {o : Outside ρ}
  {held : ρ → List Engine.Decision} {covers : String → String → Bool}

/-- Such calls make no decisions for the application. -/
theorem accrues_of_answers (hreliable : Reliable site o held covers)
    (hlocal : IsLocal site o held) {server : Server} {c : Remote.Call} {x y : ρ}
    {answer : Except Failure String} (hc : SparesOwn site server c)
    (h : o.answers server c x answer y) : Accrues site firewall store (held x) (held y) := by
  have hsame (heq : held y = held x) : Accrues site firewall store (held x) (held y) :=
    heq ▸ .refl _
  rcases hc with hspares | hother | ⟨rfl, ⟨ip, rfl⟩ | ⟨d, rfl, hforeign⟩⟩
  · exact hsame (hreliable.others _ _ _ _ _ hspares h)
  · exact hsame (hlocal _ _ _ _ _ hother h)
  · exact hsame (hreliable.list ip x answer y h).1
  · rcases hreliable.add d x answer y h with ⟨e, _, hscenario, _, hperm⟩ | ⟨_, heq⟩
    · exact .of_perm hperm (.inl (hscenario ▸ hforeign))
    · exact hsame heq

theorem accrues_of_touched (hreliable : Reliable site o held covers)
    (hlocal : IsLocal site o held) {x y : ρ} (h : Touched o (beside site) x y) :
    Accrues site firewall store (held x) (held y) := by
  induction h with
  | refl x => exact .refl _
  | head hc ha _ ih => exact (accrues_of_answers hreliable hlocal hc ha).trans ih

/-! ## Those who apply the application's rules -/

/-- What they rely on and guarantee, while the rules and the firewall stay as they are. -/
def making (site : Site) (firewall : Firewall) (store : Store)
    (held : ρ → List Engine.Decision) : Contract ρ where
  state s := s.KnowsSite site ∧ s.store.rules = store.rules ∧
    s.store.firewalls.get? site.firewall = some firewall
  change := Onward site
  idle := Onward.refl
  sound _ := True
  rely x y := Accrues site firewall store (held x) (held y)
  refl x := .refl (held x)
  trans _ _ _ := .trans
  guarantee x y := Accrues site firewall store (held x) (held y)
  still x := .refl (held x)

theorem making_still (y z : ρ) (hsame : held z = held y)
    (_ : (making site firewall store held).sound y) :
    (making site firewall store held).guarantee y z ∧
      (making site firewall store held).sound z :=
  ⟨by
    show Accrues site firewall store (held y) (held z)
    exact hsame ▸ .refl _, trivial⟩

theorem wanted_congr {s t : Store} (h : s.rules = t.rules) (id : UInt64) :
    site.wanted firewall s id = site.wanted firewall t id := by
  unfold Site.wanted Site.banRule?
  rw [h]

theorem callsFor_congr {s t : Store} (h : s.rules = t.rules) {v r : String} :
    CallsFor site firewall s v r ↔ CallsFor site firewall t v r := by
  unfold CallsFor
  simp only [wanted_congr h]

/-- **All that a rule calls for is made**, unless it is there. -/
theorem addMissing_makes (hreliable : Reliable site o held covers)
    (hself : ∀ ip, covers ip ip = true) {ds : List Decision}
    (hds : ∀ d ∈ ds, CallsFor site firewall store d.ip d.reason) (x : ρ) :
    (Deploy.addMissing site.engine site.server ds).Yields (making site firewall store held) o
      (fun _ y => ∀ d ∈ ds, ∃ e ∈ held y, e.scenario = d.reason ∧ e.value = d.ip) x := by
  induction ds generalizing x with
  | nil => exact yields_pure fun _ hd => absurd hd List.not_mem_nil
  | cons d ds ih =>
    let isHeld (y : ρ) : Prop := ∃ e ∈ held y, e.scenario = d.reason ∧ e.value = d.ip
    have hlasts : (making site firewall store held).Lasting isHeld :=
      ⟨fun _ _ hlater ⟨e, he, hmatch⟩ => ⟨e, hlater.1 e he, hmatch⟩,
        fun _ _ _ hlater ⟨e, he, hmatch⟩ => ⟨e, hlater.1 e he, hmatch⟩⟩
    have hothers (y : ρ) (hd : isHeld y) :
        (Deploy.addMissing site.engine site.server ds).Yields (making site firewall store held) o
          (fun _ z => ∀ d' ∈ d :: ds, ∃ e ∈ held z, e.scenario = d'.reason ∧ e.value = d'.ip) y :=
      ((ih (fun d' hd' => hds d' (List.mem_cons_of_mem d hd')) y).frame hlasts hd).mono
        fun _ z hz => List.forall_mem_cons.mpr ⟨hz.2, hz.1⟩
    refine yields_bind ((isPresent_yields hreliable hself making_still d x).mono
      fun present y hy => ?_)
    cases present with
    | true => exact hothers y (hy.mp rfl)
    | false =>
      refine yields_bind (yields_bind (yields_run fun z _ _ answer w ha => ?_))
      rcases hreliable.add d z answer w ha with ⟨e, hvalue, hscenario, _, hperm⟩ | ⟨⟨_, rfl⟩, hsame⟩
      · refine ⟨.of_perm hperm (.inr ?_), trivial, fun _ _ => yields_pure ?_⟩
        · rw [hvalue, hscenario]
          exact hds d List.mem_cons_self
        · refine yields_bind (yields_modify (fun s _ => .of_unnoticed (.count s _ _)) ?_)
          exact hothers w ⟨e, hperm.mem_iff.mpr List.mem_cons_self, hscenario, hvalue⟩
      · exact ⟨(making_still z w hsame trivial).1, trivial, fun _ heq => by cases heq⟩

/-- **A rule is applied**: afterwards what it calls for is held. -/
theorem applyDecisions_makes (hreliable : Reliable site o held covers)
    (hself : ∀ ip, covers ip ip = true) (id : UInt64) (x : ρ) :
    (Deploy.applyDecisions site.firewall id).Yields (making site firewall store held) o
      (fun _ y => Made site firewall store id (held y)) x := by
  refine applyDecisions_yields_of (site.wanted firewall store id)
    (fun s hs => ⟨hs.1, hs.2.2, wanted_congr hs.2.1 id⟩)
    (fun s _ => .of_unnoticed (.dispatchReload s _)) fun _ _ => ?_
  exact addMissing_makes hreliable hself (fun d hd => ⟨id, d, hd, rfl, rfl⟩) x

end

end Bans

end Rampart
