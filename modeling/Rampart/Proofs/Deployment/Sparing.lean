import Rampart.Proofs.Deployment.Jobs
import Rampart.Proofs.Deployment.Planning

/-!
# Jobs that leave bans alone

Syncs and reloads of bouncers share the scheduler with the jobs that make and lift bans, but change
no rules and have nothing to do with the decisions of an engine.

* `Orchestrator.lost`: how many jobs have not run to success.
* `Unnoticed`: changes of the state after which rules are the same and no ban is on the way that
  was not before.
* `sparing`: the discipline of those who leave bans alone.
* **`sparing_attempt`**: attempts of syncs and reloads keep to it.
-/

namespace Rampart

open Execution

/-- The jobs that neither make nor lift bans, nor plan anything that does. -/
def Job.SparesBans : Job → Prop
  | .sync _ _ | .reloadBouncers _ => True
  | _ => False

/-- The number of jobs that have ended without success. -/
def Orchestrator.lost (s : Orchestrator) : Nat :=
  s.counters.get (.jobs .failed) + s.counters.get (.jobs .skipped)

/-! ## Counting -/

theorem Counters.get_add (cs : Counters) (c d : Counter) (n : Nat) :
    (cs.add c n).get d = if d = c then cs.get c + n else cs.get d := by
  by_cases h : d = c
  · subst h
    simp [get, add]
  · have hbeq : (d == c) = false := beq_eq_false_iff_ne.mpr h
    simp [get, add, List.lookup_cons, hbeq, h, Table.lookup_filter_ne h]

theorem Counters.get_le_add (cs : Counters) (c d : Counter) (n : Nat) :
    cs.get d ≤ (cs.add c n).get d := by
  rw [get_add]
  split
  · rename_i h
    rw [h]
    exact Nat.le_add_right _ _
  · exact Nat.le_refl _

theorem Orchestrator.lost_le_count (s : Orchestrator) (counter : Counter) (n : Nat) :
    s.lost ≤ (s.count counter n).lost :=
  Nat.add_le_add (Counters.get_le_add _ _ _ _) (Counters.get_le_add _ _ _ _)

theorem Orchestrator.lost_lt_tick (s : Orchestrator) {result : JobEnd}
    (h : result = .failed ∨ result = .skipped) : s.lost < (s.tick (.jobs result)).lost := by
  unfold Orchestrator.lost Orchestrator.tick Orchestrator.count
  rcases h with rfl | rfl <;> simp only [Counters.get_add] <;> simp

/-! ## Changes -/

/-- **A change that no ban notices.** -/
structure Unnoticed (s t : Orchestrator) : Prop where
  settings : t.settings = s.settings
  registry : t.registry = s.registry
  store : t.store = s.store
  bus : t.ruleBus = s.ruleBus
  jobs : ∃ added, t.jobs.Perm (added ++ s.jobs) ∧ ∀ job ∈ added, job.SparesBans
  fit : s.scheduler.IsFit → t.scheduler.IsFit
  lost : s.lost ≤ t.lost

namespace Unnoticed

/-- Jobs are added to the scheduler, and something is counted. -/
theorem of_scheduler {s : Orchestrator} {scheduler : Scheduler Job} {counters : Counters}
    {syncs : Table UInt64 SyncState} (added : List (Entry Job))
    (hjobs : scheduler.entries.Perm (added ++ s.scheduler.entries))
    (hadded : ∀ e ∈ added, e.job.SparesBans) (hfit : s.scheduler.IsFit → scheduler.IsFit)
    (hlost : s.lost ≤ { s with counters }.lost) :
    Unnoticed s { s with scheduler, counters, syncs } := by
  refine ⟨rfl, rfl, rfl, rfl, ⟨added.map (·.job), ?_, ?_⟩, hfit, hlost⟩
  · have hperm := hjobs.map (·.job)
    rwa [List.map_append] at hperm
  · intro job hjob
    obtain ⟨e, he, rfl⟩ := List.mem_map.mp hjob
    exact hadded e he

theorem refl (s : Orchestrator) : Unnoticed s s :=
  of_scheduler [] (.refl _) (fun _ h => absurd h List.not_mem_nil) id (Nat.le_refl _)

theorem count (s : Orchestrator) (counter : Counter) (n : Nat) :
    Unnoticed s (s.count counter n) :=
  of_scheduler [] (.refl _) (fun _ h => absurd h List.not_mem_nil) id (s.lost_le_count counter n)

theorem dispatchReload (s : Orchestrator) (server : UInt64) :
    Unnoticed s (s.dispatchReload server) := by
  refine of_scheduler [_] (Scheduler.dispatch_entries s.scheduler _ _) ?_
    (fun h => Scheduler.dispatch_isFit h _ _) (Nat.le_refl _)
  intro e he
  rw [List.mem_singleton.mp he]
  trivial

theorem finish (s : Orchestrator) : Unnoticed s (Orchestrator.works.reschedule .finish s) :=
  of_scheduler [] (.refl _) (fun _ h => absurd h List.not_mem_nil) Scheduler.finish_isFit
    (Nat.le_refl _)

theorem takeRedeploy (s : Orchestrator) (firewall : UInt64) :
    Unnoticed s (s.takeRedeploy firewall).2 := by
  unfold Orchestrator.takeRedeploy
  split
  · exact of_scheduler [] (.refl _) (fun _ h => absurd h List.not_mem_nil) id (Nat.le_refl _)
  · exact refl s

/-- **How an attempt ends**: its job has succeeded; or it is lost; or it is to be done again. -/
theorem settle_cases (e : Entry Job) (result : Except Failure Unit) (s : Orchestrator) :
    (Unnoticed s (Orchestrator.works.settle e result s).2 ∧
      (result = .ok () ∨ s.lost < (Orchestrator.works.settle e result s).2.lost)) ∨
    ∃ due, (Orchestrator.works.settle e result s).1 = none ∧
      (Orchestrator.works.settle e result s).2 =
        { s with
          scheduler := s.scheduler.delayUntil due e
          counters := s.counters.add (.jobs .retried) 1 } := by
  unfold Works.settle
  cases result with
  | ok _ =>
    refine .inl ⟨?_, .inl rfl⟩
    exact of_scheduler [] (.refl _) (fun _ h => absurd h List.not_mem_nil)
      Scheduler.finish_isFit (s.lost_le_count (.jobs .completed) 1)
  | error failure =>
    simp only
    split
    · refine .inl ⟨?_, .inr (s.lost_lt_tick (.inr rfl))⟩
      exact of_scheduler [] (.refl _) (fun _ h => absurd h List.not_mem_nil)
        Scheduler.finish_isFit (s.lost_le_count (.jobs .skipped) 1)
    · split
      · exact .inr ⟨_, rfl, rfl⟩
      · exact .inl ⟨count s (.jobs .failed) 1, .inr (s.lost_lt_tick (.inl rfl))⟩

/-- A job that spares bans may be done again. -/
theorem settle {e : Entry Job} (h : e.job.SparesBans) (result : Except Failure Unit)
    (s : Orchestrator) : Unnoticed s (Orchestrator.works.settle e result s).2 := by
  rcases settle_cases e result s with ⟨hunnoticed, _⟩ | ⟨due, _, heq⟩
  · exact hunnoticed
  · rw [heq]
    refine of_scheduler [e] (Scheduler.delayUntil_entries s.scheduler _ e) ?_
      (fun hfit => Scheduler.delayUntil_isFit hfit _ _) (s.lost_le_count (.jobs .retried) 1)
    intro e' he
    rw [List.mem_singleton.mp he]
    exact h

theorem knowsSite {site : Site} {s t : Orchestrator} (h : Unnoticed s t) (hs : s.KnowsSite site) :
    t.KnowsSite site :=
  ⟨h.settings.trans hs.settings, h.registry ▸ hs.server, h.store ▸ hs.store⟩

theorem hasMail {s t : Orchestrator} (h : Unnoticed s t) :
    Simulation.World.hasMail Simulation.deployer t =
      Simulation.World.hasMail Simulation.deployer s := by
  simp only [Simulation.World.hasMail, h.bus]
  rfl

end Unnoticed

/-! ## The discipline -/

/-- Calls that are not about decisions. -/
def SparesBans (engine : Engine.Client) (c : Remote.Call) : Prop :=
  ∀ arguments, c ≠ .run [engine.command ("decisions" :: arguments)]

/-- The discipline of those who leave bans alone. -/
def sparing (site : Site) : Discipline where
  state s := s.settings = site.settings
  change := Unnoticed
  idle := Unnoticed.refl
  call _ c := SparesBans site.engine c
  answer _ _ _ := True
  lock _ := True

namespace Sparing

variable {site : Site}

theorem upkeep : (sparing site).Upkeep :=
  ⟨fun s _ => Unnoticed.count s, fun s _ => Unnoticed.dispatchReload s⟩

/-- How commands of the engine's client begin. -/
theorem take_command (engine : Engine.Client) (arguments : List String) :
    (engine.command arguments).toList.take 8 = "docker e".toList := by
  have hdocker : (Text.Word.quote "docker").toList = "docker".toList := by decide
  have hexec : (Text.Word.quote "exec").toList = "exec".toList := by decide
  rw [Engine.Client.command, Engine.Client.words, List.cons_append, Text.Word.toList_line_cons,
    hdocker]
  simp only [List.cons_append, Text.Word.behind, List.flatMap_cons, hexec]
  rfl

/-- Commands one of which is not the engine's client's. -/
theorem sparesBans_run {engine : Engine.Client} {lines : List String} {line : String}
    (hmem : line ∈ lines) (hline : line.toList.take 8 ≠ "docker e".toList) :
    SparesBans engine (.run lines) := by
  intro arguments heq
  rw [Remote.Call.run.inj heq, List.mem_singleton] at hmem
  exact hline (hmem ▸ take_command engine _)

theorem sparesBans_upload {engine : Engine.Client} (path contents : String) :
    SparesBans engine (.upload path contents) :=
  fun _ heq => by cases heq

theorem sparesBans_remove {engine : Engine.Client} {lines : List String} {word : String}
    (hmem : s!"rm -rf {word}" ∈ lines) : SparesBans engine (.run lines) := by
  refine sparesBans_run hmem ?_
  have h : s!"rm -rf {word}" = "rm -rf " ++ word := rfl
  rw [h, String.toList_append]
  exact fun heq => by cases List.head_eq_of_cons_eq heq

theorem sparesBans_list {engine : Engine.Client} (dir : ScenarioDir) :
    SparesBans engine (.run [dir.listCommand]) := by
  refine sparesBans_run List.mem_cons_self ?_
  have h : dir.listCommand =
    "ls -1A " ++ Text.Word.quote dir.path ++ " 2>/dev/null || true" := rfl
  rw [h, String.toList_append, String.toList_append]
  exact fun heq => by cases List.head_eq_of_cons_eq heq

theorem sparesBans_reload (engine : Engine.Client) : SparesBans engine
    (.run ["docker kill --signal=SIGHUP " ++ Text.Word.quote engine.settings.container]) := by
  refine sparesBans_run List.mem_cons_self ?_
  rw [String.toList_append, List.take_append_of_le_length (by decide)]
  decide

/-- Who may do everything but change decisions may replace files. -/
theorem mayReplace {d : Discipline} {engine : Engine.Client} (hlock : ∀ lock, d.lock lock)
    (hcall : ∀ server c, SparesBans engine c → d.call server c) (dir : ScenarioDir)
    (server : Server) (uuid : String) (files : List ScenarioFile) :
    Deploy.MayReplace d dir server uuid files where
  lock := hlock _
  list := hcall _ _ (sparesBans_list dir)
  upload _ _ _ _ := hcall _ _ (sparesBans_upload _ _)
  activation _ _ _ :=
    hcall _ _ (sparesBans_remove (List.mem_append_right _ List.mem_cons_self))
  cleanup _ _ := hcall _ _ (sparesBans_remove List.mem_cons_self)

/-- What the jobs do that spare bans. -/
theorem handle {job : Job} (h : job.SparesBans) (attempt : Nat) :
    Deploy.Keeps (sparing site) (Orchestrator.handle job attempt) := by
  have hengine : ∀ s, (sparing site).state s → s.engine = site.engine := by
    intro s hs
    have hs : s.settings = site.settings := hs
    unfold Orchestrator.engine
    rw [hs]
    rfl
  cases job with
  | sync firewall generation =>
    refine Deploy.sync_keeps generation upkeep
      (fun s _ c files _ _ => mayReplace (fun _ => trivial) (fun _ _ => id) _ _ _ _) ?_
      fun s _ => Unnoticed.takeRedeploy s firewall
    intro s hs server
    rw [hengine s hs]
    exact sparesBans_reload site.engine
  | reloadBouncers server =>
    exact Deploy.reloadBouncers_keeps (fun _ _ _ _ => sparesBans_upload _ _) server
  | _ => exact h.elim

theorem failed_eq {job : Job} (h : job.SparesBans) (failure : Failure) :
    Orchestrator.failed job failure = .done () := by
  cases job with
  | sync _ _ => rfl
  | reloadBouncers _ => rfl
  | _ => exact h.elim

end Sparing

/-- **An attempt of a job that spares bans.** -/
theorem sparing_attempt (site : Site) {e : Entry Job} (h : e.job.SparesBans) :
    (Orchestrator.works.attempt e).Obeys (sparing site) fun _ => True := by
  exact Orchestrator.attempt_obeys (Sparing.handle h _) (Sparing.failed_eq h)
    (fun now result s _ => Unnoticed.settle (e := e.begin now) h result s)
    fun s _ => Unnoticed.finish s

end Rampart
