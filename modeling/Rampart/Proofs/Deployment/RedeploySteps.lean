import Rampart.Proofs.Deployment.Planning
import Rampart.Proofs.Orchestrator.Lenient

/-!
# How a sync asks for a redeploy

A sync of a firewall takes the redeploy that is due, once and late, and a sync that has taken one
asks for it next. No other step of any job has to do with what is due for the firewall.

* `Keeps`: changes that leave the syncs of a firewall alone.
* `Silent`, `Owing`, `Taking`: processes that have nothing to do with redeploys any more, that ask
  for one next, and that take what is due next.
* `Before`: processes that have still to take what is due before they can succeed; unless they find
  that a later sync has been planned.
* **`before_sync`**: a sync is such a process.
* **`changes_handle`**, **`changes_failed`**: other jobs leave the syncs alone.
-/

namespace Rampart.Redeploy

variable {α β : Type}

/-! ## What a process has to do with redeploys -/

/-- A change that leaves the syncs of a firewall alone. -/
def Keeps (firewall : UInt64) (s t : Orchestrator) : Prop :=
  t.syncs.get? firewall = s.syncs.get? firewall

/-- A process that neither touches the syncs of a firewall nor tells anybody anything. -/
def Silent (firewall : UInt64) : Process Orchestrator α → Prop
  | .done _ => True
  | .atomic update next => ∀ s, Keeps firewall s (update s) ∧ Silent firewall (next s)
  | .call _ _ next => ∀ answer, Silent firewall (next answer)
  | .callAll _ next => ∀ answers, Silent firewall (next answers)
  | .tell _ _ => False
  | .clock next => ∀ time, Silent firewall (next time)
  | .fresh next => ∀ name, Silent firewall (next name)
  | .wait _ next => Silent firewall next
  | .acquire _ next => Silent firewall next
  | .release _ next => Silent firewall next

/-- A process that asks for a redeploy next, and has nothing to do with redeploys afterwards. -/
def Owing (firewall : UInt64) (p : Process Orchestrator α) : Prop :=
  ∃ application rebuild next, p = .tell (.redeploy application rebuild) next ∧
    ∀ answer, Silent firewall (next answer)

/-- A process whose next step is to take the redeploy that is due. -/
def IsTake (firewall : UInt64) (p : Process Orchestrator α) : Prop :=
  ∃ next : Bool → Process Orchestrator α,
    p = .atomic (fun s => (s.takeRedeploy firewall).2) fun s => next (s.takeRedeploy firewall).1

/-- A process that takes the redeploy that is due next, and then asks for it. -/
def Taking (firewall : UInt64) (p : Process Orchestrator α) : Prop :=
  ∃ next : Bool → Process Orchestrator α,
    p = .atomic (fun s => (s.takeRedeploy firewall).2)
      (fun s => next (s.takeRedeploy firewall).1) ∧
    Owing firewall (next true) ∧ Silent firewall (next false)

/-- A process that leaves redeploys alone for now and ends as `q` says, where `current` is
whether no later sync has shown itself so far. -/
def Calm (firewall generation : UInt64) (q : Bool → α → Prop) :
    Bool → Process Orchestrator α → Prop
  | current, .done a => q current a
  | current, .atomic update next => ∀ s, Keeps firewall s (update s) ∧
    Calm firewall generation q (current && !s.isSuperseded firewall generation) (next s)
  | current, .call _ _ next => ∀ answer, Calm firewall generation q current (next answer)
  | current, .callAll _ next => ∀ answers, Calm firewall generation q current (next answers)
  | _, .tell _ _ => False
  | current, .clock next => ∀ time, Calm firewall generation q current (next time)
  | current, .fresh next => ∀ name, Calm firewall generation q current (next name)
  | current, .wait _ next => Calm firewall generation q current next
  | current, .acquire _ next => Calm firewall generation q current next
  | current, .release _ next => Calm firewall generation q current next

/-- **A sync before it takes what is due**: it does not succeed without, as long as no later sync
has shown itself. -/
def Before (firewall generation : UInt64) :
    Bool → Process Orchestrator (Except Failure Unit) → Prop
  | current, .done result => current = true → ∃ failure, result = .error failure
  | current, .atomic update next => Taking firewall (.atomic update next) ∨
    ∀ s, Keeps firewall s (update s) ∧
      Before firewall generation (current && !s.isSuperseded firewall generation) (next s)
  | current, .call _ _ next => ∀ answer, Before firewall generation current (next answer)
  | current, .callAll _ next => ∀ answers, Before firewall generation current (next answers)
  | _, .tell _ _ => False
  | current, .clock next => ∀ time, Before firewall generation current (next time)
  | current, .fresh next => ∀ name, Before firewall generation current (next name)
  | current, .wait _ next => Before firewall generation current next
  | current, .acquire _ next => Before firewall generation current next
  | current, .release _ next => Before firewall generation current next

section Binding

variable {firewall generation : UInt64}

theorem Silent.bind {p : Process Orchestrator α} {k : α → Process Orchestrator β}
    (h : Silent firewall p) (hk : ∀ a, Silent firewall (k a)) : Silent firewall (p.bind k) := by
  induction p with
  | done a => exact hk a
  | atomic update next ih => exact fun s => ⟨(h s).1, ih s (h s).2⟩
  | call server c next ih => exact fun answer => ih answer (h answer)
  | callAll calls next ih => exact fun answers => ih answers (h answers)
  | tell notice next _ => exact h
  | clock next ih => exact fun time => ih time (h time)
  | fresh next ih => exact fun name => ih name (h name)
  | wait seconds next ih => exact ih h
  | acquire lock next ih => exact ih h
  | release lock next ih => exact ih h

theorem Owing.bind {p : Process Orchestrator α} {k : α → Process Orchestrator β}
    (h : Owing firewall p) (hk : ∀ a, Silent firewall (k a)) : Owing firewall (p.bind k) := by
  obtain ⟨application, rebuild, next, rfl, hnext⟩ := h
  exact ⟨application, rebuild, fun answer => (next answer).bind k, rfl,
    fun answer => (hnext answer).bind hk⟩

theorem Taking.bind {p : Process Orchestrator α} {k : α → Process Orchestrator β}
    (h : Taking firewall p) (hk : ∀ a, Silent firewall (k a)) : Taking firewall (p.bind k) := by
  obtain ⟨next, rfl, howing, hsilent⟩ := h
  exact ⟨fun due => (next due).bind k, rfl, howing.bind hk, hsilent.bind hk⟩

theorem Calm.bind {q : Bool → α → Prop} {r : Bool → β → Prop} {current : Bool}
    {p : Process Orchestrator α} {k : α → Process Orchestrator β}
    (h : Calm firewall generation q current p)
    (hk : ∀ current a, q current a → Calm firewall generation r current (k a)) :
    Calm firewall generation r current (p.bind k) := by
  induction p generalizing current with
  | done a => exact hk current a h
  | atomic update next ih => exact fun s => ⟨(h s).1, ih s (h s).2⟩
  | call server c next ih => exact fun answer => ih answer (h answer)
  | callAll calls next ih => exact fun answers => ih answers (h answers)
  | tell notice next _ => exact h
  | clock next ih => exact fun time => ih time (h time)
  | fresh next ih => exact fun name => ih name (h name)
  | wait seconds next ih => exact ih h
  | acquire lock next ih => exact ih h
  | release lock next ih => exact ih h

theorem Calm.before_bind {q : Bool → α → Prop} {current : Bool}
    {p : Process Orchestrator α} {k : α → Process Orchestrator (Except Failure Unit)}
    (h : Calm firewall generation q current p)
    (hk : ∀ current a, q current a → Before firewall generation current (k a)) :
    Before firewall generation current (p.bind k) := by
  induction p generalizing current with
  | done a => exact hk current a h
  | atomic update next ih => exact .inr fun s => ⟨(h s).1, ih s (h s).2⟩
  | call server c next ih => exact fun answer => ih answer (h answer)
  | callAll calls next ih => exact fun answers => ih answers (h answers)
  | tell notice next _ => exact h.elim
  | clock next ih => exact fun time => ih time (h time)
  | fresh next ih => exact fun name => ih name (h name)
  | wait seconds next ih => exact ih h
  | acquire lock next ih => exact ih h
  | release lock next ih => exact ih h

end Binding

/-! ## Tasks -/

section Tasks

variable {firewall generation : UInt64} {current : Bool}

/-- A task that leaves redeploys alone for now; `q` is about success. -/
def Passes (firewall generation : UInt64) (q : Bool → α → Prop) (current : Bool)
    (t : Task Orchestrator α) : Prop :=
  Calm firewall generation (fun current result => ∀ a, result = .ok a → q current a) current
    t.process

/-- A task that leaves redeploys alone for now and ends anyhow. -/
abbrev Passes' (firewall generation : UInt64) (current : Bool) (t : Task Orchestrator α) : Prop :=
  Passes firewall generation (fun _ _ => True) current t

theorem passes_bind {q : Bool → α → Prop} {r : Bool → β → Prop}
    {t : Task Orchestrator α} {f : α → Task Orchestrator β}
    (h : Passes firewall generation q current t)
    (hf : ∀ current a, q current a → Passes firewall generation r current (f a)) :
    Passes firewall generation r current (t >>= f) := by
  refine Calm.bind h fun current result hresult => ?_
  cases result with
  | ok a => exact hf current a (hresult a rfl)
  | error e => exact fun _ hb => by cases hb

theorem passes_before {q : Bool → α → Prop} {t : Task Orchestrator α}
    {f : α → Task Orchestrator Unit} (h : Passes firewall generation q current t)
    (hf : ∀ current a, q current a → Before firewall generation current (f a).process) :
    Before firewall generation current (t >>= f).process := by
  refine Calm.before_bind h fun current result hresult => ?_
  cases result with
  | ok a => exact hf current a (hresult a rfl)
  | error e => exact fun _ => ⟨e, rfl⟩

theorem passes_pure {q : Bool → α → Prop} {a : α} (h : q current a) :
    Passes firewall generation q current (pure a : Task Orchestrator α) := by
  intro b hb
  cases hb
  exact h

theorem passes_throw {q : Bool → α → Prop} (failure : Failure) :
    Passes firewall generation q current (throw failure : Task Orchestrator α) := by
  intro b hb
  cases hb

/-- After a look at the state, only what was seen matters. -/
theorem passes_read {q : Bool → α → Prop} {f : Orchestrator → Except Failure α}
    (h : ∀ s a, f s = .ok a → q (current && !s.isSuperseded firewall generation) a) :
    Passes firewall generation q current (Task.read f) :=
  fun s => ⟨rfl, fun a ha => h s a ha⟩

theorem passes_modify {f : Orchestrator → Orchestrator} (h : ∀ s, Keeps firewall s (f s)) :
    Passes' firewall generation current (Task.modify f) :=
  fun s => ⟨h s, fun _ _ => trivial⟩

theorem passes_run (server : Server) (commands : List String) :
    Passes' firewall generation current (Task.run (σ := Orchestrator) server commands) :=
  fun _ _ _ => trivial

theorem passes_upload (server : Server) (path contents : String) :
    Passes' firewall generation current (Task.upload (σ := Orchestrator) server path contents) :=
  fun _ _ _ => trivial

theorem passes_attempt {t : Task Orchestrator α} (h : Passes' firewall generation current t) :
    Passes' firewall generation current (Task.attempt t) :=
  Calm.bind h fun _ _ _ _ _ => trivial

theorem passes_locked {lock : Lock} {q : Bool → α → Prop} {t : Task Orchestrator α}
    (h : Passes firewall generation q current t) :
    Passes firewall generation q current (ScenarioDir.locked lock t) :=
  Calm.bind (p := t.process) h fun _ _ hresult => hresult

end Tasks

/-! ## A sync -/

section Sync

variable {firewall generation : UInt64} {current : Bool}

theorem passes_uploadAll (server : Server) (staging : String) (files : List ScenarioFile) :
    ∀ current, Passes' firewall generation current
      (ScenarioDir.uploadAll (σ := Orchestrator) server staging files) := by
  induction files with
  | nil => exact fun _ => passes_pure trivial
  | cons f files ih =>
    exact fun current => passes_bind (passes_upload server _ _) fun current _ _ => ih current

theorem passes_replaceHeld (dir : ScenarioDir) (server : Server) (uuid : String)
    (files : List ScenarioFile) :
    Passes' firewall generation current
      (dir.replaceHeld (σ := Orchestrator) server uuid files) := by
  refine passes_bind (q := fun _ _ => True)
    (passes_bind (passes_run server _) fun _ _ _ => passes_pure trivial) ?_
  intro current existing _
  refine passes_bind (t := Task.fresh) (q := fun _ _ => True) (fun _ _ _ => trivial) ?_
  intro current token _
  refine passes_bind (passes_attempt ?_) fun current result _ => ?_
  · exact passes_bind (passes_uploadAll server _ files _) fun _ _ _ =>
      passes_bind (passes_run server _) fun _ _ _ => passes_pure trivial
  · cases result with
    | ok _ => exact passes_pure trivial
    | error failure =>
      exact passes_bind (passes_attempt (passes_run server _)) fun _ _ _ => passes_throw failure

/-- Files that were not replaced were not since a later sync had been planned. -/
theorem passes_replace (dir : ScenarioDir) (server : Server) (uuid : String)
    (files : List ScenarioFile) :
    Passes firewall generation (fun current written => written = false → current = false) current
      (dir.replace server uuid files (fun s => !s.isSuperseded firewall generation)
        Orchestrator.count) := by
  refine passes_locked (passes_bind (q := fun current isCurrent =>
    isCurrent = false → current = false) (passes_read fun s isCurrent h => ?_) ?_)
  · cases h
    intro hsuperseded
    simp only at hsuperseded
    rw [hsuperseded, Bool.and_false]
  · intro current isCurrent hcurrent
    cases isCurrent with
    | false => exact passes_pure fun _ => hcurrent rfl
    | true =>
      refine passes_bind (passes_replaceHeld dir server uuid files) fun _ _ _ => ?_
      exact passes_bind (passes_modify fun _ => rfl) fun _ _ _ => passes_pure nofun

theorem before_of_taking {p : Process Orchestrator (Except Failure Unit)}
    (h : Taking firewall p) : Before firewall generation current p := by
  obtain ⟨next, rfl, hnext⟩ := h
  exact .inl ⟨next, rfl, hnext⟩

/-- What follows once the files are in place and have been loaded. -/
theorem taking_redeployIfDue (application : UInt64) (server : UInt64) :
    Taking firewall (Deploy.redeployIfDue firewall application >>= fun _ =>
      Task.modify (·.dispatchReload server) : Deploy.Work Unit).process := by
  refine ⟨fun due => ((if due then do
      let _ ← Task.attempt (Task.tell (.redeploy application false))
    else pure ()) >>= fun _ => Task.modify (·.dispatchReload server) : Deploy.Work Unit).process,
    rfl, ?_, ?_⟩
  · exact ⟨application, false, _, rfl, fun answer => fun s => ⟨rfl, trivial⟩⟩
  · exact fun s => ⟨rfl, trivial⟩

/-- **A sync takes what is due before it succeeds**, unless a later one has been planned. -/
theorem before_sync (firewall generation : UInt64) (current : Bool) :
    Before firewall generation current (Deploy.sync firewall generation).process := by
  refine passes_before (q := fun current superseded => superseded = true → current = false)
    (passes_read fun s superseded h => ?_) fun current superseded hcurrent => ?_
  · cases h
    intro hsuperseded
    rw [hsuperseded, Bool.not_true, Bool.and_false]
  · cases superseded with
    | true =>
      intro hstill
      rw [hcurrent rfl] at hstill
      cases hstill
    | false =>
      refine passes_before (q := fun _ _ => True) (passes_read fun _ _ _ => trivial) ?_
      rintro current ⟨c, files, engine, dir⟩ -
      refine passes_before (passes_replace dir c.server c.uuid files) ?_
      intro current written hwritten
      cases written with
      | false =>
        intro hstill
        rw [hwritten rfl] at hstill
        cases hstill
      | true =>
        have hreload : Passes' firewall generation current (engine.reload c.server) :=
          passes_bind (passes_run c.server _) fun _ _ _ => passes_pure trivial
        refine passes_before hreload fun current _ _ => ?_
        exact before_of_taking (taking_redeployIfDue c.application.id c.server.id)

end Sync

/-! ## Other jobs -/

section Others

variable {firewall : UInt64}

/-- The syncs of other firewalls do not matter. -/
theorem keeps_insert {s : Orchestrator} {other : UInt64} (h : other ≠ firewall)
    (state : SyncState) :
    Keeps firewall s { s with syncs := s.syncs.insert other state } := by
  unfold Keeps
  rw [Table.get?_insert, if_neg h.symm]

theorem keeps_takeRedeploy {other : UInt64} (h : other ≠ firewall) (s : Orchestrator) :
    Keeps firewall s (s.takeRedeploy other).2 := by
  unfold Orchestrator.takeRedeploy
  split
  · exact keeps_insert h _
  · exact rfl

/-- **To leave the syncs of a firewall alone.** -/
def aloof (firewall : UInt64) : Discipline where
  state _ := True
  change := Keeps firewall
  idle _ := rfl
  call _ _ := True
  answer _ _ _ := True
  lock _ := True

theorem aloof_isLenient (firewall : UInt64) : (aloof firewall).IsLenient where
  call _ _ := trivial
  lock _ := trivial
  apart _ _ _ _ hsyncs := congrArg (Table.get? · firewall) hsyncs
  dispatch _ _ _ _ _ _ := rfl

/-- **A job that does not sync the firewall** leaves its syncs alone. -/
theorem changes_handle {job : Job} (h : job.syncOf? firewall = none) (attempt : Nat) :
    (Orchestrator.handle job attempt).process.Changes (Keeps firewall) := by
  have hkeeps : (Orchestrator.handle job attempt).Obeys (aloof firewall) fun _ => True := by
    refine (aloof_isLenient firewall).handle_keeps_all (fun _ _ => rfl) ?_ attempt
    rintro other generation rfl s
    refine keeps_takeRedeploy (fun hsame => ?_) s
    rw [Job.syncOf?, if_pos hsame] at h
    cases h
  exact hkeeps.changes (fun _ => trivial) fun _ _ _ => trivial

/-- **The report of a failure** leaves the syncs alone. -/
theorem changes_failed (firewall : UInt64) (job : Job) (failure : Failure) :
    (Orchestrator.failed job failure).Changes (Keeps firewall) :=
  ((aloof_isLenient firewall).failed_keeps (fun _ _ => rfl) job failure).changes
    (fun _ => trivial) fun _ _ _ => trivial

/-- The end of an attempt leaves the syncs alone. -/
theorem keeps_settle (firewall : UInt64) (e : Entry Job) (result : Except Failure Unit)
    (s : Orchestrator) : Keeps firewall s (Orchestrator.works.settle e result s).2 := by
  unfold Works.settle
  cases result with
  | ok value => exact rfl
  | error failure =>
    simp only
    split
    · exact rfl
    · split <;> exact rfl

/-- A change that leaves the syncs alone takes nothing. -/
theorem not_isTake_of_keeps {α : Type} {update : Orchestrator → Orchestrator}
    {next : Orchestrator → Process Orchestrator α} (h : ∀ s, Keeps firewall s (update s)) :
    ¬ IsTake firewall (.atomic update next) := by
  rintro ⟨next', heq⟩
  obtain ⟨hupdate, -⟩ := Process.atomic.inj heq
  -- Where a redeploy is due, taking it makes a difference.
  have hkept := h { syncs := Table.insert {} firewall ⟨0, true⟩ }
  rw [hupdate] at hkept
  simp [Keeps, Orchestrator.takeRedeploy, Table.get?_insert] at hkept

end Others

end Rampart.Redeploy
