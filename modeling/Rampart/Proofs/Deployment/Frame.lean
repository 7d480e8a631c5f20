import Rampart.Proofs.Deployment.Roles

/-!
# What leaves the invariants as they are

The invariants of an application only depend on what concerns it, and a worker may change its role
in ways that do not take anything away that is on the way.

* `Base.frame`, `Cast.frame`, **`News.frame`**: harmless changes, and changes of other files.
* `Cast.update`, **`News.update`**: a worker changes its role.
-/

namespace Rampart.Convergence

open Execution Orchestrator
open Remote (Files)

variable {ρ : Type} {site : Site} {o : Outside ρ} {files : ρ → UInt64 → Files}

/-! ## What the invariants depend on -/

theorem isTarget_congr {s t : Store} (hrules : t.rules = s.rules)
    (hfirewall : t.firewalls.get? site.firewall = s.firewalls.get? site.firewall)
    (f : ScenarioFile) : site.IsTarget t f ↔ site.IsTarget s f := by
  unfold Site.IsTarget
  rw [hrules, hfirewall]

theorem willSync_congr {s t : Store} (hrules : t.rules = s.rules) (e : RuleEvent) :
    site.WillSync t e ↔ site.WillSync s e := by
  cases e with
  | saved id firewall previous =>
    unfold Site.WillSync
    rw [hrules]
  | deleted _ _ => exact Iff.rfl
  | firewallChanged _ => exact Iff.rfl

theorem syncs_perm {s t : Orchestrator} {added : List Job}
    (hjobs : t.jobs.Perm (added ++ s.jobs))
    (hadded : ∀ job ∈ added, job.syncOf? site.firewall = none) :
    (syncs site t).Perm (syncs site s) := by
  have hperm := hjobs.filterMap (Job.syncOf? site.firewall)
  rw [List.filterMap_append, List.filterMap_eq_nil_iff.mpr hadded] at hperm
  exact hperm

theorem syncs_perm_of_harmless {s t : Orchestrator} (h : Harmless site s t) :
    (syncs site t).Perm (syncs site s) := by
  obtain ⟨added, hjobs, hadded⟩ := h.jobs
  exact syncs_perm hjobs fun job hjob => (hadded job hjob).2

theorem knowsSite_of_harmless {s t : Orchestrator} (h : Harmless site s t)
    (hs : s.KnowsSite site) : t.KnowsSite site :=
  ⟨h.settings.trans hs.settings, h.registry ▸ hs.server, h.knows hs.store⟩

theorem SameFiles.refl (fs : Files) : SameFiles site fs fs := fun _ _ => rfl

theorem SameFiles.file {fs fs' : Files} (h : SameFiles site fs fs') {name : String}
    (hname : IsScenarioName site.uuid name) :
    fs' (site.dir.file name) = fs (site.dir.file name) :=
  h _ ⟨name, hname, .inl rfl⟩

/-- The same files in place. -/
def SamePlaces (site : Site) (fs fs' : Files) : Prop :=
  ∀ name, IsScenarioName site.uuid name → fs' (site.dir.file name) = fs (site.dir.file name)

theorem SameFiles.places {fs fs' : Files} (h : SameFiles site fs fs') : SamePlaces site fs fs' :=
  fun _ hname => h.file hname

theorem SameFiles.staged {fs fs' : Files} (h : SameFiles site fs fs') {token name : String}
    (htoken : IsToken token) (hname : IsScenarioName site.uuid name) :
    fs' (ScenarioDir.staged (site.dir.staging site.uuid token) name) =
      fs (ScenarioDir.staged (site.dir.staging site.uuid token) name) :=
  h _ ⟨name, hname, .inr ⟨token, htoken, rfl⟩⟩

theorem SamePlaces.hasExactly {fs fs' : Files} (h : SamePlaces site fs fs')
    {isFile : ScenarioFile → Prop} (hfs : HasExactly site.dir site.uuid fs isFile) :
    HasExactly site.dir site.uuid fs' isFile := by
  intro name hname contents
  rw [h name hname]
  exact hfs name hname contents

theorem SamePlaces.covers {fs fs' : Files} (h : SamePlaces site fs fs') {existing : List String}
    (hfs : Covers site.dir site.uuid fs existing) : Covers site.dir site.uuid fs' existing := by
  intro name hname hthere
  rw [h name hname] at hthere
  exact hfs name hname hthere

theorem SameFiles.sound {fs fs' : Files} (h : SameFiles site fs fs') {phase : Phase}
    (hphase : phase.Sound site fs) : phase.Sound site fs' := by
  cases phase with
  | naming files existing => exact ⟨hphase.1, h.places.covers hphase.2⟩
  | uploading files existing token rest =>
    obtain ⟨hfiles, hcovers, htoken, done, hsplit, hstaged⟩ := hphase
    refine ⟨hfiles, h.places.covers hcovers, htoken, done, hsplit, fun f hf => ?_⟩
    have hmem : f ∈ files := hsplit ▸ List.mem_append_left _ hf
    rw [h.staged htoken (hfiles.names f hmem)]
    exact hstaged f hf
  | _ => exact hphase

/-- What a worker remembers depends on files only while it holds the lock. -/
theorem sound_of_not_holds {fs fs' : Files} {phase : Phase} (hnot : phase.holds = false)
    (hphase : phase.Sound site fs) : phase.Sound site fs' := by
  cases phase with
  | naming _ _ => cases hnot
  | uploading _ _ _ _ => cases hnot
  | _ => exact hphase

theorem Role.sound_mono {r : Role} {fs fs' : Files} {newest newest' : UInt64}
    (h : r.Sound site o fs newest) (hfs : r.holds = true → SameFiles site fs fs')
    (hnewest : newest ≤ newest') : r.Sound site o fs' newest' := by
  cases r with
  | sync e g phase =>
    refine ⟨h.1, UInt64.le_trans h.2.1 hnewest, ?_⟩
    cases hholds : phase.holds with
    | true => exact (hfs hholds).sound h.2.2
    | false => exact sound_of_not_holds hholds h.2.2
  | _ => exact h

theorem Role.fresh_congr {isTarget isTarget' : ScenarioFile → Prop} {g : UInt64} {r : Role}
    (htarget : ∀ f, isTarget' f ↔ isTarget f) (h : r.Fresh isTarget g) : r.Fresh isTarget' g := by
  cases r with
  | sync _ _ _ => exact fun hg files hfiles f => (h hg files hfiles f).trans (htarget f).symm
  | _ => exact h

theorem Role.writesOnly_congr {isTarget isTarget' : ScenarioFile → Prop} {r : Role}
    (htarget : ∀ f, isTarget' f ↔ isTarget f) (h : r.WritesOnly isTarget) :
    r.WritesOnly isTarget' := by
  cases r with
  | sync _ _ _ => exact fun hw files hfiles f => (h hw files hfiles f).trans (htarget f).symm
  | _ => exact h

theorem hasExactly_congr {fs : Files} {isFile isFile' : ScenarioFile → Prop}
    (hfile : ∀ f, isFile' f ↔ isFile f) (h : HasExactly site.dir site.uuid fs isFile) :
    HasExactly site.dir site.uuid fs isFile' :=
  fun name hname contents => (h name hname contents).trans (hfile _).symm

/-! ## Harmless changes -/

theorem Base.frame {n : Nat} {c c' : Config ρ} (h : Base site files n c)
    (hs : Harmless site c.state c'.state)
    (hplaces : SamePlaces site (filesOf site files c) (filesOf site files c')) :
    Base site files n c' := by
  obtain ⟨added, hjobs, hadded⟩ := hs.jobs
  refine ⟨knowsSite_of_harmless hs h.knows, ?_, hs.fit h.fit, ?_, ?_, ?_, ?_, ?_⟩
  · obtain ⟨position, hfollows⟩ := h.bus
    rcases hs.bus with heq | ⟨e, _, heq⟩
    · exact ⟨position, heq ▸ hfollows⟩
    · exact ⟨position, heq ▸ Bus.publish_follows hfollows e⟩
  · intro job hjob
    rcases List.mem_append.mp (hjobs.mem_iff.mp hjob) with hjob | hjob
    · exact (hadded job hjob).1
    · exact h.deployment job hjob
  · rw [hs.generation]
    exact h.bounded
  · intro g hg
    rw [hs.generation]
    exact h.old g ((syncs_perm_of_harmless hs).mem_iff.mp hg)
  · exact (syncs_perm_of_harmless hs).nodup_iff.mpr h.distinct
  · intro name hname hthere
    rw [hplaces name hname] at hthere
    exact h.blankFree name hname hthere

/-- The workers have begun no sync that is newer than the newest. -/
theorem Cast.old (h : Cast site o files c roles) {i : Nat} {g : UInt64}
    (hg : (roles i).generation? = some g) : g ≤ c.state.generation site.firewall := by
  have hsound := h.sound i
  cases hr : roles i with
  | sync e g' phase =>
    rw [hr] at hg hsound
    rw [← Option.some.inj hg]
    exact hsound.2.1
  | _ =>
    rw [hr] at hg
    cases hg

/-- Changes of the state and of other files. No sync that is new among the jobs is an old one. -/
theorem Cast.frame {c c' : Config ρ} {roles : Nat → Role} (h : Cast site o files c roles)
    (hnewest : c.state.generation site.firewall ≤ c'.state.generation site.firewall)
    (hsyncs : ∀ g ∈ syncs site c'.state, g ∈ syncs site c.state ∨
      c.state.generation site.firewall < g)
    (hfs : SameFiles site (filesOf site files c) (filesOf site files c'))
    (hworkers : c'.workers = c.workers) (hheld : c'.held = c.held) :
    Cast site o files c' roles := by
  refine ⟨fun i => hworkers ▸ h.workers i, fun i => ?_, ?_, h.single, hheld ▸ h.held, h.exclusive⟩
  · exact Role.sound_mono (h.sound i) (fun _ => hfs) hnewest
  · intro i g hg hmem
    rcases hsyncs g hmem with hmem | hlt
    · exact h.apart i g hg hmem
    · exact absurd hlt (UInt64.not_lt.mpr (h.old hg))

/-- Events stay on the way when others are announced. -/
theorem Notice.publish {c c' : Config ρ} (h : Notice site c)
    (hbus : ∃ position, c.state.ruleBus.Follows Simulation.deployer position) {e : RuleEvent}
    (hpublish : c'.state.ruleBus = (c.state.ruleBus.publish e).2)
    (hunannounced : ∀ e' ∈ c.unannounced, e' ∈ c'.unannounced ∨ e' = e)
    (hwill : ∀ e', site.WillSync c.state.store e' → site.WillSync c'.state.store e') :
    Notice site c' := by
  obtain ⟨position, hfollows⟩ := hbus
  by_cases hbehind : c'.state.ruleBus.IsBehind Simulation.deployer
  · exact .inl hbehind
  · have hnot := hbehind
    rw [hpublish] at hnot
    obtain ⟨hnot', hunread⟩ := Bus.publish_unread hfollows hnot
    rw [← hpublish] at hunread
    rcases h with hlost | ⟨e', hmem, he'⟩
    · exact absurd hlost hnot'
    · refine .inr ⟨e', ?_, hwill e' he'⟩
      rcases hmem with hmem | hmem
      · rcases hunannounced e' hmem with hmem | rfl
        · exact .inl hmem
        · exact .inr (hunread ▸ List.mem_append_right _ (List.mem_singleton_self _))
      · exact .inr (hunread ▸ List.mem_append_left _ hmem)

/-- An event that leads to a sync is on the way once it is announced. -/
theorem Notice.of_publish {c : Config ρ} {b : Bus RuleEvent} {position : Nat}
    (hfollows : b.Follows Simulation.deployer position) {e : RuleEvent}
    (hpublish : c.state.ruleBus = (b.publish e).2) (hwill : site.WillSync c.state.store e) :
    Notice site c := by
  by_cases hbehind : c.state.ruleBus.IsBehind Simulation.deployer
  · exact .inl hbehind
  · rw [hpublish] at hbehind
    obtain ⟨_, hunread⟩ := Bus.publish_unread hfollows hbehind
    rw [← hpublish] at hunread
    exact .inr ⟨e, .inr (hunread ▸ List.mem_append_right _ (List.mem_singleton_self _)), hwill⟩

theorem Notice.frame {n : Nat} {c c' : Config ρ} (h : Notice site c) (hbase : Base site files n c)
    (hs : Harmless site c.state c'.state) (hunannounced : c'.unannounced = c.unannounced) :
    Notice site c' := by
  have hwill : ∀ e', site.WillSync c.state.store e' → site.WillSync c'.state.store e' :=
    fun e' => (willSync_congr hs.rules e').mpr
  rcases hs.bus with heq | ⟨e, _, heq⟩
  · rcases h with hlost | ⟨e, hmem, he⟩
    · exact .inl (heq ▸ hlost)
    · exact .inr ⟨e, hmem.imp (hunannounced ▸ ·) (heq ▸ ·), hwill e he⟩
  · exact h.publish hbase.bus heq (fun e' he' => .inl (hunannounced ▸ he')) hwill

/-- What is on the way stays so when the same files are called for and are in place. A job may be
gone if a worker has begun it. -/
theorem News.of_begun {c c' : Config ρ} {roles : Nat → Role} (h : News site files c roles)
    (hfirewall : c'.state.store.firewalls.get? site.firewall =
      c.state.store.firewalls.get? site.firewall)
    (htarget : ∀ f, site.IsTarget c'.state.store f ↔ site.IsTarget c.state.store f)
    (hnotice : Notice site c → Notice site c')
    (hcall : .provision site.firewall ∈ c.state.jobs → .provision site.firewall ∈ c'.state.jobs ∨
      ∃ i, (roles i).mayRecord = true)
    (hdue : ∀ g ∈ syncs site c.state, g ∈ syncs site c'.state ∨ ∃ i, (roles i).isDue g = true)
    (hgeneration : c'.state.generation site.firewall = c.state.generation site.firewall)
    (hplaces : SamePlaces site (filesOf site files c) (filesOf site files c')) :
    News site files c' roles := by
  intro firewall hget hactive
  rw [hfirewall] at hget
  rcases h firewall hget hactive with hold | hrecord | ⟨hneeds, hjob | hmay⟩ | ⟨hfresh, hsupply⟩
  · exact .inl (hnotice hold)
  · exact .inr (.inl hrecord)
  · exact .inr (.inr (.inl ⟨hneeds, hcall hjob⟩))
  · exact .inr (.inr (.inl ⟨hneeds, .inr hmay⟩))
  · refine .inr (.inr (.inr ⟨fun i => ?_, ?_⟩))
    · rw [hgeneration]
      exact Role.fresh_congr htarget (hfresh i)
    · unfold Supply at hsupply ⊢
      rw [hgeneration]
      rcases hsupply with hjob | hbegun | hunder | ⟨hexactly, hwrites⟩
      · rcases hdue _ hjob with hjob | hbegun
        · exact .inl hjob
        · exact .inr (.inl hbegun)
      · exact .inr (.inl hbegun)
      · exact .inr (.inr (.inl hunder))
      · exact .inr (.inr (.inr ⟨hasExactly_congr htarget (hplaces.hasExactly hexactly),
          fun i => Role.writesOnly_congr htarget (hwrites i)⟩))

/-- What is on the way stays so when the same files are called for and are in place, and no job is
gone. -/
theorem News.of_same {c c' : Config ρ} {roles : Nat → Role} (h : News site files c roles)
    (hfirewall : c'.state.store.firewalls.get? site.firewall =
      c.state.store.firewalls.get? site.firewall)
    (htarget : ∀ f, site.IsTarget c'.state.store f ↔ site.IsTarget c.state.store f)
    (hnotice : Notice site c → Notice site c')
    (hjobs : ∀ job ∈ c.state.jobs, job ∈ c'.state.jobs)
    (hgeneration : c'.state.generation site.firewall = c.state.generation site.firewall)
    (hplaces : SamePlaces site (filesOf site files c) (filesOf site files c')) :
    News site files c' roles := by
  refine h.of_begun hfirewall htarget hnotice (fun hjob => .inl (hjobs _ hjob)) (fun g hg => ?_)
    hgeneration hplaces
  obtain ⟨job, hjob, hsync⟩ := List.mem_filterMap.mp hg
  exact .inl (List.mem_filterMap.mpr ⟨job, hjobs job hjob, hsync⟩)

/-- **Harmless changes take away nothing that is on the way.** -/
theorem News.frame {n : Nat} {c c' : Config ρ} {roles : Nat → Role} (h : News site files c roles)
    (hbase : Base site files n c) (hs : Harmless site c.state c'.state)
    (hplaces : SamePlaces site (filesOf site files c) (filesOf site files c'))
    (hunannounced : c'.unannounced = c.unannounced) : News site files c' roles := by
  obtain ⟨added, hjobs, _⟩ := hs.jobs
  exact h.of_same hs.firewall (isTarget_congr hs.rules hs.firewall)
    (fun hnotice => hnotice.frame hbase hs hunannounced)
    (fun job hjob => hjobs.mem_iff.mpr (List.mem_append_right added hjob)) hs.generation hplaces

/-! ## Changes of a role -/

theorem forall_update {roles : Nat → Role} {i : Nat} {r : Role} (p : Role → Prop)
    (h : ∀ j, p (roles j)) (hr : p r) (j : Nat) : p (Function.update roles i r j) := by
  by_cases hji : j = i
  · subst hji
    rwa [Function.update_self]
  · rw [Function.update_of_ne hji]
    exact h j

/-- What some worker did is still done by one, if the worker with a new role does it or did not. -/
theorem exists_update {roles : Nat → Role} {i : Nat} {r : Role} (p : Role → Prop)
    (h : ∃ j, p (roles j)) (hr : p (roles i) → p r) : ∃ j, p (Function.update roles i r j) := by
  obtain ⟨j, hj⟩ := h
  by_cases hji : j = i
  · subst hji
    exact ⟨j, by rw [Function.update_self]; exact hr hj⟩
  · exact ⟨j, by rw [Function.update_of_ne hji]; exact hj⟩

/-- A worker takes another role. What others remember stays true, for they do not hold the lock if
files of the application are changed. -/
theorem Cast.update {c c' : Config ρ} {roles : Nat → Role} (h : Cast site o files c roles) (i : Nat)
    (r : Role) (hworkers : c'.workers = Function.update c.workers i (r.process site))
    (hnewest : c'.state.generation site.firewall = c.state.generation site.firewall)
    (hsyncs : ∀ g ∈ syncs site c'.state, g ∈ syncs site c.state)
    (hothers : ∀ j, j ≠ i → (roles j).holds = true →
      SameFiles site (filesOf site files c) (filesOf site files c') ∧ site.lock ∈ c'.held)
    (hsound : r.Sound site o (filesOf site files c') (c'.state.generation site.firewall))
    (hgeneration : ∀ g, r.generation? = some g →
      (roles i).generation? = some g ∨
        (g ∉ syncs site c'.state ∧ ∀ j, (roles j).generation? ≠ some g))
    (hholds : r.holds = true → site.lock ∈ c'.held ∧ ∀ j, j ≠ i → (roles j).holds = false) :
    Cast site o files c' (Function.update roles i r) := by
  refine ⟨fun j => ?_, fun j => ?_, fun j g hg => ?_, fun j k g hj hk => ?_, fun j hj => ?_,
    fun j k hj hk => ?_⟩
  · rw [hworkers]
    by_cases hji : j = i
    · subst hji
      rw [Function.update_self, Function.update_self]
    · rw [Function.update_of_ne hji, Function.update_of_ne hji]
      exact h.workers j
  · by_cases hji : j = i
    · subst hji
      rw [Function.update_self]
      exact hsound
    · rw [Function.update_of_ne hji]
      exact Role.sound_mono (h.sound j) (fun hj => (hothers j hji hj).1)
        (hnewest ▸ UInt64.le_refl _)
  · by_cases hji : j = i
    · subst hji
      rw [Function.update_self] at hg
      rcases hgeneration g hg with hsame | ⟨hnot, _⟩
      · exact fun hmem => h.apart j g hsame (hsyncs g hmem)
      · exact hnot
    · rw [Function.update_of_ne hji] at hg
      exact fun hmem => h.apart j g hg (hsyncs g hmem)
  · by_cases hji : j = i <;> by_cases hki : k = i
    · rw [hji, hki]
    · rw [hji, Function.update_self] at hj
      rw [Function.update_of_ne hki] at hk
      rcases hgeneration g hj with hsame | ⟨_, hnone⟩
      · rw [hji]
        exact h.single i k g hsame hk
      · exact absurd hk (hnone k)
    · rw [Function.update_of_ne hji] at hj
      rw [hki, Function.update_self] at hk
      rcases hgeneration g hk with hsame | ⟨_, hnone⟩
      · rw [hki]
        exact h.single j i g hj hsame
      · exact absurd hj (hnone j)
    · rw [Function.update_of_ne hji] at hj
      rw [Function.update_of_ne hki] at hk
      exact h.single j k g hj hk
  · by_cases hji : j = i
    · rw [hji, Function.update_self] at hj
      exact (hholds hj).1
    · rw [Function.update_of_ne hji] at hj
      exact (hothers j hji hj).2
  · by_cases hji : j = i <;> by_cases hki : k = i
    · rw [hji, hki]
    · rw [hji, Function.update_self] at hj
      rw [Function.update_of_ne hki, (hholds hj).2 k hki] at hk
      cases hk
    · rw [hki, Function.update_self] at hk
      rw [Function.update_of_ne hji, (hholds hk).2 j hji] at hj
      cases hj
    · rw [Function.update_of_ne hji] at hj
      rw [Function.update_of_ne hki] at hk
      exact h.exclusive j k hj hk

/-- How a role may follow another without anything being lost. -/
structure Succeeds (isTarget : ScenarioFile → Prop) (newest : UInt64) (needsBouncer : Prop)
    (r r' : Role) : Prop where
  record : r.willRecord = true → r'.willRecord = true
  call : needsBouncer → r.mayRecord = true → r'.mayRecord = true ∨ r'.willRecord = true
  fresh : r.Fresh isTarget newest → r'.Fresh isTarget newest
  due : r.isDue newest = true → r'.isDue newest = true ∨ r'.isUnderway newest = true
  underway : r.isUnderway newest = true → r'.isUnderway newest = true
  writes : r.Fresh isTarget newest → r.WritesOnly isTarget → r'.WritesOnly isTarget

/-- **A worker takes another role**, and nothing is lost that was on the way. -/
theorem News.update {c : Config ρ} {roles : Nat → Role} (h : News site files c roles) (i : Nat)
    (r : Role) (workers : Nat → Option (Process Orchestrator Unit))
    (hr : ∀ firewall, c.state.store.firewalls.get? site.firewall = some firewall →
      firewall.isActive = true →
      Succeeds (site.IsTarget c.state.store) (c.state.generation site.firewall)
        (firewall.needsBouncer = true) (roles i) r) :
    News site files { c with workers } (Function.update roles i r) := by
  intro firewall hfirewall hactive
  have hsucceeds := hr firewall hfirewall hactive
  rcases h firewall hfirewall hactive with hnotice | hrecord | ⟨hneeds, hcall⟩ | ⟨hfresh, hsupply⟩
  · exact .inl hnotice
  · exact .inr (.inl (exists_update (·.willRecord = true) hrecord hsucceeds.record))
  · rcases hcall with hjob | ⟨j, hj⟩
    · exact .inr (.inr (.inl ⟨hneeds, .inl hjob⟩))
    · by_cases hji : j = i
      · subst hji
        rcases hsucceeds.call hneeds hj with hr' | hr'
        · exact .inr (.inr (.inl ⟨hneeds, .inr ⟨j, by rw [Function.update_self]; exact hr'⟩⟩))
        · exact .inr (.inl ⟨j, by rw [Function.update_self]; exact hr'⟩)
      · exact .inr (.inr (.inl ⟨hneeds, .inr ⟨j, by rw [Function.update_of_ne hji]; exact hj⟩⟩))
  · refine .inr (.inr (.inr ⟨forall_update (·.Fresh _ _) hfresh (hsucceeds.fresh (hfresh i)), ?_⟩))
    rcases hsupply with hjob | ⟨j, hj⟩ | hunder | ⟨hexactly, hwrites⟩
    · exact .inl hjob
    · by_cases hji : j = i
      · subst hji
        rcases hsucceeds.due hj with hr' | hr'
        · exact .inr (.inl ⟨j, by rw [Function.update_self]; exact hr'⟩)
        · exact .inr (.inr (.inl ⟨j, by rw [Function.update_self]; exact hr'⟩))
      · exact .inr (.inl ⟨j, by rw [Function.update_of_ne hji]; exact hj⟩)
    · exact .inr (.inr (.inl (exists_update (·.isUnderway _ = true) hunder hsucceeds.underway)))
    · exact .inr (.inr (.inr ⟨hexactly,
        forall_update (·.WritesOnly _) hwrites (hsucceeds.writes (hfresh i) (hwrites i))⟩))

end Rampart.Convergence
