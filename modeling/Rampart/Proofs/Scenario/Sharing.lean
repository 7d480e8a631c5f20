import Mathlib.Logic.Relation
import Rampart.Proofs.Scenario.Replacement

/-!
# Replacements side by side

Many replacements share a directory, and everything may fail at any point. Those of one application
take turns; those of different applications take their steps in any order.

* `Scene`: what replacements share, and the workers; `Step`: one step of a worker; `Run`: many.
* `Underway`: what is true of every scene; **`Underway.step`**: every step keeps it, and a step for
  one application changes nothing that is no business of it; `Underway.run`: so do many.
* `Returns`: the step with which a replacement ends; **`Returns.hasEnded`**: what has become of the
  files then.
* **`replacements_exact_and_apart`**: a success makes the files exactly those that were given,
  whatever failed before; files of nobody who is at work stay as they are; nothing is called for a
  replacement that is out of date.
* **`failure_between_edits`**: a failure leaves the files between two edits.
-/

namespace Rampart.Replacement

open Execution
open Remote (Files)
open Stage

/-! ## Scenes -/

/-- Who replaces files. -/
structure Worker where
  call : Replacement
  /-- What is left to do. -/
  left : Process Orchestrator (Except Failure Bool)
  /-- The files when the lock was taken. -/
  before : Files

/-- What replacements share, and what they are doing. -/
structure Scene extends Shared Files where
  workers : Nat → Option Worker

/-- The files before a step, if it takes the lock. -/
def beforeLock (fs before : Files) : Process Orchestrator (Except Failure Bool) → Files
  | .acquire _ _ => fs
  | _ => before

/-- **One step**, and for which application it is taken. -/
inductive Step (d : ScenarioDir) (server : Server) : Option String → Scene → Scene → Prop
  | begin (c : Scene) {i : Nat} {r : Replacement} (hfree : c.workers i = none) (hr : r.IsValid) :
    Step d server (some r.uuid) c
      { c with workers := Function.update c.workers i (some ⟨r, r.process d server, c.outside⟩) }
  | advance (c : Scene) {i : Nat} {v : Worker} {w : Shared Files}
    {p : Process Orchestrator (Except Failure Bool)} (hi : c.workers i = some v)
    (h : Advance unreliable c.toShared v.left w p)
    (hfresh : IsFresh d v.call.uuid c.outside v.left p) :
    Step d server (some v.call.uuid) c
      { c with
        toShared := w
        workers := Function.update c.workers i
          (some ⟨v.call, p, beforeLock c.outside v.before v.left⟩) }
  | leave (c : Scene) {i : Nat} {v : Worker} {result : Except Failure Bool}
    (hi : c.workers i = some v) (h : v.left = .done result) :
    Step d server (some v.call.uuid) c
      { c with workers := Function.update c.workers i none }
  /-- Anything else happens to the state. -/
  | meanwhile (c : Scene) (s : Orchestrator) : Step d server none c { c with state := s }

/-- Steps for some applications. -/
inductive Run (d : ScenarioDir) (server : Server) (whose : String → Prop) : Scene → Scene → Prop
  | refl (c : Scene) : Run d server whose c c
  | tail {a b c : Scene} {who : Option String} (h : Run d server whose a b)
    (hstep : Step d server who b c) (hwho : ∀ uuid, who = some uuid → whose uuid) :
    Run d server whose a c

/-! ## What is true of every scene -/

variable {d : ScenarioDir} {server : Server}

/-- **What is true of every scene**, where workers are at some stages: two replacements of one
application do not hold the lock at a time. -/
structure Underway (d : ScenarioDir) (server : Server) (c : Scene) (stages : Nat → Stage) :
    Prop where
  valid : ∀ i v, c.workers i = some v → v.call.IsValid
  left : ∀ i v, c.workers i = some v → v.left = (stages i).left d server v.call
  fits : ∀ i v, c.workers i = some v → Fits d v.call v.before c.outside (stages i)
  held : ∀ i v, c.workers i = some v → (stages i).Holds → v.call.lock server ∈ c.held
  alone : ∀ i j v u, c.workers i = some v → c.workers j = some u → (stages i).Holds →
    (stages j).Holds → v.call.uuid = u.call.uuid → i = j

variable {c c' : Scene} {stages : Nat → Stage} {who : Option String}

/-- Only a replacement that holds the lock, or is about to take it, or has ended, can be found. -/
theorem fits_of_not_holds {r : Replacement} {before fs : Files} {stage : Stage}
    (h : ¬ stage.Holds) : Fits d r before fs stage := by
  cases stage <;> first | trivial | exact absurd trivial h

/-- What a step does to the locks. -/
theorem Goes.held {r : Replacement} {stage next : Stage} {w w' : Shared Files}
    (h : Goes d server r stage w next w') :
    (stage = waiting ∧ next.Holds ∧ r.lock server ∉ w.held ∧
        w'.held = r.lock server :: w.held) ∨
      (stage.Holds ∧ next.Holds ∧ w'.held = w.held) ∨
      (stage.Holds ∧ ¬ next.Holds ∧ w'.held = w.held.erase (r.lock server)) := by
  cases h with
  | acquire hfree => exact .inl ⟨rfl, trivial, hfree, rfl⟩
  | release result => exact .inr (.inr ⟨trivial, id, rfl⟩)
  | _ => exact .inr (.inl ⟨trivial, trivial, rfl⟩)

theorem beforeLock_of_ne {r : Replacement} {stage : Stage} (h : stage ≠ waiting)
    (fs before : Files) : beforeLock fs before (stage.left d server r) = before := by
  cases stage with
  | waiting => exact absurd rfl h
  | uploading existing token rest => cases rest <;> rfl
  | _ => rfl

/-- **One worker is at another stage.** What is true of it is true of its new stage, and those of the
others that hold a lock keep it, with what is true of their files. -/
theorem Underway.update (h : Underway d server c stages) {i : Nat} {v : Worker} {w : Shared Files}
    {next : Stage} (hvalid : v.call.IsValid) (hleft : v.left = next.left d server v.call)
    (hfits : Fits d v.call v.before w.outside next)
    (hheld : next.Holds → v.call.lock server ∈ w.held)
    (hothers : ∀ j u, c.workers j = some u → j ≠ i → (stages j).Holds →
      u.call.lock server ∈ w.held ∧ Fits d u.call u.before w.outside (stages j) ∧
        (next.Holds → u.call.uuid ≠ v.call.uuid)) :
    Underway d server
      { c with toShared := w, workers := Function.update c.workers i (some v) }
      (Function.update stages i next) := by
  have hworkers : ∀ j u, Function.update c.workers i (some v) j = some u →
      (j = i ∧ u = v ∧ Function.update stages i next j = next) ∨
      (j ≠ i ∧ c.workers j = some u ∧ Function.update stages i next j = stages j) := by
    intro j u hu
    by_cases hji : j = i
    · subst hji
      rw [Function.update_self] at hu
      exact .inl ⟨rfl, (Option.some.inj hu).symm, Function.update_self ..⟩
    · rw [Function.update_of_ne hji] at hu
      exact .inr ⟨hji, hu, Function.update_of_ne hji ..⟩
  refine ⟨fun j u hu => ?_, fun j u hu => ?_, fun j u hu => ?_, fun j u hu hj => ?_,
    fun j k u x hu hx hj hk huuid => ?_⟩
  · obtain ⟨_, rfl, _⟩ | ⟨_, hj, _⟩ := hworkers j u hu
    · exact hvalid
    · exact h.valid j u hj
  · obtain ⟨_, rfl, hstage⟩ | ⟨_, hj, hstage⟩ := hworkers j u hu
    · rwa [hstage]
    · rw [hstage]
      exact h.left j u hj
  · obtain ⟨_, rfl, hstage⟩ | ⟨hji, hj, hstage⟩ := hworkers j u hu
    · rwa [hstage]
    · rw [hstage]
      by_cases hholds : (stages j).Holds
      · exact (hothers j u hj hji hholds).2.1
      · exact fits_of_not_holds hholds
  · obtain ⟨_, rfl, hstage⟩ | ⟨hji, hj', hstage⟩ := hworkers j u hu
    · exact hheld (hstage ▸ hj)
    · exact (hothers j u hj' hji (hstage ▸ hj)).1
  · obtain ⟨rfl, rfl, hstage⟩ | ⟨hji, hj', hstage⟩ := hworkers j u hu
    · obtain ⟨rfl, _, _⟩ | ⟨hki, hk', hstage'⟩ := hworkers k x hx
      · rfl
      · exact absurd huuid.symm ((hothers k x hk' hki (hstage' ▸ hk)).2.2 (hstage ▸ hj))
    · obtain ⟨rfl, rfl, hstage'⟩ | ⟨_, hk', hstage'⟩ := hworkers k x hx
      · exact absurd huuid ((hothers j u hj' hji (hstage ▸ hj)).2.2 (hstage' ▸ hk))
      · exact h.alone j k u x hj' hk' (hstage ▸ hj) (hstage' ▸ hk) huuid

/-- No other worker holds the lock that one has or takes. -/
theorem Underway.uuid_ne (h : Underway d server c stages) {i j : Nat} {v u : Worker}
    {next : Stage} {w : Shared Files} (hi : c.workers i = some v) (hj : c.workers j = some u)
    (hji : j ≠ i) (hgoes : Goes d server v.call (stages i) c.toShared next w)
    (hholds : (stages j).Holds) : u.call.uuid ≠ v.call.uuid := by
  intro huuid
  have hnot : ¬ (stages i).Holds := fun hi' => hji (h.alone j i u v hj hi hholds hi' huuid)
  rcases hgoes.held with ⟨_, _, hfree, _⟩ | ⟨hi', _⟩ | ⟨hi', _⟩
  · have hlock : u.call.lock server = v.call.lock server := by rw [lock, lock, huuid]
    exact hfree (hlock ▸ h.held j u hj hholds)
  · exact hnot hi'
  · exact hnot hi'

/-- **One worker goes on**: it takes a step of its replacement, and all that was true stays true. -/
theorem Underway.advance (h : Underway d server c stages) {i : Nat} {v : Worker}
    {w : Shared Files} {p : Process Orchestrator (Except Failure Bool)}
    (hi : c.workers i = some v) (hadvance : Advance unreliable c.toShared v.left w p)
    (hfresh : IsFresh d v.call.uuid c.outside v.left p) :
    ∃ next : Stage, p = next.left d server v.call ∧
      Goes d server v.call (stages i) c.toShared next w ∧
      (∀ path, IsForeign d v.call.uuid path → w.outside path = c.outside path) ∧
      Underway d server
        { c with
          toShared := w
          workers := Function.update c.workers i
            (some ⟨v.call, p, beforeLock c.outside v.before v.left⟩) }
        (Function.update stages i next) := by
  have hleft := h.left i v hi
  have hr := h.valid i v hi
  rw [hleft] at hadvance hfresh
  obtain ⟨next, hp, hgoes⟩ := goes_of_advance hadvance hfresh
  have hforeign : ∀ path, IsForeign d v.call.uuid path → w.outside path = c.outside path :=
    fun path hpath => hgoes.foreign hr (h.fits i v hi) hpath
  refine ⟨next, hp, hgoes, hforeign, h.update hr hp ?_ (fun hnext => ?_) fun j u hj hji hholds => ?_⟩
  · -- What is true of this worker's files; those that it will be measured by are settled now if it
    -- takes the lock.
    by_cases hwaiting : stages i = waiting
    · refine hgoes.fits hr (hwaiting ▸ trivial) fun _ => ?_
      rw [hleft, hwaiting]
      rfl
    · refine hgoes.fits hr ?_ fun heq => absurd heq hwaiting
      rw [hleft, beforeLock_of_ne hwaiting]
      exact h.fits i v hi
  · rcases hgoes.held with ⟨_, _, _, hheld⟩ | ⟨hi', _, hheld⟩ | ⟨_, hnot, _⟩
    · exact hheld ▸ List.mem_cons_self
    · exact hheld ▸ h.held i v hi hi'
    · exact absurd hnext hnot
  · have huuid := h.uuid_ne hi hj hji hgoes hholds
    have hmem := h.held j u hj hholds
    refine ⟨?_, (h.fits j u hj).of_same fun path hpath => hforeign path ?_, fun _ => huuid⟩
    · have hne : u.call.lock server ≠ v.call.lock server := fun heq =>
        huuid (congrArg Lock.uuid heq)
      rcases hgoes.held with ⟨_, _, _, hheld⟩ | ⟨_, _, hheld⟩ | ⟨_, _, hheld⟩
      · exact hheld ▸ List.mem_cons_of_mem _ hmem
      · exact hheld ▸ hmem
      · exact hheld ▸ (List.mem_erase_of_ne hne).mpr hmem
    · exact isForeign_of_isOwnPath hr.isUuid (h.valid j u hj).isUuid huuid hpath

/-- A worker begins. -/
theorem Underway.begin (h : Underway d server c stages) {i : Nat} {r : Replacement}
    (hr : r.IsValid) :
    Underway d server
      { c with workers := Function.update c.workers i (some ⟨r, r.process d server, c.outside⟩) }
      (Function.update stages i waiting) :=
  h.update (w := c.toShared) hr process_eq trivial (fun hwaits => hwaits.elim)
    fun j u hj _ hholds => ⟨h.held j u hj hholds, h.fits j u hj, fun hwaits => hwaits.elim⟩

/-- A worker is removed. -/
theorem Underway.leave (h : Underway d server c stages) (i : Nat) :
    Underway d server { c with workers := Function.update c.workers i none } stages := by
  have hworkers : ∀ j u, Function.update c.workers i none j = some u → c.workers j = some u := by
    intro j u hu
    rw [Function.update_apply] at hu
    split at hu
    · cases hu
    · exact hu
  exact ⟨fun j u hu => h.valid j u (hworkers j u hu), fun j u hu => h.left j u (hworkers j u hu),
    fun j u hu => h.fits j u (hworkers j u hu), fun j u hu => h.held j u (hworkers j u hu),
    fun j k u x hu hx => h.alone j k u x (hworkers j u hu) (hworkers k x hx)⟩

/-- **Every step keeps what is true**, and changes nothing that is no business of the application
for which it is taken. -/
theorem Underway.step (h : Underway d server c stages) (hstep : Step d server who c c') :
    (∃ stages, Underway d server c' stages) ∧
      ∀ path, (∀ uuid, who = some uuid → isUuid uuid = true → IsForeign d uuid path) →
        c'.outside path = c.outside path := by
  cases hstep with
  | begin _ _ hr => exact ⟨⟨_, h.begin hr⟩, fun _ _ => rfl⟩
  | advance _ hi hadvance hfresh =>
    obtain ⟨next, _, _, hforeign, hnext⟩ := h.advance hi hadvance hfresh
    exact ⟨⟨_, hnext⟩, fun path hpath =>
      hforeign path (hpath _ rfl (h.valid _ _ hi).isUuid)⟩
  | leave _ _ _ => exact ⟨⟨_, h.leave _⟩, fun _ _ => rfl⟩
  | meanwhile _ s =>
    exact ⟨⟨stages, h.valid, h.left, h.fits, h.held, h.alone⟩, fun _ _ => rfl⟩

theorem Underway.run {whose : String → Prop} (h : Underway d server c stages)
    (hrun : Run d server whose c c') :
    (∃ stages, Underway d server c' stages) ∧
      ∀ path, (∀ uuid, whose uuid → isUuid uuid = true → IsForeign d uuid path) →
        c'.outside path = c.outside path := by
  induction hrun with
  | refl => exact ⟨⟨stages, h⟩, fun _ _ => rfl⟩
  | tail _ hstep hwho ih =>
    obtain ⟨⟨stages, hstages⟩, hsame⟩ := ih
    obtain ⟨hnext, hforeign⟩ := hstages.step hstep
    exact ⟨hnext, fun path hpath =>
      (hforeign path fun uuid huuid => hpath uuid (hwho uuid huuid)).trans (hsame path hpath)⟩

/-- What is true when nobody is at work. -/
theorem underway_of_idle (h : ∀ i, c.workers i = none) :
    Underway d server c fun _ => waiting := by
  have hnone : ∀ {i v}, c.workers i = some v → False := by
    intro i v hi
    rw [h i] at hi
    cases hi
  exact ⟨fun _ _ hi => (hnone hi).elim, fun _ _ hi => (hnone hi).elim,
    fun _ _ hi => (hnone hi).elim, fun _ _ hi => (hnone hi).elim,
    fun _ _ _ _ hi => (hnone hi).elim⟩

/-! ## How replacements end -/

/-- **A replacement ends**, with the step of a worker. -/
structure Returns (d : ScenarioDir) (server : Server) (c : Scene) (i : Nat) (v : Worker)
    (result : Except Failure Bool) (c' : Scene) : Prop where
  step : Step d server (some v.call.uuid) c c'
  before : c.workers i = some v
  running : ∀ result, v.left ≠ .done result
  after : c'.workers i = some { v with left := .done result }

theorem eq_ended_of_left {r : Replacement} {stage : Stage} {result : Except Failure Bool}
    (h : stage.left d server r = .done result) : stage = ended result := by
  cases stage with
  | ended other =>
    cases h
    rfl
  | uploading existing token rest => cases rest <;> cases h
  | _ => cases h

/-- **What has become of the files when a replacement ends.** -/
theorem Returns.hasEnded {i : Nat} {v : Worker} {result : Except Failure Bool}
    (hreturns : Returns d server c i v result c') (h : Underway d server c stages) :
    v.call.IsValid ∧ HasEnded d v.call v.before c'.outside result := by
  obtain ⟨hstep, hbefore, hrunning, hafter⟩ := hreturns
  refine ⟨h.valid i v hbefore, ?_⟩
  -- Any other step leaves the worker as it was.
  have hsame : c'.workers i ≠ some v := by
    rw [hafter]
    intro heq
    exact hrunning result (congrArg Worker.left (Option.some.inj heq)).symm
  have hother : ∀ {j : Nat} {u : Option Worker},
      c'.workers = Function.update c.workers j u → i = j := by
    intro j u hworkers
    by_contra hij
    refine hsame ?_
    rw [hworkers, Function.update_of_ne hij, hbefore]
  generalize hwho : some v.call.uuid = who at hstep
  cases hstep with
  | begin _ hfree hr =>
    obtain rfl := hother rfl
    rw [hbefore] at hfree
    cases hfree
  | leave _ hi hdone =>
    obtain rfl := hother rfl
    rw [hbefore] at hi
    obtain rfl := Option.some.inj hi
    exact absurd hdone (hrunning _)
  | meanwhile _ s => exact absurd hbefore hsame
  | advance _ hi hadvance hfresh =>
    obtain rfl := hother rfl
    rw [hbefore] at hi
    obtain rfl := Option.some.inj hi
    obtain ⟨next, hp, hgoes, _, _⟩ := h.advance hbefore hadvance hfresh
    have hfits := h.fits i v hbefore
    have hdone : next.left d server v.call = .done result := by
      have hworker := (Function.update_self ..).symm.trans hafter
      exact hp.symm.trans (congrArg Worker.left (Option.some.inj hworker))
    obtain rfl := eq_ended_of_left hdone
    generalize hstage : stages i = stage at hgoes hfits
    cases hgoes with
    | release result => exact hfits

/-! ## Results -/

variable {c₀ : Scene}

/-- **Replacements are exact and keep apart.** Whatever the files are in the beginning, whoever is
at work, and however often calls fail:

* when a replacement ends with success, and for as long as only others are at work then, the files of
  its application are exactly those that were given;
* while only some applications are at work, the files in the directory that are of none of these stay
  as they are;
* a replacement that is out of date when it has the lock gives it back without any call. -/
theorem replacements_exact_and_apart (hidle : ∀ i, c₀.workers i = none)
    (hrun : Run d server (fun _ => True) c₀ c) :
    (∀ i v c' e, Returns d server c i v (.ok true) c' →
      Run d server (· ≠ v.call.uuid) c' e → IsExact d v.call e.outside) ∧
    (∀ (whose : String → Prop) e, Run d server whose c e → ∀ name, '/' ∉ name.toList →
      (∀ uuid, whose uuid → isOwned uuid name = false) →
      e.outside (d.file name) = c.outside (d.file name)) ∧
    ∀ r : Replacement, ∃ next, r.process d server = .acquire (r.lock server) (.atomic id next) ∧
      ∀ s, r.isCurrent s = false → next s = .release (r.lock server) (.done (.ok false)) := by
  obtain ⟨⟨stages, hc⟩, _⟩ := (underway_of_idle hidle).run hrun
  refine ⟨fun i v c' e hreturns hothers => ?_, fun whose e hmore name hslash hwhose => ?_,
    fun r => ⟨_, process_eq, fun s hs => ?_⟩⟩
  · obtain ⟨hr, hexact⟩ := hreturns.hasEnded hc
    obtain ⟨⟨stages', hc'⟩, _⟩ := hc.step hreturns.step
    intro name hname hslash hfeed contents
    have hsame := (hc'.run hothers).2 (d.file name) fun uuid hne hu =>
      isForeign_owned hu hr.isUuid (Ne.symm hne) hname
    rw [hsame]
    exact hexact name hname hslash hfeed contents
  · exact (hc.run hmore).2 _ fun uuid huuid _ => isForeign_file hslash (hwhose uuid huuid)
  · exact if_neg (hs ▸ Bool.false_ne_true)

/-- **A failure leaves the files between two edits**: as they were when the lock was taken, or with
the first so many changes made of those that lead to the files that were given. -/
theorem failure_between_edits (hidle : ∀ i, c₀.workers i = none)
    (hrun : Run d server (fun _ => True) c₀ c) {i : Nat} {v : Worker} {failure : Failure}
    (hreturns : Returns d server c i v (.error failure) c') :
    HasStopped d v.call v.before c'.outside := by
  obtain ⟨⟨stages, hc⟩, _⟩ := (underway_of_idle hidle).run hrun
  exact (hreturns.hasEnded hc).2

/-! ## One worker at a time -/

/-- A scene in which one worker is at work, or nobody. -/
def Scene.of (w : Shared Files) (v : Option Worker) : Scene where
  toShared := w
  workers i := if i = 0 then v else none

theorem workers_of (w w' : Shared Files) (v u : Option Worker) :
    Function.update (Scene.of w v).workers 0 u = (Scene.of w' u).workers := by
  funext i
  by_cases hi : i = 0
  · subst hi
    exact Function.update_self ..
  · rw [Function.update_of_ne hi]
    simp [Scene.of, hi]

variable {r : Replacement} {stage next : Stage} {w w' : Shared Files} {whose : String → Prop}

theorem step_of_goes (h : Goes d server r stage w next w') (before : Files) :
    Step d server (some r.uuid) (.of w (some ⟨r, stage.left d server r, before⟩))
      (.of w' (some ⟨r, next.left d server r,
        beforeLock w.outside before (stage.left d server r)⟩)) := by
  obtain ⟨hadvance, hfresh⟩ := advance_of_goes h
  have hstep := @Step.advance d server (.of w (some ⟨r, stage.left d server r, before⟩)) 0 _ _ _
    rfl hadvance hfresh
  rw [workers_of w w'] at hstep
  exact hstep

/-- Steps of a replacement that has the lock. -/
abbrev GoesOn (d : ScenarioDir) (server : Server) (r : Replacement) :
    Stage × Shared Files → Stage × Shared Files → Prop :=
  Relation.ReflTransGen fun a b => Goes d server r a.1 a.2 b.1 b.2

theorem Goes.ne_waiting (h : Goes d server r stage w next w') : next ≠ waiting := by
  cases h <;> exact nofun

theorem GoesOn.goes {a : Stage × Shared Files} (h : GoesOn d server r a (stage, w))
    (h' : Goes d server r stage w next w') : GoesOn d server r a (next, w') :=
  h.tail h'

/-- **A replacement that is alone** takes the lock and goes on. -/
theorem run_of_goesOn (hwhose : whose r.uuid) (hr : r.IsValid) (hfree : r.lock server ∉ w.held)
    (h : GoesOn d server r (asking, { w with held := r.lock server :: w.held }) (next, w')) :
    Run d server whose (.of w none) (.of w' (some ⟨r, next.left d server r, w.outside⟩)) ∧
      next ≠ waiting := by
  have hbegin : Step d server (some r.uuid) (.of w none)
      (.of w (some ⟨r, waiting.left d server r, w.outside⟩)) := by
    have hstep := @Step.begin d server (.of w none) 0 r rfl hr
    rw [workers_of w w, process_eq] at hstep
    exact hstep
  have hmine : ∀ uuid, some r.uuid = some uuid → whose uuid := fun uuid huuid =>
    Option.some.inj huuid ▸ hwhose
  generalize hgoal : (next, w') = goal at h
  induction h generalizing next w' with
  | refl =>
    obtain ⟨rfl, rfl⟩ := Prod.mk.inj hgoal
    exact ⟨.tail (.tail (.refl _) hbegin hmine) (step_of_goes (.acquire hfree) w.outside) hmine,
      nofun⟩
  | @tail a b _ hgoes ih =>
    subst hgoal
    obtain ⟨hrun, hne⟩ := @ih a.1 a.2 rfl
    have hstep := step_of_goes hgoes w.outside
    rw [beforeLock_of_ne hne] at hstep
    exact ⟨.tail hrun hstep hmine, hgoes.ne_waiting⟩

theorem Run.trans {a b c : Scene} (h : Run d server whose a b) (h' : Run d server whose b c) :
    Run d server whose a c := by
  induction h' with
  | refl => exact h
  | tail _ hstep hwho ih => exact .tail ih hstep hwho

/-- **It gives the lock back.** -/
theorem returns_of_release (result : Except Failure Bool) (before : Files) :
    Returns d server (.of w (some ⟨r, (releasing result).left d server r, before⟩)) 0
      ⟨r, (releasing result).left d server r, before⟩ result
      (.of { w with held := w.held.erase (r.lock server) }
        (some ⟨r, (ended result).left d server r, before⟩)) where
  step := step_of_goes (.release result) before
  before := rfl
  running := nofun
  after := rfl

/-- **A replacement that is alone** comes and goes. -/
theorem run_of_ended {result : Except Failure Bool} (hwhose : whose r.uuid) (hr : r.IsValid)
    (hfree : r.lock server ∉ w.held)
    (h : GoesOn d server r (asking, { w with held := r.lock server :: w.held })
      (releasing result, w')) :
    Run d server whose (.of w none)
      (.of { w' with held := w'.held.erase (r.lock server) } none) := by
  have hmine : ∀ uuid, some r.uuid = some uuid → whose uuid := fun uuid huuid =>
    Option.some.inj huuid ▸ hwhose
  have hrun := (run_of_goesOn hwhose hr hfree h).1
  have hleave := @Step.leave d server
    (.of { w' with held := w'.held.erase (r.lock server) }
      (some ⟨r, (ended result).left d server r, w.outside⟩)) 0 _ result rfl rfl
  rw [workers_of _ { w' with held := w'.held.erase (r.lock server) }] at hleave
  exact .tail (.tail hrun (returns_of_release result w.outside).step hmine) hleave hmine

/-- **It ends.** -/
theorem exists_returns {result : Except Failure Bool} (hwhose : whose r.uuid) (hr : r.IsValid)
    (hfree : r.lock server ∉ w.held)
    (h : GoesOn d server r (asking, { w with held := r.lock server :: w.held })
      (releasing result, w')) :
    ∃ c v c', Run d server whose (.of w none) c ∧ Returns d server c 0 v result c' ∧
      v.call = r ∧ v.before = w.outside ∧ c'.outside = w'.outside :=
  ⟨_, _, _, (run_of_goesOn hwhose hr hfree h).1, returns_of_release result w.outside, rfl, rfl, rfl⟩

/-! ## A shop on a server -/

namespace Demo

def dir : ScenarioDir := ⟨"/s"⟩

def host : Server := { id := 1, name := "one", host := "one.test" }

/-- Some files in the directory, and nothing else. -/
def filesIn (files : List ScenarioFile) : Files := fun path =>
  (files.find? fun f => dir.file f.name == path).map (·.contents)

theorem lists_filesIn (files : List ScenarioFile) {output : String}
    (houtput : output.toList = Text.listing ((files.map (·.name)).map String.toList)) :
    Lists dir (filesIn files) output := by
  refine ⟨files.map (·.name), houtput, fun name _ hthere => ?_⟩
  cases hf : files.find? fun f => dir.file f.name == dir.file name with
  | none =>
    rw [filesIn, hf] at hthere
    exact absurd rfl hthere
  | some f =>
    have hname := List.find?_some hf
    rw [← file_inj (beq_iff_eq.mp hname)]
    exact List.mem_map_of_mem (f := (·.name)) (List.mem_of_find?_eq_some hf)

/-- The state does not matter, and nobody has the lock. -/
def start (files : List ScenarioFile) : Shared Files := ⟨{}, [], filesIn files⟩

/-- The files before. -/
def old : List ScenarioFile := [⟨"abc.a-1.yaml", "1"⟩, ⟨"abc.b-2.yaml", "1"⟩]

/-- New versions of them. -/
def update : Replacement where
  uuid := "abc"
  files := [⟨"abc.a-1.yaml", "2"⟩, ⟨"abc.b-2.yaml", "2"⟩]
  isCurrent _ := true

theorem update_isValid : update.IsValid where
  isUuid := by decide
  files := {
    names := by
      intro f hf
      rcases List.mem_cons.mp hf with rfl | hf
      · exact ⟨"a-1".toList, by decide, by decide⟩
      · rw [List.mem_singleton.mp hf]
        exact ⟨"b-2".toList, by decide, by decide⟩
    blankFree := by
      intro f hf
      rcases List.mem_cons.mp hf with rfl | hf
      · decide
      · rw [List.mem_singleton.mp hf]
        decide
    nodup := by decide }

/-- The files when the lock is held. -/
def locked (files : List ScenarioFile) : Shared Files :=
  { start files with held := [update.lock host] }

/-- The directory of the new files. -/
def staging : String := dir.staging "abc" "0"

/-- The new files are written. -/
def written : Files :=
  ((filesIn old).write (ScenarioDir.staged staging "abc.a-1.yaml") "2").write
    (ScenarioDir.staged staging "abc.b-2.yaml") "2"

/-- The names that the listing shows. -/
def existing : List String :=
  ScenarioDir.ownedIn "abc" "abc.a-1.yaml\nabc.b-2.yaml\n"

/-- The replacement up to the commands that put the new files into place. -/
theorem uploads : GoesOn dir host update (asking, locked old)
    (uploading existing "0" [], { locked old with outside := written }) := by
  have hlists : Lists dir (locked old).outside "abc.a-1.yaml\nabc.b-2.yaml\n" :=
    lists_filesIn old (by decide +kernel)
  have htoken : IsToken "0" := by decide
  have hnamed : GoesOn dir host update (asking, locked old)
      (uploading existing "0" update.files, locked old) :=
    ((GoesOn.goes .refl (.current rfl)).goes (.listed hlists)).goes (.named existing htoken rfl)
  exact (hnamed.goes (.uploaded existing "0" _ _)).goes (.uploaded existing "0" _ _)

/-- The files after the first of those commands, when the new files have been removed. -/
def torn : Files :=
  (written.script ((dir.activation staging existing update.files).take 1)).1.eraseUnder
    staging

/-- How calls fail. -/
def lost : Failure := .transport "connection lost"

/-- The connection is lost after the first of those commands. -/
theorem tears : GoesOn dir host update (asking, locked old)
    (releasing (.error lost), { locked old with outside := torn }) :=
  (uploads.goes (.stopped existing "0" 1 lost)).goes (.cleaned "0" lost (.inr rfl))

/-- The connection is lost before anything is written. -/
theorem fails : GoesOn dir host update (asking, locked old)
    (releasing (.error lost), locked old) :=
  (GoesOn.goes .refl (.current rfl)).goes (.unlisted lost)

/-- The files after all of the commands. -/
def renewed : Files :=
  (written.script (dir.activation staging existing update.files)).1

theorem succeeds : GoesOn dir host update (asking, locked old) (releasing (.ok true),
    { locked old with
      state := Orchestrator.count .scenariosUploaded 2 {}, outside := renewed }) := by
  have hall : (written.script (dir.activation staging existing update.files)).2 =
      true := by
    decide +kernel
  exact (uploads.goes (.activated existing "0" (Prod.ext rfl hall))).goes .counted

/-- A file with a line break in its name. -/
def broken : List ScenarioFile := [⟨"abc.a\nb.yaml", "1"⟩]

/-- The application has no files any more. -/
def clearing : Replacement where
  uuid := "abc"
  files := []
  isCurrent _ := true

theorem clearing_isValid : clearing.IsValid where
  isUuid := by decide
  files := ⟨nofun, nofun, List.nodup_nil⟩

/-- The files after they have been replaced by none. -/
def cleared : Files :=
  ((filesIn broken).script (dir.activation staging
    (ScenarioDir.ownedIn "abc" "abc.a\nb.yaml\n") [])).1

theorem clears : GoesOn dir host clearing (asking, locked broken) (releasing (.ok true),
    { locked broken with
      state := Orchestrator.count .scenariosUploaded 0 {}, outside := cleared }) := by
  have hlists : Lists dir (locked broken).outside "abc.a\nb.yaml\n" :=
    lists_filesIn broken (by decide +kernel)
  have htoken : IsToken "0" := by decide
  have hall : ((filesIn broken).script (dir.activation staging
      (ScenarioDir.ownedIn "abc" "abc.a\nb.yaml\n") [])).2 = true := by
    decide +kernel
  exact ((((GoesOn.goes .refl (.current rfl)).goes (.listed hlists)).goes
    (.named _ htoken rfl)).goes (.activated _ "0" (Prod.ext rfl hall))).goes .counted

end Demo

/-- In a run in which one call fails before the next one has success. -/
theorem replacements_exact_after_failure :
    ∃ c v c',
      ((∀ i, (Scene.of (Demo.start Demo.old) none).workers i = none) ∧
        Run Demo.dir Demo.host (fun _ => True) (.of (Demo.start Demo.old) none) c ∧
        Returns Demo.dir Demo.host c 0 v (.ok true) c' ∧ v.call = Demo.update) ∧
      IsExact Demo.dir v.call c'.outside := by
  have hidle : ∀ i, (Scene.of (Demo.start Demo.old) none).workers i = none := fun i => ite_self _
  have hfailed : Run Demo.dir Demo.host (fun _ => True) (.of (Demo.start Demo.old) none)
      (.of (Demo.start Demo.old) none) :=
    run_of_ended trivial Demo.update_isValid List.not_mem_nil Demo.fails
  obtain ⟨c, v, c', hrun, hreturns, hcall, _, _⟩ := @exists_returns Demo.dir Demo.host Demo.update
    (Demo.start Demo.old) _ (fun _ => True) _ trivial Demo.update_isValid List.not_mem_nil
    Demo.succeeds
  exact ⟨c, v, c', ⟨hidle, hfailed.trans hrun, hreturns, hcall⟩,
    (replacements_exact_and_apart hidle (hfailed.trans hrun)).1 0 v c' c' hreturns (.refl c')⟩

/-- **A file with a line break in its name stays**, although its application has no files any
more. -/
theorem file_with_line_break_stays :
    ∃ c v c', Run Demo.dir Demo.host (fun _ => True) (.of (Demo.start Demo.broken) none) c ∧
      Returns Demo.dir Demo.host c 0 v (.ok true) c' ∧ v.call = Demo.clearing ∧
      isOwned "abc" "abc.a\nb.yaml" = true ∧ Demo.clearing.files = [] ∧
      c'.outside (Demo.dir.file "abc.a\nb.yaml") = some "1" := by
  obtain ⟨c, v, c', hrun, hreturns, hcall, _, hfiles⟩ := @exists_returns Demo.dir Demo.host
    Demo.clearing (Demo.start Demo.broken) _ (fun _ => True) _ trivial Demo.clearing_isValid
    List.not_mem_nil Demo.clears
  have hstays : Demo.cleared (Demo.dir.file "abc.a\nb.yaml") = some "1" := by
    decide +kernel
  exact ⟨c, v, c', hrun, hreturns, hcall, by decide, rfl, hfiles ▸ hstays⟩

/-- In a run in which the connection is lost between two commands. -/
theorem failure_between_edits_torn :
    ∃ c v c',
      ((∀ i, (Scene.of (Demo.start Demo.old) none).workers i = none) ∧
        Run Demo.dir Demo.host (fun _ => True) (.of (Demo.start Demo.old) none) c ∧
        Returns Demo.dir Demo.host c 0 v (.error Demo.lost) c' ∧ v.call = Demo.update) ∧
      HasStopped Demo.dir v.call v.before c'.outside := by
  have hidle : ∀ i, (Scene.of (Demo.start Demo.old) none).workers i = none := fun i => ite_self _
  obtain ⟨c, v, c', hrun, hreturns, hcall, _, _⟩ := @exists_returns Demo.dir Demo.host Demo.update
    (Demo.start Demo.old) _ (fun _ => True) _ trivial Demo.update_isValid List.not_mem_nil
    Demo.tears
  exact ⟨c, v, c', ⟨hidle, hrun, hreturns, hcall⟩, failure_between_edits hidle hrun hreturns⟩

/-- **A failure can leave one file new and the other one old.** -/
theorem failure_between_files :
    ∃ c v c', Run Demo.dir Demo.host (fun _ => True) (.of (Demo.start Demo.old) none) c ∧
      Returns Demo.dir Demo.host c 0 v (.error Demo.lost) c' ∧ v.call = Demo.update ∧
      v.before (Demo.dir.file "abc.a-1.yaml") = some "1" ∧
      c'.outside (Demo.dir.file "abc.a-1.yaml") = some "2" ∧
      c'.outside (Demo.dir.file "abc.b-2.yaml") = some "1" := by
  obtain ⟨c, v, c', hrun, hreturns, hcall, hbefore, hfiles⟩ := @exists_returns Demo.dir Demo.host
    Demo.update (Demo.start Demo.old) _ (fun _ => True) _ trivial Demo.update_isValid
    List.not_mem_nil Demo.tears
  have hold : Demo.filesIn Demo.old (Demo.dir.file "abc.a-1.yaml") = some "1" := by
    decide +kernel
  have hfirst : Demo.torn (Demo.dir.file "abc.a-1.yaml") = some "2" := by
    decide +kernel
  have hsecond : Demo.torn (Demo.dir.file "abc.b-2.yaml") = some "1" := by
    decide +kernel
  exact ⟨c, v, c', hrun, hreturns, hcall, hbefore ▸ hold, hfiles ▸ hfirst, hfiles ▸ hsecond⟩

end Rampart.Replacement
