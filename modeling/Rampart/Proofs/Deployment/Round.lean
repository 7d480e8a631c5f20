import Rampart.Proofs.Deployment.Errands

/-!
# A round of jobs

What happens while nobody asks for anything: from the jobs that were planned for a saved or deleted
rule until none is left. Jobs may run side by side and be tried again.

* `Round`: the errands of a round, each a job that keeps to its contract.
* `Part`: what a worker is doing; `Whereabouts`: where an errand is.
* `Underway`: what holds at all times of a round.
* **`Underway.step`**: every step keeps it.
* **`Underway.achieved`**: when no job is left and none was lost, both errands have been run.
-/

namespace Rampart.Bans

open Execution Orchestrator

/-- **The errands of a round**, while the store stays as it is; `lost` jobs had been lost before. -/
structure Round {ρ : Type} (site : Site) (o : Outside ρ) (held : ρ → List Engine.Decision) where
  store : Store
  aim : Aim
  job : Errand → Job
  job_inj : ∀ a b, job a = job b → a = b
  busy : ∀ a, ¬ (job a).SparesBans
  failed : ∀ a failure, Orchestrator.failed (job a) failure = .done ()
  yields : ∀ a attempt x, (Orchestrator.handle (job a) attempt).Yields
    (contract site held store aim a) o (fun _ y => aim.Achieved a (held y)) x
  lost : Nat

/-- What a worker is doing. -/
inductive Part
  | free
  /-- Bans are left alone. -/
  | aside (p : Process Orchestrator Unit)
  /-- An errand that has not begun. -/
  | beginning (e : Entry Job) (a : Errand)
  /-- An errand, before its attempt ends. -/
  | busy (e : Entry Job) (a : Errand) (q : Process Orchestrator (Except Failure Unit))

namespace Part

/-- The process of a worker. -/
def process : Part → Option (Process Orchestrator Unit)
  | free => none
  | aside p => some p
  | beginning e _ => some (works.attempt e)
  | busy e _ q => some (q.bind (ending e))

/-- The errand that a worker is on. -/
def errand? : Part → Option Errand
  | free | aside _ => none
  | beginning _ a | busy _ a _ => some a

end Part

variable {ρ : Type} {site : Site} {o : Outside ρ} {held : ρ → List Engine.Decision}

/-- A worker will do what is expected of it. -/
def Part.Fits (R : Round site o held) (x : ρ) : Part → Prop
  | free => True
  | aside p => p.Obeys (sparing site) fun _ => True
  | beginning e a => e.job = R.job a
  | busy e a q => e.job = R.job a ∧ q.Meets (contract site held R.store R.aim a) o
      (fun result y => ∀ u, result = .ok u → R.aim.Achieved a (held y)) x

/-- **Where an errand is**: it waits, or one worker is on it, or it is over. -/
inductive Whereabouts (R : Round site o held) (c : Config ρ) (parts : Nat → Part) (a : Errand) :
    Prop
  | waiting (hjobs : c.state.jobs.count (R.job a) = 1) (hnobody : ∀ i, (parts i).errand? ≠ some a)
  | running (i : Nat) (hjobs : c.state.jobs.count (R.job a) = 0)
    (hi : (parts i).errand? = some a) (honly : ∀ j, (parts j).errand? = some a → j = i)
  | ended (hjobs : c.state.jobs.count (R.job a) = 0) (hnobody : ∀ i, (parts i).errand? ≠ some a)
    (h : R.lost < c.state.lost ∨ R.aim.Achieved a (held c.outside))

/-- **What holds at all times of a round.** -/
structure Underway (R : Round site o held) (c : Config ρ) (parts : Nat → Part) : Prop where
  knows : c.state.KnowsSite site
  store : c.state.store = R.store
  fit : c.state.scheduler.IsFit
  unannounced : c.unannounced = []
  noMail : Simulation.World.hasMail Simulation.deployer c.state = false
  lost : R.lost ≤ c.state.lost
  sound : R.aim.Sound (held c.outside)
  workers : ∀ i, c.workers i = (parts i).process
  fits : ∀ i, (parts i).Fits R c.outside
  jobs : ∀ job ∈ c.state.jobs, job.SparesBans ∨ ∃ a, job = R.job a
  whereabouts : ∀ a, Whereabouts R c parts a

/-! ## Changes that an errand does not notice -/

theorem Errand.eq_other {a b : Errand} (h : a ≠ b) : b.other = a := by
  cases a <;> cases b <;> first | rfl | exact absurd rfl h

/-- What others do does not keep a worker from doing what is expected of it. -/
theorem Part.Fits.rely {R : Round site o held} {p : Part} {x y : ρ} (h : p.Fits R x)
    (hxy : ∀ a, p.errand? = some a → R.aim.Changes a.other (held x) (held y)) : p.Fits R y := by
  cases p with
  | busy e a q =>
    have hstable : ∀ result : Except Failure Unit,
        (contract site held R.store R.aim a).Stable fun y =>
          ∀ u, result = .ok u → R.aim.Achieved a (held y) :=
      fun result x y hchanges hdone u hu => (hdone u hu).lasts hchanges
    exact ⟨h.1, h.2.rely hstable (hxy a rfl)⟩
  | _ => exact h

theorem Round.count_job (R : Round site o held) {s t : Orchestrator} (h : Unnoticed s t)
    (a : Errand) : t.jobs.count (R.job a) = s.jobs.count (R.job a) := by
  obtain ⟨added, hperm, hadded⟩ := h.jobs
  have hnone : added.count (R.job a) = 0 :=
    List.count_eq_zero.mpr fun hmem => R.busy a (hadded _ hmem)
  rw [hperm.count_eq, List.count_append, hnone, Nat.zero_add]

theorem Round.mem_jobs (R : Round site o held) {s t : Orchestrator} (h : Unnoticed s t)
    (hs : ∀ job ∈ s.jobs, job.SparesBans ∨ ∃ a, job = R.job a) :
    ∀ job ∈ t.jobs, job.SparesBans ∨ ∃ a, job = R.job a := by
  obtain ⟨added, hperm, hadded⟩ := h.jobs
  intro job hjob
  rcases List.mem_append.mp (hperm.mem_iff.mp hjob) with hjob | hjob
  · exact .inl (hadded job hjob)
  · exact hs job hjob

/-! ## Workers -/

section

variable {R : Round site o held} {c : Config ρ} {parts : Nat → Part}

/-- What is left when a worker takes a step. -/
def stepped (c : Config ρ) (i : Nat) (w : Shared ρ) (r : Part) : Config ρ :=
  { c with toShared := w, workers := Function.update c.workers i r.process }

theorem workers_stepped (h : ∀ i, c.workers i = (parts i).process) (i : Nat) (w : Shared ρ)
    (r : Part) (j : Nat) :
    (stepped c i w r).workers j = (Function.update parts i r j).process := by
  by_cases hji : j = i
  · subst hji
    exact (Function.update_self ..).trans (by rw [Function.update_self])
  · exact (Function.update_of_ne hji ..).trans (by rw [Function.update_of_ne hji, h j])

theorem fits_update {x : ρ} {i : Nat} {r : Part} (hr : r.Fits R x)
    (hothers : ∀ j, j ≠ i → (parts j).Fits R x) (j : Nat) :
    (Function.update parts i r j).Fits R x := by
  by_cases hji : j = i
  · subst hji
    rwa [Function.update_self]
  · rw [Function.update_of_ne hji]
    exact hothers j hji

theorem errand?_update (i : Nat) (r : Part) (j : Nat) :
    (Function.update parts i r j).errand? =
      if j = i then r.errand? else (parts j).errand? := by
  by_cases hji : j = i
  · subst hji
    rw [Function.update_self, if_pos rfl]
  · rw [Function.update_of_ne hji, if_neg hji]

/-- **A worker goes on**, and ends an errand only if it has been run. -/
theorem Underway.update (h : Underway R c parts) {i : Nat} {w : Shared ρ} {r : Part}
    (hs : Unnoticed c.state w.state) (hsound : R.aim.Sound (held w.outside))
    (hr : r.Fits R w.outside) (hothers : ∀ j, j ≠ i → (parts j).Fits R w.outside)
    (hlasts : ∀ a, R.aim.Achieved a (held c.outside) → R.aim.Achieved a (held w.outside))
    (herrand : r.errand? = (parts i).errand? ∨ (r.errand? = none ∧ ∀ a, (parts i).errand? = some a →
      R.lost < w.state.lost ∨ R.aim.Achieved a (held w.outside))) :
    Underway R (stepped c i w r) (Function.update parts i r) := by
  refine ⟨hs.knowsSite h.knows, hs.store.trans h.store, hs.fit h.fit, h.unannounced,
    hs.hasMail.trans h.noMail, Nat.le_trans h.lost hs.lost, hsound, workers_stepped h.workers i w r,
    fits_update hr hothers, R.mem_jobs hs h.jobs, fun a => ?_⟩
  have hcount : w.state.jobs.count (R.job a) = c.state.jobs.count (R.job a) := R.count_job hs a
  -- Who is on the errand afterwards was on it before.
  have hbefore : ∀ j, (Function.update parts i r j).errand? = some a →
      (parts j).errand? = some a := by
    intro j hj
    rw [errand?_update] at hj
    split at hj
    · rename_i hji
      subst hji
      rcases herrand with hsame | ⟨hnone, _⟩
      · rwa [hsame] at hj
      · rw [hnone] at hj
        cases hj
    · exact hj
  cases h.whereabouts a with
  | waiting hjobs hnobody =>
    exact .waiting (hcount.trans hjobs) fun j hj => hnobody j (hbefore j hj)
  | running k hjobs hk honly =>
    by_cases hki : k = i
    · subst hki
      rcases herrand with hsame | ⟨hnone, hend⟩
      · refine .running k (hcount.trans hjobs) ?_ fun j hj => honly j (hbefore j hj)
        rw [errand?_update, if_pos rfl, hsame, hk]
      · refine .ended (hcount.trans hjobs) (fun j hj => ?_) (hend a hk)
        obtain rfl := honly j (hbefore j hj)
        rw [errand?_update, if_pos rfl, hnone] at hj
        cases hj
    · refine .running k (hcount.trans hjobs) ?_ fun j hj => honly j (hbefore j hj)
      rw [errand?_update, if_neg hki, hk]
  | ended hjobs hnobody hend =>
    refine .ended (hcount.trans hjobs) (fun j hj => hnobody j (hbefore j hj)) ?_
    exact hend.imp (fun hlt => Nat.lt_of_lt_of_le hlt hs.lost) (hlasts a)

/-- **The state changes** in a way that no ban notices. -/
theorem Underway.unnoticed (h : Underway R c parts) {s : Orchestrator} (hs : Unnoticed c.state s) :
    Underway R { c with state := s } parts := by
  refine ⟨hs.knowsSite h.knows, hs.store.trans h.store, hs.fit h.fit, h.unannounced,
    hs.hasMail.trans h.noMail, Nat.le_trans h.lost hs.lost, h.sound, h.workers, h.fits,
    R.mem_jobs hs h.jobs, fun a => ?_⟩
  have hcount : s.jobs.count (R.job a) = c.state.jobs.count (R.job a) := R.count_job hs a
  cases h.whereabouts a with
  | waiting hjobs hnobody => exact .waiting (hcount.trans hjobs) hnobody
  | running k hjobs hk honly => exact .running k (hcount.trans hjobs) hk honly
  | ended hjobs hnobody hend =>
    exact .ended (hcount.trans hjobs) hnobody
      (hend.imp_left fun hlt => Nat.lt_of_lt_of_le hlt hs.lost)

/-! ## Steps of workers -/

variable {covers : String → String → Bool} {i : Nat} {w : Shared ρ}

theorem held_of_touched (hreliable : Reliable site o held covers) {x y : ρ}
    (h : Touched o (sparing site) x y) : held y = held x := by
  induction h with
  | refl x => rfl
  | head hc ha _ ih => exact ih.trans (hreliable.others _ _ _ _ _ hc ha)

/-- Nobody notices a step after which the same decisions are held. -/
theorem Part.Fits.same {p : Part} {x y : ρ} (h : p.Fits R x) (hsame : held y = held x) :
    p.Fits R y :=
  h.rely fun a _ => hsame ▸ .refl a.other _

/-- A worker that leaves bans alone goes on. -/
theorem Underway.aside (hreliable : Reliable site o held covers) (h : Underway R c parts)
    {p p' : Process Orchestrator Unit} (hi : parts i = .aside p)
    (hstep : Advance o c.toShared p w p') :
    Underway R (stepped c i w (.aside p')) (Function.update parts i (.aside p')) := by
  have hp : p.Obeys (sparing site) fun _ => True := by
    have hfits := h.fits i
    rwa [hi] at hfits
  obtain ⟨hdisciplined, hp'⟩ := Obeys.of_advance (d := sparing site)
    (fun _ _ _ _ _ _ => trivial) hp h.knows.settings hstep
  have hsame := held_of_touched hreliable hdisciplined.outside
  refine h.update hdisciplined.state ?_ hp' (fun j _ => (h.fits j).same hsame) ?_ (.inl ?_)
  · exact hsame ▸ h.sound
  · exact fun a hdone => hsame ▸ hdone
  · rw [hi]
    rfl

/-- An errand begins. -/
theorem Underway.begin (h : Underway R c parts) {e : Entry Job} {a : Errand}
    (hi : parts i = .beginning e a) {p' : Process Orchestrator Unit}
    (hstep : Advance o c.toShared (works.attempt e) w p') :
    ∃ r : Part, r.process = some p' ∧
      Underway R (stepped c i w r) (Function.update parts i r) := by
  have hjob : e.job = R.job a := by
    have hfits := h.fits i
    rwa [hi] at hfits
  rw [attempt_eq] at hstep
  obtain ⟨rfl, rfl⟩ := hstep.of_atomic
  refine ⟨.busy (e.begin c.state.scheduler.now) a (handle e.job (e.attempts + 1)).process, rfl, ?_⟩
  refine h.update (.refl _) h.sound ⟨hjob, ?_⟩ (fun j _ => h.fits j) (fun _ => id) (.inl ?_)
  · rw [hjob]
    exact R.yields a _ _
  · rw [hi]
    rfl

/-- An errand goes on. -/
theorem Underway.go (h : Underway R c parts) {e : Entry Job} {a : Errand}
    {q q' : Process Orchestrator (Except Failure Unit)} (hi : parts i = .busy e a q)
    (hstep : Advance o c.toShared q w q') :
    Underway R (stepped c i w (.busy e a q')) (Function.update parts i (.busy e a q')) := by
  have hfits := h.fits i
  rw [hi] at hfits
  obtain ⟨hchange, hguarantee, hsound, hq'⟩ :=
    hfits.2.of_advance ⟨h.knows, h.store⟩ h.sound hstep
  refine h.update hchange hsound ⟨hfits.1, hq'⟩ (fun j hji => ?_)
    (fun b hdone => hdone.lasts hguarantee) (.inl ?_)
  · refine (h.fits j).rely fun b hb => ?_
    -- Only one worker is on an errand, so this is the other one.
    have hba : b ≠ a := by
      rintro rfl
      have hib : (parts i).errand? = some b := by
        rw [hi]
        rfl
      cases h.whereabouts b with
      | waiting _ hnobody => exact hnobody i hib
      | running k _ _ honly => exact hji ((honly j hb).trans (honly i hib).symm)
      | ended _ hnobody _ => exact hnobody i hib
    rw [Errand.eq_other hba.symm]
    exact hguarantee
  · rw [hi]
    rfl

/-- An errand will be tried again. -/
theorem Underway.retry (h : Underway R c parts) {e : Entry Job} {a : Errand}
    {q : Process Orchestrator (Except Failure Unit)} (hi : parts i = .busy e a q) (due : Nat) :
    Underway R (stepped c i { c.toShared with state := { c.state with
        scheduler := c.state.scheduler.delayUntil due e
        counters := c.state.counters.add (.jobs .retried) 1 } } (.aside (.done ())))
      (Function.update parts i (.aside (.done ()))) := by
  have hfits := h.fits i
  rw [hi] at hfits
  have hia : (parts i).errand? = some a := by
    rw [hi]
    rfl
  let s : Orchestrator := { c.state with
    scheduler := c.state.scheduler.delayUntil due e
    counters := c.state.counters.add (.jobs .retried) 1 }
  have hperm : s.jobs.Perm (R.job a :: c.state.jobs) := by
    have hentries := (Scheduler.delayUntil_entries c.state.scheduler due e).map (·.job)
    rwa [List.map_cons, hfits.1] at hentries
  have hlost : c.state.lost ≤ s.lost := c.state.lost_le_count (.jobs .retried) 1
  have hnot (j : Nat) (b : Errand) : (Function.update parts i (.aside (.done ())) j).errand? =
      some b ↔ j ≠ i ∧ (parts j).errand? = some b := by
    rw [errand?_update]
    by_cases hji : j = i
    · simp [hji, Part.errand?]
    · simp [hji]
  refine ⟨⟨h.knows.settings, h.knows.server, h.knows.store⟩, h.store,
    Scheduler.delayUntil_isFit h.fit _ _, h.unannounced, h.noMail,
    Nat.le_trans h.lost hlost, h.sound, workers_stepped h.workers i _ _,
    fits_update trivial fun j _ => h.fits j, fun job hjob => ?_, fun b => ?_⟩
  · rcases List.mem_cons.mp (hperm.mem_iff.mp hjob) with rfl | hjob
    · exact .inr ⟨a, rfl⟩
    · exact h.jobs job hjob
  · have hcount : s.jobs.count (R.job b) =
        c.state.jobs.count (R.job b) + if R.job a = R.job b then 1 else 0 := by
      rw [hperm.count_eq, List.count_cons]
      simp only [beq_iff_eq]
    by_cases hab : a = b
    · subst hab
      rw [if_pos rfl] at hcount
      cases h.whereabouts a with
      | waiting _ hnobody => exact absurd hia (hnobody i)
      | ended _ hnobody _ => exact absurd hia (hnobody i)
      | running k hjobs hk honly =>
        rw [hjobs] at hcount
        refine .waiting hcount fun j hj => ?_
        obtain ⟨hji, hj⟩ := (hnot j a).mp hj
        exact hji ((honly j hj).trans (honly i hia).symm)
    · rw [if_neg fun heq => hab (R.job_inj a b heq), Nat.add_zero] at hcount
      have hib : (parts i).errand? ≠ some b := by
        rw [hia]
        exact fun heq => hab (Option.some.inj heq)
      cases h.whereabouts b with
      | waiting hjobs hnobody =>
        exact .waiting (hcount.trans hjobs) fun j hj => hnobody j ((hnot j b).mp hj).2
      | running k hjobs hk honly =>
        refine .running k (hcount.trans hjobs) ((hnot k b).mpr ⟨?_, hk⟩) fun j hj =>
          honly j ((hnot j b).mp hj).2
        rintro rfl
        exact hib hk
      | ended hjobs hnobody hend =>
        exact .ended (hcount.trans hjobs) (fun j hj => hnobody j ((hnot j b).mp hj).2)
          (hend.imp_left fun hlt => Nat.lt_of_lt_of_le hlt hlost)

/-- An attempt of an errand ends. -/
theorem Underway.settle (h : Underway R c parts) {e : Entry Job} {a : Errand}
    {result : Except Failure Unit} (hi : parts i = .busy e a (.done result))
    {p' : Process Orchestrator Unit} (hstep : Advance o c.toShared (ending e result) w p') :
    ∃ r : Part, r.process = some p' ∧
      Underway R (stepped c i w r) (Function.update parts i r) := by
  have hfits := h.fits i
  rw [hi] at hfits
  obtain ⟨hjob, hdone⟩ := hfits
  obtain ⟨rfl, rfl⟩ := hstep.of_atomic
  rcases Unnoticed.settle_cases e result c.state with ⟨hs, hend⟩ | ⟨due, hnone, heq⟩
  · refine ⟨.aside _, rfl, h.update hs h.sound ?_ (fun j _ => h.fits j) (fun _ => id)
      (.inr ⟨rfl, fun b hb => ?_⟩)⟩
    · have hfailed : ∀ failure, works.failed e.job failure = .done () :=
        fun failure => hjob ▸ R.failed a failure
      cases (works.settle e result c.state).1 with
      | none => trivial
      | some failure =>
        simp only [hfailed]
        exact fun s hs => ⟨Unnoticed.finish s, trivial⟩
    · rw [hi] at hb
      obtain rfl := Option.some.inj hb
      rcases hend with rfl | hlt
      · exact .inr (hdone () rfl)
      · exact .inl (Nat.lt_of_le_of_lt h.lost hlt)
  · refine ⟨.aside (.done ()), ?_, ?_⟩
    · rw [hnone]
      rfl
    · rw [heq]
      exact h.retry hi due

/-- **Every step of a worker keeps what holds.** -/
theorem Underway.advance (hreliable : Reliable site o held covers) (h : Underway R c parts)
    {p p' : Process Orchestrator Unit} (hi : c.workers i = some p)
    (hstep : Advance o c.toShared p w p') :
    ∃ r : Part, r.process = some p' ∧
      Underway R (stepped c i w r) (Function.update parts i r) := by
  have hp : (parts i).process = some p := (h.workers i).symm.trans hi
  cases hpart : parts i with
  | free =>
    rw [hpart] at hp
    cases hp
  | aside q =>
    rw [hpart] at hp
    obtain rfl := Option.some.inj hp
    exact ⟨.aside p', rfl, h.aside hreliable hpart hstep⟩
  | beginning e a =>
    rw [hpart] at hp
    obtain rfl := Option.some.inj hp
    exact h.begin hpart hstep
  | busy e a q =>
    rw [hpart] at hp
    obtain rfl := Option.some.inj hp
    rcases hstep.of_bind with ⟨result, rfl, hending⟩ | ⟨q', hq, rfl⟩
    · exact h.settle hpart hending
    · exact ⟨.busy e a q', rfl, h.go hpart hq⟩

/-- A free worker takes a job. -/
theorem Underway.start (h : Underway R c parts) (hfree : c.workers i = none) {e : Entry Job}
    {rest : Scheduler Job} (hpick : c.state.scheduler.pick? = some (e, rest)) :
    ∃ parts, Underway R
      { c with
        state := { c.state with scheduler := rest }
        workers := Function.update c.workers i (some (works.attempt e)) } parts := by
  have hperm : c.state.jobs.Perm (e.job :: rest.entries.map (·.job)) := by
    have hentries := (Scheduler.pick?_entries hpick).map (·.job)
    rwa [List.map_cons] at hentries
  have hi : (parts i).errand? = none := by
    have hprocess := (h.workers i).symm.trans hfree
    cases hpart : parts i with
    | free => rfl
    | _ =>
      rw [hpart] at hprocess
      cases hprocess
  obtain ⟨r, hprocess, hr, hwho⟩ : ∃ r : Part, r.process = some (works.attempt e) ∧
      r.Fits R c.outside ∧ ∀ a, r.errand? = some a ↔ e.job = R.job a := by
    rcases h.jobs e.job (hperm.mem_iff.mpr List.mem_cons_self) with hspares | ⟨a, ha⟩
    · refine ⟨.aside _, rfl, sparing_attempt site hspares, fun a => ⟨fun heq => ?_, fun heq => ?_⟩⟩
      · cases heq
      · exact absurd (heq ▸ hspares) (R.busy a)
    · refine ⟨.beginning e a, rfl, ha, fun b => ⟨fun heq => ?_, fun heq => ?_⟩⟩
      · exact Option.some.inj heq ▸ ha
      · exact congrArg some (R.job_inj a b (ha.symm.trans heq))
  refine ⟨Function.update parts i r, ⟨h.knows.settings, h.knows.server, h.knows.store⟩, h.store,
    Scheduler.pick?_isFit h.fit hpick, h.unannounced, h.noMail, h.lost, h.sound, ?_,
    fits_update hr fun j _ => h.fits j, fun job hjob => ?_, fun a => ?_⟩
  · rw [← hprocess]
    exact workers_stepped h.workers i c.toShared r
  · exact h.jobs job (hperm.mem_iff.mpr (List.mem_cons_of_mem _ hjob))
  · have hcount : c.state.jobs.count (R.job a) =
        (rest.entries.map (·.job)).count (R.job a) + if e.job = R.job a then 1 else 0 := by
      rw [hperm.count_eq, List.count_cons]
      simp only [beq_iff_eq]
    by_cases hjob : e.job = R.job a
    · rw [if_pos hjob] at hcount
      cases h.whereabouts a with
      | waiting hjobs hnobody =>
        refine .running i (Nat.succ.inj (hcount.symm.trans hjobs)) ?_ fun j hj => ?_
        · rw [errand?_update, if_pos rfl, hwho]
          exact hjob
        · rw [errand?_update] at hj
          split at hj
          · assumption
          · exact absurd hj (hnobody j)
      | running _ hjobs _ _ => cases hjobs.symm.trans hcount
      | ended hjobs _ _ => cases hjobs.symm.trans hcount
    · rw [if_neg hjob, Nat.add_zero] at hcount
      have hsame : ∀ j, (Function.update parts i r j).errand? = some a ↔
          (parts j).errand? = some a := by
        intro j
        rw [errand?_update]
        split
        · rename_i hji
          rw [hji, hi, hwho]
          exact ⟨fun heq => absurd heq hjob, fun heq => by cases heq⟩
        · exact Iff.rfl
      cases h.whereabouts a with
      | waiting hjobs hnobody =>
        exact .waiting (hcount.symm.trans hjobs) fun j hj => hnobody j ((hsame j).mp hj)
      | running k hjobs hk honly =>
        exact .running k (hcount.symm.trans hjobs) ((hsame k).mpr hk)
          fun j hj => honly j ((hsame j).mp hj)
      | ended hjobs hnobody hend =>
        exact .ended (hcount.symm.trans hjobs) (fun j hj => hnobody j ((hsame j).mp hj)) hend

/-- A worker has done its job. -/
theorem Underway.leave (h : Underway R c parts) (hi : c.workers i = some (.done ())) :
    ∃ parts, Underway R { c with workers := Function.update c.workers i none } parts := by
  have hprocess : (parts i).process = some (.done ()) := (h.workers i).symm.trans hi
  have hnone : (parts i).errand? = none := by
    cases hpart : parts i with
    | free => rfl
    | aside _ => rfl
    | beginning e a =>
      rw [hpart, Part.process, attempt_eq] at hprocess
      cases hprocess
    | busy e a q =>
      rw [hpart] at hprocess
      cases q <;> cases hprocess
  exact ⟨_, h.update (w := c.toShared) (r := .free) (.refl _) h.sound trivial
    (fun j _ => h.fits j) (fun _ => id) (.inl hnone.symm)⟩

/-! ## Steps and runs -/

/-- **Every step keeps what holds**, while nobody asks for anything. -/
theorem Underway.step (hreliable : Reliable site o held covers) {d : Config ρ}
    (h : Underway R c parts) (hstep : Step o (fun _ => False) c d) :
    ∃ parts, Underway R d parts := by
  cases hstep with
  | request hasked => exact hasked.elim
  | announce hevents =>
    rw [h.unannounced] at hevents
    simp at hevents
  | hear hmail =>
    rw [h.noMail] at hmail
    cases hmail
  | pass _ =>
    exact ⟨parts, h.unnoticed (.of_scheduler [] (.refl _)
      (fun _ hmem => absurd hmem List.not_mem_nil)
      (fun hfit => ⟨hfit.isOpen, hfit.numbers, hfit.issued⟩) (Nat.le_refl _))⟩
  | arrive hwaits _ =>
    exact ⟨parts, h.unnoticed (.of_scheduler [] (Scheduler.arrive_entries h.fit hwaits)
      (fun _ hmem => absurd hmem List.not_mem_nil) (fun hfit => Scheduler.arrive_isFit hfit hwaits)
      (Nat.le_refl _))⟩
  | start hfree hpick => exact h.start hfree hpick
  | advance hi hadvance =>
    obtain ⟨r, hr, hnext⟩ := h.advance hreliable hi hadvance
    rw [← hr]
    exact ⟨_, hnext⟩
  | leave hi => exact h.leave hi

theorem Underway.run (hreliable : Reliable site o held covers) {d : Config ρ} {n : Nat}
    (h : Underway R c parts) (hrun : Run o (fun _ => False) n c d) :
    ∃ parts, Underway R d parts :=
  @invariant_of_run _ _ _ (fun _ d => ∃ parts, Underway R d parts)
    (fun _ _ _ hinv hs => hinv.elim fun _ hu => hu.step hreliable hs) _ _ _ hrun ⟨parts, h⟩

/-- **When no job is left and none was lost**, both errands have been run. -/
theorem Underway.achieved (h : Underway R c parts) (hidle : c.Idle) (hlost : c.state.lost = R.lost)
    (a : Errand) : R.aim.Achieved a (held c.outside) := by
  obtain ⟨hwaiting, hqueued, hfree⟩ := hidle
  cases h.whereabouts a with
  | waiting hjobs _ =>
    have hnone : c.state.jobs = [] := by
      rw [Orchestrator.jobs, Scheduler.entries, hwaiting, hqueued]
      rfl
    rw [hnone] at hjobs
    cases hjobs
  | running i _ hi _ =>
    have hprocess : (parts i).process = none := (h.workers i).symm.trans (hfree i)
    cases hpart : parts i with
    | free =>
      rw [hpart] at hi
      cases hi
    | _ =>
      rw [hpart] at hprocess
      cases hprocess
  | ended _ _ hend =>
    refine hend.resolve_left fun hlt => ?_
    rw [hlost] at hlt
    exact Nat.lt_irrefl _ hlt

end

end Rampart.Bans
