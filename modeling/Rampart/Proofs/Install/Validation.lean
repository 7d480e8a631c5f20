import Mathlib.Data.ENat.Lattice
import Rampart.Proofs.Install.Pass

/-!
# Validation, pass after pass

A pass that finds something wrong has itself repeated. The orchestrator with the workers that are at
the jobs about one server, while everybody else does whatever leaves that server alone.

* `Scene`, `Step`, `Run`: what the checks of every pass find is given, and steps are taken in any
  order.
* `total`, `available`: how many passes there are to be, and whether inspection is taken to be there
  after some of them.
* `IsSound`: either all passes are over that have begun, or one is under way. **`IsSound.step`** is
  what a step keeps, **`IsSound.run`** what a run does, and **`IsSound.finishes`** says that no run
  is ever stuck.
* **`validation_passes`**: how many passes there are, and what each of them leaves.
-/

namespace Rampart.Validation

open Execution (Advance Answered Outside Shared)

/-! ## Scenes -/

/-- Servers that answer nothing; what checks find is told apart. -/
def silent : Outside Unit where
  answers _ _ _ _ _ := False

/-- The orchestrator with the workers that are at the jobs about a server. -/
structure Scene extends Shared Unit where
  workers : Multiset (Process Orchestrator Unit) := 0
  /-- How many jobs about the server were taken. -/
  passes : ℕ := 0

/-- **One step**, where the checks of every pass find what is `found`. -/
inductive Step (id : UInt64) (found : ℕ → Component → Except Failure String) :
    Scene → Scene → Prop
  /-- Others do something elsewhere, or time passes. -/
  | meanwhile (c : Scene) {w : Shared Unit} (h : Elsewhere id c.state w.state) :
    Step id found c { c with toShared := w }
  /-- A worker takes a job about the server. -/
  | take (c : Scene) {e : Entry Job} {rest : Scheduler Job}
    (h : c.state.scheduler.pick? = some (e, rest)) (he : e.job.concerns id = true) :
    Step id found c
      { c with
        state := { c.state with scheduler := rest }
        workers := Orchestrator.works.attempt e ::ₘ c.workers
        passes := c.passes + 1 }
  /-- A worker gets the answers to the commands that check the components. -/
  | check (c : Scene) {rest : Multiset (Process Orchestrator Unit)}
    {calls : List (Server × Remote.Call)}
    {next : List (Except Failure String) → Process Orchestrator Unit}
    (hworkers : c.workers = .callAll calls next ::ₘ rest)
    (hcalls : calls.map (·.2) = (view id c.state).commands) :
    Step id found c
      { c with workers := next ((view id c.state).checked.map (found (c.passes - 1))) ::ₘ rest }
  /-- A worker goes on. -/
  | goOn (c : Scene) {rest : Multiset (Process Orchestrator Unit)}
    {p p' : Process Orchestrator Unit} {w : Shared Unit} (hworkers : c.workers = p ::ₘ rest)
    (h : Advance silent c.toShared p w p') :
    Step id found c { c with toShared := w, workers := p' ::ₘ rest }
  /-- A worker has done its job. -/
  | leave (c : Scene) {rest : Multiset (Process Orchestrator Unit)}
    (hworkers : c.workers = .done () ::ₘ rest) : Step id found c { c with workers := rest }

/-- Steps lead from one scene to another. -/
inductive Run (id : UInt64) (found : ℕ → Component → Except Failure String) :
    Scene → Scene → Prop
  | refl (c : Scene) : Run id found c c
  | tail {c d e : Scene} (h : Run id found c d) (hs : Step id found d e) : Run id found c e

namespace Scene

/-- A pass is dispatched, and nobody has taken it yet. -/
def start (id : UInt64) (s : Orchestrator) (queue : Queue) (delay : UInt64) (retry : RetryPolicy) :
    Scene where
  state := s.dispatch (.validate id 0) queue delay retry
  held := []
  outside := ()

/-- Nothing is left to be done about the server. -/
def IsOver (id : UInt64) (c : Scene) : Prop :=
  (∀ e ∈ c.state.scheduler.entries, e.job.concerns id = false) ∧ c.workers = 0

/-- No pass is under way: the next one is still with the scheduler, or nobody works. -/
def IsBetween (id : UInt64) (c : Scene) : Prop :=
  (∃ e ∈ c.state.scheduler.entries, e.job.concerns id = true) ∨ c.workers = 0

end Scene

section

variable {id : UInt64} {found : ℕ → Component → Except Failure String} {c d e : Scene}

theorem Run.single (h : Step id found c d) : Run id found c d :=
  .tail (.refl c) h

theorem Run.trans (h : Run id found c d) (hs : Run id found d e) : Run id found c e := by
  induction hs with
  | refl => exact h
  | tail _ hs ih => exact .tail ih hs

theorem jobs_eq_zero_iff {s : Orchestrator} :
    (view id s).jobs = 0 ↔ ∀ e ∈ s.scheduler.entries, e.job.concerns id = false := by
  rw [view, Multiset.coe_eq_zero, List.filter_eq_nil_iff]
  simp only [Bool.not_eq_true]

theorem jobs_ne_zero_iff {s : Orchestrator} :
    (view id s).jobs ≠ 0 ↔ ∃ e ∈ s.scheduler.entries, e.job.concerns id = true := by
  simp only [Ne, jobs_eq_zero_iff, not_forall, exists_prop, Bool.not_eq_false]

end

/-! ## How many passes there are -/

/-- **The number of passes before the first one that finds all components healthy**, without bound
if there is none. -/
noncomputable def untilHealthy (health : ℕ → Component → Health) : ℕ∞ :=
  ⨅ (n : ℕ) (_ : IsHealthy (health n)), (n : ℕ∞)

/-- **The number of passes**, if they are repeated until all components are healthy or the limit is
reached. -/
noncomputable def total (limit : ℕ) (health : ℕ → Component → Health) : ℕ∞ :=
  min (limit : ℕ∞) (untilHealthy health) + 1

/-- Whether inspection is taken to be there after so many passes: as before, as long as the engine
is found healthy. -/
def available (health : ℕ → Component → Health) (before : Bool) : ℕ → Bool
  | 0 => before
  | n + 1 => if (health n .engine).healthy then available health before n else false

/-- The pass of a number takes place: all before it found something wrong, and the limit allows. -/
def IsDue (limit : ℕ) (health : ℕ → Component → Health) (n : ℕ) : Prop :=
  n ≤ limit ∧ ∀ k < n, ¬ IsHealthy (health k)

theorem isDue_iff {limit n : ℕ} {health : ℕ → Component → Health} :
    IsDue limit health n ↔ (n : ℕ∞) ≤ min (limit : ℕ∞) (untilHealthy health) := by
  rw [IsDue, le_min_iff, Nat.cast_le, untilHealthy, le_iInf₂_iff]
  refine and_congr_right fun _ => ?_
  simp only [Nat.cast_le]
  exact ⟨fun h k hk => Nat.le_of_not_lt fun hlt => h k hlt hk,
    fun h k hlt hk => absurd (h k hk) (Nat.not_le.mpr hlt)⟩

theorem isDue_zero {limit : ℕ} {health : ℕ → Component → Health} : IsDue limit health 0 :=
  ⟨Nat.zero_le _, fun _ h => absurd h (Nat.not_lt_zero _)⟩

theorem isDue_succ_iff {limit n : ℕ} {health : ℕ → Component → Health}
    (h : IsDue limit health n) :
    IsDue limit health (n + 1) ↔ n < limit ∧ ¬ IsHealthy (health n) := by
  refine and_congr Iff.rfl ⟨fun hall => hall n (Nat.lt_succ_self n), fun hn k hk => ?_⟩
  rcases Nat.lt_succ_iff_lt_or_eq.mp hk with hk | rfl
  · exact h.2 k hk
  · exact hn

/-- The passes that take place are counted. -/
theorem eq_total {limit n : ℕ} {health : ℕ → Component → Health}
    (hall : ∀ k < n, IsDue limit health k) (hend : ¬ IsDue limit health n) :
    (n : ℕ∞) = total limit health := by
  obtain ⟨last, hlast⟩ := ENat.ne_top_iff_exists.mp
    (ne_top_of_le_ne_top (ENat.natCast_ne_top limit) (min_le_left _ (untilHealthy health)))
  simp only [isDue_iff, ← hlast, Nat.cast_le] at hall hend
  rw [total, ← hlast]
  have hn : n = last + 1 := by
    refine Nat.le_antisymm (Nat.le_of_not_lt fun hlt => ?_) (Nat.not_le.mp hend)
    exact absurd (hall (last + 1) hlt) (Nat.not_succ_le_self last)
  rw [hn]
  rfl

/-! ## What is true all along -/

section

variable (id : UInt64) (found : ℕ → Component → Except Failure String) (origin : View)
  (first : Server)

/-- The health of the components in a pass. -/
def healthIn (n : ℕ) : Component → Health :=
  origin.health (found n)

/-- How many rounds may follow the first one. -/
def limit : ℕ :=
  origin.settings.bootstrap.maxRevalidations.toNat

/-- The record of the server after so many passes. -/
def IsReported : ℕ → Server → Prop
  | 0, server => server = first
  | n + 1, server => Reports (healthIn found origin n)
    (available (healthIn found origin) first.status.appsecAvailable n) server

/-- **What the passes have made of the view when a number of them is over**: the next one is with
the scheduler if it is due. -/
structure Settled (n : ℕ) (v : View) : Prop where
  settings : v.settings = origin.settings
  installable : v.installable = origin.installable
  server : ∃ server, v.server = some server ∧ IsReported found origin first n server
  due : IsDue (limit origin) (healthIn found origin) n →
    ∃ e round, v.jobs = {e} ∧ e.job = .validate id round ∧ round.toNat = n
  ended : ¬ IsDue (limit origin) (healthIn found origin) n → v.jobs = 0

/-- No pass is under way. -/
structure Resting (c : Scene) : Prop where
  settled : Settled id found origin first c.passes (view id c.state)
  trailing : ∀ p ∈ c.workers, Trails id p

/-- A pass is under way at `q`, beside workers that are `others`. -/
structure Busy (c : Scene) (n : ℕ) (q : Process Orchestrator (Entry Job × Except Failure Unit))
    (others : Multiset (Process Orchestrator Unit)) : Prop where
  passes : c.passes = n + 1
  workers : c.workers = q.bind conclude ::ₘ others
  trailing : ∀ p ∈ others, Trails id p
  ends : Ends id (found n) (fun x v => x.2 = .ok () ∧ Settled id found origin first (n + 1) v) q
    (view id c.state)

/-- **What is true all along.** -/
structure IsSound (c : Scene) : Prop where
  fit : c.state.scheduler.IsFit
  due : ∀ n < c.passes, IsDue (limit origin) (healthIn found origin) n
  phase : Resting id found origin first c ∨ ∃ n q others, (∀ x, q ≠ .done x) ∧
    Busy id found origin first c n q others

end

section

variable {id : UInt64} {found : ℕ → Component → Except Failure String} {origin : View}
  {first : Server} {c d : Scene}

theorem IsReported.appsec {n : ℕ} {server : Server} (h : IsReported found origin first n server) :
    server.status.appsecAvailable =
      available (healthIn found origin) first.status.appsecAvailable n := by
  cases n with
  | zero => rw [h]; rfl
  | succ n => exact Reports.appsec h

/-- **What a pass leaves** is what it has to be. -/
theorem settled_of_leaves {n : ℕ} {round : UInt32} {v w : View} {server : Server}
    (hdue : IsDue (limit origin) (healthIn found origin) n) (hround : round.toNat = n)
    (hsettings : v.settings = origin.settings) (hinstallable : v.installable = origin.installable)
    (hserver : IsReported found origin first n server)
    (h : Leaves id (found n) round v server w) : Settled id found origin first (n + 1) w := by
  subst hround
  have hhealth : v.health (found round.toNat) = healthIn found origin round.toNat := by
    funext component
    simp only [healthIn, View.health, View.installer, hsettings, hinstallable]
  have hlimit : v.settings.bootstrap.maxRevalidations.toNat = limit origin := by
    rw [hsettings]
    rfl
  refine ⟨h.settings.trans hsettings, h.installable.trans hinstallable, ?_, fun hnext => ?_,
    fun hnext => h.last ?_⟩
  · obtain ⟨reported, hreported, hreports⟩ := h.server
    rw [hhealth, hserver.appsec] at hreports
    exact ⟨reported, hreported, hreports⟩
  · obtain ⟨hlt, hunhealthy⟩ := (isDue_succ_iff hdue).mp hnext
    rw [← hhealth] at hunhealthy
    rw [← hlimit] at hlt
    refine ⟨again id round, round + 1, h.repeated hunhealthy (UInt32.lt_iff_toNat_lt.mpr hlt), rfl,
      ?_⟩
    have hbound := v.settings.bootstrap.maxRevalidations.toNat_lt
    rw [UInt32.toNat_add]
    change (round.toNat + 1) % 4294967296 = _
    omega
  · rw [isDue_succ_iff hdue, not_and_or, not_not, ← hhealth, ← hlimit, Nat.not_lt] at hnext
    exact hnext.symm.imp_right UInt32.le_iff_toNat_le.mpr

/-- **A pass that is taken** ends as it has to. -/
theorem Settled.ends_work {n : ℕ} {v : View} {e : Entry Job} {round : UInt32}
    (h : Settled id found origin first n v)
    (hdue : IsDue (limit origin) (healthIn found origin) n) (he : e.job = .validate id round)
    (hround : round.toNat = n) :
    Ends id (found n) (fun x w => x.2 = .ok () ∧ Settled id found origin first (n + 1) w) (work e)
      { v with jobs := 0 } := by
  obtain ⟨server, hserver, hreported⟩ := h.server
  refine (Validation.ends_work (v := { v with jobs := 0 }) he hserver rfl).mono fun x w hx =>
    ⟨hx.1, ?_⟩
  exact settled_of_leaves (v := { v with jobs := 0 }) hdue hround h.settings h.installable
    hreported hx.2

/-- A pass that has come to its end is over. -/
theorem Busy.resting {n : ℕ} {x : Entry Job × Except Failure Unit}
    {others : Multiset (Process Orchestrator Unit)}
    (h : Busy id found origin first c n (.done x) others) : Resting id found origin first c := by
  obtain ⟨e, result⟩ := x
  obtain ⟨rfl, hsettled⟩ := h.ends
  refine ⟨h.passes ▸ hsettled, fun p hp => ?_⟩
  rw [h.workers, Multiset.mem_cons] at hp
  rcases hp with rfl | hp
  · exact trails_conclude e
  · exact h.trailing p hp

/-- A pass is under way or over. -/
theorem Busy.phase {n : ℕ} {q : Process Orchestrator (Entry Job × Except Failure Unit)}
    {others : Multiset (Process Orchestrator Unit)}
    (h : Busy id found origin first c n q others) :
    Resting id found origin first c ∨ ∃ n q others, (∀ x, q ≠ .done x) ∧
      Busy id found origin first c n q others := by
  by_cases hdone : ∃ x, q = .done x
  · obtain ⟨x, rfl⟩ := hdone
    exact .inl h.resting
  · exact .inr ⟨n, q, others, fun x hx => hdone ⟨x, hx⟩, h⟩

/-! ### Steps -/

/-- A step of a worker that only trails. -/
theorem Trails.of_advance {w w' : Shared Unit} {p p' : Process Orchestrator Unit}
    (h : Trails id p) (hstep : Advance silent w p w' p') :
    Elsewhere id w.state w'.state ∧ Trails id p' := by
  cases h with
  | done => cases hstep
  | atomic hchange hnext =>
    obtain ⟨rfl, rfl⟩ := hstep.of_atomic
    exact ⟨hchange w.state, hnext w.state⟩

/-- A step of a pass. -/
theorem Ends.of_advance {α : Type} {found : Component → Except Failure String}
    {post : α → View → Prop} {w w' : Shared Unit} {p p' : Process Orchestrator α}
    (h : Ends id found post p (view id w.state)) (hfit : w.state.scheduler.IsFit)
    (hstep : Advance silent w p w' p') :
    w'.state.scheduler.IsFit ∧ Ends id found post p' (view id w'.state) := by
  cases hstep with
  | atomic update next => exact h.2 w.state hfit rfl
  | call next ha => exact ha.elim
  | @callAll calls next answers after ha =>
    cases ha with
    | nil =>
      -- No call, so there is no component that is checked.
      obtain ⟨-, hcalls, hnext⟩ := h
      have hnone : (view id w.state).checked = [] := List.map_eq_nil_iff.mp hcalls.symm
      rw [hnone] at hnext
      exact ⟨hfit, hnext⟩
    | cons ha _ => exact ha.elim
  | clock next time => exact ⟨hfit, h.2 time⟩
  | tell notice next answer => exact h.elim
  | fresh next hname => exact h.elim
  | wait seconds next => exact h.elim
  | acquire next hfree => exact h.elim
  | release lock next => exact h.elim

/-- Until a pass has come to its end, the scheduler holds no job about the server. -/
theorem Ends.jobs_eq_zero {α : Type} {found : Component → Except Failure String}
    {post : α → View → Prop} {p : Process Orchestrator α} {v : View} (h : Ends id found post p v)
    (hdone : ∀ a, p ≠ .done a) : v.jobs = 0 := by
  cases p with
  | done a => exact absurd rfl (hdone a)
  | atomic update next => exact h.1
  | callAll calls next => exact h.1
  | clock next => exact h.1
  | _ => exact h.elim

/-- A worker is at the pass that is under way, or it trails. -/
theorem Busy.worker {n : ℕ} {q : Process Orchestrator (Entry Job × Except Failure Unit)}
    {others rest : Multiset (Process Orchestrator Unit)} {p : Process Orchestrator Unit}
    (h : Busy id found origin first c n q others) (hp : c.workers = p ::ₘ rest) :
    (p = q.bind conclude ∧ rest = others) ∨
      (Trails id p ∧ ∃ behind, rest = q.bind conclude ::ₘ behind ∧ ∀ p ∈ behind, Trails id p) := by
  rcases Multiset.cons_eq_cons.mp (hp.symm.trans h.workers) with
    ⟨hp, hrest⟩ | ⟨-, behind, hrest, hothers⟩
  · exact .inl ⟨hp, hrest⟩
  · have htrailing := h.trailing
    rw [hothers] at htrailing
    obtain ⟨hp, hbehind⟩ := Multiset.forall_mem_cons.mp htrailing
    exact .inr ⟨hp, behind, hrest, hbehind⟩

/-- A worker takes a pass that is due. -/
theorem Resting.take {e : Entry Job} {rest : Scheduler Job}
    (h : Resting id found origin first c)
    (hpick : c.state.scheduler.pick? = some (e, rest)) (he : e.job.concerns id = true) :
    IsDue (limit origin) (healthIn found origin) c.passes ∧
      Busy id found origin first
        { c with
          state := { c.state with scheduler := rest }
          workers := Orchestrator.works.attempt e ::ₘ c.workers
          passes := c.passes + 1 }
        c.passes (work e) c.workers := by
  have hjobs := jobs_of_pick? id hpick
  rw [if_pos he] at hjobs
  have hdue : IsDue (limit origin) (healthIn found origin) c.passes := by
    by_contra hnot
    rw [h.settled.ended hnot] at hjobs
    exact Multiset.zero_ne_cons hjobs
  obtain ⟨e', round, hsole, hjob, hround⟩ := h.settled.due hdue
  obtain ⟨rfl, hnone⟩ := (Multiset.singleton_eq_cons_iff _).mp (hsole.symm.trans hjobs)
  have hview : view id { c.state with scheduler := rest } = { view id c.state with jobs := 0 } :=
    View.mk.injEq .. |>.mpr ⟨rfl, rfl, rfl, hnone⟩
  refine ⟨hdue, rfl, congrArg (· ::ₘ c.workers) (attempt_eq e'), h.trailing, ?_⟩
  rw [hview]
  exact h.settled.ends_work hdue hjob hround

/-- Others do something elsewhere. -/
theorem IsSound.meanwhile (h : IsSound id found origin first c) {w : Shared Unit}
    (helse : Elsewhere id c.state w.state) :
    IsSound id found origin first { c with toShared := w } := by
  obtain ⟨hfit, hview⟩ := helse h.fit
  refine ⟨hfit, h.due, h.phase.imp (fun hrest => ?_) ?_⟩
  · exact ⟨hview ▸ hrest.settled, hrest.trailing⟩
  · rintro ⟨n, q, others, hq, hbusy⟩
    exact ⟨n, q, others, hq, hbusy.passes, hbusy.workers, hbusy.trailing, hview ▸ hbusy.ends⟩

/-- A worker takes a job about the server. -/
theorem IsSound.take (h : IsSound id found origin first c) {e : Entry Job} {rest : Scheduler Job}
    (hpick : c.state.scheduler.pick? = some (e, rest)) (he : e.job.concerns id = true) :
    IsSound id found origin first
      { c with
        state := { c.state with scheduler := rest }
        workers := Orchestrator.works.attempt e ::ₘ c.workers
        passes := c.passes + 1 } := by
  rcases h.phase with hrest | ⟨n, q, others, hq, hbusy⟩
  · obtain ⟨hnow, hbusy⟩ := hrest.take hpick he
    refine ⟨Scheduler.pick?_isFit h.fit hpick, fun n hn => ?_, hbusy.phase⟩
    rcases Nat.lt_succ_iff_lt_or_eq.mp hn with hn | rfl
    · exact h.due n hn
    · exact hnow
  · have hjobs := jobs_of_pick? id hpick
    rw [if_pos he, hbusy.ends.jobs_eq_zero hq] at hjobs
    exact absurd hjobs Multiset.zero_ne_cons

/-- A worker gets what the checks find. -/
theorem IsSound.check (h : IsSound id found origin first c)
    {rest : Multiset (Process Orchestrator Unit)} {calls : List (Server × Remote.Call)}
    {next : List (Except Failure String) → Process Orchestrator Unit}
    (hworkers : c.workers = .callAll calls next ::ₘ rest) :
    IsSound id found origin first
      { c with
        workers := next ((view id c.state).checked.map (found (c.passes - 1))) ::ₘ rest } := by
  rcases h.phase with hrest | ⟨n, q, others, hq, hbusy⟩
  · cases hrest.trailing _ (hworkers ▸ Multiset.mem_cons_self _ _)
  · rcases hbusy.worker hworkers with ⟨hp, rfl⟩ | ⟨htrails, -⟩
    · cases q with
      | callAll calls' next' =>
        cases hp
        have hpass : c.passes - 1 = n := by rw [hbusy.passes, Nat.add_sub_cancel]
        rw [hpass]
        exact ⟨h.fit, h.due, Busy.phase ⟨hbusy.passes, rfl, hbusy.trailing, hbusy.ends.2.2⟩⟩
      | done x => exact absurd rfl (hq x)
      | _ => cases hp
    · cases htrails

/-- A worker goes on. -/
theorem IsSound.goOn (h : IsSound id found origin first c)
    {rest : Multiset (Process Orchestrator Unit)} {p p' : Process Orchestrator Unit}
    {w : Shared Unit} (hworkers : c.workers = p ::ₘ rest)
    (hadvance : Advance silent c.toShared p w p') :
    IsSound id found origin first { c with toShared := w, workers := p' ::ₘ rest } := by
  rcases h.phase with hrest | ⟨n, q, others, hq, hbusy⟩
  · have htrailing := hrest.trailing
    rw [hworkers] at htrailing
    obtain ⟨hp, hothers⟩ := Multiset.forall_mem_cons.mp htrailing
    obtain ⟨helse, hp'⟩ := hp.of_advance hadvance
    obtain ⟨hfit, hview⟩ := helse h.fit
    refine ⟨hfit, h.due, .inl ⟨hview ▸ hrest.settled, ?_⟩⟩
    exact Multiset.forall_mem_cons.mpr ⟨hp', hothers⟩
  · -- The worker is at the pass, or has still to note the end of an earlier one.
    rcases hbusy.worker hworkers with ⟨rfl, rfl⟩ | ⟨hp, behind, rfl, hbehind⟩
    · obtain ⟨x, hdone, -⟩ | ⟨q', hstep, rfl⟩ := hadvance.of_bind
      · exact absurd hdone (hq x)
      · obtain ⟨hfit, hends⟩ := hbusy.ends.of_advance h.fit hstep
        exact ⟨hfit, h.due, Busy.phase ⟨hbusy.passes, rfl, hbusy.trailing, hends⟩⟩
    · obtain ⟨helse, hp'⟩ := hp.of_advance hadvance
      obtain ⟨hfit, hview⟩ := helse h.fit
      refine ⟨hfit, h.due, .inr ⟨n, q, p' ::ₘ behind, hq, hbusy.passes, ?_, ?_,
        hview ▸ hbusy.ends⟩⟩
      · exact Multiset.cons_swap _ _ _
      · exact Multiset.forall_mem_cons.mpr ⟨hp', hbehind⟩

/-- A worker has done its job; it was not at a pass that is under way. -/
theorem IsSound.leave (h : IsSound id found origin first c)
    {rest : Multiset (Process Orchestrator Unit)} (hworkers : c.workers = .done () ::ₘ rest) :
    IsSound id found origin first { c with workers := rest } := by
  rcases h.phase with hrest | ⟨n, q, others, hq, hbusy⟩
  · refine ⟨h.fit, h.due, .inl ⟨hrest.settled, fun p hp => hrest.trailing p ?_⟩⟩
    exact hworkers ▸ Multiset.mem_cons_of_mem hp
  · rcases hbusy.worker hworkers with ⟨hp, rfl⟩ | ⟨-, behind, rfl, hbehind⟩
    · cases q with
      | done x => exact absurd rfl (hq x)
      | _ => cases hp
    · exact ⟨h.fit, h.due, .inr ⟨n, q, behind, hq, hbusy.passes, rfl, hbehind, hbusy.ends⟩⟩

/-- **What a step keeps.** -/
theorem IsSound.step (h : IsSound id found origin first c) (hs : Step id found c d) :
    IsSound id found origin first d := by
  cases hs with
  | meanwhile helse => exact h.meanwhile helse
  | take hpick he => exact h.take hpick he
  | check hworkers _ => exact h.check hworkers
  | goOn hworkers hadvance => exact h.goOn hworkers hadvance
  | leave hworkers => exact h.leave hworkers

/-- **What a run keeps.** -/
theorem IsSound.run (h : IsSound id found origin first c) (hrun : Run id found c d) :
    IsSound id found origin first d := by
  induction hrun with
  | refl => exact h
  | tail _ hs ih => exact ih.step hs

/-! ### The end -/

/-- A process that makes something of the view comes to its end. -/
theorem Ends.completes {α : Type} {n : ℕ} {post : α → View → Prop} {p : Process Orchestrator α}
    {f : α → Process Orchestrator Unit} {others : Multiset (Process Orchestrator Unit)} {c : Scene}
    (h : Ends id (found n) post p (view id c.state)) (hfit : c.state.scheduler.IsFit)
    (hpasses : c.passes = n + 1) (hworkers : c.workers = p.bind f ::ₘ others) :
    ∃ d a, Run id found c d ∧ d.passes = c.passes ∧ d.workers = f a ::ₘ others ∧
      post a (view id d.state) := by
  induction p generalizing c with
  | done a => exact ⟨c, a, .refl c, rfl, hworkers, h⟩
  | atomic update next ih =>
    obtain ⟨hfit', hnext⟩ := h.2 c.state hfit rfl
    have hstep : Step id found c _ := .goOn c hworkers (.atomic c.toShared update _)
    obtain ⟨d, a, hrun, hd⟩ := ih c.state (c := { c with state := _, workers := _ }) hnext hfit'
      hpasses rfl
    exact ⟨d, a, (Run.single hstep).trans hrun, hd⟩
  | callAll calls next ih =>
    have hstep : Step id found c _ := .check c hworkers h.2.1
    have hpass : c.passes - 1 = n := by rw [hpasses, Nat.add_sub_cancel]
    rw [hpass] at hstep
    obtain ⟨d, a, hrun, hd⟩ := ih ((view id c.state).checked.map (found n))
      (c := { c with workers := (next _).bind f ::ₘ others }) h.2.2 hfit hpasses rfl
    exact ⟨d, a, (Run.single hstep).trans hrun, hd⟩
  | clock next ih =>
    have hstep : Step id found c _ := .goOn c hworkers (.clock c.toShared _ default)
    obtain ⟨d, a, hrun, hd⟩ := ih default
      (c := { c with workers := (next default).bind f ::ₘ others }) (h.2 default) hfit hpasses rfl
    exact ⟨d, a, (Run.single hstep).trans hrun, hd⟩
  | _ => exact h.elim

/-- A worker that only trails can leave. -/
theorem Trails.leaves (found : ℕ → Component → Except Failure String)
    {p : Process Orchestrator Unit}
    {others : Multiset (Process Orchestrator Unit)} {c : Scene} (h : Trails id p)
    (hworkers : c.workers = p ::ₘ others) :
    ∃ d, Run id found c d ∧ d.passes = c.passes ∧ d.workers = others := by
  induction h generalizing c with
  | done => exact ⟨_, .single (.leave c hworkers), rfl, rfl⟩
  | @atomic update next hchange hnext ih =>
    have hstep : Step id found c _ := .goOn c hworkers (.atomic c.toShared update next)
    obtain ⟨d, hrun, hd⟩ := ih c.state (c := { c with state := _, workers := _ }) rfl
    exact ⟨d, (Run.single hstep).trans hrun, hd⟩

/-- Workers that only trail can leave. -/
theorem exists_run_leave (found : ℕ → Component → Except Failure String) {c : Scene}
    (h : ∀ p ∈ c.workers, Trails id p) :
    ∃ d, Run id found c d ∧ d.passes = c.passes ∧ d.workers = 0 := by
  obtain ⟨workers, hworkers⟩ : ∃ workers, c.workers = workers := ⟨_, rfl⟩
  induction workers using Multiset.induction_on generalizing c with
  | empty => exact ⟨c, .refl c, rfl, hworkers⟩
  | cons p others ih =>
    rw [hworkers] at h
    obtain ⟨hp, hothers⟩ := Multiset.forall_mem_cons.mp h
    obtain ⟨d, hrun, hpasses, rfl⟩ := hp.leaves found hworkers
    obtain ⟨e, hrun', hpasses', hnone⟩ := ih hothers rfl
    exact ⟨e, hrun.trans hrun', hpasses'.trans hpasses, hnone⟩

/-- How much the scheduler has to do; to queue up is half of it. -/
def load (s : Orchestrator) : ℕ :=
  2 * s.scheduler.waiting.length + s.scheduler.queued.length

/-- A job about the server is the next one to be taken, or there is less to do after something
elsewhere: a job arrives, or others take one. -/
theorem exists_pick?_or_elsewhere {s : Orchestrator} (hfit : s.scheduler.IsFit)
    (h : ∃ e ∈ s.scheduler.entries, e.job.concerns id = true) :
    (∃ e rest, s.scheduler.pick? = some (e, rest) ∧ e.job.concerns id = true) ∨
      ∃ t, Elsewhere id s t ∧ load t < load s := by
  obtain ⟨e, hmem, -⟩ := h
  by_cases hwaiting : ∃ w, w ∈ s.scheduler.waiting
  · obtain ⟨w, hw⟩ := hwaiting
    refine .inr ⟨_, .arrive hw, ?_⟩
    have hlength := (Scheduler.perm_cons_filter_number hfit.numbers hw).length_eq
    rw [load, load, Scheduler.arrive_eq hfit hw]
    simp only [List.length_cons, List.length_append, List.length_nil] at hlength ⊢
    omega
  · have hqueued : e ∈ s.scheduler.queued := by
      rcases List.mem_append.mp hmem with hmem | hmem
      · obtain ⟨w, hw, -⟩ := List.mem_map.mp hmem
        exact absurd ⟨w, hw⟩ hwaiting
      · exact hmem
    obtain ⟨next, rest, hpick⟩ := Scheduler.exists_pick? hqueued
    cases hnext : next.job.concerns id with
    | true => exact .inl ⟨next, rest, hpick, hnext⟩
    | false =>
      refine .inr ⟨_, .take hpick hnext, ?_⟩
      have hsame := Scheduler.waiting_of_pick? hpick
      have hlength := (Scheduler.pick?_entries hpick).length_eq
      simp only [load, Scheduler.entries, hsame, List.length_append, List.length_map,
        List.length_cons] at hlength ⊢
      omega

/-- **A job about the server that the scheduler holds is taken** some time. -/
theorem exists_run_take {c : Scene} (hfit : c.state.scheduler.IsFit)
    (h : ∃ e ∈ c.state.scheduler.entries, e.job.concerns id = true) :
    ∃ d, Run id found c d ∧ d.passes = c.passes + 1 := by
  obtain ⟨size, hsize⟩ : ∃ size, load c.state = size := ⟨_, rfl⟩
  induction size using Nat.strong_induction_on generalizing c with
  | _ size ih =>
    rcases exists_pick?_or_elsewhere hfit h with ⟨e, rest, hpick, he⟩ | ⟨s, helse, hless⟩
    · exact ⟨_, .single (.take c hpick he), rfl⟩
    · -- Whatever is done elsewhere leaves the job with the scheduler.
      obtain ⟨hfit', hview⟩ := helse hfit
      have hjobs := jobs_ne_zero_iff.mpr h
      rw [← hview, jobs_ne_zero_iff] at hjobs
      obtain ⟨d, hrun, hpasses⟩ := ih _ (hsize ▸ hless) (c := { c with state := s }) hfit' hjobs rfl
      have hstep : Step id found c { c with state := s } := .meanwhile c helse
      exact ⟨d, (Run.single hstep).trans hrun, hpasses⟩

/-- If nobody works, no pass is under way. -/
theorem IsSound.resting (h : IsSound id found origin first c) (hworkers : c.workers = 0) :
    Resting id found origin first c := by
  rcases h.phase with hrest | ⟨n, q, others, -, hbusy⟩
  · exact hrest
  · exact absurd (hworkers.symm.trans hbusy.workers) Multiset.zero_ne_cons

/-- The pass that is under way comes to its end, and everybody leaves. -/
theorem IsSound.exists_run_rest (h : IsSound id found origin first c) :
    ∃ d, Run id found c d ∧ d.passes = c.passes ∧ d.workers = 0 := by
  rcases h.phase with hrest | ⟨n, q, others, -, hbusy⟩
  · exact exists_run_leave found hrest.trailing
  · obtain ⟨d, ⟨e, result⟩, hrun, hpasses, hworkers, rfl, -⟩ :=
      hbusy.ends.completes h.fit hbusy.passes hbusy.workers
    have htrailing : ∀ p ∈ d.workers, Trails id p := by
      rw [hworkers]
      exact Multiset.forall_mem_cons.mpr ⟨trails_conclude e, hbusy.trailing⟩
    obtain ⟨d', hrun', hpasses', hnone⟩ := exists_run_leave found htrailing
    exact ⟨d', hrun.trans hrun', hpasses'.trans hpasses, hnone⟩

/-- **No run is stuck**: there is always one that goes on until nothing is left to be done. -/
theorem IsSound.finishes {c : Scene} (h : IsSound id found origin first c) :
    ∃ d, Run id found c d ∧ d.IsOver id := by
  obtain ⟨left, hleft⟩ : ∃ left, limit origin + 1 - c.passes = left := ⟨_, rfl⟩
  induction left using Nat.strong_induction_on generalizing c with
  | _ left ih =>
    obtain ⟨d, hrun, hpasses, hworkers⟩ := h.exists_run_rest
    have hd := h.run hrun
    have hrest := hd.resting hworkers
    by_cases hdue : IsDue (limit origin) (healthIn found origin) d.passes
    · obtain ⟨e, round, hjobs, hjob, -⟩ := hrest.settled.due hdue
      have hsome : ∃ e ∈ d.state.scheduler.entries, e.job.concerns id = true := by
        rw [← jobs_ne_zero_iff, hjobs]
        exact Multiset.singleton_ne_zero e
      obtain ⟨next, hnext, hmore⟩ := exists_run_take hd.fit hsome
      have hlt : limit origin + 1 - next.passes < left := by
        have hle := hdue.1
        omega
      obtain ⟨last, hlast, hover⟩ := ih _ hlt (hd.run hnext) rfl
      exact ⟨last, (hrun.trans hnext).trans hlast, hover⟩
    · exact ⟨d, hrun, jobs_eq_zero_iff.mp (hrest.settled.ended hdue), hworkers⟩

/-- **What is true at the start.** -/
theorem isSound_start (found : ℕ → Component → Except Failure String) {s : Orchestrator}
    {server : Server} (hserver : s.registry.get? id = some server) (hfit : s.scheduler.IsFit)
    (hjobs : ∀ e ∈ s.scheduler.entries, e.job.concerns id = false) (queue : Queue) (delay : UInt64)
    (retry : RetryPolicy) :
    IsSound id found (view id s) server (.start id s queue delay retry) := by
  have hview : view id (Scene.start id s queue delay retry).state =
      { view id s with jobs := {⟨.validate id 0, queue, retry, 0, none⟩} } := by
    rw [Scene.start, view_dispatch s (.validate id 0) _ _ _ (beq_self_eq_true id),
      jobs_eq_zero_iff.mpr hjobs]
    rfl
  refine ⟨Scheduler.dispatch_isFit hfit _ _, fun n hn => absurd hn (Nat.not_lt_zero n),
    .inl ⟨?_, ?_⟩⟩
  · rw [hview]
    refine ⟨rfl, rfl, ⟨server, hserver, rfl⟩, fun _ => ⟨_, 0, rfl, rfl, rfl⟩, fun hnot => ?_⟩
    exact absurd isDue_zero hnot
  · exact fun p hp => absurd hp (Multiset.notMem_zero p)

/-! ## The passes -/

/-- Between two passes, none is under way. -/
theorem IsSound.resting_of_isBetween (h : IsSound id found origin first c)
    (hbetween : c.IsBetween id) : Resting id found origin first c := by
  rcases hbetween with hjobs | hworkers
  · rcases h.phase with hrest | ⟨n, q, others, hq, hbusy⟩
    · exact hrest
    · exact absurd (hbusy.ends.jobs_eq_zero hq) (jobs_ne_zero_iff.mpr hjobs)
  · exact h.resting hworkers

/-- The jobs about the server are passes. -/
theorem IsSound.entry (h : IsSound id found origin first c) {e : Entry Job}
    (he : e ∈ c.state.scheduler.entries) (hconcerns : e.job.concerns id = true) :
    ∃ round, e.job = .validate id round ∧ round.toNat = c.passes := by
  have hrest := h.resting_of_isBetween (.inl ⟨e, he, hconcerns⟩)
  have hmem : e ∈ (view id c.state).jobs := List.mem_filter.mpr ⟨he, hconcerns⟩
  by_cases hdue : IsDue (limit origin) (healthIn found origin) c.passes
  · obtain ⟨d, round, hjobs, hjob, hround⟩ := hrest.settled.due hdue
    rw [hjobs, Multiset.mem_singleton] at hmem
    exact ⟨round, hmem ▸ hjob, hround⟩
  · rw [hrest.settled.ended hdue] at hmem
    exact absurd hmem (Multiset.notMem_zero e)

theorem IsSound.passes_le (h : IsSound id found origin first c) :
    (c.passes : ℕ∞) ≤ total (limit origin) (healthIn found origin) := by
  cases hpasses : c.passes with
  | zero => exact zero_le
  | succ n =>
    have hdue := h.due n (hpasses ▸ Nat.lt_succ_self n)
    rw [total, Nat.cast_succ]
    exact add_le_add_left (isDue_iff.mp hdue) 1

theorem IsSound.passes_eq (h : IsSound id found origin first c) (hover : c.IsOver id) :
    (c.passes : ℕ∞) = total (limit origin) (healthIn found origin) := by
  refine eq_total h.due fun hdue => ?_
  obtain ⟨e, round, hjobs, -⟩ := (h.resting hover.2).settled.due hdue
  exact Multiset.singleton_ne_zero e (hjobs.symm.trans (jobs_eq_zero_iff.mpr hover.1))

end

/-- **A pass that was dispatched is repeated** until all components are healthy or the limit is
reached. However the steps are taken:

* there are never more passes than `total`, and exactly as many when all is over;
* every job about the server is a pass, so that no component is installed;
* between two passes, and in the end, the record of the server shows what the last one has found;
* no run is stuck. -/
theorem validation_passes {id : UInt64} {found : ℕ → Component → Except Failure String}
    {s : Orchestrator} {server : Server} (hserver : s.registry.get? id = some server)
    (hfit : s.scheduler.IsFit) (hjobs : ∀ e ∈ s.scheduler.entries, e.job.concerns id = false)
    {queue : Queue} {delay : UInt64} {retry : RetryPolicy} {c : Scene}
    (hrun : Run id found (.start id s queue delay retry) c) :
    (c.passes : ℕ∞) ≤ total (limit (view id s)) (healthIn found (view id s)) ∧
      (∀ e ∈ c.state.scheduler.entries, e.job.concerns id = true →
        ∃ round, e.job = .validate id round ∧ round.toNat = c.passes) ∧
      (c.IsBetween id → ∀ n, c.passes = n + 1 → ∃ now, c.state.registry.get? id = some now ∧
        Reports (healthIn found (view id s) n)
          (available (healthIn found (view id s)) server.status.appsecAvailable n) now) ∧
      (c.IsOver id → (c.passes : ℕ∞) = total (limit (view id s)) (healthIn found (view id s))) ∧
      ∃ d, Run id found c d ∧ d.IsOver id := by
  have hsound := (isSound_start found hserver hfit hjobs queue delay retry).run hrun
  refine ⟨hsound.passes_le, fun e he hconcerns => hsound.entry he hconcerns,
    fun hbetween n hpasses => ?_, hsound.passes_eq, hsound.finishes⟩
  obtain ⟨now, hnow, hreported⟩ := (hsound.resting_of_isBetween hbetween).settled.server
  rw [hpasses] at hreported
  exact ⟨now, hnow, hreported⟩

namespace Demo

/-- A server, and nothing else. -/
def state : Orchestrator where
  registry := ⟨[{ id := 1, name := "one", host := "one.test" }]⟩

/-- Nothing can be reached in the first pass, and all is well later on. -/
def found : ℕ → Component → Except Failure String
  | 0, _ => .error (.transport "connection lost")
  | _ + 1, .engine => .ok "Up 2 minutes"
  | _ + 1, _ => .ok "ok"

theorem untilHealthy_found : untilHealthy (healthIn found (view 1 state)) = 1 := by
  have hfirst : ¬ IsHealthy (healthIn found (view 1 state) 0) := by decide +kernel
  have hsecond : IsHealthy (healthIn found (view 1 state) 1) := by decide +kernel
  refine le_antisymm (iInf₂_le 1 hsecond) (le_iInf₂ fun n hn => ?_)
  cases n with
  | zero => exact absurd hn hfirst
  | succ n => exact Nat.cast_le.mpr (Nat.succ_le_succ (Nat.zero_le n))

end Demo

theorem validation_passes_twice :
    ∃ d, Run 1 Demo.found (.start 1 Demo.state .security 0 .single) d ∧ d.IsOver 1 ∧
      d.passes = 2 := by
  have hfit : Demo.state.scheduler.IsFit := ⟨rfl, List.nodup_nil, nofun⟩
  have hstart : Run 1 Demo.found _ _ := .refl (.start 1 Demo.state .security 0 .single)
  obtain ⟨-, -, -, -, d, hrun, hover⟩ := validation_passes rfl hfit nofun hstart
  obtain ⟨-, -, -, hpasses, -⟩ := validation_passes rfl hfit nofun hrun
  have htotal := hpasses hover
  rw [total, Demo.untilHealthy_found] at htotal
  exact ⟨d, hrun, hover, Nat.cast_injective htotal⟩

end Rampart.Validation
