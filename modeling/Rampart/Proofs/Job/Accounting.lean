import Mathlib.Data.List.Perm.Basic
import Rampart.Proofs.Job.Scheduler
import Rampart.Proofs.Job.Stages
import Rampart.Simulation.Scripted

/-!
# Every job is counted until it has ended

Any number of workers, the clock, the scheduler and everybody who gives it work, taking steps in any
order. What is dispatched waits, queues up, waits again and is tried again; the count of what is
pending follows each job until it has ended, and a job ends once.

* `Scene`, `Step`, `Run`: workers at their stages; a step says what happens to jobs, and a run adds
  that up.
* `Flow`: what a step takes in and lets out. **`Step.flow`**: the count changes by just that, and no
  job is lost or doubled.
* **`pending_counts_the_living`**: after any run.
-/

namespace Rampart.Accounting

variable {σ J : Type}

/-- A state, and workers at their stages; a worker that is at no job is not listed. -/
structure Scene (σ J : Type) where
  state : σ
  running : List (Stage σ J) := []

/-- The jobs whose failure is just being reported. -/
def reportsOf : Stage σ J → List J
  | .reporting e _ => [e.job]
  | .picked _ | .running _ _ => []

namespace Scene

/-- The jobs that wait, queue up or are being executed. -/
def alive (w : Works σ J) (c : Scene σ J) : List J :=
  (w.scheduler c.state).entries.map (·.job) ++ c.running.map (·.job)

/-- The jobs whose failure is just being reported. -/
def reporting (c : Scene σ J) : List J :=
  c.running.flatMap reportsOf

end Scene

/-- **One step**, where there are `size` workers, and what happens to jobs in it. -/
inductive Step (w : Works σ J) (size : Nat) : Scene σ J → Tally J → Scene σ J → Prop
  /-- Somebody changes the state, dispatches jobs or closes the scheduler. -/
  | outside (c : Scene σ J) {s : σ} {jobs : List J}
    (h : (w.scheduler c.state).TakesIn (w.scheduler s) jobs) :
    Step w size c { dispatched := jobs } { c with state := s }
  | pass (c : Scene σ J) {time : Nat} (h : (w.scheduler c.state).now ≤ time) :
    Step w size c {} { c with state := w.reschedule (fun s => { s with now := time }) c.state }
  /-- A job whose time has come queues up. -/
  | arrive (c : Scene σ J) {x : Waiting J} (h : x ∈ (w.scheduler c.state).waiting)
    (hdue : x.due ≤ (w.scheduler c.state).now) (hopen : (w.scheduler c.state).isClosed = false) :
    Step w size c {} { c with state := w.reschedule (·.arrive x.number) c.state }
  /-- A job whose time has come finds the scheduler closed. -/
  | drop (c : Scene σ J) {x : Waiting J} (h : x ∈ (w.scheduler c.state).waiting)
    (hdue : x.due ≤ (w.scheduler c.state).now) (hclosed : (w.scheduler c.state).isClosed = true) :
    Step w size c { ended := [(x.entry.job, .dropped)] }
      { c with state := w.reschedule (·.arrive x.number) c.state }
  /-- A free worker takes the next job. -/
  | take (c : Scene σ J) {e : Entry J} {rest : Scheduler J} (hfree : c.running.length < size)
    (h : (w.scheduler c.state).pick? = some (e, rest)) :
    Step w size c {} ⟨w.reschedule (fun _ => rest) c.state, .picked e :: c.running⟩
  /-- A worker goes on with its job. -/
  | work (c : Scene σ J) {before after : List (Stage σ J)} {stage : Stage σ J} {t : Tally J} {s : σ}
    {next : Option (Stage σ J)} (hstage : c.running = before ++ stage :: after)
    (h : Move w c.state stage t s next) :
    Step w size c t ⟨s, before ++ next.toList ++ after⟩

/-- So many steps, and what happens to jobs in all of them. -/
inductive Run (w : Works σ J) (size : Nat) : Scene σ J → Tally J → Scene σ J → Prop
  | refl (c : Scene σ J) : Run w size c {} c
  | tail {c d e : Scene σ J} {t u : Tally J} (h : Run w size c t d) (hs : Step w size d u e) :
    Run w size c (t ++ u) e

/-- Nothing has happened yet. -/
structure Fresh (w : Works σ J) (c : Scene σ J) : Prop where
  waiting : (w.scheduler c.state).waiting = []
  queued : (w.scheduler c.state).queued = []
  pending : (w.scheduler c.state).pending = 0
  running : c.running = []

end Rampart.Accounting

namespace Rampart

variable {σ J : Type}

namespace Scheduler

/-! ## What the scheduler does with its entries -/

/-- Waiting jobs have numbers of their own. -/
structure IsNumbered (s : Scheduler J) : Prop where
  numbers : (s.waiting.map (·.number)).Nodup
  issued : ∀ w ∈ s.waiting, w.number < s.issued

/-- The jobs that wait or queue up. -/
def jobs (s : Scheduler J) : List J :=
  s.entries.map (·.job)

theorem delayUntil_isNumbered {s : Scheduler J} (h : s.IsNumbered) (due : Nat) (e : Entry J) :
    (s.delayUntil due e).IsNumbered := by
  -- As long as the scheduler is open this is known, and being open makes no difference here.
  have hfit : ({ s with isClosed := false } : Scheduler J).IsFit := ⟨rfl, h.numbers, h.issued⟩
  obtain ⟨-, hnumbers, hissued⟩ := delayUntil_isFit hfit due e
  exact ⟨hnumbers, hissued⟩

theorem delayUntil_jobs (s : Scheduler J) (due : Nat) (e : Entry J) :
    (s.delayUntil due e).jobs.Perm (e.job :: s.jobs) :=
  (s.delayUntil_entries due e).map _

/-- What a change of a scheduler takes in and keeps. -/
structure Admits (s t : Scheduler J) (added : List J) : Prop where
  numbered : s.IsNumbered → t.IsNumbered
  jobs : t.jobs.Perm (s.jobs ++ added)
  pending : t.pending = s.pending + added.length

theorem TakesIn.admits {s t : Scheduler J} {added : List J} (h : s.TakesIn t added) :
    s.Admits t added := by
  induction h with
  | nothing => exact ⟨id, by rw [List.append_nil], rfl⟩
  | @dispatch t added _ e delay ih =>
    refine ⟨fun hs => ?_, ?_, ?_⟩
    · obtain ⟨hnumbers, hissued⟩ := delayUntil_isNumbered (ih.numbered hs) (t.now + delay) e
      exact ⟨hnumbers, hissued⟩
    · refine (t.delayUntil_jobs (t.now + delay) e).trans ?_
      rw [← List.append_assoc]
      exact ((ih.jobs.cons e.job).trans (List.perm_append_singleton _ _).symm)
    · calc (t.dispatch e delay).pending = t.pending + 1 := rfl
        _ = s.pending + added.length + 1 := by rw [ih.pending]
        _ = s.pending + (added ++ [e.job]).length := by
          rw [List.length_append, List.length_singleton, Nat.add_assoc]
  | close _ ih => exact ⟨fun hs => ⟨(ih.numbered hs).1, (ih.numbered hs).2⟩, ih.jobs, ih.pending⟩

theorem arrive_isNumbered {s : Scheduler J} (h : s.IsNumbered) (number : Nat) :
    (s.arrive number).IsNumbered := by
  unfold arrive
  split
  · exact h
  · have hkept : IsNumbered { s with waiting := s.waiting.filter (·.number != number) } :=
      ⟨h.numbers.sublist ((List.filter_sublist).map _),
        fun w hw => h.issued w (List.mem_of_mem_filter hw)⟩
    simp only
    split <;> exact ⟨hkept.numbers, hkept.issued⟩

/-- A job that arrives at an open scheduler stays. -/
theorem arrive_jobs {s : Scheduler J} (h : s.IsNumbered) (hopen : s.isClosed = false)
    {x : Waiting J} (hx : x ∈ s.waiting) :
    (s.arrive x.number).jobs.Perm s.jobs ∧ (s.arrive x.number).pending = s.pending := by
  have hfit : s.IsFit := ⟨hopen, h.numbers, h.issued⟩
  exact ⟨(arrive_entries hfit hx).map _, by rw [arrive_eq hfit hx]⟩

/-- A job that arrives at a closed scheduler is dropped, and has ended. -/
theorem arrive_jobs_of_closed {s : Scheduler J} (h : s.IsNumbered) (hclosed : s.isClosed = true)
    {x : Waiting J} (hx : x ∈ s.waiting) :
    s.jobs.Perm (x.entry.job :: (s.arrive x.number).jobs) ∧
      (s.arrive x.number).pending = s.pending - 1 := by
  have harrive : s.arrive x.number =
      { s with
        waiting := s.waiting.filter (·.number != x.number)
        pending := s.pending - 1 } := by
    unfold arrive
    rw [find_number h.numbers hx]
    simp [hclosed, finish]
  rw [harrive]
  have hwaiting := (perm_cons_filter_number h.numbers hx).map (·.entry.job)
  refine ⟨?_, rfl⟩
  simp only [jobs, entries, List.map_append, List.map_map]
  exact hwaiting.append_right _

theorem pick?_jobs {s rest : Scheduler J} {e : Entry J} (h : s.pick? = some (e, rest)) :
    s.jobs.Perm (e.job :: rest.jobs) ∧ rest.pending = s.pending ∧
      (s.IsNumbered → rest.IsNumbered) := by
  refine ⟨(pick?_entries h).map _, ?_⟩
  obtain ⟨⟨found, others⟩, _, heq⟩ := Option.map_eq_some_iff.mp h
  obtain ⟨rfl, rfl⟩ := Prod.mk.inj heq
  exact ⟨rfl, fun hs => ⟨hs.numbers, hs.issued⟩⟩

end Scheduler

namespace Accounting

open scoped List

variable {w : Works σ J} {s s' : σ}

/-! ## What a worker does with its job -/

section Settling

variable (hw : w.IsLawful) (e : Entry J)
include hw

theorem settle_of_ok (s : σ) :
    w.scheduler (w.settle e (.ok ()) s).2 = (w.scheduler s).finish := by
  simp only [Works.settle, hw.scheduler_reschedule, hw.scheduler_count]

theorem settle_of_isConfiguration {failure : Failure} (h : failure.isConfiguration = true) (s : σ) :
    w.scheduler (w.settle e (.error failure) s).2 = (w.scheduler s).finish := by
  rw [settle_skip h]
  simp only [hw.scheduler_reschedule, hw.scheduler_count]

/-- An attempt that failed without anything to report is followed by another. -/
theorem settle_of_none {failure : Failure} (hskip : failure.isConfiguration = false)
    (h : (w.settle e (.error failure) s).1 = none) :
    ∃ due, w.scheduler (w.settle e (.error failure) s).2 = (w.scheduler s).delayUntil due e := by
  simp only [Works.settle, hskip, Bool.false_eq_true, if_false] at h ⊢
  split at h
  · rename_i due _
    exact ⟨due, by simp only [hw.scheduler_reschedule, hw.scheduler_count]⟩
  · cases h

/-- A failure that is to be reported leaves the scheduler as it is for now. -/
theorem settle_of_some {failure final : Failure}
    (h : (w.settle e (.error failure) s).1 = some final) :
    w.scheduler (w.settle e (.error failure) s).2 = w.scheduler s := by
  simp only [Works.settle] at h ⊢
  split at h
  · cases h
  · rename_i hskip
    rw [if_neg hskip]
    split at h
    · cases h
    · exact hw.scheduler_count _ s

end Settling

/-- What a worker takes into the scheduler, and what it lets out of it, is what happens to jobs. -/
structure MoveFlow (w : Works σ J) (s : σ) (stage : Stage σ J) (t : Tally J) (s' : σ)
    (next : Option (Stage σ J)) : Prop where
  numbered : (w.scheduler s).IsNumbered → (w.scheduler s').IsNumbered
  pending : 0 < (w.scheduler s).pending →
    (w.scheduler s').pending + t.ended.length = (w.scheduler s).pending + t.dispatched.length
  jobs : ((w.scheduler s').jobs ++ (next.toList.map (·.job) ++ t.gone)).Perm
    ((w.scheduler s).jobs ++ (stage.job :: t.dispatched))
  reports : next.toList.flatMap reportsOf ++ t.lost = reportsOf stage ++ t.reported

theorem moveFlow_of_admits {stage next : Stage σ J} {added : List J}
    (h : (w.scheduler s).Admits (w.scheduler s') added) (hjob : next.job = stage.job)
    (hreports : reportsOf next = reportsOf stage) :
    MoveFlow w s stage { dispatched := added } s' (some next) where
  numbered := h.numbered
  pending _ := h.pending
  jobs := by
    have hjobs := h.jobs.append_right [stage.job]
    rw [List.append_assoc] at hjobs
    refine List.Perm.trans ?_ (hjobs.trans (List.perm_append_comm.append_left _))
    simp [Tally.gone, hjob]
  reports := by simp [Tally.lost, hreports]

theorem moveFlow_of_finish {stage : Stage σ J} {t : Tally J}
    (h : w.scheduler s' = (w.scheduler s).finish) {outcome : JobOutcome}
    (ht : t = { ended := [(stage.job, outcome)] })
    (hreports : t.lost = reportsOf stage) : MoveFlow w s stage t s' none where
  numbered hs := by rw [h]; exact ⟨hs.numbers, hs.issued⟩
  pending hpos := by
    rw [h, ht]
    exact Nat.sub_add_cancel hpos
  jobs := by
    rw [h, ht]
    exact List.Perm.refl _
  reports := by
    rw [ht] at hreports ⊢
    simpa using hreports

/-- **What a worker does with its job.** -/
theorem move_flow (hw : w.IsLawful) {stage : Stage σ J} {t : Tally J}
    {next : Option (Stage σ J)} (h : Move w s stage t s' next) : MoveFlow w s stage t s' next := by
  cases h with
  | begin e => exact moveFlow_of_admits Scheduler.TakesIn.nothing.admits rfl rfl
  | run e _ hjobs => exact moveFlow_of_admits hjobs.admits rfl rfl
  | complete e => exact moveFlow_of_finish (settle_of_ok hw e s) rfl rfl
  | skip e hskip => exact moveFlow_of_finish (settle_of_isConfiguration hw e hskip s) rfl rfl
  | retry e hskip hnone =>
    obtain ⟨due, hdue⟩ := settle_of_none hw e hskip hnone
    refine ⟨fun hs => ?_, fun _ => ?_, ?_, rfl⟩
    · rw [hdue]
      exact Scheduler.delayUntil_isNumbered hs due e
    · rw [hdue]
      rfl
    · rw [hdue]
      have hjobs := (w.scheduler s).delayUntil_jobs due e
      exact (List.append_nil _).symm ▸ hjobs.trans (List.perm_append_singleton _ _).symm
  | fail e hfinal =>
    have hsame := settle_of_some hw e hfinal
    refine ⟨fun hs => by rwa [hsame], fun _ => by rw [hsame]; rfl, ?_, rfl⟩
    rw [hsame]
    exact List.Perm.refl _
  | report e _ hjobs => exact moveFlow_of_admits hjobs.admits rfl rfl
  | finish e => exact moveFlow_of_finish (hw.scheduler_reschedule .finish s) rfl rfl

/-! ## Steps -/

/-- What a step takes in and lets out. -/
structure Flow (w : Works σ J) (size : Nat) (c : Scene σ J) (t : Tally J) (d : Scene σ J) :
    Prop where
  numbered : (w.scheduler d.state).IsNumbered
  size : d.running.length ≤ size
  pending : (w.scheduler d.state).pending + t.ended.length =
    (w.scheduler c.state).pending + t.dispatched.length
  jobs : (d.alive w ++ t.gone).Perm (c.alive w ++ t.dispatched)
  reports : (d.reporting ++ t.lost).Perm (c.reporting ++ t.reported)

/-- What is true of a scene at all times: the count is right. -/
structure IsCounted (w : Works σ J) (size : Nat) (c : Scene σ J) : Prop where
  numbered : (w.scheduler c.state).IsNumbered
  size : c.running.length ≤ size
  pending : (w.scheduler c.state).pending = (c.alive w).length

/-- A step of the scheduler alone. -/
theorem flow_of_scheduler {size : Nat} {c : Scene σ J} (hc : IsCounted w size c) {t : Tally J}
    (hnumbered : (w.scheduler s').IsNumbered)
    (hpending : (w.scheduler s').pending + t.ended.length =
      (w.scheduler c.state).pending + t.dispatched.length)
    (hjobs : ((w.scheduler s').jobs ++ t.gone).Perm ((w.scheduler c.state).jobs ++ t.dispatched))
    (hreports : t.lost = t.reported) : Flow w size c t { c with state := s' } where
  numbered := hnumbered
  size := hc.size
  pending := hpending
  jobs := by
    have hall := hjobs.append_left (c.running.map (·.job))
    rw [← List.append_assoc, ← List.append_assoc] at hall
    exact (List.perm_append_comm.append_right _).trans
      (hall.trans (List.perm_append_comm.append_right _))
  reports := by rw [hreports]; exact List.Perm.refl _

/-- A worker goes on. -/
theorem flow_of_move {size : Nat} {before after : List (Stage σ J)} {stage : Stage σ J}
    (hc : IsCounted w size ⟨s, before ++ stage :: after⟩) {t : Tally J}
    {next : Option (Stage σ J)} (h : MoveFlow w s stage t s' next) :
    Flow w size ⟨s, before ++ stage :: after⟩ t ⟨s', before ++ next.toList ++ after⟩ where
  numbered := h.numbered hc.numbered
  size := by
    have hsize := hc.size
    have hnext : next.toList.length ≤ 1 := by cases next <;> simp
    simp only [List.length_append, List.length_cons] at hsize ⊢
    omega
  pending := by
    refine h.pending ?_
    rw [hc.pending]
    simp only [Scene.alive, List.length_append, List.length_map, List.length_cons]
    omega
  jobs := by
    classical
    refine List.perm_iff_count.mpr fun j => ?_
    have hcount := h.jobs.count_eq j
    simp only [Scheduler.jobs, Scene.alive, List.map_append, List.map_cons, List.count_append,
      List.count_cons] at hcount ⊢
    omega
  reports := by
    classical
    refine List.perm_iff_count.mpr fun j => ?_
    have hcount := congrArg (List.count j) h.reports
    simp only [Scene.reporting, List.flatMap_append, List.flatMap_cons, List.count_append]
      at hcount ⊢
    omega

/-- **No step loses a job or doubles one, and the count changes by what is dispatched and what
ends.** -/
theorem Step.flow (hw : w.IsLawful) {size : Nat} {c d : Scene σ J} {t : Tally J}
    (hc : IsCounted w size c) (h : Step w size c t d) : Flow w size c t d := by
  cases h with
  | outside hjobs =>
    have hadmits := hjobs.admits
    refine flow_of_scheduler hc (hadmits.numbered hc.numbered) hadmits.pending ?_ rfl
    rw [Tally.gone, List.map_nil, List.append_nil]
    exact hadmits.jobs
  | pass htime =>
    refine flow_of_scheduler hc ?_ ?_ ?_ rfl
    · rw [hw.scheduler_reschedule]
      exact ⟨hc.numbered.numbers, hc.numbered.issued⟩
    · rw [hw.scheduler_reschedule]
      rfl
    · rw [hw.scheduler_reschedule]
      exact List.Perm.refl _
  | @arrive x hx _ hopen =>
    obtain ⟨hjobs, hpending⟩ := Scheduler.arrive_jobs hc.numbered hopen hx
    refine flow_of_scheduler hc ?_ ?_ ?_ rfl
    · rw [hw.scheduler_reschedule]
      exact Scheduler.arrive_isNumbered hc.numbered x.number
    · rw [hw.scheduler_reschedule]
      exact hpending
    · rw [hw.scheduler_reschedule]
      exact hjobs.append_right _
  | @drop x hx _ hclosed =>
    obtain ⟨hjobs, hpending⟩ := Scheduler.arrive_jobs_of_closed hc.numbered hclosed hx
    -- The job that is dropped is one of those that are counted.
    have hpos : 0 < (w.scheduler c.state).pending := by
      rw [hc.pending, Scene.alive, List.length_append]
      have hlength := hjobs.length_eq
      rw [List.length_cons] at hlength
      exact Nat.lt_of_lt_of_le (hlength ▸ Nat.succ_pos _) (Nat.le_add_right _ _)
    refine flow_of_scheduler hc ?_ ?_ ?_ rfl
    · rw [hw.scheduler_reschedule]
      exact Scheduler.arrive_isNumbered hc.numbered x.number
    · rw [hw.scheduler_reschedule, hpending]
      exact Nat.sub_add_cancel hpos
    · rw [hw.scheduler_reschedule]
      refine (List.perm_append_singleton _ _).trans (hjobs.symm.trans ?_)
      rw [List.append_nil]
  | @take e rest hfree hpick =>
    obtain ⟨hjobs, hpending, hnumbered⟩ := Scheduler.pick?_jobs hpick
    refine ⟨?_, hfree, ?_, ?_, List.Perm.refl _⟩
    · rw [hw.scheduler_reschedule]
      exact hnumbered hc.numbered
    · rw [hw.scheduler_reschedule]
      exact hpending
    · simp only [Scene.alive, hw.scheduler_reschedule, List.map_cons]
      exact (List.perm_middle.trans (hjobs.symm.append_right _)).append_right _
  | @work before after stage t s' next hstage hmove =>
    obtain ⟨s, running⟩ := c
    cases hstage
    exact flow_of_move hc (move_flow hw hmove)

/-! ## Runs -/

/-- What is known after any run. -/
structure Inv (w : Works σ J) (size : Nat) (t : Tally J) (d : Scene σ J) : Prop where
  counted : IsCounted w size d
  jobs : t.dispatched.Perm (d.alive w ++ t.gone)
  reported : t.reported.Perm (d.reporting ++ t.lost)

theorem Fresh.inv {c : Scene σ J} (h : Fresh w c) (size : Nat) : Inv w size {} c := by
  have halive : c.alive w = [] := by
    simp [Scene.alive, Scheduler.entries, h.waiting, h.queued, h.running]
  have hreporting : c.reporting = [] := by simp [Scene.reporting, h.running]
  refine ⟨⟨⟨?_, ?_⟩, ?_, ?_⟩, ?_, ?_⟩
  · rw [h.waiting]
    exact List.nodup_nil
  · rw [h.waiting]
    exact fun _ hx => absurd hx List.not_mem_nil
  · rw [h.running]
    exact Nat.zero_le size
  · rw [h.pending, halive, List.length_nil]
  · rw [halive]
    exact List.Perm.refl _
  · rw [hreporting]
    exact List.Perm.refl _

theorem IsCounted.of_flow {size : Nat} {c d : Scene σ J} {t : Tally J} (hc : IsCounted w size c)
    (h : Flow w size c t d) : IsCounted w size d := by
  refine ⟨h.numbered, h.size, ?_⟩
  have hpending := h.pending
  have hlength := h.jobs.length_eq
  rw [hc.pending] at hpending
  rw [List.length_append, List.length_append, Tally.gone, List.length_map] at hlength
  omega

/-- Who came in is there or has gone; that stays so when some more come in and some go. -/
theorem ledger_append {α : Type} {came here gone more now left : List α}
    (h : came.Perm (here ++ gone)) (hflow : (now ++ left).Perm (here ++ more)) :
    (came ++ more).Perm (now ++ (gone ++ left)) :=
  calc came ++ more
    _ ~ here ++ gone ++ more := h.append_right more
    _ ~ gone ++ here ++ more := List.perm_append_comm.append_right more
    _ ~ gone ++ (here ++ more) := .of_eq (List.append_assoc ..)
    _ ~ gone ++ (now ++ left) := hflow.symm.append_left gone
    _ ~ now ++ (gone ++ left) := by
      rw [← List.append_assoc, ← List.append_assoc]
      exact List.perm_append_comm.append_right left

theorem Inv.of_flow {size : Nat} {c d : Scene σ J} {t u : Tally J} (hc : Inv w size t c)
    (h : Flow w size c u d) : Inv w size (t ++ u) d where
  counted := hc.counted.of_flow h
  jobs := by
    rw [Tally.dispatched_append, Tally.gone_append]
    exact ledger_append hc.jobs h.jobs
  reported := by
    rw [Tally.reported_append, Tally.lost_append]
    exact ledger_append hc.reported h.reports

theorem Run.inv (hw : w.IsLawful) {size : Nat} {c d : Scene σ J} {t : Tally J}
    (hrun : Run w size c t d) (hc : Fresh w c) : Inv w size t d := by
  induction hrun with
  | refl => exact hc.inv size
  | tail _ hstep ih => exact ih.of_flow (hstep.flow hw ih.counted)

/-! ## The account -/

/-- **What is known of jobs after any run**, where `t` is what has happened to them. -/
structure Account (w : Works σ J) (size : Nat) (t : Tally J) (d : Scene σ J) : Prop where
  /-- What is pending waits for its time or for another attempt, queues up, or is at a worker. -/
  pending : (w.scheduler d.state).pending =
    (w.scheduler d.state).waiting.length + (w.scheduler d.state).queued.length + d.running.length
  workers : d.running.length ≤ size
  /-- A job that was dispatched is there or has ended, once. -/
  jobs : t.dispatched.Perm (d.alive w ++ t.gone)
  /-- The count has gone up with every job and down with every end, and never had to stop at
  zero. -/
  count : (w.scheduler d.state).pending + t.ended.length = t.dispatched.length
  step : ∀ u e, Step w size d u e →
    (w.scheduler e.state).pending + u.ended.length =
      (w.scheduler d.state).pending + u.dispatched.length
  zero : (w.scheduler d.state).pending = 0 ↔ t.dispatched.Perm t.gone
  /-- Jobs that have failed for good have reported it, once; some are just reporting it. -/
  reported : t.reported.Perm (d.reporting ++ t.lost)
  /-- Where all jobs differ, each ends at most once and reports at most once; and of those that have
  ended, those have reported that failed. -/
  once : t.dispatched.Nodup → t.gone.Nodup ∧ t.reported.Nodup ∧
    ∀ entry ∈ t.ended, entry.1 ∈ t.reported ↔ entry.2 = .failed

theorem reporting_sublist (c : Scene σ J) : c.reporting.Sublist (c.running.map (·.job)) := by
  have hreports : ∀ stage : Stage σ J, (reportsOf stage).Sublist [stage.job] := by
    intro stage
    cases stage with
    | reporting e _ => exact List.Sublist.refl _
    | picked | running => exact List.nil_sublist _
  unfold Scene.reporting
  induction c.running with
  | nil => exact List.Sublist.slnil
  | cons stage stages ih =>
    rw [List.flatMap_cons, List.map_cons]
    exact (hreports stage).append ih

theorem lost_sublist (t : Tally J) : t.lost.Sublist t.gone :=
  List.filter_sublist.map _

/-- Jobs that differ end once and report once. -/
theorem Inv.once {size : Nat} {t : Tally J} {d : Scene σ J} (h : Inv w size t d)
    (hdistinct : t.dispatched.Nodup) : t.gone.Nodup ∧ t.reported.Nodup ∧
      ∀ entry ∈ t.ended, entry.1 ∈ t.reported ↔ entry.2 = .failed := by
  obtain ⟨-, hgone, hapart⟩ := List.nodup_append.mp (h.jobs.nodup_iff.mp hdistinct)
  have hreporting : d.reporting.Sublist (d.alive w) :=
    (reporting_sublist d).trans (List.sublist_append_right _ _)
  have hreported : t.reported.Nodup :=
    h.reported.nodup_iff.mpr ((h.jobs.nodup_iff.mp hdistinct).sublist
      (hreporting.append (lost_sublist t)))
  refine ⟨hgone, hreported, fun entry hentry => ?_⟩
  rw [h.reported.mem_iff, List.mem_append]
  constructor
  · rintro (hjob | hjob)
    · -- A job that is reporting is still there.
      exact absurd rfl (hapart _ (hreporting.subset hjob) _ (List.mem_map_of_mem hentry))
    · obtain ⟨other, hother, hsame⟩ := List.mem_map.mp hjob
      obtain ⟨hmem, hfailed⟩ := List.mem_filter.mp hother
      have heq : other = entry := List.inj_on_of_nodup_map hgone hmem hentry hsame
      rw [← heq]
      exact of_decide_eq_true hfailed
  · intro hfailed
    exact .inr (List.mem_map_of_mem (List.mem_filter.mpr ⟨hentry, by simp [hfailed]⟩))

/-- **The scheduler's account.** Whatever number of workers there is, whatever the jobs do and in
whatever order timers, workers, dispatchers and the closing of the scheduler come: what is pending
is what waits, queues up or is being executed; every job that was dispatched ends at most once, and
the count goes down just then, so that it is zero exactly when all have ended; and a failure is
reported once, by the jobs that failed for good. -/
theorem pending_counts_the_living (hw : w.IsLawful) {size : Nat} {c d : Scene σ J} {t : Tally J}
    (hc : Fresh w c) (hrun : Run w size c t d) : Account w size t d := by
  have h := hrun.inv hw hc
  have hlength := h.jobs.length_eq
  rw [List.length_append, ← h.counted.pending, Tally.gone, List.length_map] at hlength
  refine ⟨?_, h.counted.size, h.jobs, hlength.symm,
    fun u e hstep => (hstep.flow hw h.counted).pending, ⟨fun hzero => ?_, fun hperm => ?_⟩,
    h.reported, h.once⟩
  · rw [h.counted.pending]
    simp [Scene.alive, Scheduler.entries, Nat.add_assoc]
  · have hnone : d.alive w = [] := List.eq_nil_of_length_eq_zero (h.counted.pending ▸ hzero)
    have hjobs := h.jobs
    rwa [hnone, List.nil_append] at hjobs
  · have hgone := hperm.length_eq
    rw [Tally.gone, List.length_map] at hgone
    omega

/-! ## Two scripted jobs -/

section Demo

open Simulation (Bench ScriptedJob JobNote)

theorem bench_isLawful : Bench.host.works.IsLawful where
  scheduler_set _ _ := rfl
  scheduler_count _ _ := rfl
  handle _ _ := fun _ => ⟨⟨[], .nothing⟩, trivial⟩
  failed _ _ := fun _ => ⟨⟨[], .nothing⟩, trivial⟩

/-- A job that fails at once, and for good. -/
def broken : Entry ScriptedJob where
  job := { name := "broken", script := [{ failure := some (.validation "no such thing") }] }
  queue := .security
  retry := .single

/-- A job that nobody gets to. -/
def late : Entry ScriptedJob where
  job := { name := "late" }
  queue := .default
  retry := .single

/-- The bench before anything is picked. -/
def bench (waiting : List (Waiting ScriptedJob)) (queued : List (Entry ScriptedJob)) : Bench :=
  { scheduler := { issued := 2, waiting, queued, pending := 2 } }

/-- The bench once the first job is picked. -/
def busy (notes : List (Nat × JobNote)) (counters : Counters) : Bench :=
  { bench [⟨1, 0, late⟩] [] with notes, counters }

/-- The only busy worker goes on. -/
theorem work_alone {size : Nat} {stage : Stage σ J} {t : Tally J} {next : Option (Stage σ J)}
    (h : Move w s stage t s' next) : Step w size ⟨s, [stage]⟩ t ⟨s', next.toList⟩ := by
  have hwork : Step w size ⟨s, [stage]⟩ t ⟨s', [] ++ next.toList ++ []⟩ := .work _ rfl h
  rwa [List.nil_append, List.append_nil] at hwork

/-- One worker; a job fails and reports that, another one is dropped since the scheduler is closed
in the meantime. -/
theorem broken_fails_and_late_is_dropped :
    Fresh Bench.host.works ⟨{}, []⟩ ∧
      ∃ (t : Tally ScriptedJob) (d : Scene Bench ScriptedJob),
        Run Bench.host.works 1 ⟨{}, []⟩ t d ∧ Account Bench.host.works 1 t d ∧
        t.ended = [(broken.job, .failed), (late.job, .dropped)] ∧ t.reported = [broken.job] := by
  have hfresh : Fresh Bench.host.works ⟨{}, []⟩ := ⟨rfl, rfl, rfl, rfl⟩
  have hdispatched : Run Bench.host.works 1 ⟨{}, []⟩ { dispatched := [broken.job, late.job] }
      ⟨bench [⟨0, 0, broken⟩, ⟨1, 0, late⟩] [], []⟩ :=
    .tail (.refl _) (.outside _ (.dispatch (.dispatch .nothing broken 0) late 0))
  have hpicked : Run Bench.host.works 1 ⟨{}, []⟩ { dispatched := [broken.job, late.job] }
      ⟨bench [⟨1, 0, late⟩] [], [.picked broken]⟩ :=
    .tail (.tail hdispatched (.arrive _ (x := ⟨0, 0, broken⟩) (.head _) (Nat.le_refl 0) rfl))
      (.take _ Nat.zero_lt_one rfl)
  have hbegun : Run Bench.host.works 1 ⟨{}, []⟩ { dispatched := [broken.job, late.job] }
      ⟨busy [] {}, [.running (broken.begin 0) (Bench.handle broken.job 1).process]⟩ :=
    .tail hpicked (work_alone (.begin _ _))
  have htried : Run Bench.host.works 1 ⟨{}, []⟩ { dispatched := [broken.job, late.job] }
      ⟨busy [(0, .began "broken" 1)] {},
        [.running (broken.begin 0) (.done (.error (.validation "no such thing")))]⟩ :=
    .tail (.tail hbegun (work_alone (.run _ (.atomic _ _ _) .nothing)))
      (work_alone (.run _ (.wait _ _ _) .nothing))
  have hfailed := Run.tail htried (work_alone (.fail _ _ rfl))
  have hreported := Run.tail hfailed (work_alone (.report _ (.atomic _ _ _) .nothing))
  have hfinished := Run.tail hreported (work_alone (.finish _ _))
  have hclosed := Run.tail hfinished
    (.outside _ (s := Bench.host.works.reschedule .close _) (.close .nothing))
  have hdropped := Run.tail hclosed (.drop _ (x := ⟨1, 0, late⟩) (.head _) (Nat.le_refl 0) rfl)
  exact ⟨hfresh, _, _, hdropped, pending_counts_the_living bench_isLawful hfresh hdropped, rfl, rfl⟩

end Demo

end Accounting

end Rampart
