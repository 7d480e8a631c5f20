import Rampart.Proofs.Job.Accounting

/-!
# How late an attempt may begin

A job with a retry window is not to begin an attempt later than that after its first one. The window
is looked at when an attempt fails: the time for which the next one is planned lies in it. From then
on timers and workers decide when it begins. Time passes here only while nothing is to be done: no
timer is due, whoever was given a job has begun with it, and a job queues up only if all workers are
busy.

* `Scheduler.Gains`, `Works.DispatchesNew`: jobs that are dispatched have not been tried yet.
* `Step`, `Run`: the steps of `Accounting.Step` with such a clock. A `Diary` has the attempts that
  began, and the stretches of time that passed.
* `Excused`: all the time from a deadline on, a job queued up and all workers were busy.
* `OnTime`, `Inv`: planned attempts are within their windows, and those that queue up are excused.
  **`Step.inv`** is what a step keeps.
* **`late_attempts_excused`**: after any run, an attempt that began later than its window has an
  excuse for all of that time.
* **`attempt_begins_late`**: there is such an attempt.
-/

namespace Rampart

variable {σ J : Type}

/-- **What jobs, and whoever else there is, do with a scheduler**: they dispatch jobs that have not
been tried yet, and may close it. -/
inductive Scheduler.Gains (s : Scheduler J) : Scheduler J → Prop
  | nothing : s.Gains s
  | dispatch {t : Scheduler J} (h : s.Gains t) (job : J) (queue : Queue) (retry : RetryPolicy)
    (delay : Nat) : s.Gains (t.dispatch { job, queue, retry } delay)
  | close {t : Scheduler J} (h : s.Gains t) : s.Gains t.close

theorem Scheduler.Gains.takesIn {s t : Scheduler J} (h : s.Gains t) :
    ∃ jobs, s.TakesIn t jobs := by
  induction h with
  | nothing => exact ⟨[], .nothing⟩
  | dispatch _ job queue retry delay ih =>
    obtain ⟨jobs, ih⟩ := ih
    exact ⟨jobs ++ [job], .dispatch ih { job, queue, retry } delay⟩
  | close _ ih =>
    obtain ⟨jobs, ih⟩ := ih
    exact ⟨jobs, .close ih⟩

theorem Scheduler.Gains.now_eq {s t : Scheduler J} (h : s.Gains t) : t.now = s.now := by
  induction h with
  | nothing => rfl
  | dispatch _ _ _ _ _ ih => exact ih
  | close _ ih => exact ih

theorem Process.Changes.mono {α : Type} {change change' : σ → σ → Prop}
    (hmono : ∀ s t, change s t → change' s t) {p : Process σ α} (h : p.Changes change) :
    p.Changes change' := by
  induction p with
  | done a => exact trivial
  | atomic update next ih => exact fun s => ⟨hmono _ _ (h s).1, ih s (h s).2⟩
  | call server c next ih => exact fun answer => ih answer (h answer)
  | callAll calls next ih => exact fun answers => ih answers (h answers)
  | tell notice next ih => exact fun answer => ih answer (h answer)
  | clock next ih => exact fun time => ih time (h time)
  | fresh next ih => exact fun name hname => ih name (h name hname)
  | wait seconds next ih => exact ih h
  | acquire lock next ih => exact ih h
  | release lock next ih => exact ih h

namespace Works

/-- A change after which the scheduler has new jobs. -/
def Gaining (w : Works σ J) (s t : σ) : Prop :=
  (w.scheduler s).Gains (w.scheduler t)

/-- The scheduler is a part of the state, and jobs do nothing with it but dispatch new ones and
close it. -/
structure DispatchesNew (w : Works σ J) : Prop where
  scheduler_set : ∀ scheduler s, w.scheduler (w.setScheduler scheduler s) = scheduler
  scheduler_count : ∀ counter s, w.scheduler (w.count counter s) = w.scheduler s
  handle : ∀ job attempt, (w.handle job attempt).process.Changes w.Gaining
  failed : ∀ job failure, (w.failed job failure).Changes w.Gaining

theorem gaining_refl (w : Works σ J) (s : σ) : w.Gaining s s :=
  .nothing

/-- Then they are lawful. -/
theorem DispatchesNew.isLawful {w : Works σ J} (hw : w.DispatchesNew) : w.IsLawful where
  scheduler_set := hw.scheduler_set
  scheduler_count := hw.scheduler_count
  handle job attempt := (hw.handle job attempt).mono fun _ _ h => h.takesIn
  failed job failure := (hw.failed job failure).mono fun _ _ h => h.takesIn

end Works

namespace Window

open Accounting (Goes Move Scene Stage)

/-! ## Steps -/

/-- An attempt that began. -/
structure Began (J : Type) where
  /-- With this attempt counted. -/
  entry : Entry J
  time : Nat

/-- Time that passed. -/
structure Stretch (J : Type) where
  start : Nat
  stop : Nat
  /-- How many workers were at a job. -/
  busy : Nat
  /-- The jobs that queued up. -/
  queued : List J

/-- What is noted of a run. -/
structure Diary (J : Type) where
  begun : List (Began J) := []
  stretches : List (Stretch J) := []

namespace Diary

instance : Append (Diary J) where
  append d e := ⟨d.begun ++ e.begun, d.stretches ++ e.stretches⟩

@[simp] theorem begun_append (d e : Diary J) : (d ++ e).begun = d.begun ++ e.begun := rfl

@[simp] theorem stretches_append (d e : Diary J) :
    (d ++ e).stretches = d.stretches ++ e.stretches := rfl

end Diary

/-- The attempt that begins when a worker goes on. -/
def beganAt (now : Nat) : Stage σ J → List (Began J)
  | .picked e => [⟨e.begin now, now⟩]
  | .running _ _ | .reporting _ _ => []

/-- **One step**, where there are `size` workers, and what is noted of it. -/
inductive Step (w : Works σ J) (size : Nat) : Scene σ J → Diary J → Scene σ J → Prop
  /-- Somebody changes the state, dispatches jobs or closes the scheduler. -/
  | outside (c : Scene σ J) {s : σ} (h : (w.scheduler c.state).Gains (w.scheduler s)) :
    Step w size c {} { c with state := s }
  /-- Time passes, up to the next timer, while nobody can do anything. -/
  | pass (c : Scene σ J) (time : Nat) (h : (w.scheduler c.state).now ≤ time)
    (hdue : ∀ x ∈ (w.scheduler c.state).waiting, time ≤ x.due)
    (hbegun : ∀ e, .picked e ∉ c.running)
    (hbusy : (w.scheduler c.state).queued ≠ [] → size ≤ c.running.length) :
    Step w size c
      { stretches := [⟨(w.scheduler c.state).now, time, c.running.length,
          (w.scheduler c.state).queued.map (·.job)⟩] }
      { c with state := w.reschedule (fun s => { s with now := time }) c.state }
  /-- A job whose time has come queues up, unless the scheduler is closed. -/
  | arrive (c : Scene σ J) {x : Waiting J} (h : x ∈ (w.scheduler c.state).waiting)
    (hdue : x.due ≤ (w.scheduler c.state).now) :
    Step w size c {} { c with state := w.reschedule (·.arrive x.number) c.state }
  /-- A free worker takes the next job. -/
  | take (c : Scene σ J) {e : Entry J} {rest : Scheduler J} (hfree : c.running.length < size)
    (h : (w.scheduler c.state).pick? = some (e, rest)) :
    Step w size c {} ⟨w.reschedule (fun _ => rest) c.state, .picked e :: c.running⟩
  /-- A worker goes on with its job. -/
  | work (c : Scene σ J) {before after : List (Stage σ J)} {stage : Stage σ J}
    {t : Accounting.Tally J} {s : σ} {next : Option (Stage σ J)}
    (hstage : c.running = before ++ stage :: after) (h : Move w c.state stage t s next) :
    Step w size c { begun := beganAt (w.scheduler c.state).now stage }
      ⟨s, before ++ next.toList ++ after⟩

/-- So many steps, and what is noted of all of them. -/
inductive Run (w : Works σ J) (size : Nat) : Scene σ J → Diary J → Scene σ J → Prop
  | refl (c : Scene σ J) : Run w size c {} c
  | tail {c d e : Scene σ J} {t u : Diary J} (h : Run w size c t d) (hs : Step w size d u e) :
    Run w size c (t ++ u) e

/-- Apart from the clock, these are the steps of the scheduler's account. -/
theorem Step.accounting {w : Works σ J} {size : Nat} {c d : Scene σ J} {diary : Diary J}
    (h : Step w size c diary d) : ∃ t, Accounting.Step w size c t d := by
  cases h with
  | outside h =>
    obtain ⟨jobs, hjobs⟩ := h.takesIn
    exact ⟨_, .outside c hjobs⟩
  | pass time h => exact ⟨_, .pass c h⟩
  | @arrive x h hdue =>
    cases hclosed : (w.scheduler c.state).isClosed with
    | false => exact ⟨_, .arrive c h hdue hclosed⟩
    | true => exact ⟨_, .drop c h hdue hclosed⟩
  | take hfree h => exact ⟨_, .take c hfree h⟩
  | work hstage h => exact ⟨_, .work c hstage h⟩

/-! ## Deadlines -/

/-- The time after which an attempt is late. -/
def deadline? (e : Entry J) : Option Nat :=
  e.first.bind fun first => e.retry.window.map fun window => first + window.toNat

theorem mem_deadline?_iff {e : Entry J} {deadline : Nat} :
    deadline ∈ deadline? e ↔ ∃ first window, e.first = some first ∧
      e.retry.window = some window ∧ first + window.toNat = deadline := by
  simp only [deadline?, Option.mem_def, Option.bind_eq_some_iff, Option.map_eq_some_iff]
  constructor
  · rintro ⟨first, hfirst, window, hwindow, hsum⟩
    exact ⟨first, window, hfirst, hwindow, hsum⟩
  · rintro ⟨first, window, hfirst, hwindow, hsum⟩
    exact ⟨first, hfirst, window, hwindow, hsum⟩

/-- **The next attempt is planned within the window.** -/
theorem next?_within {e : Entry J} {now due : Nat} (h : e.next? now = some due) :
    now ≤ due ∧ ∀ window, e.retry.window = some window →
      due ≤ e.first.getD now + window.toNat := by
  unfold Entry.next? RetryPolicy.next? at h
  by_cases htries : e.attempts < e.retry.tries.toNat
  · simp only [htries, if_true] at h
    cases hwindow : e.retry.window with
    | none =>
      simp only [hwindow] at h
      obtain rfl := Option.some.inj h
      exact ⟨Nat.le_add_right now _, nofun⟩
    | some window =>
      simp only [hwindow] at h
      split at h
      · rename_i hin
        obtain rfl := Option.some.inj h
        refine ⟨Nat.le_add_right now _, fun other hother => ?_⟩
        rwa [← Option.some.inj hother]
      · cases h
  · simp only [htries, if_false] at h
    cases h

/-- All the time from a deadline on, the job queued up and all workers were busy. -/
def Excused (size : Nat) (d : Diary J) (job : J) (deadline now : Nat) : Prop :=
  ∀ u, deadline ≤ u → u < now →
    ∃ p ∈ d.stretches, p.start ≤ u ∧ u < p.stop ∧ size ≤ p.busy ∧ job ∈ p.queued

/-- The first attempt of a job began when its entry says. -/
def IsNoted (d : Diary J) (e : Entry J) : Prop :=
  match e.first with
  | none => e.attempts = 0
  | some first => ∃ b ∈ d.begun, b.entry.job = e.job ∧ b.entry.attempts = 1 ∧ b.time = first

/-- A job that queues up, or was just given to a worker. -/
structure IsReady (size : Nat) (d : Diary J) (now : Nat) (e : Entry J) : Prop where
  noted : IsNoted d e
  excused : ∀ deadline ∈ deadline? e, Excused size d e.job deadline now

/-- A job that waits: its timer is not over, and it is set within the window. -/
structure IsPlanned (d : Diary J) (now : Nat) (x : Waiting J) : Prop where
  noted : IsNoted d x.entry
  due : now ≤ x.due
  intime : ∀ deadline ∈ deadline? x.entry, x.due ≤ deadline

section Growing

variable {size now : Nat} {d : Diary J} {e : Entry J}

theorem Excused.mono {job : J} {deadline : Nat} (h : Excused size d job deadline now)
    (u : Diary J) : Excused size (d ++ u) job deadline now := by
  intro instant hfrom hto
  obtain ⟨p, hp, hcovers⟩ := h instant hfrom hto
  exact ⟨p, List.mem_append_left _ hp, hcovers⟩

theorem IsNoted.mono (h : IsNoted d e) (u : Diary J) : IsNoted (d ++ u) e := by
  unfold IsNoted at h ⊢
  split at h
  · exact h
  · obtain ⟨b, hb, hfirst⟩ := h
    exact ⟨b, List.mem_append_left _ hb, hfirst⟩

theorem IsReady.mono (h : IsReady size d now e) (u : Diary J) : IsReady size (d ++ u) now e :=
  ⟨h.noted.mono u, fun deadline hdeadline => (h.excused deadline hdeadline).mono u⟩

/-- A planned job whose timer is over needs no excuse. -/
theorem IsPlanned.isReady {x : Waiting J} (h : IsPlanned d now x) (hdue : x.due ≤ now) :
    IsReady size d now x.entry := by
  refine ⟨h.noted, fun deadline hdeadline instant hfrom hto => ?_⟩
  have hintime := h.intime deadline hdeadline
  have htimer := h.due
  omega

/-- A job that has not been tried yet has no deadline. -/
theorem isPlanned_new (d : Diary J) (job : J) (queue : Queue) (retry : RetryPolicy)
    (number delay : Nat) : IsPlanned d now ⟨number, now + delay, { job, queue, retry }⟩ :=
  ⟨rfl, Nat.le_add_right now delay, fun _ h => nomatch h⟩

/-- A retry is planned within the window. -/
theorem isPlanned_retry (h : IsNoted d e) {due : Nat} (hnext : e.next? now = some due)
    (number : Nat) : IsPlanned d now ⟨number, due, e⟩ := by
  obtain ⟨hdue, hwithin⟩ := next?_within hnext
  refine ⟨h, hdue, fun deadline hdeadline => ?_⟩
  obtain ⟨first, window, hfirst, hwindow, rfl⟩ := mem_deadline?_iff.mp hdeadline
  have hlimit := hwithin window hwindow
  rwa [hfirst, Option.getD_some] at hlimit

end Growing

/-! ## The scheduler -/

/-- **Planned jobs are within their windows, and those that queue up are excused.** -/
structure OnTime (size : Nat) (d : Diary J) (s : Scheduler J) : Prop where
  numbered : s.IsNumbered
  waiting : ∀ x ∈ s.waiting, IsPlanned d s.now x
  queued : ∀ e ∈ s.queued, IsReady size d s.now e

namespace OnTime

variable {size : Nat} {d : Diary J} {s t : Scheduler J}

theorem mono (h : OnTime size d s) (u : Diary J) : OnTime size (d ++ u) s where
  numbered := h.numbered
  waiting x hx := ⟨(h.waiting x hx).noted.mono u, (h.waiting x hx).due, (h.waiting x hx).intime⟩
  queued e he := (h.queued e he).mono u

theorem delayUntil (h : OnTime size d s) {due : Nat} {e : Entry J}
    (he : IsPlanned d s.now ⟨s.issued, due, e⟩) : OnTime size d (s.delayUntil due e) where
  numbered := Scheduler.delayUntil_isNumbered h.numbered due e
  waiting x hx := by
    rcases List.mem_append.mp hx with hx | hx
    · exact h.waiting x hx
    · rw [List.mem_singleton.mp hx]
      exact he
  queued := h.queued

theorem finish (h : OnTime size d s) : OnTime size d s.finish :=
  ⟨⟨h.numbered.numbers, h.numbered.issued⟩, h.waiting, h.queued⟩

theorem gains (h : OnTime size d s) (ht : s.Gains t) : OnTime size d t := by
  induction ht with
  | nothing => exact h
  | @dispatch t _ job queue retry delay ih =>
    obtain ⟨hnumbered, hwaiting, hqueued⟩ := ih.delayUntil (isPlanned_new d job queue retry _ delay)
    exact ⟨⟨hnumbered.numbers, hnumbered.issued⟩, hwaiting, hqueued⟩
  | close _ ih => exact ⟨⟨ih.numbered.numbers, ih.numbered.issued⟩, ih.waiting, ih.queued⟩

theorem arrive (h : OnTime size d s) {x : Waiting J} (hx : x ∈ s.waiting) (hdue : x.due ≤ s.now) :
    OnTime size d (s.arrive x.number) := by
  have hnumbered := Scheduler.arrive_isNumbered h.numbered x.number
  have hkept : ∀ y ∈ s.waiting.filter (·.number != x.number), IsPlanned d s.now y :=
    fun y hy => h.waiting y (List.mem_of_mem_filter hy)
  unfold Scheduler.arrive at hnumbered ⊢
  rw [Scheduler.find_number h.numbered.numbers hx] at hnumbered ⊢
  simp only at hnumbered ⊢
  by_cases hclosed : s.isClosed = true
  · rw [if_pos hclosed] at hnumbered ⊢
    exact ⟨hnumbered, hkept, h.queued⟩
  · rw [if_neg hclosed] at hnumbered ⊢
    refine ⟨hnumbered, hkept, fun e he => ?_⟩
    rcases List.mem_append.mp he with he | he
    · exact h.queued e he
    · rw [List.mem_singleton.mp he]
      exact (h.waiting x hx).isReady hdue

/-- What is picked has queued up. -/
theorem pick (h : OnTime size d s) {e : Entry J} (hpick : s.pick? = some (e, t)) :
    OnTime size d t ∧ IsReady size d t.now e := by
  have hperm := Scheduler.pick?_entries hpick
  obtain ⟨⟨found, rest⟩, hfound, heq⟩ := Option.map_eq_some_iff.mp hpick
  obtain ⟨rfl, rfl⟩ := Prod.mk.inj heq
  have hqueued : s.queued.Perm (found :: rest) := by
    have hall := hperm.trans List.perm_middle.symm
    exact (List.perm_append_left_iff _).mp hall
  refine ⟨⟨⟨h.numbered.numbers, h.numbered.issued⟩, h.waiting, fun other hother => ?_⟩, ?_⟩
  · exact h.queued other (hqueued.mem_iff.mpr (List.mem_cons_of_mem _ hother))
  · exact h.queued found (hqueued.mem_iff.mpr List.mem_cons_self)

/-- **Time passes.** What queues up has an excuse for it, if all workers are busy. -/
theorem pass (h : OnTime size d s) {time busy : Nat} (hdue : ∀ x ∈ s.waiting, time ≤ x.due)
    (hbusy : s.queued ≠ [] → size ≤ busy) :
    OnTime size (d ++ { stretches := [⟨s.now, time, busy, s.queued.map (·.job)⟩] })
      { s with now := time } where
  numbered := ⟨h.numbered.numbers, h.numbered.issued⟩
  waiting x hx := ⟨(h.waiting x hx).noted.mono _, hdue x hx, (h.waiting x hx).intime⟩
  queued e he := by
    refine ⟨(h.queued e he).noted.mono _, fun deadline hdeadline instant hfrom hto => ?_⟩
    by_cases hbefore : instant < s.now
    · exact ((h.queued e he).excused deadline hdeadline).mono _ instant hfrom hbefore
    · refine ⟨_, List.mem_append_right _ List.mem_cons_self, Nat.le_of_not_lt hbefore, hto,
        hbusy ?_, List.mem_map_of_mem he⟩
      exact List.ne_nil_of_mem he

end OnTime

/-! ## Workers -/

/-- What is known of a worker. -/
def Fits (w : Works σ J) (size : Nat) (d : Diary J) (now : Nat) : Stage σ J → Prop
  | .picked e => IsReady size d now e
  | .running e rest => IsNoted d e ∧ rest.Changes w.Gaining
  | .reporting _ rest => rest.Changes w.Gaining

/-- What is known of an attempt that began. -/
structure IsExcused (size : Nat) (d : Diary J) (b : Began J) : Prop where
  noted : IsNoted d b.entry
  first : b.entry.first.isSome = true
  excused : ∀ deadline ∈ deadline? b.entry, Excused size d b.entry.job deadline b.time

/-- **What is known at all times.** -/
structure Inv (w : Works σ J) (size : Nat) (d : Diary J) (c : Scene σ J) : Prop where
  onTime : OnTime size d (w.scheduler c.state)
  running : ∀ stage ∈ c.running, Fits w size d (w.scheduler c.state).now stage
  begun : ∀ b ∈ d.begun, IsExcused size d b

section Workers

variable {w : Works σ J} {size now : Nat} {d : Diary J}

theorem Fits.mono {stage : Stage σ J} (h : Fits w size d now stage) (u : Diary J) :
    Fits w size (d ++ u) now stage := by
  cases stage with
  | picked e => exact IsReady.mono h u
  | running e rest => exact ⟨h.1.mono u, h.2⟩
  | reporting e rest => exact h

/-- A worker that has begun does not care for the time. -/
theorem Fits.later {stage : Stage σ J} (h : Fits w size d now stage)
    (hbegun : ∀ e, stage ≠ .picked e) (later : Nat) : Fits w size d later stage := by
  cases stage with
  | picked e => exact absurd rfl (hbegun e)
  | running e rest => exact h
  | reporting e rest => exact h

theorem IsExcused.mono {b : Began J} (h : IsExcused size d b) (u : Diary J) :
    IsExcused size (d ++ u) b :=
  ⟨h.noted.mono u, h.first, fun deadline hdeadline => (h.excused deadline hdeadline).mono u⟩

/-- **An attempt begins.** If it is the first one, it is noted as such and on time. -/
theorem begins {e : Entry J} (h : IsReady size d now e) :
    IsExcused size (d ++ { begun := [⟨e.begin now, now⟩] }) ⟨e.begin now, now⟩ := by
  have hself : (⟨e.begin now, now⟩ : Began J) ∈
      (d ++ { begun := [⟨e.begin now, now⟩] } : Diary J).begun :=
    List.mem_append_right _ List.mem_cons_self
  obtain ⟨hnoted, hexcused⟩ := h
  cases hfirst : e.first with
  | none =>
    have hattempts : e.attempts = 0 := by
      unfold IsNoted at hnoted
      rwa [hfirst] at hnoted
    have hbegin : (e.begin now).first = some now := by rw [Entry.begin, hfirst, Option.getD_none]
    refine ⟨?_, by rw [hbegin]; rfl, fun deadline hdeadline instant hfrom hto => ?_⟩
    · unfold IsNoted
      rw [hbegin]
      exact ⟨_, hself, rfl, by rw [Entry.begin, hattempts], rfl⟩
    · obtain ⟨first, window, hfirst', -, rfl⟩ := mem_deadline?_iff.mp hdeadline
      obtain rfl := Option.some.inj (hbegin.symm.trans hfirst')
      simp only at hto
      omega
  | some first =>
    have hbegin : (e.begin now).first = some first := by
      rw [Entry.begin, hfirst, Option.getD_some]
    refine ⟨?_, by rw [hbegin]; rfl, fun deadline hdeadline => ?_⟩
    · have hnoted' := hnoted.mono { begun := [⟨e.begin now, now⟩] }
      unfold IsNoted at hnoted' ⊢
      rw [hfirst] at hnoted'
      rw [hbegin]
      exact hnoted'
    · obtain ⟨first', window, hfirst', hwindow, rfl⟩ := mem_deadline?_iff.mp hdeadline
      obtain rfl := Option.some.inj (hbegin.symm.trans hfirst')
      have hdeadline' := mem_deadline?_iff.mpr ⟨first, window, hfirst, hwindow, rfl⟩
      exact (hexcused _ hdeadline').mono _

/-- What comes of a worker that goes on. -/
structure GoesOn (w : Works σ J) (size : Nat) (d : Diary J) (s s' : σ)
    (next : Option (Stage σ J)) (begun : List (Began J)) : Prop where
  onTime : OnTime size (d ++ { begun := begun }) (w.scheduler s')
  now : (w.scheduler s').now = (w.scheduler s).now
  running : ∀ stage ∈ next, Fits w size (d ++ { begun := begun }) (w.scheduler s).now stage
  begun : ∀ b ∈ begun, IsExcused size (d ++ { begun := begun }) b

/-- An attempt that failed without anything to report is followed by the one that is planned. -/
theorem settle_of_retry (hw : w.DispatchesNew) {s : σ} {e : Entry J} {failure : Failure}
    (hskip : failure.isConfiguration = false) (h : (w.settle e (.error failure) s).1 = none) :
    ∃ due, e.next? (w.scheduler s).now = some due ∧
      w.scheduler (w.settle e (.error failure) s).2 = (w.scheduler s).delayUntil due e := by
  simp only [Works.settle, hskip, Bool.false_eq_true, if_false] at h ⊢
  split at h
  · rename_i due hdue
    refine ⟨due, ?_, ?_⟩
    · split at hdue
      · exact hdue
      · cases hdue
    · simp only [hw.isLawful.scheduler_reschedule, hw.scheduler_count]
  · cases h

/-- **A worker goes on.** -/
theorem goesOn_of_move (hw : w.DispatchesNew) {s s' : σ} {stage : Stage σ J}
    {t : Accounting.Tally J} {next : Option (Stage σ J)} (h : Move w s stage t s' next)
    (hon : OnTime size d (w.scheduler s)) (hstage : Fits w size d (w.scheduler s).now stage) :
    GoesOn w size d s s' next (beganAt (w.scheduler s).now stage) := by
  have hkept := hon.mono { begun := [] }
  have hfinished : ∀ {s' : σ} {next : Option (Stage σ J)},
      w.scheduler s' = (w.scheduler s).finish → next = none → GoesOn w size d s s' next [] := by
    rintro s' next hs' rfl
    exact ⟨by rw [hs']; exact hkept.finish, by rw [hs']; rfl, nofun, nofun⟩
  cases h with
  | begin e =>
    refine ⟨hon.mono _, rfl, fun stage hnext => ?_, fun b hb => ?_⟩
    · cases hnext
      exact ⟨(begins hstage).noted, hw.handle e.job (e.attempts + 1)⟩
    · rw [List.mem_singleton.mp hb]
      exact begins hstage
  | run e hgoes _ =>
    obtain ⟨hgains, hrest⟩ := Process.Changes.of_goes w.gaining_refl hstage.2 hgoes
    refine ⟨hkept.gains hgains, hgains.now_eq, fun stage hnext => ?_, nofun⟩
    cases hnext
    exact ⟨hstage.1.mono _, hrest⟩
  | complete e => exact hfinished (Accounting.settle_of_ok hw.isLawful e s) rfl
  | skip e hskip =>
    exact hfinished (Accounting.settle_of_isConfiguration hw.isLawful e hskip s) rfl
  | retry e hskip hnone =>
    obtain ⟨due, hdue, hs'⟩ := settle_of_retry hw hskip hnone
    refine ⟨?_, by rw [hs']; rfl, nofun, nofun⟩
    rw [hs']
    exact hkept.delayUntil (isPlanned_retry (hstage.1.mono _) hdue _)
  | fail e hfinal =>
    have hs' := Accounting.settle_of_some hw.isLawful e hfinal
    refine ⟨by rw [hs']; exact hkept, by rw [hs'], fun stage hnext => ?_, nofun⟩
    cases hnext
    exact hw.failed e.job _
  | report e hgoes _ =>
    obtain ⟨hgains, hrest⟩ := Process.Changes.of_goes w.gaining_refl hstage hgoes
    refine ⟨hkept.gains hgains, hgains.now_eq, fun stage hnext => ?_, nofun⟩
    cases hnext
    exact hrest
  | finish e => exact hfinished (hw.isLawful.scheduler_reschedule .finish s) rfl

end Workers

/-! ## Runs -/

section Runs

variable {w : Works σ J} {size : Nat} {d : Diary J}

/-- A step of the scheduler alone. -/
theorem Inv.of_scheduler {c : Scene σ J} (h : Inv w size d c) {s : σ}
    (hon : OnTime size d (w.scheduler s)) (hnow : (w.scheduler s).now = (w.scheduler c.state).now) :
    Inv w size (d ++ {}) { c with state := s } where
  onTime := hon.mono {}
  running stage hstage := by
    rw [hnow]
    exact (h.running stage hstage).mono {}
  begun b hb := (h.begun b (by simpa using hb)).mono {}

/-- **What a step keeps.** -/
theorem Step.inv (hw : w.DispatchesNew) {c c' : Scene σ J} {u : Diary J}
    (hstep : Step w size c u c') (h : Inv w size d c) : Inv w size (d ++ u) c' := by
  have hset := hw.isLawful.scheduler_reschedule
  cases hstep with
  | outside hgains => exact h.of_scheduler (h.onTime.gains hgains) hgains.now_eq
  | pass time hle hdue hbegun hbusy =>
    refine ⟨?_, fun stage hstage => ?_, fun b hb => ?_⟩
    · rw [hset]
      exact h.onTime.pass hdue hbusy
    · have hfits := (h.running stage hstage).later (fun e he => hbegun e (he ▸ hstage))
      exact (hfits _).mono _
    · exact (h.begun b (by simpa using hb)).mono _
  | arrive hx hdue =>
    refine h.of_scheduler ?_ ?_
    · rw [hset]
      exact h.onTime.arrive hx hdue
    · rw [hset]
      unfold Scheduler.arrive
      split
      · rfl
      · simp only
        split <;> rfl
  | @take e rest hfree hpick =>
    obtain ⟨hon, hready⟩ := h.onTime.pick hpick
    have hnow : rest.now = (w.scheduler c.state).now := by
      obtain ⟨_, _, heq⟩ := Option.map_eq_some_iff.mp hpick
      obtain ⟨-, rfl⟩ := Prod.mk.inj heq
      rfl
    refine ⟨?_, fun stage hstage => ?_, fun b hb => (h.begun b (by simpa using hb)).mono {}⟩
    · rw [hset]
      exact hon.mono {}
    · rw [hset]
      rcases List.mem_cons.mp hstage with rfl | hstage
      · exact hready.mono {}
      · rw [hnow]
        exact (h.running stage hstage).mono {}
  | @work before after stage t s next hstage hmove =>
    have hmem : stage ∈ c.running := by rw [hstage]; simp
    have hgoes := goesOn_of_move hw hmove h.onTime (h.running stage hmem)
    refine ⟨hgoes.onTime, fun other hother => ?_, fun b hb => ?_⟩
    · rw [hgoes.now]
      have hothers : other ∈ c.running ∨ other ∈ next := by
        rw [hstage]
        simp only [List.mem_append, List.mem_cons, Option.mem_toList] at hother ⊢
        tauto
      rcases hothers with hother | hother
      · exact (h.running other hother).mono _
      · exact hgoes.running other hother
    · rcases List.mem_append.mp hb with hb | hb
      · exact (h.begun b hb).mono _
      · exact hgoes.begun b hb

/-- Nothing is late where nothing has happened. -/
theorem inv_of_fresh {c : Scene σ J} (hc : Accounting.Fresh w c) : Inv w size {} c where
  onTime := by
    refine ⟨⟨?_, ?_⟩, ?_, ?_⟩
    · rw [hc.waiting]
      exact List.nodup_nil
    · rw [hc.waiting]
      nofun
    · rw [hc.waiting]
      nofun
    · rw [hc.queued]
      nofun
  running := by
    rw [hc.running]
    nofun
  begun := nofun

theorem Run.inv (hw : w.DispatchesNew) {c c' : Scene σ J} (hc : Accounting.Fresh w c)
    (hrun : Run w size c d c') : Inv w size d c' := by
  induction hrun with
  | refl => exact inv_of_fresh hc
  | tail _ hstep ih => exact hstep.inv hw ih

/-- **How late an attempt begins.** For whatever number of workers, jobs and attempts, and whatever
these take and come to: every attempt that began knows when the first one of its job did, and if it
began later than the window allows, then all the time in between the job queued up, all workers being
busy. So a job that finds a free worker whenever it queues up keeps to its window. -/
theorem late_attempts_excused (hw : w.DispatchesNew) {c c' : Scene σ J}
    (hc : Accounting.Fresh w c) (hrun : Run w size c d c') :
    ∀ b ∈ d.begun, ∃ first, b.entry.first = some first ∧
      (∃ f ∈ d.begun, f.entry.job = b.entry.job ∧ f.entry.attempts = 1 ∧ f.time = first) ∧
      ∀ window, b.entry.retry.window = some window →
        (∀ u, first + window.toNat ≤ u → u < b.time → ∃ p ∈ d.stretches,
          p.start ≤ u ∧ u < p.stop ∧ size ≤ p.busy ∧ b.entry.job ∈ p.queued) ∧
        ((∀ p ∈ d.stretches, b.entry.job ∈ p.queued → p.busy < size) →
          b.time ≤ first + window.toNat) := by
  intro b hb
  obtain ⟨hnoted, hfirst, hexcused⟩ := (hrun.inv hw hc).begun b hb
  obtain ⟨first, hfirst⟩ := Option.isSome_iff_exists.mp hfirst
  unfold IsNoted at hnoted
  rw [hfirst] at hnoted
  refine ⟨first, hfirst, hnoted, fun window hwindow => ?_⟩
  have hcovered := hexcused _ (mem_deadline?_iff.mpr ⟨first, window, hfirst, hwindow, rfl⟩)
  refine ⟨hcovered, fun hfree => Nat.le_of_not_lt fun hlate => ?_⟩
  obtain ⟨p, hp, -, -, hbusy, hqueued⟩ := hcovered _ (Nat.le_refl _) hlate
  exact absurd hbusy (Nat.not_le_of_lt (hfree p hp hqueued))

end Runs

/-! ## One worker for two jobs -/

namespace Demo

open Simulation (Bench ScriptedJob JobNote)

theorem bench_dispatchesNew : Bench.host.works.DispatchesNew where
  scheduler_set _ _ := rfl
  scheduler_count _ _ := rfl
  handle _ _ := fun _ => ⟨.nothing, trivial⟩
  failed _ _ := fun _ => ⟨.nothing, trivial⟩

/-- A job that fails at first. It is tried again after five seconds, within ten. -/
def flaky : Entry ScriptedJob where
  job := { name := "flaky", script := [{ failure := some (.transport "x") }] }
  queue := .security
  retry := ⟨3, [5], some 10⟩

/-- A job that takes twenty seconds. -/
def slow : Entry ScriptedJob where
  job := { name := "slow", script := [{ takes := 20 }] }
  queue := .security
  retry := .single

/-- The bench at a time, with what has been noted. -/
def bench (now : Nat) (waiting : List (Waiting ScriptedJob)) (queued : List (Entry ScriptedJob))
    (notes : List (Nat × JobNote)) : Bench where
  scheduler := { now, issued := 3, waiting, queued, pending := 2 }
  counters := ({} : Counters).tick (.jobs .retried)
  notes := notes

/-- What was noted of the attempts that began. -/
def diary : Diary ScriptedJob where
  begun := [⟨flaky.begin 0, 0⟩, ⟨slow.begin 0, 0⟩, ⟨(flaky.begin 0).begin 20, 20⟩]
  stretches := [⟨0, 5, 1, []⟩, ⟨5, 20, 1, [flaky.job]⟩]

variable {σ J : Type} {w : Works σ J}

/-- The only worker goes on. -/
theorem goOn {c : Scene σ J} {d : Diary J} {s s' : σ} {stage : Stage σ J}
    {t : Accounting.Tally J} {next : Option (Stage σ J)} (hrun : Run w 1 c d ⟨s, [stage]⟩)
    (h : Move w s stage t s' next) :
    Run w 1 c (d ++ { begun := beganAt (w.scheduler s).now stage }) ⟨s', next.toList⟩ := by
  have hwork : Step w 1 ⟨s, [stage]⟩ { begun := beganAt (w.scheduler s).now stage }
      ⟨s', [] ++ next.toList ++ []⟩ := .work _ rfl h
  rw [List.nil_append, List.append_nil] at hwork
  exact .tail hrun hwork

/-- The first job fails, the second one keeps the worker. -/
theorem run_begun : Run Bench.host.works 1 ⟨{}, []⟩
    { begun := [⟨flaky.begin 0, 0⟩, ⟨slow.begin 0, 0⟩] }
    ⟨bench 0 [⟨2, 5, flaky.begin 0⟩] [] [(0, .began "slow" 1), (0, .began "flaky" 1)],
      [.running (slow.begin 0) (.wait 20 (.done (.ok ())))]⟩ := by
  have hdispatched : Run Bench.host.works 1 ⟨{}, []⟩ {}
      ⟨{ scheduler := { issued := 2, waiting := [⟨0, 0, flaky⟩, ⟨1, 0, slow⟩], pending := 2 } }, []⟩ :=
    .tail (.refl _) (.outside _ (.dispatch (.dispatch .nothing flaky.job .security flaky.retry 0)
      slow.job .security slow.retry 0))
  have harrived := Run.tail hdispatched (.arrive _ (x := ⟨0, 0, flaky⟩) (.head _) (Nat.le_refl 0))
  have hpicked := Run.tail harrived (.take _ (e := flaky) Nat.zero_lt_one rfl)
  have hbegun := goOn hpicked (.begin _ _)
  have htried := goOn (goOn hbegun (.run _ (.atomic _ _ _) .nothing))
    (.run _ (.wait _ _ _) .nothing)
  have hfailed := goOn htried (.retry _ _ rfl rfl)
  have harrived' := Run.tail hfailed (.arrive _ (x := ⟨1, 0, slow⟩) (.head _) (Nat.le_refl 0))
  have hpicked' := Run.tail harrived' (.take _ (e := slow) Nat.zero_lt_one rfl)
  exact goOn (goOn hpicked' (.begin _ _)) (.run _ (.atomic _ _ _) .nothing)

/-- The timer of the first job is over after five seconds, the second job after twenty. -/
theorem run_late : ∃ s stage, Run Bench.host.works 1 ⟨{}, []⟩ diary ⟨s, [stage]⟩ := by
  have hwaited := Run.tail run_begun (.pass _ 5 (Nat.zero_le 5)
    (fun x hx => by cases List.mem_singleton.mp hx; exact Nat.le_refl 5)
    (fun e he => by cases List.mem_singleton.mp he) fun h => absurd rfl h)
  have hqueued := Run.tail hwaited
    (.arrive _ (x := ⟨2, 5, flaky.begin 0⟩) (.head _) (Nat.le_refl 5))
  have hkept := Run.tail hqueued (.pass _ 20 (by decide) nofun
    (fun e he => by cases List.mem_singleton.mp he) fun _ => Nat.le_refl 1)
  have hdone := goOn (goOn hkept (.run _ (.wait _ _ _) .nothing)) (.complete _ _)
  have hpicked := Run.tail hdone (.take _ (e := flaky.begin 0) Nat.zero_lt_one rfl)
  exact ⟨_, _, goOn hpicked (.begin _ _)⟩

end Demo

open Simulation (Bench)

/-- The second attempt begins twenty seconds after the first one, and is excused from the tenth
on. -/
theorem late_attempts_excused_behind_slow :
    Bench.host.works.DispatchesNew ∧ Accounting.Fresh Bench.host.works ⟨{}, []⟩ ∧
      ∃ s stage, Run Bench.host.works 1 ⟨{}, []⟩ Demo.diary ⟨s, [stage]⟩ ∧
        ∀ u, 10 ≤ u → u < 20 → ∃ p ∈ Demo.diary.stretches,
          p.start ≤ u ∧ u < p.stop ∧ 1 ≤ p.busy ∧ Demo.flaky.job ∈ p.queued := by
  have hfresh : Accounting.Fresh Bench.host.works ⟨{}, []⟩ := ⟨rfl, rfl, rfl, rfl⟩
  obtain ⟨s, stage, hrun⟩ := Demo.run_late
  refine ⟨Demo.bench_dispatchesNew, hfresh, s, stage, hrun, ?_⟩
  obtain ⟨first, hfirst, -, hwindow⟩ :=
    late_attempts_excused Demo.bench_dispatchesNew hfresh hrun
      ⟨(Demo.flaky.begin 0).begin 20, 20⟩ (by simp [Demo.diary])
  obtain rfl := Option.some.inj hfirst
  exact (hwindow 10 rfl).1

/-- **An attempt begins after the window of its job is over**: one worker, and a second job that
takes longer than the window. -/
theorem attempt_begins_late :
    ∃ d s stage, Run Bench.host.works 1 ⟨{}, []⟩ d ⟨s, [stage]⟩ ∧
      ∃ b ∈ d.begun, ∃ f ∈ d.begun, f.entry.job = b.entry.job ∧ f.entry.attempts = 1 ∧
        b.entry.retry.window = some 10 ∧ f.time + 10 < b.time := by
  obtain ⟨s, stage, hrun⟩ := Demo.run_late
  exact ⟨Demo.diary, s, stage, hrun, ⟨(Demo.flaky.begin 0).begin 20, 20⟩, by simp [Demo.diary],
    ⟨Demo.flaky.begin 0, 0⟩, by simp [Demo.diary], rfl, rfl, rfl, by decide⟩

end Window

end Rampart
