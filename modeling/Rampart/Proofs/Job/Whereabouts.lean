import Rampart.Proofs.Job.Window

/-!
# Where a job is

Of all that workers, timers and dispatchers do, most is about other jobs. A job that was dispatched
is at one place, and every step either leaves it there or is one of a few turns that it takes.

* `Step`, `Run`: steps with the clock of `Window.Step`. A `Diary` also has the jobs that were
  dispatched, the attempts that ended and the failures that were reported.
* `Place`: where a job is. `Shift`: some jobs change their places, all others stay.
* `again?`, `verdict?`: what comes of an attempt that ended.
* `Turn`: what may happen to one job. **`Step.turn`**: that is what a step is for it.
-/

namespace Rampart.Course

open Accounting (Goes Move Scene Stage)
open Window (Began Stretch)

variable {σ J : Type}

/-! ## Notes -/

/-- An attempt that ended. -/
structure Ended (J : Type) where
  entry : Entry J
  time : Nat
  result : Except Failure Unit

/-- What is noted of jobs. -/
structure Notes (J : Type) where
  begun : List (Began J) := []
  ended : List (Ended J) := []
  /-- Jobs that were called to report a failure. -/
  called : List (J × Failure) := []

namespace Notes

instance : Append (Notes J) where
  append n m := ⟨n.begun ++ m.begun, n.ended ++ m.ended, n.called ++ m.called⟩

@[simp] theorem begun_append (n m : Notes J) : (n ++ m).begun = n.begun ++ m.begun := rfl

@[simp] theorem ended_append (n m : Notes J) : (n ++ m).ended = n.ended ++ m.ended := rfl

@[simp] theorem called_append (n m : Notes J) : (n ++ m).called = n.called ++ m.called := rfl

@[simp] theorem append_nothing (n : Notes J) : n ++ {} = n := by
  obtain ⟨begun, ended, called⟩ := n
  show (⟨begun ++ [], ended ++ [], called ++ []⟩ : Notes J) = _
  rw [List.append_nil, List.append_nil, List.append_nil]

/-- What is noted of one job. -/
def about [DecidableEq J] (job : J) (n : Notes J) : Notes J where
  begun := n.begun.filter (·.entry.job = job)
  ended := n.ended.filter (·.entry.job = job)
  called := n.called.filter (·.1 = job)

@[simp] theorem about_append [DecidableEq J] (job : J) (n m : Notes J) :
    (n ++ m).about job = n.about job ++ m.about job := by
  unfold about
  rw [begun_append, ended_append, called_append, List.filter_append, List.filter_append,
    List.filter_append]
  rfl

end Notes

/-- What is noted of a run. -/
structure Diary (J : Type) extends Notes J where
  dispatched : List J := []
  stretches : List (Stretch J) := []

namespace Diary

instance : Append (Diary J) where
  append d e := ⟨d.toNotes ++ e.toNotes, d.dispatched ++ e.dispatched, d.stretches ++ e.stretches⟩

@[simp] theorem toNotes_append (d e : Diary J) : (d ++ e).toNotes = d.toNotes ++ e.toNotes := rfl

@[simp] theorem dispatched_append (d e : Diary J) :
    (d ++ e).dispatched = d.dispatched ++ e.dispatched := rfl

@[simp] theorem stretches_append (d e : Diary J) :
    (d ++ e).stretches = d.stretches ++ e.stretches := rfl

end Diary

/-! ## Steps -/

/-- What is noted when a worker goes on. -/
def note (w : Works σ J) (s : σ) : Stage σ J → Notes J
  | .picked e => { begun := [⟨e.begin (w.scheduler s).now, (w.scheduler s).now⟩] }
  | .running e (.done result) =>
    { ended := [⟨e, (w.scheduler s).now, result⟩]
      called := (w.settle e result s).1.toList.map (e.job, ·) }
  | .running _ _ | .reporting _ _ => {}

/-- **One step**, where there are `size` workers, and what is noted of it. -/
inductive Step (w : Works σ J) (size : Nat) : Scene σ J → Diary J → Scene σ J → Prop
  /-- Somebody changes the state, dispatches jobs or closes the scheduler. -/
  | outside (c : Scene σ J) {s : σ} {jobs : List J}
    (h : (w.scheduler c.state).TakesIn (w.scheduler s) jobs) :
    Step w size c { dispatched := jobs } { c with state := s }
  /-- Time passes, up to the next timer, while nobody can do anything. -/
  | pass (c : Scene σ J) (time : Nat) (h : (w.scheduler c.state).now ≤ time)
    (hdue : ∀ x ∈ (w.scheduler c.state).waiting, time ≤ x.due)
    (hbegun : ∀ e, .picked e ∉ c.running)
    (hbusy : (w.scheduler c.state).queued ≠ [] → size ≤ c.running.length) :
    Step w size c
      { stretches := [⟨(w.scheduler c.state).now, time, c.running.length,
          (w.scheduler c.state).queued.map (·.job)⟩] }
      { c with state := w.reschedule (fun s => { s with now := time }) c.state }
  /-- A job whose time has come queues up, unless the scheduler is closed. -/
  | arrive (c : Scene σ J) {x : Waiting J} (h : x ∈ (w.scheduler c.state).waiting)
    (hdue : x.due ≤ (w.scheduler c.state).now) :
    Step w size c {} { c with state := w.reschedule (·.arrive x.number) c.state }
  /-- A free worker takes the next job. -/
  | take (c : Scene σ J) {e : Entry J} {rest : Scheduler J} (hfree : c.running.length < size)
    (h : (w.scheduler c.state).pick? = some (e, rest)) :
    Step w size c {} ⟨w.reschedule (fun _ => rest) c.state, .picked e :: c.running⟩
  /-- A worker goes on with its job. -/
  | work (c : Scene σ J) {before after : List (Stage σ J)} {stage : Stage σ J}
    {t : Accounting.Tally J} {s : σ} {next : Option (Stage σ J)}
    (hstage : c.running = before ++ stage :: after) (h : Move w c.state stage t s next) :
    Step w size c { note w c.state stage with dispatched := t.dispatched }
      ⟨s, before ++ next.toList ++ after⟩

/-- So many steps, and what is noted of all of them. -/
inductive Run (w : Works σ J) (size : Nat) : Scene σ J → Diary J → Scene σ J → Prop
  | refl (c : Scene σ J) : Run w size c {} c
  | tail {c d e : Scene σ J} {t u : Diary J} (h : Run w size c t d) (hs : Step w size d u e) :
    Run w size c (t ++ u) e

/-! ## Places -/

/-- Where a job is. -/
inductive Place (J : Type)
  /-- It waits for its time. -/
  | waiting (due : Nat) (e : Entry J)
  | queued (e : Entry J)
  /-- A worker was given it. -/
  | picked (e : Entry J)
  /-- An attempt is under way. -/
  | running (e : Entry J)
  /-- It reports a failure. -/
  | reporting (e : Entry J)

namespace Place

def entry : Place J → Entry J
  | waiting _ e | queued e | picked e | running e | reporting e => e

def job (p : Place J) : J :=
  p.entry.job

/-- Time may pass up to another time, with a job at this place. -/
def Lasts (now time : Nat) : Place J → Prop
  | waiting due _ => time ≤ due
  | queued _ | picked _ => time = now
  | running _ | reporting _ => True

end Place

/-- Where a worker has its job. -/
def placeOf : Stage σ J → Place J
  | .picked e => .picked e
  | .running e _ => .running e
  | .reporting e _ => .reporting e

@[simp] theorem placeOf_job (stage : Stage σ J) : (placeOf stage).job = stage.job := by
  cases stage <;> rfl

/-- Where a scheduler has its jobs. -/
def held (s : Scheduler J) : List (Place J) :=
  s.waiting.map (fun x => .waiting x.due x.entry) ++ s.queued.map .queued

/-- Where all jobs are. -/
def places (w : Works σ J) (c : Scene σ J) : List (Place J) :=
  held (w.scheduler c.state) ++ c.running.map placeOf

/-- Where one job is. -/
def placesOf [DecidableEq J] (w : Works σ J) (job : J) (c : Scene σ J) : List (Place J) :=
  (places w c).filter (·.job = job)

/-- **Some jobs change their places**, and all others stay. -/
def Shift (old new before after : List (Place J)) : Prop :=
  ∃ rest, before.Perm (old ++ rest) ∧ after.Perm (new ++ rest)

namespace Shift

variable {old new before after : List (Place J)}

theorem append_right (h : Shift old new before after) (others : List (Place J)) :
    Shift old new (before ++ others) (after ++ others) := by
  obtain ⟨rest, hbefore, hafter⟩ := h
  refine ⟨rest ++ others, ?_, ?_⟩
  · rw [← List.append_assoc]
    exact hbefore.append_right others
  · rw [← List.append_assoc]
    exact hafter.append_right others

theorem filter (h : Shift old new before after) (keep : Place J → Bool) :
    Shift (old.filter keep) (new.filter keep) (before.filter keep) (after.filter keep) := by
  obtain ⟨rest, hbefore, hafter⟩ := h
  refine ⟨rest.filter keep, ?_, ?_⟩
  · rw [← List.filter_append]
    exact hbefore.filter keep
  · rw [← List.filter_append]
    exact hafter.filter keep

theorem filter_eq_nil [DecidableEq J] {job : J} {l : List (Place J)} (h : job ∉ l.map (·.job)) :
    l.filter (·.job = job) = [] :=
  List.filter_eq_nil_iff.mpr fun r hr hjob =>
    h (List.mem_map.mpr ⟨r, hr, of_decide_eq_true hjob⟩)

theorem eq_of_nil {p : Option (Place J)} (h : Shift [] [] p.toList after) : after = p.toList := by
  obtain ⟨rest, hbefore, hafter⟩ := h
  have hperm : after.Perm p.toList := hafter.trans hbefore.symm
  cases p with
  | none => exact hperm.eq_nil
  | some p => exact List.perm_singleton.mp hperm

theorem eq_of_singleton {p : Option (Place J)} {q : Place J} {q' : Option (Place J)}
    (h : Shift [q] q'.toList p.toList after) : p = some q ∧ after = q'.toList := by
  obtain ⟨rest, hbefore, hafter⟩ := h
  cases p with
  | none => exact absurd hbefore.symm.eq_nil (List.cons_ne_nil q rest)
  | some p =>
    obtain ⟨rfl, rfl⟩ := List.cons.inj (List.perm_singleton.mp hbefore.symm)
    refine ⟨rfl, ?_⟩
    rw [List.append_nil] at hafter
    cases q' with
    | none => exact hafter.eq_nil
    | some q' => exact List.perm_singleton.mp hafter

/-- A job that is at one place stays there while others come. -/
theorem of_filter_nil [DecidableEq J] {job : J} {p : Option (Place J)} {more : List (Place J)}
    (h : Shift [] more before after) (hmore : job ∉ more.map (·.job))
    (hp : before.filter (·.job = job) = p.toList) :
    after.filter (·.job = job) = p.toList := by
  have hfilter := h.filter (·.job = job)
  rw [hp, filter_eq_nil hmore] at hfilter
  exact hfilter.eq_of_nil

/-- **A job that is at one place** stays, or is the one that changes its place. -/
theorem of_filter [DecidableEq J] {job : J} {p : Option (Place J)} {q : Place J}
    {q' : Option (Place J)} {more : List (Place J)}
    (h : Shift [q] (q'.toList ++ more) before after)
    (hsame : ∀ r ∈ q', r.job = q.job) (hmore : job ∉ more.map (·.job))
    (hp : before.filter (·.job = job) = p.toList) :
    (q.job = job ∧ p = some q ∧ after.filter (·.job = job) = q'.toList) ∨
      (q.job ≠ job ∧ after.filter (·.job = job) = p.toList) := by
  have hfilter := h.filter (·.job = job)
  rw [hp, List.filter_append, filter_eq_nil hmore, List.append_nil] at hfilter
  by_cases hjob : q.job = job
  · have hq : [q].filter (·.job = job) = [q] := by simp [hjob]
    have hq' : q'.toList.filter (·.job = job) = q'.toList :=
      List.filter_eq_self.mpr fun r hr =>
        decide_eq_true ((hsame r (Option.mem_toList.mp hr)).trans hjob)
    rw [hq, hq'] at hfilter
    exact .inl ⟨hjob, hfilter.eq_of_singleton⟩
  · have hq : [q].filter (·.job = job) = [] := by simp [hjob]
    have hq' : q'.toList.filter (·.job = job) = [] :=
      List.filter_eq_nil_iff.mpr fun r hr hr' =>
        hjob ((hsame r (Option.mem_toList.mp hr)).symm.trans (of_decide_eq_true hr'))
    rw [hq, hq'] at hfilter
    exact .inr ⟨hjob, hfilter.eq_of_nil⟩

end Shift

/-! ## What the scheduler does with places -/

section Held

variable {s t : Scheduler J}

theorem held_delayUntil (s : Scheduler J) (due : Nat) (e : Entry J) :
    (held (s.delayUntil due e)).Perm (.waiting due e :: held s) := by
  unfold held Scheduler.delayUntil
  rw [List.map_append, List.append_assoc]
  exact List.perm_middle

/-- What is dispatched waits, and nothing else changes. -/
theorem held_takesIn {jobs : List J} (h : s.TakesIn t jobs) :
    (∃ more : List (Place J), more.map (·.job) = jobs ∧ (held t).Perm (more ++ held s)) ∧
      t.now = s.now ∧ (t.isClosed = false → s.isClosed = false) := by
  induction h with
  | nothing => exact ⟨⟨[], rfl, .refl _⟩, rfl, id⟩
  | @dispatch t jobs _ e delay ih =>
    obtain ⟨⟨more, hjobs, hheld⟩, hnow, hopen⟩ := ih
    refine ⟨⟨more ++ [.waiting (t.now + delay) e], ?_, ?_⟩, hnow, hopen⟩
    · rw [List.map_append, hjobs]
      rfl
    · refine (held_delayUntil t (t.now + delay) e).trans ?_
      rw [List.append_assoc]
      exact (hheld.cons _).trans List.perm_middle.symm
  | close _ ih => exact ⟨ih.1, ih.2.1, nofun⟩

/-- At an open scheduler a job that arrives queues up. -/
theorem held_arrive (hs : s.IsNumbered) (hopen : s.isClosed = false) {x : Waiting J}
    (hx : x ∈ s.waiting) :
    Shift [.waiting x.due x.entry] [.queued x.entry] (held s) (held (s.arrive x.number)) := by
  have hwaiting := (Scheduler.perm_cons_filter_number hs.numbers hx).map
    fun x : Waiting J => Place.waiting x.due x.entry
  rw [Scheduler.arrive_eq ⟨hopen, hs.numbers, hs.issued⟩ hx]
  refine ⟨held { s with waiting := s.waiting.filter (·.number != x.number) },
    hwaiting.append_right _, ?_⟩
  unfold held
  rw [List.map_append, ← List.append_assoc]
  exact List.perm_append_singleton _ _

theorem isClosed_arrive (s : Scheduler J) (number : Nat) :
    (s.arrive number).isClosed = s.isClosed ∧ (s.arrive number).now = s.now := by
  unfold Scheduler.arrive
  split
  · exact ⟨rfl, rfl⟩
  · simp only
    split <;> exact ⟨rfl, rfl⟩

/-- A job that is picked no longer queues up. -/
theorem held_pick {e : Entry J} (h : s.pick? = some (e, t)) :
    (held s).Perm (.queued e :: held t) ∧ t.now = s.now ∧ t.isClosed = s.isClosed := by
  obtain ⟨⟨found, rest⟩, hfound, heq⟩ := Option.map_eq_some_iff.mp h
  obtain ⟨rfl, rfl⟩ := Prod.mk.inj heq
  obtain ⟨queue, _, htake⟩ := List.exists_of_findSome?_eq_some hfound
  refine ⟨?_, rfl, rfl⟩
  unfold held
  exact (((Scheduler.takeFirst?_perm htake).map Place.queued).append_left _).trans
    List.perm_middle

end Held

/-! ## The end of an attempt -/

/-- **When a job is tried again** after an attempt that ended, if it is. -/
def again? (e : Entry J) (now : Nat) : Except Failure Unit → Option Nat
  | .ok () => none
  | .error failure => if failure.isRetryable then e.next? now else none

/-- **What a job is called with** when it is not tried again. -/
def verdict? (name : J → String) (e : Entry J) : Except Failure Unit → Option Failure
  | .ok () => none
  | .error failure =>
    if failure.isConfiguration then none
    else some (.permanent
      s!"{name e.job} failed after {e.attempts} attempt(s): {failure.message}")

theorem again?_of_isConfiguration {failure : Failure} (h : failure.isConfiguration = true)
    (e : Entry J) (now : Nat) : again? e now (.error failure) = none := by
  cases failure with
  | configuration => rfl
  | _ => cases h

section Settling

variable {w : Works σ J} {s : σ} {e : Entry J} {result : Except Failure Unit}

/-- **An attempt that is followed by another one**: the job waits for it. -/
theorem settle_of_again (hw : w.IsLawful) {due : Nat}
    (h : again? e (w.scheduler s).now result = some due) :
    (w.settle e result s).1 = none ∧
      w.scheduler (w.settle e result s).2 = (w.scheduler s).delayUntil due e := by
  cases result with
  | ok => cases h
  | error failure =>
    have hskip : failure.isConfiguration = false :=
      Bool.eq_false_iff.mpr fun hskip => by
        rw [again?_of_isConfiguration hskip] at h
        cases h
    rw [again?] at h
    simp only [Works.settle, hskip, Bool.false_eq_true, if_false, h,
      hw.scheduler_reschedule, hw.scheduler_count, and_self]

/-- An attempt that is the last one. -/
theorem settle_of_over (h : again? e (w.scheduler s).now result = none) :
    (w.settle e result s).1 = verdict? w.name e result := by
  cases result with
  | ok => rfl
  | error failure =>
    rw [again?] at h
    simp only [Works.settle, verdict?, h]
    split <;> rfl

end Settling

/-! ## Turns -/

/-- **What may happen to one job**, with the time before and after, and what is noted of it. -/
inductive Turn (name : J → String) :
    Nat → Option (Place J) → Notes J → Nat → Option (Place J) → Prop
  | stay (now : Nat) (p : Option (Place J)) : Turn name now p {} now p
  | pass {now time : Nat} {p : Option (Place J)} (h : ∀ q ∈ p, q.Lasts now time) :
    Turn name now p {} time p
  | arrive {now due : Nat} (e : Entry J) (h : due ≤ now) :
    Turn name now (some (.waiting due e)) {} now (some (.queued e))
  | take (now : Nat) (e : Entry J) :
    Turn name now (some (.queued e)) {} now (some (.picked e))
  | begin (now : Nat) (e : Entry J) :
    Turn name now (some (.picked e)) { begun := [⟨e.begin now, now⟩] } now
      (some (.running (e.begin now)))
  | again {now due : Nat} {e : Entry J} {result : Except Failure Unit}
    (h : again? e now result = some due) :
    Turn name now (some (.running e)) { ended := [⟨e, now, result⟩] } now
      (some (.waiting due e))
  | last {now : Nat} {e : Entry J} {result : Except Failure Unit} {p : Option (Place J)}
    (h : again? e now result = none) (hp : ∀ q ∈ p, q = .reporting e) :
    Turn name now (some (.running e))
      { ended := [⟨e, now, result⟩], called := (verdict? name e result).toList.map (e.job, ·) }
      now p
  | finish (now : Nat) (e : Entry J) : Turn name now (some (.reporting e)) {} now none

section Moves

variable {w : Works σ J} {s s' : σ}

theorem note_of_goes {e : Entry J} {p p' : Process σ (Except Failure Unit)} (h : Goes s p s' p') :
    note w s (.running e p) = {} := by
  cases h <;> rfl

/-- What is noted of an attempt that is the last one. -/
theorem note_of_over {e : Entry J} {result : Except Failure Unit}
    (h : again? e (w.scheduler s).now result = none) :
    note w s (.running e (.done result)) =
      { ended := [⟨e, (w.scheduler s).now, result⟩]
        called := (verdict? w.name e result).toList.map (e.job, ·) } := by
  rw [note, settle_of_over h]

/-- What is noted of an attempt that is followed by another one. -/
theorem note_of_again (hw : w.IsLawful) {e : Entry J} {result : Except Failure Unit} {due : Nat}
    (h : again? e (w.scheduler s).now result = some due) :
    note w s (.running e (.done result)) =
      { ended := [⟨e, (w.scheduler s).now, result⟩] } := by
  rw [note, (settle_of_again hw h).1]
  rfl

/-- What is noted is about the job that the worker is at. -/
theorem about_note [DecidableEq J] (job : J) (stage : Stage σ J) :
    (note w s stage).about job = if stage.job = job then note w s stage else {} := by
  cases stage with
  | picked e =>
    show _ = if e.job = job then _ else _
    have hjob : (e.begin (w.scheduler s).now).job = e.job := rfl
    by_cases h : e.job = job <;> simp [note, Notes.about, hjob, h]
  | running e rest =>
    cases rest with
    | done result =>
      show _ = if e.job = job then _ else _
      by_cases h : e.job = job <;> simp [note, Notes.about, h]
    | _ => split <;> rfl
  | reporting e rest => split <;> rfl

/-- What a worker's move is for its job. -/
structure MoveTurn (w : Works σ J) (s : σ) (stage : Stage σ J) (t : Accounting.Tally J) (s' : σ)
    (next : Option (Stage σ J)) (place : Option (Place J)) : Prop where
  turn : Turn w.name (w.scheduler s).now (some (placeOf stage)) (note w s stage)
    (w.scheduler s).now place
  now : (w.scheduler s').now = (w.scheduler s).now
  job : ∀ q ∈ place, q.job = stage.job
  held : ∃ more : List (Place J), more.map (·.job) = t.dispatched ∧
    (held (w.scheduler s') ++ next.toList.map placeOf).Perm
      (place.toList ++ (more ++ held (w.scheduler s)))
  isOpen : (w.scheduler s').isClosed = false → (w.scheduler s).isClosed = false

/-- A worker's job stays with it, or with nobody, and the scheduler keeps what it has. -/
theorem MoveTurn.of_held {stage : Stage σ J} {next : Option (Stage σ J)}
    {outcome : List (J × Accounting.JobOutcome)} {reported : List J}
    (hturn : Turn w.name (w.scheduler s).now (some (placeOf stage)) (note w s stage)
      (w.scheduler s).now (next.map placeOf))
    (hjob : ∀ other ∈ next, other.job = stage.job)
    (hs' : w.scheduler s' = w.scheduler s ∨ w.scheduler s' = (w.scheduler s).finish) :
    MoveTurn w s stage { ended := outcome, reported := reported } s' next (next.map placeOf) := by
  have hsame : (w.scheduler s').now = (w.scheduler s).now ∧
      Course.held (w.scheduler s') = Course.held (w.scheduler s) ∧
      (w.scheduler s').isClosed = (w.scheduler s).isClosed := by
    rcases hs' with hs' | hs' <;> rw [hs'] <;> exact ⟨rfl, rfl, rfl⟩
  refine ⟨hturn, hsame.1, fun q hq => ?_, ⟨[], rfl, ?_⟩, fun h => hsame.2.2.symm.trans h⟩
  · obtain ⟨other, hother, rfl⟩ := Option.map_eq_some_iff.mp hq
    exact (placeOf_job other).trans (hjob other hother)
  · rw [hsame.2.1, Option.toList_map]
    exact List.perm_append_comm

/-- A worker does something of its job's own. -/
theorem MoveTurn.of_takesIn {stage next : Stage σ J} {jobs : List J}
    (h : (w.scheduler s).TakesIn (w.scheduler s') jobs) (hplace : placeOf next = placeOf stage)
    (hnote : note w s stage = {}) :
    MoveTurn w s stage { dispatched := jobs } s' (some next) (some (placeOf stage)) := by
  obtain ⟨⟨more, hjobs, hheld⟩, hnow, hopen⟩ := held_takesIn h
  refine ⟨?_, hnow, ?_, ⟨more, hjobs, ?_⟩, hopen⟩
  · rw [hnote]
    exact .stay _ _
  · rintro q hq
    rw [← Option.some.inj hq, placeOf_job]
  · rw [Option.toList_some, List.map_singleton, hplace]
    exact (List.perm_append_singleton _ _).trans (hheld.cons _)

/-- An attempt was the last one. -/
theorem MoveTurn.of_over {e : Entry J} {result : Except Failure Unit}
    {next : Option (Stage σ J)} {outcome : List (J × Accounting.JobOutcome)} {reported : List J}
    (h : again? e (w.scheduler s).now result = none)
    (hnext : ∀ q ∈ next.map placeOf, q = .reporting e)
    (hs' : w.scheduler s' = w.scheduler s ∨ w.scheduler s' = (w.scheduler s).finish) :
    MoveTurn w s (.running e (.done result)) { ended := outcome, reported := reported } s' next
      (next.map placeOf) := by
  refine .of_held ?_ (fun other hother => ?_) hs'
  · rw [note_of_over h]
    exact .last h hnext
  · rw [← placeOf_job, hnext (placeOf other) (Option.mem_map_of_mem _ hother)]
    rfl

/-- **A worker's move is a turn of its job.** -/
theorem moveTurn_of_move (hw : w.IsLawful) {stage : Stage σ J} {t : Accounting.Tally J}
    {next : Option (Stage σ J)} (h : Move w s stage t s' next) :
    ∃ place, MoveTurn w s stage t s' next place := by
  cases h with
  | begin e => exact ⟨_, .of_held (.begin _ e) (fun _ h => by cases h; rfl) (.inl rfl)⟩
  | run e hgoes hjobs => exact ⟨_, .of_takesIn hjobs rfl (note_of_goes hgoes)⟩
  | complete e => exact ⟨_, .of_over rfl nofun (.inr (Accounting.settle_of_ok hw e s))⟩
  | skip e hskip =>
    exact ⟨_, .of_over (again?_of_isConfiguration hskip _ _) nofun
      (.inr (Accounting.settle_of_isConfiguration hw e hskip s))⟩
  | @retry e failure hskip hnone =>
    cases hagain : again? e (w.scheduler s).now (.error failure) with
    | none =>
      rw [settle_of_over hagain, verdict?, hskip] at hnone
      cases hnone
    | some due =>
      have hs' := (settle_of_again hw hagain).2
      refine ⟨some (.waiting due e), ?_, ?_, ?_, ⟨[], rfl, ?_⟩, ?_⟩
      · rw [note_of_again hw hagain]
        exact .again hagain
      · rw [hs']
        rfl
      · rintro q hq
        cases hq
        rfl
      · rw [hs', Option.toList_none, List.map_nil, List.append_nil]
        exact held_delayUntil _ due e
      · rw [hs']
        exact id
  | @fail e failure final hfinal =>
    cases hagain : again? e (w.scheduler s).now (.error failure) with
    | some due =>
      rw [(settle_of_again hw hagain).1] at hfinal
      cases hfinal
    | none =>
      exact ⟨_, .of_over hagain (fun q hq => (Option.some.inj hq).symm)
        (.inl (Accounting.settle_of_some hw e hfinal))⟩
  | report e hgoes hjobs => exact ⟨_, .of_takesIn hjobs rfl rfl⟩
  | finish e =>
    exact ⟨_, .of_held (.finish _ e) nofun (.inr (hw.scheduler_reschedule .finish s))⟩

end Moves

/-! ## Steps are turns -/

section Steps

variable {w : Works σ J} {size : Nat} {job : J}

/-- A scheduler that is closed stays closed. -/
theorem Step.isOpen (hw : w.IsLawful) {c c' : Scene σ J} {u : Diary J} (h : Step w size c u c')
    (hopen : (w.scheduler c'.state).isClosed = false) :
    (w.scheduler c.state).isClosed = false := by
  have hset := hw.scheduler_reschedule
  cases h with
  | outside hjobs => exact (held_takesIn hjobs).2.2 hopen
  | pass =>
    rw [hset] at hopen
    exact hopen
  | @arrive x =>
    rw [hset, (isClosed_arrive _ x.number).1] at hopen
    exact hopen
  | take _ hpick =>
    rw [hset, (held_pick hpick).2.2] at hopen
    exact hopen
  | work _ hmove =>
    obtain ⟨_, hmoved⟩ := moveTurn_of_move hw hmove
    exact hmoved.isOpen hopen

variable [DecidableEq J]

/-- A job is at a place, or nowhere. -/
structure IsTracked (w : Works σ J) (job : J) (c : Scene σ J) (p : Option (Place J)) : Prop where
  numbered : (w.scheduler c.state).IsNumbered
  place : placesOf w job c = p.toList

theorem IsTracked.mem {c : Scene σ J} {p : Option (Place J)} (h : IsTracked w job c p)
    {q : Place J} (hq : q ∈ p) : q ∈ places w c ∧ q.job = job := by
  have hmem : q ∈ placesOf w job c := by
    rw [h.place]
    exact Option.mem_toList.mpr hq
  obtain ⟨hplace, hjob⟩ := List.mem_filter.mp hmem
  exact ⟨hplace, of_decide_eq_true hjob⟩

/-- Time that passes leaves a job where it is, unless a timer is over or a worker is free. -/
theorem IsTracked.lasts {c : Scene σ J} {p : Option (Place J)} (hc : IsTracked w job c p)
    {time : Nat} (h : (w.scheduler c.state).now ≤ time)
    (hdue : ∀ x ∈ (w.scheduler c.state).waiting, time ≤ x.due)
    (hbegun : ∀ e, .picked e ∉ c.running)
    (hqueued : job ∈ (w.scheduler c.state).queued.map (·.job) →
      ¬ (w.scheduler c.state).now < time) :
    ∀ q ∈ p, q.Lasts (w.scheduler c.state).now time := by
  intro q hq
  obtain ⟨hplace, hjob⟩ := hc.mem hq
  rcases List.mem_append.mp hplace with hheld | hrunning
  · rcases List.mem_append.mp hheld with hwaits | hqueues
    · obtain ⟨x, hx, rfl⟩ := List.mem_map.mp hwaits
      exact hdue x hx
    · obtain ⟨e, he, rfl⟩ := List.mem_map.mp hqueues
      have hnot := hqueued (List.mem_map.mpr ⟨e, he, hjob⟩)
      exact Nat.le_antisymm (Nat.le_of_not_lt hnot) h
  · obtain ⟨stage, hstage, rfl⟩ := List.mem_map.mp hrunning
    cases stage with
    | picked e => exact absurd hstage (hbegun e)
    | running | reporting => exact trivial

/-- If a job changes its place that is a turn of this job, and all others stay. -/
theorem IsTracked.of_shift {c c' : Scene σ J} {p : Option (Place J)} (hc : IsTracked w job c p)
    (hnumbered : (w.scheduler c'.state).IsNumbered)
    (hnow : (w.scheduler c'.state).now = (w.scheduler c.state).now)
    {q : Place J} {q' : Option (Place J)} {more : List (Place J)} {n : Notes J}
    (hshift : Shift [q] (q'.toList ++ more) (places w c) (places w c'))
    (hsame : ∀ r ∈ q', r.job = q.job) (hmore : job ∉ more.map (·.job))
    (hturn : Turn w.name (w.scheduler c.state).now (some q) n (w.scheduler c.state).now q') :
    ∃ p', IsTracked w job c' p' ∧
      Turn w.name (w.scheduler c.state).now p (if q.job = job then n else {})
        (w.scheduler c'.state).now p' := by
  rw [hnow]
  rcases hshift.of_filter hsame hmore hc.place with ⟨hjob, rfl, hplace⟩ | ⟨hjob, hplace⟩
  · rw [if_pos hjob]
    exact ⟨q', ⟨hnumbered, hplace⟩, hturn⟩
  · rw [if_neg hjob]
    exact ⟨p, ⟨hnumbered, hplace⟩, .stay _ p⟩

/-- A job moves on in the scheduler, and nothing is noted of it. -/
theorem IsTracked.of_move {c c' : Scene σ J} {p : Option (Place J)} (hc : IsTracked w job c p)
    (hnumbered : (w.scheduler c'.state).IsNumbered)
    (hnow : (w.scheduler c'.state).now = (w.scheduler c.state).now) {q q' : Place J}
    (hshift : Shift [q] [q'] (places w c) (places w c')) (hsame : q'.job = q.job)
    (hturn : Turn w.name (w.scheduler c.state).now (some q) {} (w.scheduler c.state).now
      (some q')) :
    ∃ p', IsTracked w job c' p' ∧
      Turn w.name (w.scheduler c.state).now p {} (w.scheduler c'.state).now p' := by
  have hshift' : Shift [q] ((some q').toList ++ []) (places w c) (places w c') := hshift
  have hmoved := hc.of_shift hnumbered hnow hshift' (fun r hr => by cases hr; exact hsame)
    List.not_mem_nil hturn
  rwa [ite_self] at hmoved

/-- **A step is a turn of a job**, if it is not dispatched again and finds a free worker whenever it
queues up. -/
theorem Step.turn (hw : w.IsLawful) {c c' : Scene σ J} {u : Diary J} (h : Step w size c u c')
    {p : Option (Place J)} (hc : IsTracked w job c p) (honce : job ∉ u.dispatched)
    (hopen : (w.scheduler c.state).isClosed = false)
    (hfree : ∀ s ∈ u.stretches, s.start < s.stop → job ∈ s.queued → s.busy < size) :
    ∃ p', IsTracked w job c' p' ∧
      Turn w.name (w.scheduler c.state).now p (u.toNotes.about job)
        (w.scheduler c'.state).now p' := by
  have hset := hw.scheduler_reschedule
  cases h with
  | @outside s jobs hjobs =>
    obtain ⟨⟨more, rfl, hheld⟩, hnow, -⟩ := held_takesIn hjobs
    have hshift : Shift [] more (held (w.scheduler c.state)) (held (w.scheduler s)) :=
      ⟨_, .refl _, hheld⟩
    refine ⟨p, ⟨hjobs.admits.numbered hc.numbered,
      (hshift.append_right _).of_filter_nil honce hc.place⟩, ?_⟩
    rw [hnow]
    exact .stay _ p
  | pass time hle hdue hbegun hbusy =>
    -- While the job queues up no time passes: all workers would be busy.
    have hlasts := hc.lasts hle hdue hbegun fun hqueued hlt => by
      have hsize := hfree _ (.head _) hlt hqueued
      exact absurd (hbusy fun hnil => by rw [hnil] at hqueued; cases hqueued)
        (Nat.not_le_of_lt hsize)
    rw [hset]
    refine ⟨p, ⟨?_, ?_⟩, .pass hlasts⟩
    · rw [hset]
      exact ⟨hc.numbered.numbers, hc.numbered.issued⟩
    · rw [← hc.place]
      unfold placesOf places
      rw [hset]
      rfl
  | @arrive x hx hdue =>
    have hnow := (isClosed_arrive (w.scheduler c.state) x.number).2
    have hshift : Shift [.waiting x.due x.entry] [.queued x.entry] (places w c)
        (places w { c with state := w.reschedule (·.arrive x.number) c.state }) := by
      unfold places
      rw [hset]
      exact (held_arrive hc.numbered hopen hx).append_right _
    exact hc.of_move (by rw [hset]; exact Scheduler.arrive_isNumbered hc.numbered x.number)
      (by rw [hset, hnow]) hshift rfl (.arrive x.entry hdue)
  | @take e rest _ hpick =>
    obtain ⟨hheld, hnow, -⟩ := held_pick hpick
    have hshift : Shift [.queued e] [.picked e] (places w c)
        (places w ⟨w.reschedule (fun _ => rest) c.state, .picked e :: c.running⟩) := by
      unfold places
      rw [hset]
      exact ⟨_, hheld.append_right _, List.perm_middle⟩
    exact hc.of_move (by rw [hset]; exact (Scheduler.pick?_jobs hpick).2.2 hc.numbered)
      (by rw [hset, hnow]) hshift rfl (.take _ e)
  | @work before after stage t s next hstage hmove =>
    obtain ⟨q', hmoved⟩ := moveTurn_of_move hw hmove
    obtain ⟨more, hmore, hheld⟩ := hmoved.held
    have hshift : Shift [placeOf stage] (q'.toList ++ more) (places w c)
        (places w ⟨s, before ++ next.toList ++ after⟩) := by
      refine ⟨held (w.scheduler c.state) ++ (before.map placeOf ++ after.map placeOf), ?_, ?_⟩
      · unfold places
        rw [hstage, List.map_append, List.map_cons]
        exact (List.perm_middle.append_left _).trans List.perm_middle
      · classical
        refine List.perm_iff_count.mpr fun place => ?_
        have hcount := hheld.count_eq place
        simp only [places, List.map_append, List.count_append] at hcount ⊢
        omega
    have hturn := hc.of_shift ((Accounting.move_flow hw hmove).numbered hc.numbered)
      hmoved.now hshift (fun r hr => (hmoved.job r hr).trans (placeOf_job stage).symm)
      (by rw [hmore]; exact honce) hmoved.turn
    rwa [placeOf_job, ← about_note] at hturn

end Steps

end Rampart.Course
