import Rampart.Job.Attempt
import Rampart.Proofs.Execution.Step

/-!
# An attempt in stages

Jobs `J` that work on any state `σ`, one step at a time and whatever answers they get: what a worker
is doing is one of three stages of `Works.attempt`, and every step of the attempt is a move from one
stage to the next.

* `Goes`: one step of a process on any state.
* `Scheduler.TakesIn`: what jobs may do with the scheduler, which is to dispatch more of them and to
  close it. `Works.IsLawful`: jobs do nothing else with it.
* `Stage`, `Move`: what a worker is doing, and what comes next. A `Tally` notes what has happened to
  jobs.
* **`Move.goes`**, **`exists_move`**: the moves are the steps of the attempt, no more and no less.
-/

namespace Rampart

/-! ## Steps of a process -/

namespace Accounting

/-- One step of a process, with any answer from outside. -/
inductive Goes {σ α : Type} : σ → Process σ α → σ → Process σ α → Prop
  | atomic (s : σ) (update : σ → σ) (next : σ → Process σ α) :
    Goes s (.atomic update next) (update s) (next s)
  | call (s : σ) (server : Server) (c : Remote.Call) (next : Except Failure String → Process σ α)
    (answer : Except Failure String) : Goes s (.call server c next) s (next answer)
  | callAll (s : σ) (calls : List (Server × Remote.Call))
    (next : List (Except Failure String) → Process σ α) (answers : List (Except Failure String)) :
    Goes s (.callAll calls next) s (next answers)
  | tell (s : σ) (notice : Notice) (next : Except Failure Unit → Process σ α)
    (answer : Except Failure Unit) : Goes s (.tell notice next) s (next answer)
  | clock (s : σ) (next : Instant → Process σ α) (time : Instant) :
    Goes s (.clock next) s (next time)
  | fresh (s : σ) (next : String → Process σ α) {name : String} (h : Execution.IsToken name) :
    Goes s (.fresh next) s (next name)
  | wait (s : σ) (seconds : Nat) (next : Process σ α) : Goes s (.wait seconds next) s next
  | acquire (s : σ) (lock : Lock) (next : Process σ α) : Goes s (.acquire lock next) s next
  | release (s : σ) (lock : Lock) (next : Process σ α) : Goes s (.release lock next) s next

namespace Goes

variable {σ α β : Type} {s s' : σ}

theorem of_atomic {update : σ → σ} {next : σ → Process σ α} {p' : Process σ α}
    (h : Goes s (.atomic update next) s' p') : s' = update s ∧ p' = next s := by
  cases h
  exact ⟨rfl, rfl⟩

/-- A step of a process is one of it together with what follows. -/
theorem bind {p p' : Process σ α} (h : Goes s p s' p') (f : α → Process σ β) :
    Goes s (p.bind f) s' (p'.bind f) := by
  cases h with
  | atomic update next => exact .atomic s update fun s => (next s).bind f
  | call server c next answer => exact .call s server c (fun a => (next a).bind f) answer
  | callAll calls next answers => exact .callAll s calls (fun a => (next a).bind f) answers
  | tell notice next answer => exact .tell s notice (fun a => (next a).bind f) answer
  | clock next time => exact .clock s (fun a => (next a).bind f) time
  | fresh next hname => exact .fresh s (fun a => (next a).bind f) hname
  | wait seconds => exact .wait s seconds (p'.bind f)
  | acquire lock => exact .acquire s lock (p'.bind f)
  | release lock => exact .release s lock (p'.bind f)

/-- **One process after another**: the first takes a step, or it has ended and the second does. -/
theorem of_bind {p : Process σ α} {f : α → Process σ β} {q : Process σ β}
    (h : Goes s (p.bind f) s' q) :
    (∃ a, p = .done a ∧ Goes s (f a) s' q) ∨ ∃ p', Goes s p s' p' ∧ q = p'.bind f := by
  cases p with
  | done a => exact .inl ⟨a, rfl, h⟩
  | atomic update next => cases h; exact .inr ⟨_, .atomic s update next, rfl⟩
  | call server c next => cases h; exact .inr ⟨_, .call s server c next _, rfl⟩
  | callAll calls next => cases h; exact .inr ⟨_, .callAll s calls next _, rfl⟩
  | tell notice next => cases h; exact .inr ⟨_, .tell s notice next _, rfl⟩
  | clock next => cases h; exact .inr ⟨_, .clock s next _, rfl⟩
  | fresh next => cases h with
    | fresh _ hname => exact .inr ⟨_, .fresh s next hname, rfl⟩
  | wait seconds next => cases h; exact .inr ⟨_, .wait s seconds next, rfl⟩
  | acquire lock next => cases h; exact .inr ⟨_, .acquire s lock next, rfl⟩
  | release lock next => cases h; exact .inr ⟨_, .release s lock next, rfl⟩

end Goes

end Accounting

namespace Process

variable {σ α : Type}

/-- All changes that a process makes are of a kind. -/
def Changes (change : σ → σ → Prop) : Process σ α → Prop
  | .done _ => True
  | .atomic update next => ∀ s, change s (update s) ∧ (next s).Changes change
  | .call _ _ next => ∀ answer, (next answer).Changes change
  | .callAll _ next => ∀ answers, (next answers).Changes change
  | .tell _ next => ∀ answer, (next answer).Changes change
  | .clock next => ∀ time, (next time).Changes change
  | .fresh next => ∀ name, Execution.IsToken name → (next name).Changes change
  | .wait _ next => next.Changes change
  | .acquire _ next => next.Changes change
  | .release _ next => next.Changes change

theorem Changes.of_goes {change : σ → σ → Prop} (hidle : ∀ s, change s s) {s s' : σ}
    {p p' : Process σ α} (hp : p.Changes change) (h : Accounting.Goes s p s' p') :
    change s s' ∧ p'.Changes change := by
  cases h with
  | atomic update next => exact hp s
  | call server c next answer => exact ⟨hidle s, hp answer⟩
  | callAll calls next answers => exact ⟨hidle s, hp answers⟩
  | tell notice next answer => exact ⟨hidle s, hp answer⟩
  | clock next time => exact ⟨hidle s, hp time⟩
  | fresh next hname => exact ⟨hidle s, hp _ hname⟩
  | wait | acquire | release => exact ⟨hidle s, hp⟩

end Process

/-! ## Jobs and their scheduler -/

/-- **What jobs, and whoever else there is, do with a scheduler**: they dispatch jobs, which are
noted, and may close it. -/
inductive Scheduler.TakesIn {J : Type} (s : Scheduler J) : Scheduler J → List J → Prop
  | nothing : s.TakesIn s []
  | dispatch {t : Scheduler J} {jobs : List J} (h : s.TakesIn t jobs) (e : Entry J) (delay : Nat) :
    s.TakesIn (t.dispatch e delay) (jobs ++ [e.job])
  | close {t : Scheduler J} {jobs : List J} (h : s.TakesIn t jobs) : s.TakesIn t.close jobs

namespace Works

variable {σ J : Type}

/-- A change after which the scheduler has taken in some jobs. -/
def Dispatching (w : Works σ J) (s t : σ) : Prop :=
  ∃ jobs, (w.scheduler s).TakesIn (w.scheduler t) jobs

/-- The scheduler is a part of the state, and jobs do nothing with it but dispatch others and close
it. -/
structure IsLawful (w : Works σ J) : Prop where
  scheduler_set : ∀ scheduler s, w.scheduler (w.setScheduler scheduler s) = scheduler
  scheduler_count : ∀ counter s, w.scheduler (w.count counter s) = w.scheduler s
  handle : ∀ job attempt, (w.handle job attempt).process.Changes w.Dispatching
  failed : ∀ job failure, (w.failed job failure).Changes w.Dispatching

namespace IsLawful

variable {w : Works σ J} (hw : w.IsLawful)
include hw

@[simp] theorem scheduler_reschedule (f : Scheduler J → Scheduler J) (s : σ) :
    w.scheduler (w.reschedule f s) = f (w.scheduler s) :=
  hw.scheduler_set _ s

end IsLawful

theorem dispatching_refl (w : Works σ J) (s : σ) : w.Dispatching s s :=
  ⟨[], .nothing⟩

end Works

namespace Accounting

/-! ## What happens to jobs -/

/-- How a job ends. -/
inductive JobOutcome
  | completed
  | skipped
  | failed
  /-- It arrived when the scheduler was closed. -/
  | dropped
deriving DecidableEq, Repr

/-- What has happened to jobs. -/
structure Tally (J : Type) where
  dispatched : List J := []
  ended : List (J × JobOutcome) := []
  /-- Jobs that have failed for good and were called to report it. -/
  reported : List J := []
deriving DecidableEq, Repr

namespace Tally

variable {J : Type}

instance : Append (Tally J) where
  append t u := ⟨t.dispatched ++ u.dispatched, t.ended ++ u.ended, t.reported ++ u.reported⟩

@[simp] theorem dispatched_append (t u : Tally J) :
    (t ++ u).dispatched = t.dispatched ++ u.dispatched := rfl

@[simp] theorem ended_append (t u : Tally J) : (t ++ u).ended = t.ended ++ u.ended := rfl

@[simp] theorem reported_append (t u : Tally J) :
    (t ++ u).reported = t.reported ++ u.reported := rfl

/-- The jobs that have ended. -/
def gone (t : Tally J) : List J :=
  t.ended.map (·.1)

/-- The jobs that have ended by failing for good. -/
def lost (t : Tally J) : List J :=
  (t.ended.filter (·.2 = .failed)).map (·.1)

@[simp] theorem gone_append (t u : Tally J) : (t ++ u).gone = t.gone ++ u.gone :=
  List.map_append

@[simp] theorem lost_append (t u : Tally J) : (t ++ u).lost = t.lost ++ u.lost := by
  simp [lost]

end Tally

/-! ## Stages -/

/-- What a worker is doing. -/
inductive Stage (σ J : Type)
  /-- It has been given a job. -/
  | picked (e : Entry J)
  /-- An attempt is under way. -/
  | running (e : Entry J) (rest : Process σ (Except Failure Unit))
  /-- The job has failed for good and reports that. -/
  | reporting (e : Entry J) (rest : Process σ Unit)

namespace Stage

variable {σ J : Type}

/-- The entry that a worker has. -/
def entry : Stage σ J → Entry J
  | picked e | running e _ | reporting e _ => e

/-- The job that a worker is at. -/
def job (stage : Stage σ J) : J :=
  stage.entry.job

/-- What follows once an attempt is settled: nothing, or a failure is reported. -/
def wrapUp (w : Works σ J) (e : Entry J) : Option Failure → Process σ Unit
  | none => .done ()
  | some failure =>
    (w.failed e.job failure).bind fun _ => .atomic (w.reschedule .finish) fun _ => .done ()

/-- What follows an attempt. -/
def conclude (w : Works σ J) (e : Entry J) (result : Except Failure Unit) : Process σ Unit :=
  .atomic (fun s => (w.settle e result s).2) fun s => wrapUp w e (w.settle e result s).1

/-- What a worker still has to do. -/
def process (w : Works σ J) : Stage σ J → Process σ Unit
  | picked e => w.attempt e
  | running e rest => rest.bind (conclude w e)
  | reporting _ rest => rest.bind fun _ => .atomic (w.reschedule .finish) fun _ => .done ()

/-- What a worker still has to do, if it is at a job. -/
def left (w : Works σ J) : Option (Stage σ J) → Process σ Unit
  | some stage => stage.process w
  | none => .done ()

/-- What is left of a job does nothing with the scheduler but dispatch others and close it. -/
def IsLawful (w : Works σ J) : Stage σ J → Prop
  | picked _ => True
  | running _ rest => rest.Changes w.Dispatching
  | reporting _ rest => rest.Changes w.Dispatching

end Stage

/-- An attempt begins, does its job and ends. -/
theorem attempt_eq {σ J : Type} (w : Works σ J) (e : Entry J) :
    w.attempt e = .atomic id fun s =>
      (Stage.running (e.begin (w.scheduler s).now)
        (w.handle e.job (e.attempts + 1)).process).process w := rfl

/-! ## Moves -/

/-- **What a worker does next**, with what happens to jobs meanwhile: an attempt begins, goes on and
ends in one of four ways; a failure for good is reported, and only then has the job ended. -/
inductive Move {σ J : Type} (w : Works σ J) :
    σ → Stage σ J → Tally J → σ → Option (Stage σ J) → Prop
  | begin (s : σ) (e : Entry J) :
    Move w s (.picked e) {} s
      (some (.running (e.begin (w.scheduler s).now) (w.handle e.job (e.attempts + 1)).process))
  | run {s s' : σ} (e : Entry J) {p p' : Process σ (Except Failure Unit)} {jobs : List J}
    (h : Goes s p s' p') (hjobs : (w.scheduler s).TakesIn (w.scheduler s') jobs) :
    Move w s (.running e p) { dispatched := jobs } s' (some (.running e p'))
  | complete (s : σ) (e : Entry J) :
    Move w s (.running e (.done (.ok ()))) { ended := [(e.job, .completed)] }
      (w.settle e (.ok ()) s).2 none
  | skip (s : σ) (e : Entry J) {failure : Failure} (h : failure.isConfiguration = true) :
    Move w s (.running e (.done (.error failure))) { ended := [(e.job, .skipped)] }
      (w.settle e (.error failure) s).2 none
  | retry (s : σ) (e : Entry J) {failure : Failure} (hskip : failure.isConfiguration = false)
    (h : (w.settle e (.error failure) s).1 = none) :
    Move w s (.running e (.done (.error failure))) {} (w.settle e (.error failure) s).2 none
  | fail (s : σ) (e : Entry J) {failure final : Failure}
    (h : (w.settle e (.error failure) s).1 = some final) :
    Move w s (.running e (.done (.error failure))) { reported := [e.job] }
      (w.settle e (.error failure) s).2 (some (.reporting e (w.failed e.job final)))
  | report {s s' : σ} (e : Entry J) {p p' : Process σ Unit} {jobs : List J}
    (h : Goes s p s' p') (hjobs : (w.scheduler s).TakesIn (w.scheduler s') jobs) :
    Move w s (.reporting e p) { dispatched := jobs } s' (some (.reporting e p'))
  | finish (s : σ) (e : Entry J) :
    Move w s (.reporting e (.done ())) { ended := [(e.job, .failed)] }
      (w.reschedule .finish s) none

section Correspondence

variable {σ J : Type} {w : Works σ J} {s s' : σ}

theorem goes_conclude (e : Entry J) (result : Except Failure Unit) :
    Goes s (Stage.conclude w e result) (w.settle e result s).2
      (Stage.wrapUp w e (w.settle e result s).1) :=
  .atomic s _ _

theorem settle_skip {e : Entry J} {failure : Failure} (h : failure.isConfiguration = true) :
    w.settle e (.error failure) s =
      (none, w.reschedule .finish (w.count (.jobs .skipped) s)) := by
  simp only [Works.settle, h, if_true]

/-- **Every move is a step of the attempt.** -/
theorem Move.goes {stage : Stage σ J} {t : Tally J} {next : Option (Stage σ J)}
    (h : Move w s stage t s' next) : Goes s (stage.process w) s' (Stage.left w next) := by
  cases h with
  | begin e =>
    rw [Stage.process, attempt_eq]
    exact .atomic s id _
  | run e hgoes hjobs => exact hgoes.bind _
  | complete e => exact goes_conclude e (.ok ())
  | @skip e failure hskip =>
    have hgoes := goes_conclude (w := w) (s := s) e (.error failure)
    rwa [settle_skip hskip] at hgoes ⊢
  | @retry e failure hskip hnone =>
    have hgoes := goes_conclude (w := w) (s := s) e (.error failure)
    rwa [hnone] at hgoes
  | @fail e failure final hfinal =>
    have hgoes := goes_conclude (w := w) (s := s) e (.error failure)
    rwa [hfinal] at hgoes
  | report e hgoes hjobs => exact hgoes.bind _
  | finish e => exact .atomic s (w.reschedule .finish) _

/-- What an attempt that has ended does next. -/
theorem exists_move_of_ended (hw : w.IsLawful) (s : σ) (e : Entry J)
    (result : Except Failure Unit) :
    ∃ t next, Move w s (.running e (.done result)) t (w.settle e result s).2 next ∧
      Stage.wrapUp w e (w.settle e result s).1 = Stage.left w next ∧
      ∀ stage ∈ next, stage.IsLawful w := by
  cases result with
  | ok value => exact ⟨_, _, .complete s e, rfl, fun _ h => by cases h⟩
  | error failure =>
    cases hskip : failure.isConfiguration with
    | true =>
      refine ⟨_, _, .skip s e hskip, ?_, fun _ h => by cases h⟩
      rw [settle_skip hskip]
      rfl
    | false =>
      cases hfinal : (w.settle e (.error failure) s).1 with
      | none => exact ⟨_, _, .retry s e hskip hfinal, rfl, fun _ h => by cases h⟩
      | some final =>
        refine ⟨_, _, .fail s e hfinal, rfl, fun stage hstage => ?_⟩
        cases hstage
        exact hw.failed e.job final

/-- **Every step of an attempt is a move.** -/
theorem exists_move (hw : w.IsLawful) {stage : Stage σ J} (hstage : stage.IsLawful w)
    {q : Process σ Unit} (h : Goes s (stage.process w) s' q) :
    ∃ t next, Move w s stage t s' next ∧ q = Stage.left w next ∧
      ∀ stage ∈ next, stage.IsLawful w := by
  cases stage with
  | picked e =>
    rw [Stage.process, attempt_eq] at h
    obtain ⟨hs, rfl⟩ := h.of_atomic
    rw [id] at hs
    subst hs
    refine ⟨_, _, .begin _ e, rfl, fun stage hstage => ?_⟩
    cases hstage
    exact hw.handle e.job (e.attempts + 1)
  | running e rest =>
    rcases Goes.of_bind h with ⟨result, rfl, hconclude⟩ | ⟨rest', hgoes, rfl⟩
    · obtain ⟨rfl, rfl⟩ := hconclude.of_atomic
      exact exists_move_of_ended hw s e result
    · obtain ⟨⟨jobs, hjobs⟩, hrest⟩ :=
        Process.Changes.of_goes w.dispatching_refl hstage hgoes
      exact ⟨_, _, .run e hgoes hjobs, rfl, fun stage hstage => by cases hstage; exact hrest⟩
  | reporting e rest =>
    rcases Goes.of_bind h with ⟨_, rfl, hfinish⟩ | ⟨rest', hgoes, rfl⟩
    · obtain ⟨rfl, rfl⟩ := hfinish.of_atomic
      exact ⟨_, _, .finish s e, rfl, fun _ h => by cases h⟩
    · obtain ⟨⟨jobs, hjobs⟩, hrest⟩ :=
        Process.Changes.of_goes w.dispatching_refl hstage hgoes
      exact ⟨_, _, .report e hgoes hjobs, rfl, fun stage hstage => by cases hstage; exact hrest⟩

end Correspondence

end Accounting

end Rampart
