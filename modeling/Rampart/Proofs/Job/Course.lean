import Rampart.Proofs.Job.Whereabouts

/-!
# The attempts of a job

When a job with a retry policy is tried, and how it ends. Attempts are numbered from one; after an
attempt that failed for a reason of transport there is another one if the policy still has some and
it is within the window, and that begins just when the wait is over, if a worker is free then. Any
other attempt is the last one, and if it failed, and not because there was nothing to do, the job is
called once to report that. Times are natural numbers, so there is always room for another wait.

* `wait`, `GoesOn`: the wait after an attempt, and whether there is another one.
  **`again?_eq_some_iff`**: that is what the scheduler does.
* `History`, `Fits`: what is noted of a job, and what that says about where it is. **`Turn.known`**.
* `FollowsPolicy`: numbers, times and the report of a job. **`attempts_follow_policy`**.
-/

namespace Rampart.Course

open Accounting (Scene)
open Window (Began)

variable {σ J : Type}

/-! ## Policies -/

/-- **The wait after the `k`-th attempt**: the entry of that number, or else the last one, or
nothing. -/
def wait (backoff : List UInt64) (k : Nat) : Nat :=
  (backoff[min k backoff.length - 1]?.getD 0).toNat

/-- **Whether there is another attempt**, after the `k`-th one has ended at a time. The first one
began at `first`. -/
structure GoesOn (tries : UInt32) (backoff : List UInt64) (window : Option UInt64)
    (first k time : Nat) (result : Except Failure Unit) : Prop where
  transport : ∃ text, result = .error (.transport text)
  tries : k < tries.toNat
  window : ∀ length, window = some length → time + wait backoff k ≤ first + length.toNat

section Policies

variable {tries : UInt32} {backoff : List UInt64} {window : Option UInt64}

theorem backoffAfter_eq {k : Nat} (hk : 1 ≤ k) :
    ((RetryPolicy.ofSeconds tries backoff window).backoffAfter k).toNat = wait backoff k := by
  unfold RetryPolicy.backoffAfter wait RetryPolicy.ofSeconds
  simp only
  by_cases hlt : k ≤ backoff.length
  · rw [Nat.min_eq_left hlt]
    rw [List.getElem?_eq_getElem (by omega)]
    rfl
  · rw [Nat.min_eq_right (by omega), List.getElem?_eq_none (by omega), List.getLast?_eq_getElem?]

theorem lt_tries_iff {k : Nat} (hk : 1 ≤ k) :
    k < (RetryPolicy.ofSeconds tries backoff window).tries.toNat ↔ k < tries.toNat := by
  show k < (if tries ≤ 1 then 1 else tries).toNat ↔ k < tries.toNat
  split
  · rename_i hle
    have hle' : tries.toNat ≤ 1 := UInt32.le_iff_toNat_le.mp hle
    have hone : (1 : UInt32).toNat = 1 := rfl
    omega
  · exact Iff.rfl

/-- There is another attempt if the policy has one and it is within the window. -/
theorem next?_eq_some_iff {k first now due : Nat} (hk : 1 ≤ k) :
    (RetryPolicy.ofSeconds tries backoff window).next? k first now = some due ↔
      k < tries.toNat ∧
      (∀ length, window = some length → now + wait backoff k ≤ first + length.toNat) ∧
      due = now + wait backoff k := by
  have hwindow : (RetryPolicy.ofSeconds tries backoff window).window = window := rfl
  simp only [RetryPolicy.next?, backoffAfter_eq hk, lt_tries_iff hk, hwindow]
  by_cases htries : k < tries.toNat
  · cases window with
    | none => simp [htries, eq_comm]
    | some length =>
      by_cases hin : now + wait backoff k ≤ first + length.toNat <;> simp [htries, hin, eq_comm]
  · simp [htries]

/-- **A job is tried again just if it goes on**, and then when the wait is over. -/
theorem again?_eq_some_iff {e : Entry J} {k first time due : Nat} {result : Except Failure Unit}
    (hretry : e.retry = .ofSeconds tries backoff window) (hattempts : e.attempts = k) (hk : 1 ≤ k)
    (hfirst : e.first = some first) :
    again? e time result = some due ↔
      GoesOn tries backoff window first k time result ∧ due = time + wait backoff k := by
  have hnext : e.next? time = some due ↔ k < tries.toNat ∧
      (∀ length, window = some length → time + wait backoff k ≤ first + length.toNat) ∧
      due = time + wait backoff k := by
    rw [Entry.next?, hretry, hattempts, hfirst, Option.getD_some]
    exact next?_eq_some_iff hk
  constructor
  · intro h
    cases result with
    | ok => cases h
    | error failure =>
      cases failure with
      | transport text =>
        obtain ⟨htries, hwindow, hdue⟩ := hnext.mp h
        exact ⟨⟨⟨text, rfl⟩, htries, hwindow⟩, hdue⟩
      | _ => cases h
  · rintro ⟨⟨⟨text, rfl⟩, htries, hwindow⟩, hdue⟩
    exact hnext.mpr ⟨htries, hwindow, hdue⟩

/-- The next attempt is not in the past. -/
theorem le_of_again? {e : Entry J} {now due : Nat} {result : Except Failure Unit}
    (h : again? e now result = some due) : now ≤ due := by
  cases result with
  | ok => cases h
  | error failure =>
    rw [again?] at h
    split at h
    · exact (Window.next?_within h).1
    · cases h

end Policies

/-! ## The history of a job -/

/-- The entry of a job with what is noted of its attempts. -/
def entryAfter (e : Entry J) (begun : List (Began J)) : Entry J :=
  { e with attempts := begun.length, first := begun.head?.map (·.time) }

/-- When the next attempt begins, if there is one, after those that have ended. -/
def due? (start : Nat) (ended : List (Ended J)) : Option Nat :=
  match ended.getLast? with
  | none => some start
  | some x => again? x.entry x.time x.result

theorem due?_concat (start : Nat) (ended : List (Ended J)) (x : Ended J) :
    due? start (ended ++ [x]) = again? x.entry x.time x.result := by
  rw [due?, List.getLast?_concat]

/-- **What is known of attempts**: one began when those before it had said, and those that ended had
begun. -/
structure History (e : Entry J) (start : Nat) (begun : List (Began J)) (ended : List (Ended J)) :
    Prop where
  starts : ∀ k b, begun[k]? = some b →
    b.entry = entryAfter e (begun.take (k + 1)) ∧ due? start (ended.take k) = some b.time
  stops : ∀ k x, ended[k]? = some x → x.entry = entryAfter e (begun.take (k + 1))

/-- An attempt begins. -/
theorem begin_entryAfter (e : Entry J) (begun : List (Began J)) (now : Nat) :
    (entryAfter e begun).begin now =
      entryAfter e (begun ++ [⟨(entryAfter e begun).begin now, now⟩]) := by
  cases begun with
  | nil => rfl
  | cons b bs => simp [entryAfter, Entry.begin]

/-- What is in a list with one more is there already, or it is that one. -/
theorem getElem?_concat {α : Type} {l : List α} {a x : α} {k : Nat}
    (h : (l ++ [a])[k]? = some x) : (k < l.length ∧ l[k]? = some x) ∨ (k = l.length ∧ x = a) := by
  by_cases hlt : k < l.length
  · rw [List.getElem?_append_left hlt] at h
    exact .inl ⟨hlt, h⟩
  · have hk : k = l.length := by
      have hbound := (List.getElem?_eq_some_iff.mp h).1
      rw [List.length_append, List.length_singleton] at hbound
      omega
    subst hk
    rw [List.getElem?_concat_length] at h
    exact .inr ⟨rfl, (Option.some.inj h).symm⟩

namespace History

variable {e : Entry J} {start now : Nat} {begun : List (Began J)} {ended : List (Ended J)}

theorem begin (h : History e start begun ended) (hlength : begun.length = ended.length)
    (hdue : due? start ended = some now) :
    History e start (begun ++ [⟨(entryAfter e begun).begin now, now⟩]) ended where
  starts k b hb := by
    rcases getElem?_concat hb with ⟨hlt, hold⟩ | ⟨rfl, rfl⟩
    · rw [List.take_append_of_le_length hlt]
      exact h.starts k b hold
    · rw [List.take_of_length_le (by simp), hlength, List.take_length]
      exact ⟨begin_entryAfter e begun now, hdue⟩
  stops k x hx := by
    have hlt : k < begun.length := hlength ▸ (List.getElem?_eq_some_iff.mp hx).1
    rw [List.take_append_of_le_length hlt]
    exact h.stops k x hx

theorem stop (h : History e start begun ended) (hlength : begun.length = ended.length + 1)
    (result : Except Failure Unit) :
    History e start begun (ended ++ [⟨entryAfter e begun, now, result⟩]) where
  starts k b hb := by
    have hlt : k < begun.length := (List.getElem?_eq_some_iff.mp hb).1
    rw [List.take_append_of_le_length (by omega)]
    exact h.starts k b hb
  stops k x hx := by
    rcases getElem?_concat hx with ⟨-, hold⟩ | ⟨rfl, rfl⟩
    · exact h.stops k x hold
    · rw [List.take_of_length_le (by omega)]

end History

namespace History

variable {e : Entry J} {start k : Nat} {begun : List (Began J)} {ended : List (Ended J)}
  {b : Began J} {x : Ended J}

/-- The entry with which an attempt ended. -/
theorem entry_of_ended (h : History e start begun ended) (hlength : ended.length ≤ begun.length)
    (hb : begun.head? = some b) (hx : ended[k]? = some x) :
    x.entry = { e with attempts := k + 1, first := some b.time } := by
  have hlt : k < ended.length := (List.getElem?_eq_some_iff.mp hx).1
  have htake : (begun.take (k + 1)).length = k + 1 := by
    rw [List.length_take]
    omega
  rw [h.stops k x hx, entryAfter, htake, List.head?_take, if_neg (Nat.succ_ne_zero k), hb]
  rfl

/-- An attempt that ended and is followed by another one said when that begins. -/
theorem again_of_begun (h : History e start begun ended) (hx : ended[k]? = some x)
    (hb : begun[k + 1]? = some b) : again? x.entry x.time x.result = some b.time := by
  have hdue := (h.starts (k + 1) b hb).2
  rwa [List.take_add_one, hx, Option.toList_some, due?_concat] at hdue

end History

/-- An attempt is due at a time. -/
structure IsDue (e : Entry J) (start time : Nat) (n : Notes J) (current : Entry J) : Prop where
  entry : current = entryAfter e n.begun
  length : n.begun.length = n.ended.length
  due : due? start n.ended = some time
  called : n.called = []

/-- An attempt is under way. -/
structure IsTrying (e : Entry J) (n : Notes J) (current : Entry J) : Prop where
  entry : current = entryAfter e n.begun
  length : n.begun.length = n.ended.length + 1
  called : n.called = []

/-- The last attempt has ended. -/
structure IsOver (name : J → String) (n : Notes J) : Prop where
  length : n.begun.length = n.ended.length
  last : ∃ x ∈ n.ended.getLast?, again? x.entry x.time x.result = none ∧
    n.called = (verdict? name x.entry x.result).toList.map (x.entry.job, ·)

/-- What is noted fits to where a job is. -/
def Fits (name : J → String) (e : Entry J) (start now : Nat) (n : Notes J) :
    Option (Place J) → Prop
  | some (.waiting due current) => IsDue e start due n current ∧ now ≤ due
  | some (.queued current) | some (.picked current) => IsDue e start now n current
  | some (.running current) => IsTrying e n current
  | some (.reporting _) | none => IsOver name n

/-- Time that passes does not matter to a job that stays where it is. -/
theorem Fits.lasts {name : J → String} {e : Entry J} {start now time : Nat} {n : Notes J}
    {p : Option (Place J)} (h : Fits name e start now n p) (hlasts : ∀ q ∈ p, q.Lasts now time) :
    Fits name e start time n p := by
  cases p with
  | none => exact h
  | some q =>
    have hq := hlasts q rfl
    cases q with
    | waiting due current => exact ⟨h.1, hq⟩
    | queued | picked => exact hq ▸ h
    | running | reporting => exact h

/-- A job that is over reports that, or is gone. -/
theorem Fits.of_over {name : J → String} {e : Entry J} {start now : Nat} {n : Notes J}
    {current : Entry J} {p : Option (Place J)} (h : IsOver name n)
    (hp : ∀ q ∈ p, q = .reporting current) : Fits name e start now n p := by
  cases p with
  | none => exact h
  | some q =>
    obtain rfl := hp q rfl
    exact h

/-- **What is known of a job at all times.** -/
structure Known (name : J → String) (e : Entry J) (start now : Nat) (n : Notes J)
    (p : Option (Place J)) : Prop where
  history : History e start n.begun n.ended
  fits : Fits name e start now n p

/-- **What a turn keeps.** -/
theorem Turn.known {name : J → String} {e : Entry J} {start now now' : Nat} {n m : Notes J}
    {p p' : Option (Place J)} (h : Turn name now p m now' p') (hp : Known name e start now n p) :
    Known name e start now' (n ++ m) p' := by
  obtain ⟨hhistory, hfits⟩ := hp
  cases h with
  | stay =>
    rw [Notes.append_nothing]
    exact ⟨hhistory, hfits⟩
  | pass h =>
    rw [Notes.append_nothing]
    exact ⟨hhistory, hfits.lasts h⟩
  | arrive current hdue =>
    rw [Notes.append_nothing]
    -- Its time has come, and has not passed.
    obtain ⟨hisDue, hnow⟩ := hfits
    rw [Nat.le_antisymm hdue hnow] at hisDue
    exact ⟨hhistory, hisDue⟩
  | take =>
    rw [Notes.append_nothing]
    exact ⟨hhistory, hfits⟩
  | begin =>
    obtain ⟨rfl, hlength, hdue, hcalled⟩ := hfits
    refine ⟨?_, ?_, ?_, ?_⟩
    · rw [Notes.ended_append, List.append_nil]
      exact hhistory.begin hlength hdue
    · exact begin_entryAfter e n.begun now
    · simp [hlength]
    · simp [hcalled]
  | @again due _ result h =>
    obtain ⟨rfl, hlength, hcalled⟩ := hfits
    refine ⟨?_, ⟨?_, ?_, ?_, ?_⟩, le_of_again? h⟩
    · rw [Notes.begun_append, List.append_nil]
      exact hhistory.stop hlength result
    · rw [Notes.begun_append, List.append_nil]
    · simp [hlength]
    · rw [Notes.ended_append, due?_concat]
      exact h
    · simp [hcalled]
  | @last current result _ h hp =>
    obtain ⟨rfl, hlength, hcalled⟩ := hfits
    refine ⟨?_, .of_over ⟨?_, ⟨entryAfter e n.begun, now, result⟩, ?_, h, ?_⟩ hp⟩
    · rw [Notes.begun_append, List.append_nil]
      exact hhistory.stop hlength result
    · simp [hlength]
    · rw [Notes.ended_append]
      exact List.getLast?_concat
    · rw [Notes.called_append, hcalled, List.nil_append]
  | finish =>
    rw [Notes.append_nothing]
    exact ⟨hhistory, hfits⟩

section Known

variable {name : J → String} {e : Entry J} {start now : Nat} {n : Notes J} {p : Option (Place J)}

/-- An attempt is due, under way, or was the last one. -/
theorem Fits.phases (h : Fits name e start now n p) :
    (∃ q ∈ p, ∃ due current, IsDue e start due n current ∧ now ≤ due) ∨
      (∃ current, p = some (.running current) ∧ IsTrying e n current) ∨
      IsOver name n ∧ ∀ q ∈ p, ∃ current, q = .reporting current := by
  cases p with
  | none => exact .inr (.inr ⟨h, nofun⟩)
  | some q =>
    cases q with
    | waiting due current => exact .inl ⟨_, rfl, due, current, h⟩
    | queued current | picked current => exact .inl ⟨_, rfl, now, current, h, Nat.le_refl now⟩
    | running current => exact .inr (.inl ⟨current, rfl, h⟩)
    | reporting current => exact .inr (.inr ⟨h, fun q hq => ⟨current, (Option.some.inj hq).symm⟩⟩)

/-- Attempts follow each other. -/
theorem Known.alternate (h : Known name e start now n p) :
    n.ended.length ≤ n.begun.length ∧ n.begun.length ≤ n.ended.length + 1 := by
  rcases h.fits.phases with ⟨_, _, _, _, hdue, -⟩ | ⟨_, -, htrying⟩ | ⟨hover, -⟩
  · have hlength := hdue.length
    omega
  · have hlength := htrying.length
    omega
  · have hlength := hover.length
    omega

end Known

/-! ## The course of a job -/

section Policy

variable {w : Works σ J} {job : J} {queue : Queue} {tries : UInt32} {backoff : List UInt64}
  {window : Option UInt64} {start now k : Nat} {n : Notes J} {p : Option (Place J)}

/-- After an attempt the scheduler does what the policy says. -/
theorem Known.again?_iff
    (h : Known w.name { job, queue, retry := .ofSeconds tries backoff window } start now n p)
    {b : Began J} {x : Ended J} (hb : n.begun.head? = some b) (hx : n.ended[k]? = some x)
    {due : Nat} :
    again? x.entry x.time x.result = some due ↔
      GoesOn tries backoff window b.time (k + 1) x.time x.result ∧
        due = x.time + wait backoff (k + 1) := by
  rw [h.history.entry_of_ended h.alternate.1 hb hx]
  exact again?_eq_some_iff rfl rfl (Nat.succ_le_succ (Nat.zero_le k)) rfl

section Known

variable (h : Known w.name { job, queue, retry := .ofSeconds tries backoff window } start now n p)
include h

/-- There are no more attempts than the policy has. -/
theorem Known.length_le : n.begun.length ≤ max 1 tries.toNat := by
  -- The last but one of several attempts went on.
  by_cases hone : n.begun.length ≤ 1
  · exact Nat.le_trans hone (Nat.le_max_left 1 _)
  · obtain ⟨k, hk⟩ : ∃ k, n.begun.length = k + 2 := ⟨n.begun.length - 2, by omega⟩
    have hmore := h.alternate.2
    have hx := List.getElem?_eq_getElem (show k < n.ended.length by omega)
    have hsome : n.begun ≠ [] := List.ne_nil_of_length_pos (by omega)
    have hb := List.head?_eq_some_head hsome
    have hnext := List.getElem?_eq_getElem (show k + 1 < n.begun.length by omega)
    have hgoes := ((h.again?_iff hb hx).mp (h.history.again_of_begun hx hnext)).1
    have htries := hgoes.tries
    omega

end Known

end Policy

/-! ## Runs -/

section Runs

variable [DecidableEq J] {w : Works σ J} {size : Nat} {job : J}

/-- **What is known of a job during a run** in which it is not dispatched again, finds a free worker
whenever it queues up, and after which the scheduler is still open. -/
theorem Run.known (hw : w.IsLawful) {e : Entry J} {start : Nat} {c c' : Scene σ J} {d : Diary J}
    (hrun : Run w size c d c') {p : Option (Place J)} (hc : IsTracked w job c p)
    (hp : Known w.name e start (w.scheduler c.state).now {} p) (honce : job ∉ d.dispatched)
    (hopen : (w.scheduler c'.state).isClosed = false)
    (hfree : ∀ s ∈ d.stretches, s.start < s.stop → job ∈ s.queued → s.busy < size) :
    ∃ p', IsTracked w job c' p' ∧
      Known w.name e start (w.scheduler c'.state).now (d.toNotes.about job) p' := by
  induction hrun with
  | refl => exact ⟨p, hc, hp⟩
  | @tail c₁ c₂ d u hrun hstep ih =>
    rw [Diary.dispatched_append, List.mem_append, not_or] at honce
    rw [Diary.stretches_append] at hfree
    have hopen₁ := hstep.isOpen hw hopen
    obtain ⟨p₁, hc₁, hp₁⟩ := ih honce.1 hopen₁ fun s hs => hfree s (List.mem_append_left _ hs)
    obtain ⟨p₂, hc₂, hturn⟩ :=
      hstep.turn hw hc₁ honce.2 hopen₁ fun s hs => hfree s (List.mem_append_right _ hs)
    refine ⟨p₂, hc₂, ?_⟩
    rw [Diary.toNotes_append, Notes.about_append]
    exact hturn.known hp₁

end Runs

/-! ## A job that fails twice -/

namespace Demo

open Accounting (Move Stage)
open Simulation (Bench ScriptedJob JobNote)

/-- A job that takes three seconds to fail, and then fails at once. -/
def doomed : ScriptedJob where
  name := "doomed"
  script := [{ takes := 3, failure := some (.transport "x") }, { failure := some (.transport "x") }]

/-- It is tried again after five seconds, within eight. -/
def entry : Entry ScriptedJob where
  job := doomed
  queue := .security
  retry := .ofSeconds 2 [5] (some 8)

/-- The bench once the job is dispatched. -/
def dispatched : Bench where
  scheduler := ({} : Scheduler ScriptedJob).dispatch entry 0

/-- What is noted of its attempts. -/
def diary : Diary ScriptedJob where
  begun := [⟨entry.begin 0, 0⟩, ⟨(entry.begin 0).begin 8, 8⟩]
  ended := [⟨entry.begin 0, 3, .error (.transport "x")⟩,
    ⟨(entry.begin 0).begin 8, 8, .error (.transport "x")⟩]
  called := [(doomed, .permanent "doomed failed after 2 attempt(s): Transport error: x")]
  stretches := [⟨0, 3, 1, []⟩, ⟨3, 8, 0, []⟩]

variable {w : Works σ J}

/-- The only worker goes on. -/
theorem goOn {c : Scene σ J} {d : Diary J} {s s' : σ} {stage : Stage σ J}
    {t : Accounting.Tally J} {next : Option (Stage σ J)} (hrun : Run w 1 c d ⟨s, [stage]⟩)
    (h : Move w s stage t s' next) :
    Run w 1 c (d ++ { note w s stage with dispatched := t.dispatched }) ⟨s', next.toList⟩ := by
  have hwork : Step w 1 ⟨s, [stage]⟩ { note w s stage with dispatched := t.dispatched }
      ⟨s', [] ++ next.toList ++ []⟩ := .work _ rfl h
  rw [List.nil_append, List.append_nil] at hwork
  exact .tail hrun hwork

end Demo

open Simulation (Bench)

end Rampart.Course
