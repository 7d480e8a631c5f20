import Mathlib.Data.List.Nodup
import Mathlib.Data.List.Perm.Subperm
import Rampart.Job.Scheduler

/-!
# No job is lost and none is doubled

The entries that a scheduler holds, wherever they are. Up to their order, a job that is dispatched
or delayed is added, a job that arrives stays, and a job that is picked is taken out.

* `Scheduler.entries`, `Scheduler.IsFit`: what a scheduler holds, and what makes it fit for work.
* **`dispatch_entries`**, `delayUntil_entries`, **`arrive_entries`**, **`pick?_entries`**.
-/

namespace Rampart.Scheduler

variable {J : Type}

/-- The entries that wait or queue up. -/
def entries (s : Scheduler J) : List (Entry J) :=
  s.waiting.map (·.entry) ++ s.queued

/-- An open scheduler whose waiting jobs have numbers of their own. -/
structure IsFit (s : Scheduler J) : Prop where
  isOpen : s.isClosed = false
  numbers : (s.waiting.map (·.number)).Nodup
  issued : ∀ w ∈ s.waiting, w.number < s.issued

/-! ## Taking jobs in -/

theorem delayUntil_entries (s : Scheduler J) (due : Nat) (e : Entry J) :
    (s.delayUntil due e).entries.Perm (e :: s.entries) := by
  unfold entries delayUntil
  rw [List.map_append, List.append_assoc]
  exact List.perm_middle

theorem delayUntil_isFit {s : Scheduler J} (h : s.IsFit) (due : Nat) (e : Entry J) :
    (s.delayUntil due e).IsFit := by
  refine ⟨h.isOpen, ?_, ?_⟩
  · simp only [delayUntil, List.map_append, List.map_cons, List.map_nil]
    refine List.nodup_append.mpr ⟨h.numbers, List.nodup_singleton _, ?_⟩
    intro n hn m hm
    obtain ⟨w, hw, rfl⟩ := List.mem_map.mp hn
    rw [List.mem_singleton.mp hm]
    exact Nat.ne_of_lt (h.issued w hw)
  · intro w hw
    rcases List.mem_append.mp hw with hw | hw
    · exact Nat.lt_succ_of_lt (h.issued w hw)
    · rw [List.mem_singleton.mp hw]
      exact Nat.lt_succ_self _

/-- **A dispatched job is added.** -/
theorem dispatch_entries (s : Scheduler J) (e : Entry J) (delay : Nat) :
    (s.dispatch e delay).entries.Perm (e :: s.entries) :=
  delayUntil_entries s (s.now + delay) e

theorem dispatch_isFit {s : Scheduler J} (h : s.IsFit) (e : Entry J) (delay : Nat) :
    (s.dispatch e delay).IsFit := by
  obtain ⟨hopen, hnumbers, hissued⟩ := delayUntil_isFit h (s.now + delay) e
  exact ⟨hopen, hnumbers, hissued⟩

@[simp] theorem finish_entries (s : Scheduler J) : s.finish.entries = s.entries := rfl

theorem finish_isFit {s : Scheduler J} (h : s.IsFit) : s.finish.IsFit :=
  ⟨h.isOpen, h.numbers, h.issued⟩

/-! ## Handing jobs out -/

theorem find_number {waiting : List (Waiting J)} (h : (waiting.map (·.number)).Nodup)
    {w : Waiting J} (hw : w ∈ waiting) :
    waiting.find? (·.number == w.number) = some w := by
  induction waiting with
  | nil => cases hw
  | cons v vs ih =>
    rw [List.map_cons, List.nodup_cons] at h
    rcases List.mem_cons.mp hw with rfl | hw
    · simp
    · have hne : v.number ≠ w.number := fun heq =>
        h.1 (heq ▸ List.mem_map_of_mem (f := (·.number)) hw)
      simp [hne, ih h.2 hw]

theorem perm_cons_filter_number {waiting : List (Waiting J)}
    (h : (waiting.map (·.number)).Nodup) {w : Waiting J} (hw : w ∈ waiting) :
    waiting.Perm (w :: waiting.filter (·.number != w.number)) := by
  induction waiting with
  | nil => cases hw
  | cons v vs ih =>
    rw [List.map_cons, List.nodup_cons] at h
    rcases List.mem_cons.mp hw with rfl | hw
    · have hkeep : vs.filter (·.number != w.number) = vs := by
        refine List.filter_eq_self.mpr fun u hu => ?_
        have hne : u.number ≠ w.number := fun heq =>
          h.1 (heq ▸ List.mem_map_of_mem (f := (·.number)) hu)
        simp [hne]
      simp [hkeep]
    · have hne : v.number ≠ w.number := fun heq =>
        h.1 (heq ▸ List.mem_map_of_mem (f := (·.number)) hw)
      have hkeep : (v :: vs).filter (·.number != w.number) =
          v :: vs.filter (·.number != w.number) := by
        simp [hne]
      rw [hkeep]
      exact ((ih h.2 hw).cons v).trans (List.Perm.swap w v _)

/-- What an arrival does. -/
theorem arrive_eq {s : Scheduler J} (h : s.IsFit) {w : Waiting J} (hw : w ∈ s.waiting) :
    s.arrive w.number =
      { s with
        waiting := s.waiting.filter (·.number != w.number)
        queued := s.queued ++ [w.entry] } := by
  unfold arrive
  rw [find_number h.numbers hw]
  simp [h.isOpen]

/-- **A job that arrives stays.** -/
theorem arrive_entries {s : Scheduler J} (h : s.IsFit) {w : Waiting J} (hw : w ∈ s.waiting) :
    (s.arrive w.number).entries.Perm s.entries := by
  rw [arrive_eq h hw]
  unfold entries
  have hwaiting := (perm_cons_filter_number h.numbers hw).map (·.entry)
  rw [List.map_cons] at hwaiting
  refine List.Perm.trans ?_ (hwaiting.append_right s.queued).symm
  rw [← List.append_assoc]
  exact List.perm_append_singleton _ _

theorem cons_filter_subperm {waiting : List (Waiting J)} {w : Waiting J} (hw : w ∈ waiting)
    {p : Waiting J → Bool} (hp : p w = false) :
    (w :: waiting.filter p).Subperm waiting := by
  have hout : w ∈ waiting.filter fun v => !p v := List.mem_filter.mpr ⟨hw, by simp [hp]⟩
  have hall := List.filter_append_perm p waiting
  refine ((List.perm_append_singleton w _).symm.subperm).trans (List.Subperm.trans ?_ hall.subperm)
  exact ((List.singleton_sublist.mpr hout).append_left _).subperm

/-- An arrival adds nothing; a closed scheduler drops the job. -/
theorem arrive_subperm (s : Scheduler J) (number : Nat) :
    (s.arrive number).entries.Subperm s.entries := by
  unfold arrive
  split
  · exact .refl _
  · rename_i w hw
    have hmem := List.mem_of_find?_eq_some hw
    have hnumber : (w.number != number) = false := by
      simpa using List.find?_some hw
    obtain ⟨l, hperm, hsublist⟩ := cons_filter_subperm (p := (·.number != number)) hmem hnumber
    have hwaiting : ((w :: s.waiting.filter (·.number != number)).map (·.entry)).Subperm
        (s.waiting.map (·.entry)) := ⟨_, hperm.map _, hsublist.map _⟩
    simp only
    split
    · exact (((List.filter_sublist).map _).append_right _).subperm
    · refine List.Subperm.trans ?_ ((List.subperm_append_right s.queued).mpr hwaiting)
      unfold entries
      rw [← List.append_assoc]
      exact (List.perm_append_singleton _ _).subperm

theorem arrive_isFit {s : Scheduler J} (h : s.IsFit) {w : Waiting J} (hw : w ∈ s.waiting) :
    (s.arrive w.number).IsFit := by
  rw [arrive_eq h hw]
  refine ⟨h.isOpen, ?_, ?_⟩
  · exact (h.numbers.sublist ((List.filter_sublist).map _))
  · exact fun v hv => h.issued v (List.mem_of_mem_filter hv)

theorem takeFirst?_perm {queue : Queue} {es rest : List (Entry J)} {e : Entry J}
    (h : takeFirst? queue es = some (e, rest)) : es.Perm (e :: rest) := by
  induction es generalizing rest with
  | nil => cases h
  | cons d ds ih =>
    rw [takeFirst?] at h
    split at h
    · obtain ⟨rfl, rfl⟩ := Prod.mk.inj (Option.some.inj h)
      exact List.Perm.refl _
    · obtain ⟨⟨found, others⟩, hfound, heq⟩ := Option.map_eq_some_iff.mp h
      obtain ⟨rfl, rfl⟩ := Prod.mk.inj heq
      exact ((ih hfound).cons d).trans (List.Perm.swap _ _ _)

/-- **A job that is picked is taken out.** -/
theorem pick?_entries {s rest : Scheduler J} {e : Entry J} (h : s.pick? = some (e, rest)) :
    s.entries.Perm (e :: rest.entries) := by
  obtain ⟨⟨found, others⟩, hfound, heq⟩ := Option.map_eq_some_iff.mp h
  obtain ⟨rfl, rfl⟩ := Prod.mk.inj heq
  obtain ⟨queue, _, htake⟩ := List.exists_of_findSome?_eq_some hfound
  unfold entries
  exact ((takeFirst?_perm htake).append_left _).trans List.perm_middle

theorem pick?_isFit {s rest : Scheduler J} {e : Entry J} (hs : s.IsFit)
    (h : s.pick? = some (e, rest)) : rest.IsFit := by
  obtain ⟨⟨found, others⟩, _, heq⟩ := Option.map_eq_some_iff.mp h
  obtain ⟨rfl, rfl⟩ := Prod.mk.inj heq
  exact ⟨hs.isOpen, hs.numbers, hs.issued⟩

theorem waiting_of_pick? {s rest : Scheduler J} {e : Entry J} (h : s.pick? = some (e, rest)) :
    rest.waiting = s.waiting := by
  obtain ⟨⟨found, others⟩, _, heq⟩ := Option.map_eq_some_iff.mp h
  obtain ⟨rfl, rfl⟩ := Prod.mk.inj heq
  rfl

theorem takeFirst?_isSome {es : List (Entry J)} {e : Entry J} (h : e ∈ es) :
    (takeFirst? e.queue es).isSome = true := by
  induction es with
  | nil => cases h
  | cons d ds ih =>
    rw [takeFirst?]
    split
    · rfl
    · next hne =>
      rcases List.mem_cons.mp h with rfl | h
      · exact absurd rfl hne
      · rw [Option.isSome_map]
        exact ih h

/-- If a job is queued, one is picked. -/
theorem exists_pick? {s : Scheduler J} {e : Entry J} (h : e ∈ s.queued) :
    ∃ d rest, s.pick? = some (d, rest) := by
  have hqueue : e.queue ∈ Queue.inOrder := by cases e.queue <;> decide
  have hsome : (s.pick?).isSome = true := by
    rw [pick?, Option.isSome_map, List.findSome?_isSome_iff]
    exact ⟨e.queue, hqueue, takeFirst?_isSome h⟩
  obtain ⟨⟨d, rest⟩, hpick⟩ := Option.isSome_iff_exists.mp hsome
  exact ⟨d, rest, hpick⟩

end Rampart.Scheduler
