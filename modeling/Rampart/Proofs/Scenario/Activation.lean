import Mathlib.Data.List.Nodup
import Rampart.Proofs.Scenario.Paths

/-!
# Putting new files into place

What the commands of `ScenarioDir.activation` do when every new file has been written. Each of them
but the last is an edit of the files in place: one file takes its place, or one that is left over
goes.

* `Edit`, `editsOf`: the edits, in their order; `activation_eq`: they are the commands.
* `edited`: what names stand for after some edits; **`edited_editsOf`**: after all of them.
* `script_edits`: the commands carry the edits out.
* **`script_activation`**: when every old file is known, the application has exactly the new ones
  afterwards.
* **`script_activation_take`**: what has been done when the commands stop.
-/

namespace Rampart

open Remote (Files)
open Execution (IsToken)
open ScenarioDir (staged)
open Text.Word (quote)

/-- Scenario files of one application, each with a name of its own. -/
structure AreFilesOf (uuid : String) (files : List ScenarioFile) : Prop where
  names : ∀ f ∈ files, IsScenarioName uuid f.name
  blankFree : ∀ f ∈ files, IsBlankFree f.name
  nodup : (files.map (·.name)).Nodup

/-- The new files have been written. -/
def Staged (fs : Files) (staging : String) (files : List ScenarioFile) : Prop :=
  ∀ f ∈ files, fs (staged staging f.name) = some f.contents

/-- All files of an application that are in place have one of some names. -/
def Covers (d : ScenarioDir) (uuid : String) (fs : Files) (existing : List String) : Prop :=
  ∀ name, IsScenarioName uuid name → fs (d.file name) ≠ none → name ∈ existing

/-- The files of an application that are in place are exactly those given. -/
def HasExactly (d : ScenarioDir) (uuid : String) (fs : Files) (isFile : ScenarioFile → Prop) :
    Prop :=
  ∀ name, IsScenarioName uuid name → ∀ contents,
    fs (d.file name) = some contents ↔ isFile ⟨name, contents⟩

/-! ## Edits -/

/-- One change of the files in place. -/
inductive Edit
  | put (f : ScenarioFile)
  | drop (name : String)
deriving DecidableEq, Repr

namespace Edit

/-- The name that an edit is about. -/
def name : Edit → String
  | put f => f.name
  | drop name => name

/-- What names stand for after an edit. -/
def apply (m : String → Option String) : Edit → String → Option String
  | put f => Function.update m f.name (some f.contents)
  | drop name => Function.update m name none

theorem apply_put (m : String → Option String) (f : ScenarioFile) :
    (put f).apply m f.name = some f.contents :=
  Function.update_self ..

theorem apply_drop (m : String → Option String) (name : String) : (drop name).apply m name = none :=
  Function.update_self ..

theorem apply_of_ne {e : Edit} {other : String} (h : other ≠ e.name) (m : String → Option String) :
    e.apply m other = m other := by
  cases e <;> exact Function.update_of_ne h _ _

/-- The command that carries it out. -/
def line (d : ScenarioDir) (staging : String) : Edit → String
  | put f => s!"mv -f {quote (staged staging f.name)} {quote (d.file f.name)}"
  | drop name => s!"rm -f {quote (d.file name)}"

end Edit

/-- What names stand for after some edits. -/
def edited (es : List Edit) (m : String → Option String) : String → Option String :=
  es.foldl Edit.apply m

/-- The edits that replace some files by others. -/
def editsOf (existing : List String) (files : List ScenarioFile) : List Edit :=
  files.map .put ++
    (existing.filter fun name => !(files.map (·.name)).contains name).map .drop

theorem activation_eq (d : ScenarioDir) (staging : String) (existing : List String)
    (files : List ScenarioFile) :
    d.activation staging existing files =
      (editsOf existing files).map (Edit.line d staging) ++ [s!"rm -rf {quote staging}"] := by
  rw [ScenarioDir.activation, editsOf, List.map_append, List.map_map, List.map_map]
  rfl

theorem mem_stale {existing : List String} {files : List ScenarioFile} {name : String} :
    name ∈ existing.filter (fun name => !(files.map (·.name)).contains name) ↔
      name ∈ existing ∧ name ∉ files.map (·.name) := by
  rw [List.mem_filter, Bool.not_eq_true', ← Bool.not_eq_true, List.contains_iff_mem]

/-! ## What edits come to -/

variable {existing : List String} {files : List ScenarioFile} {m : String → Option String}

/-- A name that no edit is about. -/
theorem edited_of_not_mem {es : List Edit} {name : String} (h : name ∉ es.map Edit.name) :
    edited es m name = m name := by
  induction es generalizing m with
  | nil => rfl
  | cons e es ih =>
    rw [List.map_cons, List.mem_cons, not_or] at h
    exact (ih h.2).trans (Edit.apply_of_ne h.1 m)

/-- What a name stands for in the end depends on what it stood for. -/
theorem edited_congr (es : List Edit) {m m' : String → Option String} {name : String}
    (h : m name = m' name) : edited es m name = edited es m' name := by
  induction es generalizing m m' with
  | nil => exact h
  | cons e es ih =>
    refine ih ?_
    cases e <;> (simp only [Edit.apply, Function.update_apply]; split <;> first | rfl | exact h)

theorem edited_append (es others : List Edit) :
    edited (es ++ others) m = edited others (edited es m) :=
  List.foldl_append

theorem edited_puts (hnodup : (files.map (·.name)).Nodup) {f : ScenarioFile} (hf : f ∈ files) :
    edited (files.map .put) m f.name = some f.contents := by
  induction files generalizing m with
  | nil => cases hf
  | cons g files ih =>
    rw [List.map_cons, List.nodup_cons] at hnodup
    rcases List.mem_cons.mp hf with rfl | hf
    · have hnot : f.name ∉ (files.map Edit.put).map Edit.name := by
        rw [List.map_map]
        exact hnodup.1
      exact (edited_of_not_mem hnot).trans (Edit.apply_put m f)
    · exact ih hnodup.2 hf

theorem edited_drops {names : List String} {name : String} (h : name ∈ names) :
    edited (names.map .drop) m name = none := by
  induction names generalizing m with
  | nil => cases h
  | cons n names ih =>
    by_cases hmem : name ∈ names
    · exact ih hmem
    · have heq : name = n := (List.mem_cons.mp h).resolve_right hmem
      have hnot : name ∉ (names.map Edit.drop).map Edit.name := by
        rw [List.map_map]
        exact fun h => hmem (List.map_id names ▸ h)
      refine (edited_of_not_mem hnot).trans ?_
      rw [heq]
      exact Edit.apply_drop m n

/-- **After all edits**, a name that was known stands for what was given. -/
theorem edited_editsOf (hnodup : (files.map (·.name)).Nodup) {name : String}
    (hknown : m name ≠ none → name ∈ existing) (contents : String) :
    edited (editsOf existing files) m name = some contents ↔
      (⟨name, contents⟩ : ScenarioFile) ∈ files := by
  rw [editsOf, edited_append]
  -- What is left over goes, and everything else stays as it is after the first edits.
  have hrest : name ∉ existing.filter (fun name => !(files.map (·.name)).contains name) →
      edited ((existing.filter fun name => !(files.map (·.name)).contains name).map .drop)
        (edited (files.map .put) m) name = edited (files.map .put) m name := by
    intro hnot
    refine edited_of_not_mem ?_
    rw [List.map_map]
    exact fun h => hnot (List.map_id (List.filter _ _) ▸ h)
  by_cases hmem : name ∈ files.map (·.name)
  · obtain ⟨f, hf, rfl⟩ := List.mem_map.mp hmem
    rw [hrest fun hstale => (mem_stale.mp hstale).2 hmem, edited_puts hnodup hf]
    constructor
    · intro heq
      rw [← Option.some.inj heq]
      exact hf
    · intro hother
      rw [List.inj_on_of_nodup_map hnodup hf hother rfl]
  · have hnot : (⟨name, contents⟩ : ScenarioFile) ∉ files := fun hf =>
      hmem (List.mem_map_of_mem (f := (·.name)) hf)
    refine iff_of_false (fun hthere => ?_) hnot
    by_cases hexisting : name ∈ existing
    · rw [edited_drops (mem_stale.mpr ⟨hexisting, hmem⟩)] at hthere
      cases hthere
    · rw [hrest fun hstale => hexisting (mem_stale.mp hstale).1, edited_of_not_mem fun h => ?_]
        at hthere
      · exact hexisting (hknown (hthere ▸ Option.some_ne_none _))
      · rw [List.map_map] at h
        exact hmem h

/-! ## Commands -/

/-- New files take their places. -/
theorem script_puts {d : ScenarioDir} {uuid token : String} (hu : isUuid uuid = true)
    {files : List ScenarioFile} (howned : ∀ f ∈ files, isOwned uuid f.name = true)
    (hnodup : (files.map (·.name)).Nodup) {fs : Files}
    (hstaged : Staged fs (d.staging uuid token) files) :
    ∃ fs', fs.script ((files.map Edit.put).map (Edit.line d (d.staging uuid token))) =
        (fs', true) ∧
      (∀ name, isOwned uuid name = true →
        fs' (d.file name) = edited (files.map .put) (fun name => fs (d.file name)) name) ∧
      ∀ path, (∀ f ∈ files, path ≠ d.file f.name ∧
        path ≠ staged (d.staging uuid token) f.name) → fs' path = fs path := by
  induction files generalizing fs with
  | nil => exact ⟨fs, rfl, fun _ _ => rfl, fun _ _ => rfl⟩
  | cons f files ih =>
    rw [List.map_cons, List.nodup_cons] at hnodup
    have hf := howned f List.mem_cons_self
    -- The files after the first has taken its place.
    let next := (fs.erase (staged (d.staging uuid token) f.name)).write (d.file f.name) f.contents
    have hline : fs.line? ((Edit.put f).line d (d.staging uuid token)) = some next :=
      Remote.Files.line?_move (hstaged f List.mem_cons_self) (d.file f.name)
    have hother : ∀ path, path ≠ d.file f.name → path ≠ staged (d.staging uuid token) f.name →
        next path = fs path := fun path hplace hnew =>
      (Function.update_of_ne hplace _ _).trans (Function.update_of_ne hnew _ _)
    have hplace : ∀ name, isOwned uuid name = true →
        next (d.file name) = (Edit.put f).apply (fun name => fs (d.file name)) name := by
      intro name hname
      by_cases heq : name = f.name
      · subst heq
        exact (Function.update_self ..).trans (Edit.apply_put _ f).symm
      · rw [Edit.apply_of_ne (e := .put f) heq]
        exact hother _ (fun h => heq (file_inj h)) (file_ne_staged hu hname d uuid token f.name)
    have hstaged' : Staged next (d.staging uuid token) files := by
      intro g hg
      have hne : staged (d.staging uuid token) g.name ≠ staged (d.staging uuid token) f.name :=
        fun heq => hnodup.1 (staged_inj heq ▸ List.mem_map_of_mem (f := (·.name)) hg)
      exact (hother _ (file_ne_staged hu hf d uuid token g.name).symm hne).trans
        (hstaged g (List.mem_cons_of_mem f hg))
    obtain ⟨last, hscript, hlast, hleft⟩ :=
      ih (fun g hg => howned g (List.mem_cons_of_mem f hg)) hnodup.2 hstaged'
    refine ⟨last, ?_, fun name hname => ?_, fun path hpath => ?_⟩
    · rw [List.map_cons, List.map_cons, Remote.Files.script, hline]
      exact hscript
    · exact (hlast name hname).trans (edited_congr _ (hplace name hname))
    · obtain ⟨hfile, hnew⟩ := hpath f List.mem_cons_self
      exact (hleft path fun g hg => hpath g (List.mem_cons_of_mem f hg)).trans
        (hother path hfile hnew)

/-- What is left over goes. -/
theorem script_drops (d : ScenarioDir) (staging : String) (names : List String) (fs : Files) :
    ∃ fs', fs.script ((names.map Edit.drop).map (Edit.line d staging)) = (fs', true) ∧
      (∀ name, fs' (d.file name) =
        edited (names.map .drop) (fun name => fs (d.file name)) name) ∧
      ∀ path, (∀ name ∈ names, path ≠ d.file name) → fs' path = fs path := by
  induction names generalizing fs with
  | nil => exact ⟨fs, rfl, fun _ => rfl, fun _ _ => rfl⟩
  | cons n names ih =>
    obtain ⟨last, hscript, hlast, hleft⟩ := ih (fs.erase (d.file n))
    refine ⟨last, ?_, fun name => ?_, fun path hpath => ?_⟩
    · rw [List.map_cons, List.map_cons, Remote.Files.script, Edit.line,
        Remote.Files.line?_remove]
      exact hscript
    · refine (hlast name).trans (edited_congr _ ?_)
      by_cases heq : name = n
      · subst heq
        exact (Function.update_self ..).trans (Edit.apply_drop _ name).symm
      · rw [Edit.apply_of_ne (e := .drop n) heq]
        exact Function.update_of_ne (fun h => heq (file_inj h)) _ _
    · exact (hleft path fun name hname => hpath name (List.mem_cons_of_mem n hname)).trans
        (Function.update_of_ne (hpath n List.mem_cons_self) _ _)

/-- **Edits are carried out**: first the new files, then what is left over. -/
theorem script_edits {d : ScenarioDir} {uuid token : String} (hu : isUuid uuid = true)
    {files : List ScenarioFile} (howned : ∀ f ∈ files, isOwned uuid f.name = true)
    (hnodup : (files.map (·.name)).Nodup) {fs : Files}
    (hstaged : Staged fs (d.staging uuid token) files) (names : List String) :
    ∃ fs', fs.script ((files.map Edit.put ++ names.map Edit.drop).map
        (Edit.line d (d.staging uuid token))) = (fs', true) ∧
      (∀ name, isOwned uuid name = true → fs' (d.file name) =
        edited (files.map .put ++ names.map .drop) (fun name => fs (d.file name)) name) ∧
      ∀ path, (∀ f ∈ files, path ≠ d.file f.name ∧ path ≠ staged (d.staging uuid token) f.name) →
        (∀ name ∈ names, path ≠ d.file name) → fs' path = fs path := by
  obtain ⟨moved, hmoved, hplace, hleft⟩ := script_puts hu howned hnodup hstaged
  obtain ⟨last, hscript, hlast, hleft'⟩ := script_drops d (d.staging uuid token) names moved
  refine ⟨last, ?_, fun name hname => ?_, fun path hfiles hnames =>
    (hleft' path hnames).trans (hleft path hfiles)⟩
  · rw [List.map_append, Remote.Files.script_append_of_ok (by rw [hmoved]), hmoved]
    exact hscript
  · rw [edited_append]
    exact (hlast name).trans (edited_congr _ (hplace name hname))

theorem eraseUnder_file {d : ScenarioDir} {uuid name : String} (hu : isUuid uuid = true)
    (h : isOwned uuid name = true) (fs : Files) (other token : String) :
    fs.eraseUnder (d.staging other token) (d.file name) = fs (d.file name) :=
  if_neg (not_isUnder_staging hu h d other token)

/-- **Afterwards the application has exactly the new files.** -/
theorem script_activation {d : ScenarioDir} {uuid token : String} (hu : isUuid uuid = true)
    {files : List ScenarioFile} (hfiles : AreFilesOf uuid files) {fs : Files}
    (hstaged : Staged fs (d.staging uuid token) files) {existing : List String}
    (hcovers : Covers d uuid fs existing) :
    ∃ fs', fs.script (d.activation (d.staging uuid token) existing files) = (fs', true) ∧
      HasExactly d uuid fs' (· ∈ files) := by
  obtain ⟨placed, hscript, hplace, _⟩ := script_edits hu
    (fun f hf => isOwned_of_isScenarioName (hfiles.names f hf)) hfiles.nodup hstaged
    (existing.filter fun name => !(files.map (·.name)).contains name)
  refine ⟨placed.eraseUnder (d.staging uuid token), ?_, fun name hname contents => ?_⟩
  · rw [activation_eq, editsOf, Remote.Files.script_append_of_ok (by rw [hscript]), hscript]
    simp only [Remote.Files.script, Remote.Files.line?_removeAll]
  · have howned := isOwned_of_isScenarioName hname
    rw [eraseUnder_file hu howned, hplace name howned]
    exact edited_editsOf hfiles.nodup (hcovers name hname) contents

/-! ## When the commands stop -/

variable {d : ScenarioDir} {uuid token : String} {fs : Files}

/-- The directory of the new files is removed, while no file has its name. -/
theorem eraseUnder_of_isForeign (ht : IsToken token) (hfree : fs (d.staging uuid token) = none)
    {path : String} (h : IsForeign d uuid path) :
    fs.eraseUnder (d.staging uuid token) path = fs path := by
  rw [Remote.Files.eraseUnder]
  split
  · rename_i hunder
    rcases hunder with rfl | ⟨rest, hrest⟩
    · exact hfree.symm
    · refine absurd (String.toList_inj.mp ?_) (h.2 token (String.ofList rest) ht)
      rw [toList_staged, String.toList_ofList, ← hrest]
      simp
  · rfl

/-- **What has been done when the commands stop**: the first so many edits, and nothing to anything
that is no business of the application. -/
theorem script_activation_take (hu : isUuid uuid = true) (ht : IsToken token)
    (hfiles : AreFilesOf uuid files) (hexisting : ∀ name ∈ existing, isOwned uuid name = true)
    (hstaged : Staged fs (d.staging uuid token) files)
    (hfree : fs (d.staging uuid token) = none) (k : Nat) :
    ∃ fs', fs.script ((d.activation (d.staging uuid token) existing files).take k) = (fs', true) ∧
      (∀ name, isOwned uuid name = true → fs' (d.file name) =
        edited ((editsOf existing files).take k) (fun name => fs (d.file name)) name) ∧
      ∀ path, IsForeign d uuid path → fs' path = fs path := by
  have howned : ∀ f ∈ files, isOwned uuid f.name = true := fun f hf =>
    isOwned_of_isScenarioName (hfiles.names f hf)
  have hsome := List.take_sublist k files
  obtain ⟨middle, hscript, hplace, hleft⟩ := script_edits hu
    (fun f hf => howned f (hsome.subset hf)) (hfiles.nodup.sublist (hsome.map _))
    (fun f hf => hstaged f (hsome.subset hf))
    ((existing.filter fun name => !(files.map (·.name)).contains name).take (k - files.length))
  have htake : (files.take k).map Edit.put ++
      ((existing.filter fun name => !(files.map (·.name)).contains name).take
        (k - files.length)).map Edit.drop = (editsOf existing files).take k := by
    rw [editsOf, List.take_append, List.length_map, List.map_take, List.map_take]
  rw [htake] at hscript hplace
  have hforeign : ∀ path, IsForeign d uuid path → middle path = fs path := fun path hpath =>
    hleft path
      (fun f hf => ⟨hpath.1 f.name (howned f (hsome.subset hf)), hpath.2 token f.name ht⟩)
      fun name hname =>
        hpath.1 name (hexisting name (mem_stale.mp (List.mem_of_mem_take hname)).1)
  rw [activation_eq, List.take_append, ← List.map_take,
    Remote.Files.script_append_of_ok (by rw [hscript]), hscript]
  cases hrest : k - ((editsOf existing files).map (Edit.line d (d.staging uuid token))).length with
  | zero => exact ⟨middle, rfl, hplace, hforeign⟩
  | succ n =>
    have hmiddle : middle (d.staging uuid token) = none :=
      (hforeign _ (isForeign_staging hu hu ht)).trans hfree
    refine ⟨middle.eraseUnder (d.staging uuid token), ?_, fun name hname =>
      (eraseUnder_file hu hname middle uuid token).trans (hplace name hname), fun path hpath =>
      (eraseUnder_of_isForeign ht hmiddle hpath).trans (hforeign path hpath)⟩
    simp only [List.take_succ_cons, List.take_nil, Remote.Files.script,
      Remote.Files.line?_removeAll]

/-- What is true of the files that a listing has shown. -/
structure IsShown (d : ScenarioDir) (uuid : String) (fs : Files) (existing : List String) :
    Prop where
  owned : ∀ name ∈ existing, isOwned uuid name = true
  /-- Nothing is missing, unless there is a line break in its name. -/
  all : ∀ name, isOwned uuid name = true → '/' ∉ name.toList → '\n' ∉ name.toList →
    fs (d.file name) ≠ none → name ∈ existing

end Rampart
