import Rampart.Proofs.Deployment.SyncSteps

/-!
# The steps of a replacement

A replacement of an application's files as the chain of its steps, on servers on which everything
may fail at any point. What it remembers from one step to the next are the names that a listing
showed and the directory of the new files.

* `unreliable`: servers that run commands in order, up to any point, and replace files as a whole or
  not at all.
* `Replacement`: what is asked for; `Stage`: where a replacement is, and `Stage.left` what is left of
  it there. **`process_eq`**: it begins by waiting for the lock.
* `Goes`: what a step does; **`goes_of_advance`**: there are no other steps.
* **`Goes.foreign`**: a step changes nothing that is no business of the application.
* `Fits`: what is true of the files at every stage; **`Goes.fits`**: every step keeps it.
-/

namespace Rampart

open Execution
open Remote (Files)
open ScenarioDir (staged ownedIn)
open Text.Word (quote)

/-! ## Servers on which everything may fail -/

/-- What a listing of a directory shows: every file is on a line of its own. -/
def Lists (d : ScenarioDir) (fs : Files) (output : String) : Prop :=
  ∃ names : List String, output.toList = Text.listing (names.map String.toList) ∧
    ∀ name, '/' ∉ name.toList → fs (d.file name) ≠ none → name ∈ names

/-- How a call is answered, and what becomes of the files. -/
inductive Answers : Remote.Call → Files → Except Failure String → Files → Prop
  | ran {lines : List String} {fs fs' : Files} {output : String}
    (h : fs.script lines = (fs', true))
    (hlisting : ∀ d : ScenarioDir, lines = [d.listCommand] → Lists d fs output) :
    Answers (.run lines) fs (.ok output) fs'
  /-- Some of the commands were run. -/
  | stopped (lines : List String) (fs : Files) (k : Nat) (failure : Failure) :
    Answers (.run lines) fs (.error failure) (fs.script (lines.take k)).1
  | uploaded (path contents : String) (fs : Files) (output : String) :
    Answers (.upload path contents) fs (.ok output) (fs.write path contents)
  /-- The file is there, but nobody learns of it. -/
  | unheard (path contents : String) (fs : Files) (failure : Failure) :
    Answers (.upload path contents) fs (.error failure) (fs.write path contents)
  | refused (path contents : String) (fs : Files) (failure : Failure) :
    Answers (.upload path contents) fs (.error failure) fs

/-- **Servers on which everything may fail**, with files of the one that is looked at. -/
def unreliable : Outside Files where
  answers _ := Answers

/-! ## Replacements -/

/-- A call that replaces an application's files. -/
structure Replacement where
  uuid : String
  files : List ScenarioFile
  isCurrent : Orchestrator → Bool

namespace Replacement

variable (d : ScenarioDir) (server : Server) (r : Replacement)

/-- The lock of the application's files. -/
def lock : Lock := ⟨r.uuid, server.id⟩

/-- What a replacement does. -/
def process : Process Orchestrator (Except Failure Bool) :=
  (d.replace server r.uuid r.files r.isCurrent Orchestrator.count).process

/-- Where a replacement is. -/
inductive Stage
  /-- Before the lock. -/
  | waiting
  /-- Before the look at whether it is still current. -/
  | asking
  /-- Before the files in place are listed. -/
  | listing
  /-- Before the new files get a directory. -/
  | naming (existing : List String)
  /-- Before the rest of the new files is written, and all are put into place. -/
  | uploading (existing : List String) (token : String) (rest : List ScenarioFile)
  /-- Before the files are counted; they are in place. -/
  | counting
  /-- Before the new files are removed, after a failure. -/
  | aborting (token : String) (failure : Failure)
  /-- Before the lock is given back. -/
  | releasing (result : Except Failure Bool)
  | ended (result : Except Failure Bool)

namespace Stage

/-- Whether the lock is held. -/
def Holds : Stage → Prop
  | waiting | ended _ => False
  | _ => True

/-- What is left before the lock is given back. -/
def releasingLeft (result : Except Failure Bool) : Process Orchestrator (Except Failure Bool) :=
  .release (r.lock server) (.done result)

/-- What is left when the files are in place. -/
def countingLeft : Process Orchestrator (Except Failure Bool) :=
  .atomic (Orchestrator.count .scenariosUploaded r.files.length) fun _ =>
    releasingLeft server r (.ok true)

/-- What is left after a failure. -/
def abortingLeft (token : String) (failure : Failure) :
    Process Orchestrator (Except Failure Bool) :=
  .call server (.run [s!"rm -rf {quote (d.staging r.uuid token)}"]) fun _ =>
    releasingLeft server r (.error failure)

/-- What is left before the rest of the new files is written. -/
def uploadingLeft (existing : List String) (token : String) :
    List ScenarioFile → Process Orchestrator (Except Failure Bool)
  | [] => .call server (.run (d.activation (d.staging r.uuid token) existing r.files)) fun
    | .ok _ => countingLeft server r
    | .error e => abortingLeft d server r token e
  | f :: rest => .call server (.upload (staged (d.staging r.uuid token) f.name) f.contents) fun
    | .ok _ => uploadingLeft existing token rest
    | .error e => abortingLeft d server r token e

/-- What is left before the new files get a directory. -/
def namingLeft (existing : List String) : Process Orchestrator (Except Failure Bool) :=
  .fresh fun token => uploadingLeft d server r existing token r.files

/-- What is left before the files in place are listed. -/
def listingLeft : Process Orchestrator (Except Failure Bool) :=
  .call server (.run [d.listCommand]) fun
    | .ok output => namingLeft d server r (ownedIn r.uuid output)
    | .error e => releasingLeft server r (.error e)

/-- What is left once the lock is held. -/
def askingLeft : Process Orchestrator (Except Failure Bool) :=
  .atomic id fun s =>
    if r.isCurrent s then listingLeft d server r else releasingLeft server r (.ok false)

/-- What is left of a replacement. -/
def left : Stage → Process Orchestrator (Except Failure Bool)
  | waiting => .acquire (r.lock server) (askingLeft d server r)
  | asking => askingLeft d server r
  | listing => listingLeft d server r
  | naming existing => namingLeft d server r existing
  | uploading existing token rest => uploadingLeft d server r existing token rest
  | counting => countingLeft server r
  | aborting token failure => abortingLeft d server r token failure
  | releasing result => releasingLeft server r result
  | ended result => .done result

end Stage

open Stage

/-! ## The chain of steps -/

variable {d server r}

theorem uploadingLeft_eq (existing : List String) (token : String) (rest : List ScenarioFile) :
    (do
      ScenarioDir.uploadAll server (d.staging r.uuid token) rest
      let _ ← Task.run server (d.activation (d.staging r.uuid token) existing r.files) :
        Task Orchestrator Unit).process.bind (fun
          | .ok _ => countingLeft server r
          | .error e => abortingLeft d server r token e) =
      uploadingLeft d server r existing token rest := by
  induction rest with
  | nil =>
    rw [Task.process_bind]
    change Process.call _ _ _ = Process.call _ _ _
    congr 1
    funext answer
    cases answer <;> rfl
  | cons f rest ih =>
    rw [Task.process_bind] at ih ⊢
    change Process.call _ _ _ = Process.call _ _ _
    congr 1
    funext answer
    cases answer with
    | ok _ => exact ih
    | error e => rfl

theorem listingLeft_eq :
    (d.replaceHeld server r.uuid r.files : Task Orchestrator Unit).process.bind (fun
      | .ok _ => countingLeft server r
      | .error e => releasingLeft server r (.error e)) = listingLeft d server r := by
  rw [ScenarioDir.replaceHeld, Task.process_bind, ScenarioDir.present, Task.process_run_bind]
  unfold listingLeft
  congr 1
  funext answer
  cases answer with
  | error e => rfl
  | ok output =>
    simp only [Task.onward]
    rw [Task.process_pure]
    simp only [Task.onward]
    rw [Task.process_fresh_bind]
    unfold namingLeft
    congr 1
    funext token
    rw [Task.process_attempt_bind, ← uploadingLeft_eq]
    unfold ScenarioDir.activate
    congr 1
    funext result
    cases result with
    | ok _ => rfl
    | error e =>
      simp only
      rw [Task.process_attempt_bind]
      rfl

/-- **A replacement** begins by waiting for the lock. -/
theorem process_eq : r.process d server = waiting.left d server r := by
  have hlocked : ∀ t : Task Orchestrator Bool, (ScenarioDir.locked (r.lock server) t).process =
      .acquire (r.lock server) (t.process.bind fun result =>
        .release (r.lock server) (.done result)) := fun _ => rfl
  rw [process, ScenarioDir.replace]
  refine (hlocked _).trans (congrArg (Process.acquire (r.lock server)) ?_)
  rw [Task.process_read_bind]
  unfold askingLeft
  congr 1
  funext s
  simp only [Task.onward]
  cases r.isCurrent s with
  | false => rfl
  | true =>
    rw [if_pos rfl, if_pos rfl, Task.process_bind, ← listingLeft_eq]
    congr 1
    funext result
    cases result <;> rfl

/-! ## What a step does -/

/-- **What a step of a replacement does.** -/
inductive Goes (d : ScenarioDir) (server : Server) (r : Replacement) :
    Stage → Shared Files → Stage → Shared Files → Prop
  | acquire {w : Shared Files} (h : r.lock server ∉ w.held) :
    Goes d server r waiting w asking { w with held := r.lock server :: w.held }
  | current {w : Shared Files} (h : r.isCurrent w.state = true) : Goes d server r asking w listing w
  | outdated {w : Shared Files} (h : r.isCurrent w.state = false) :
    Goes d server r asking w (releasing (.ok false)) w
  | listed {w : Shared Files} {output : String} (h : Lists d w.outside output) :
    Goes d server r listing w (naming (ownedIn r.uuid output)) w
  | unlisted {w : Shared Files} (failure : Failure) :
    Goes d server r listing w (releasing (.error failure)) w
  | named {w : Shared Files} (existing : List String) {token : String} (ht : IsToken token)
    (hfree : w.outside (d.staging r.uuid token) = none) :
    Goes d server r (naming existing) w (uploading existing token r.files) w
  | uploaded {w : Shared Files} (existing : List String) (token : String) (f : ScenarioFile)
    (rest : List ScenarioFile) :
    Goes d server r (uploading existing token (f :: rest)) w (uploading existing token rest)
      { w with outside := w.outside.write (staged (d.staging r.uuid token) f.name) f.contents }
  | refused {w : Shared Files} (existing : List String) (token : String) (f : ScenarioFile)
    (rest : List ScenarioFile) (failure : Failure) {fs : Files}
    (h : fs = w.outside ∨
      fs = w.outside.write (staged (d.staging r.uuid token) f.name) f.contents) :
    Goes d server r (uploading existing token (f :: rest)) w (aborting token failure)
      { w with outside := fs }
  | activated {w : Shared Files} (existing : List String) (token : String) {fs : Files}
    (h : w.outside.script (d.activation (d.staging r.uuid token) existing r.files) = (fs, true)) :
    Goes d server r (uploading existing token []) w counting { w with outside := fs }
  /-- Some of the commands were run that put the new files into place. -/
  | stopped {w : Shared Files} (existing : List String) (token : String) (k : Nat)
    (failure : Failure) :
    Goes d server r (uploading existing token []) w (aborting token failure)
      { w with outside := (w.outside.script
          ((d.activation (d.staging r.uuid token) existing r.files).take k)).1 }
  | counted {w : Shared Files} :
    Goes d server r counting w (releasing (.ok true))
      { w with state := w.state.count .scenariosUploaded r.files.length }
  /-- The new files are removed, or not. -/
  | cleaned {w : Shared Files} (token : String) (failure : Failure) {fs : Files}
    (h : fs = w.outside ∨ fs = w.outside.eraseUnder (d.staging r.uuid token)) :
    Goes d server r (aborting token failure) w (releasing (.error failure))
      { w with outside := fs }
  | release {w : Shared Files} (result : Except Failure Bool) :
    Goes d server r (releasing result) w (ended result)
      { w with held := w.held.erase (r.lock server) }

/-- A fresh name is one of which there is no file where the new ones would go. -/
def IsFresh (d : ScenarioDir) (uuid : String) (fs : Files) :
    Process Orchestrator (Except Failure Bool) → Process Orchestrator (Except Failure Bool) → Prop
  | .fresh next, p => ∃ token, IsToken token ∧ fs (d.staging uuid token) = none ∧ p = next token
  | _, _ => True

/-- A listing changes no files. -/
theorem eq_of_answers_list {fs fs' : Files} {answer : Except Failure String}
    (h : Answers (.run [d.listCommand]) fs answer fs') :
    fs' = fs ∧ ∀ output, answer = .ok output → Lists d fs output := by
  cases h with
  | ran hscript hlisting =>
    rw [Remote.Files.script_of_ignores (Quiet.ignores_list d)] at hscript
    obtain ⟨rfl, _⟩ := Prod.mk.inj hscript
    exact ⟨rfl, fun output houtput => Except.ok.inj houtput ▸ hlisting d rfl⟩
  | stopped _ _ k failure =>
    refine ⟨?_, nofun⟩
    rw [Remote.Files.script_of_ignores fun line hline =>
      Quiet.ignores_list d line (List.mem_of_mem_take hline)]

/-- A single command has been run, or not. -/
theorem eq_or_of_answers_single {line : String} {fs fs' done : Files}
    {answer : Except Failure String} (hline : fs.line? line = some done)
    (h : Answers (.run [line]) fs answer fs') : fs' = fs ∨ fs' = done := by
  have hall : fs.script [line] = (done, true) := by
    rw [Remote.Files.script, hline]
    rfl
  cases h with
  | ran hscript _ =>
    rw [hall] at hscript
    exact .inr (Prod.mk.inj hscript).1.symm
  | stopped _ _ k failure =>
    cases k with
    | zero => exact .inl rfl
    | succ k =>
      rw [List.take_succ_cons, List.take_nil, hall]
      exact .inr rfl

/-- **There are no other steps.** -/
theorem goes_of_advance {stage : Stage} {w w' : Shared Files}
    {p : Process Orchestrator (Except Failure Bool)}
    (h : Advance unreliable w (stage.left d server r) w' p)
    (hfresh : IsFresh d r.uuid w.outside (stage.left d server r) p) :
    ∃ next : Stage, p = next.left d server r ∧ Goes d server r stage w next w' := by
  cases stage with
  | waiting =>
    obtain ⟨hfree, rfl, rfl⟩ := h.of_acquire
    exact ⟨asking, rfl, .acquire hfree⟩
  | asking =>
    obtain ⟨rfl, rfl⟩ := h.of_atomic
    cases hcurrent : r.isCurrent w.state with
    | true => exact ⟨listing, if_pos rfl, .current hcurrent⟩
    | false =>
      exact ⟨releasing (.ok false), if_neg Bool.false_ne_true, .outdated hcurrent⟩
  | listing =>
    obtain ⟨answer, after, hanswer, rfl, rfl⟩ := h.of_call
    obtain ⟨rfl, hlists⟩ := eq_of_answers_list hanswer
    cases answer with
    | ok output => exact ⟨naming (ownedIn r.uuid output), rfl, .listed (hlists output rfl)⟩
    | error failure => exact ⟨releasing (.error failure), rfl, .unlisted failure⟩
  | naming existing =>
    obtain ⟨_, _, rfl, _⟩ := h.of_fresh
    obtain ⟨token, ht, hfree, rfl⟩ := hfresh
    exact ⟨uploading existing token r.files, rfl, .named existing ht hfree⟩
  | uploading existing token rest =>
    cases rest with
    | nil =>
      obtain ⟨answer, after, hanswer, rfl, rfl⟩ := h.of_call
      cases hanswer with
      | ran hscript _ => exact ⟨counting, rfl, .activated existing token hscript⟩
      | stopped _ _ k failure =>
        exact ⟨aborting token failure, rfl, .stopped existing token k failure⟩
    | cons f rest =>
      obtain ⟨answer, after, hanswer, rfl, rfl⟩ := h.of_call
      cases hanswer with
      | uploaded => exact ⟨uploading existing token rest, rfl, .uploaded existing token f rest⟩
      | unheard _ _ _ failure =>
        exact ⟨aborting token failure, rfl, .refused existing token f rest failure (.inr rfl)⟩
      | refused _ _ _ failure =>
        exact ⟨aborting token failure, rfl, .refused existing token f rest failure (.inl rfl)⟩
  | counting =>
    obtain ⟨rfl, rfl⟩ := h.of_atomic
    exact ⟨releasing (.ok true), rfl, .counted⟩
  | aborting token failure =>
    obtain ⟨answer, after, hanswer, rfl, rfl⟩ := h.of_call
    have hfiles := eq_or_of_answers_single (Remote.Files.line?_removeAll _ _) hanswer
    exact ⟨releasing (.error failure), rfl, .cleaned token failure hfiles⟩
  | releasing result =>
    obtain ⟨rfl, rfl⟩ := h.of_release
    exact ⟨ended result, rfl, .release result⟩
  | ended result => cases h

theorem listCommand_inj {d d' : ScenarioDir} (h : d.listCommand = d'.listCommand) : d = d' := by
  have hcommand : ∀ d : ScenarioDir,
      d.listCommand = "ls -1A " ++ quote d.path ++ " 2>/dev/null || true" := fun _ => rfl
  have hline : ∀ path : String, Text.Word.line [path] = quote path := fun path => by
    apply String.toList_inj.mp
    rw [Text.Word.toList_line_cons]
    simp [Text.Word.behind]
  have hchars := congrArg String.toList h
  simp only [hcommand, String.toList_append] at hchars
  have hquote := List.append_cancel_left (List.append_cancel_right hchars)
  have hread := congrArg Text.Word.split (String.toList_inj.mp hquote)
  rw [← hline, ← hline, Text.Word.split_line, Text.Word.split_line] at hread
  cases d
  cases d'
  simpa using hread

theorem ne_listCommand (word : String) (d : ScenarioDir) : s!"rm -rf {word}" ≠ d.listCommand := by
  have hlist : d.listCommand = "ls -1A " ++ quote d.path ++ " 2>/dev/null || true" := rfl
  have hremove : s!"rm -rf {word}" = "rm -rf " ++ word := rfl
  intro heq
  have hchars := congrArg String.toList heq
  rw [hlist, hremove, String.toList_append, String.toList_append, String.toList_append] at hchars
  cases List.head_eq_of_cons_eq hchars

/-- **All these steps are possible.** -/
theorem advance_of_goes {stage next : Stage} {w w' : Shared Files}
    (h : Goes d server r stage w next w') :
    Advance unreliable w (stage.left d server r) w' (next.left d server r) ∧
      IsFresh d r.uuid w.outside (stage.left d server r) (next.left d server r) := by
  have hlist : ∀ fs : Files, fs.script [d.listCommand] = (fs, true) := fun fs =>
    Remote.Files.script_of_ignores (Quiet.ignores_list d) fs
  have hcall {c : Remote.Call}
      {f : Except Failure String → Process Orchestrator (Except Failure Bool)}
      {answer : Except Failure String} {fs : Files} (ha : Answers c w.outside answer fs) :
      Advance unreliable w (.call server c f) { w with outside := fs } (f answer) :=
    .call w f ha
  cases h with
  | acquire hfree => exact ⟨.acquire w _ hfree, trivial⟩
  | current hcurrent =>
    have hstep := Advance.atomic (o := unreliable) w id fun s =>
      if r.isCurrent s then listingLeft d server r else releasingLeft server r (.ok false)
    rw [if_pos hcurrent] at hstep
    exact ⟨hstep, trivial⟩
  | outdated hcurrent =>
    have hstep := Advance.atomic (o := unreliable) w id fun s =>
      if r.isCurrent s then listingLeft d server r else releasingLeft server r (.ok false)
    rw [if_neg (hcurrent ▸ Bool.false_ne_true)] at hstep
    exact ⟨hstep, trivial⟩
  | listed hlists =>
    refine ⟨hcall (.ran (hlist w.outside) fun d' hd => ?_), trivial⟩
    exact listCommand_inj (List.singleton_inj.mp hd) ▸ hlists
  | unlisted failure =>
    exact ⟨hcall (.stopped [d.listCommand] w.outside 0 failure), trivial⟩
  | named existing ht hfree => exact ⟨.fresh w _ ht, _, ht, hfree, rfl⟩
  | uploaded existing token f rest => exact ⟨hcall (.uploaded _ _ _ ""), trivial⟩
  | refused existing token f rest failure hfs =>
    rcases hfs with rfl | rfl
    · exact ⟨hcall (.refused _ _ _ failure), trivial⟩
    · exact ⟨hcall (.unheard _ _ _ failure), trivial⟩
  | activated existing token hscript =>
    refine ⟨hcall (@Answers.ran _ _ _ "" hscript fun d' hd => ?_), trivial⟩
    have hlast := List.mem_append_right
      (List.map (Edit.line d (d.staging r.uuid token)) (editsOf existing r.files))
      (List.mem_singleton_self s!"rm -rf {quote (d.staging r.uuid token)}")
    rw [← activation_eq, hd, List.mem_singleton] at hlast
    exact absurd hlast (ne_listCommand _ d')
  | stopped existing token k failure => exact ⟨hcall (.stopped _ _ k failure), trivial⟩
  | counted => exact ⟨.atomic w _ _, trivial⟩
  | cleaned token failure hfs =>
    rcases hfs with rfl | rfl
    · exact ⟨hcall (.stopped _ _ 0 failure), trivial⟩
    · refine ⟨hcall (@Answers.ran _ _ _ "" ?_ fun d' hd => ?_), trivial⟩
      · rw [Remote.Files.script, Remote.Files.line?_removeAll]
        rfl
      · exact absurd (List.singleton_inj.mp hd) (ne_listCommand _ d')
  | release result => exact ⟨.release w _ _, trivial⟩

/-! ## What is true at every stage -/

/-- A replacement that may be asked for: of a valid uuid, by files of the application. -/
structure IsValid (r : Replacement) : Prop where
  isUuid : isUuid r.uuid = true
  files : AreFilesOf r.uuid r.files

/-- The files in place are as they were. -/
def Unchanged (d : ScenarioDir) (uuid : String) (before fs : Files) : Prop :=
  ∀ name, isOwned uuid name = true → fs (d.file name) = before (d.file name)

/-- **The files in place are exactly those that were given**, apart from files with a line break in
their names. -/
def IsExact (d : ScenarioDir) (r : Replacement) (fs : Files) : Prop :=
  ∀ name, isOwned r.uuid name = true → '/' ∉ name.toList → '\n' ∉ name.toList → ∀ contents,
    fs (d.file name) = some contents ↔ (⟨name, contents⟩ : ScenarioFile) ∈ r.files

/-- **The replacement has stopped between two edits**: nothing was done yet, or the first so many of
those that make the files the ones that were given. -/
def HasStopped (d : ScenarioDir) (r : Replacement) (before fs : Files) : Prop :=
  Unchanged d r.uuid before fs ∨ ∃ existing k, IsShown d r.uuid before existing ∧
    ∀ name, isOwned r.uuid name = true → fs (d.file name) =
      edited ((editsOf existing r.files).take k) (fun name => before (d.file name)) name

theorem HasStopped.of_unchanged {before fs fs' : Files} (h : HasStopped d r before fs)
    (hsame : Unchanged d r.uuid fs fs') : HasStopped d r before fs' := by
  rcases h with h | ⟨existing, k, hshown, h⟩
  · exact .inl fun name hname => (hsame name hname).trans (h name hname)
  · exact .inr ⟨existing, k, hshown, fun name hname => (hsame name hname).trans (h name hname)⟩

/-- What has become of the files when the replacement ends. -/
def HasEnded (d : ScenarioDir) (r : Replacement) (before fs : Files) :
    Except Failure Bool → Prop
  | .ok true => IsExact d r fs
  | .ok false => Unchanged d r.uuid before fs
  | .error _ => HasStopped d r before fs

/-- **What is true of the files at every stage**, where `before` are those when the lock was
taken. -/
def Fits (d : ScenarioDir) (r : Replacement) (before fs : Files) : Stage → Prop
  | waiting | ended _ => True
  | asking | listing => Unchanged d r.uuid before fs
  | naming existing => Unchanged d r.uuid before fs ∧ IsShown d r.uuid before existing
  | uploading existing token rest =>
    (Unchanged d r.uuid before fs ∧ IsShown d r.uuid before existing) ∧ IsToken token ∧ fs (d.staging r.uuid token) = none ∧
    ∃ written, r.files = written ++ rest ∧ Staged fs (d.staging r.uuid token) written
  | counting => IsExact d r fs
  | aborting token _ => IsToken token ∧ fs (d.staging r.uuid token) = none ∧
    HasStopped d r before fs
  | releasing result => HasEnded d r before fs result

/-- The paths of an application: its files in place, its new ones, and where these are. -/
def IsOwnPath (d : ScenarioDir) (uuid path : String) : Prop :=
  (∃ name, isOwned uuid name = true ∧ path = d.file name) ∨
    ∃ token, IsToken token ∧
      (path = d.staging uuid token ∨ ∃ name, path = staged (d.staging uuid token) name)

theorem isForeign_of_isOwnPath {uuid other path : String} (hu : Rampart.isUuid uuid = true)
    (ho : Rampart.isUuid other = true) (hne : other ≠ uuid) (h : IsOwnPath d other path) :
    IsForeign d uuid path := by
  obtain ⟨name, hname, rfl⟩ | ⟨token, ht, rfl | ⟨name, rfl⟩⟩ := h
  · exact isForeign_owned hu ho hne hname
  · exact isForeign_staging hu ho ht
  · exact isForeign_staged hu ho hne ht name

/-- **What is true stays true** while nobody changes a path of the application. -/
theorem Fits.of_same {before fs fs' : Files} {stage : Stage} (h : Fits d r before fs stage)
    (hsame : ∀ path, IsOwnPath d r.uuid path → fs' path = fs path) :
    Fits d r before fs' stage := by
  have hplace : ∀ name, isOwned r.uuid name = true → fs' (d.file name) = fs (d.file name) :=
    fun name hname => hsame _ (.inl ⟨name, hname, rfl⟩)
  have hunchanged : Unchanged d r.uuid before fs → Unchanged d r.uuid before fs' :=
    fun h name hname => (hplace name hname).trans (h name hname)
  have hexact : IsExact d r fs → IsExact d r fs' := by
    intro h name hname hslash hfeed contents
    rw [hplace name hname]
    exact h name hname hslash hfeed contents
  have hstopped : HasStopped d r before fs → HasStopped d r before fs' := fun h =>
    h.of_unchanged hplace
  cases stage with
  | waiting => trivial
  | ended result => trivial
  | asking => exact hunchanged h
  | listing => exact hunchanged h
  | naming existing => exact ⟨hunchanged h.1, h.2⟩
  | uploading existing token rest =>
    obtain ⟨⟨hsame', hshown⟩, ht, hfree, written, hfiles, hstaged⟩ := h
    refine ⟨⟨hunchanged hsame', hshown⟩, ht, ?_, written, hfiles, fun f hf => ?_⟩
    · exact (hsame _ (.inr ⟨token, ht, .inl rfl⟩)).trans hfree
    · exact (hsame _ (.inr ⟨token, ht, .inr ⟨f.name, rfl⟩⟩)).trans (hstaged f hf)
  | counting => exact hexact h
  | aborting token failure =>
    obtain ⟨ht, hfree, h⟩ := h
    exact ⟨ht, (hsame _ (.inr ⟨token, ht, .inl rfl⟩)).trans hfree, hstopped h⟩
  | releasing result => cases result with
    | error failure => exact hstopped h
    | ok current => cases current with
      | false => exact hunchanged h
      | true => exact hexact h

/-- A new file that is written. -/
theorem write_staged {uuid token : String} (hu : Rampart.isUuid uuid = true) (ht : IsToken token)
    (fs : Files) (f : ScenarioFile) :
    Unchanged d uuid fs (fs.write (staged (d.staging uuid token) f.name) f.contents) ∧
      ∀ path, IsForeign d uuid path →
        fs.write (staged (d.staging uuid token) f.name) f.contents path = fs path :=
  ⟨fun _ hname => Function.update_of_ne (file_ne_staged hu hname d uuid token f.name) _ _,
    fun _ hpath => Function.update_of_ne (hpath.2 token f.name ht) _ _⟩

/-- **What the commands do** that put the new files into place, as far as they are run. -/
theorem Fits.activation_take (hr : r.IsValid) {before fs : Files} {existing : List String}
    {token : String} (h : Fits d r before fs (uploading existing token [])) (k : Nat) :
    ∃ fs', fs.script ((d.activation (d.staging r.uuid token) existing r.files).take k) =
        (fs', true) ∧
      (∀ name, isOwned r.uuid name = true → fs' (d.file name) =
        edited ((editsOf existing r.files).take k) (fun name => before (d.file name)) name) ∧
      ∀ path, IsForeign d r.uuid path → fs' path = fs path := by
  obtain ⟨⟨hsame, hshown⟩, ht, hfree, written, hfiles, hstaged⟩ := h
  rw [List.append_nil] at hfiles
  obtain ⟨fs', hscript, hplace, hforeign⟩ := script_activation_take hr.isUuid ht hr.files
    hshown.owned (hfiles ▸ hstaged) hfree k
  exact ⟨fs', hscript, fun name hname =>
    (hplace name hname).trans (edited_congr _ (hsame name hname)), hforeign⟩

/-- All of them are run. -/
theorem Fits.activation (hr : r.IsValid) {before fs fs' : Files} {existing : List String}
    {token : String} (h : Fits d r before fs (uploading existing token []))
    (hscript : fs.script (d.activation (d.staging r.uuid token) existing r.files) = (fs', true)) :
    IsExact d r fs' ∧ ∀ path, IsForeign d r.uuid path → fs' path = fs path := by
  obtain ⟨last, htake, hplace, hforeign⟩ := h.activation_take hr
    (d.activation (d.staging r.uuid token) existing r.files).length
  rw [List.take_length, hscript] at htake
  obtain ⟨rfl, _⟩ := Prod.mk.inj htake
  refine ⟨fun name hname hslash hfeed contents => ?_, hforeign⟩
  have hall : (editsOf existing r.files).length ≤
      (d.activation (d.staging r.uuid token) existing r.files).length := by
    rw [activation_eq, List.length_append, List.length_map]
    exact Nat.le_add_right _ _
  rw [hplace name hname, List.take_of_length_le hall]
  exact edited_editsOf hr.files.nodup (h.1.2.all name hname hslash hfeed) contents

variable {stage next : Stage} {w w' : Shared Files} {before : Files}

/-- **A step changes nothing that is no business of the application.** -/
theorem Goes.foreign (h : Goes d server r stage w next w') (hr : r.IsValid)
    (hfits : Fits d r before w.outside stage) {path : String} (hpath : IsForeign d r.uuid path) :
    w'.outside path = w.outside path := by
  cases h with
  | uploaded existing token f rest =>
    exact (write_staged hr.isUuid hfits.2.1 _ f).2 path hpath
  | refused existing token f rest failure hfs =>
    rcases hfs with rfl | rfl
    · rfl
    · exact (write_staged hr.isUuid hfits.2.1 _ f).2 path hpath
  | activated existing token hscript => exact (hfits.activation hr hscript).2 path hpath
  | stopped existing token k failure =>
    obtain ⟨fs', hscript, _, hforeign⟩ := hfits.activation_take hr k
    rw [hscript]
    exact hforeign path hpath
  | cleaned token failure hfs =>
    rcases hfs with rfl | rfl
    · rfl
    · exact eraseUnder_of_isForeign hfits.1 hfits.2.1 hpath
  | _ => rfl

/-- **Every step keeps what is true**; what was there before is settled when the lock is taken. -/
theorem Goes.fits (h : Goes d server r stage w next w') (hr : r.IsValid)
    (hfits : Fits d r before w.outside stage)
    (hbefore : stage = waiting → before = w.outside) : Fits d r before w'.outside next := by
  cases h with
  | acquire _ => exact fun name _ => by rw [hbefore rfl]
  | current _ => exact hfits
  | outdated _ => exact hfits
  | listed hlists =>
    obtain ⟨names, houtput, hnames⟩ := hlists
    refine ⟨hfits, fun name hname => (List.mem_filter.mp hname).2,
      fun name hname hslash hfeed hthere => ?_⟩
    rw [← hfits name hname] at hthere
    exact mem_ownedIn_of_not_mem hr.isUuid houtput (hnames name hslash hthere) hname hfeed
  | unlisted failure => exact .inl hfits
  | named existing ht hfree => exact ⟨hfits, ht, hfree, [], rfl, nofun⟩
  | uploaded existing token f rest =>
    obtain ⟨⟨hsame, hshown⟩, ht, hfree, written, hfiles, hstaged⟩ := hfits
    obtain ⟨hplace, hforeign⟩ := write_staged (d := d) hr.isUuid ht w.outside f
    refine ⟨⟨fun name hname => (hplace name hname).trans (hsame name hname), hshown⟩, ht,
      (hforeign _ (isForeign_staging hr.isUuid hr.isUuid ht)).trans hfree, written ++ [f], ?_,
      fun g hg => ?_⟩
    · rw [hfiles, List.append_assoc]
      rfl
    · rcases List.mem_append.mp hg with hg | hg
      · have hne : staged (d.staging r.uuid token) g.name ≠
            staged (d.staging r.uuid token) f.name := by
          intro heq
          have hnodup := hr.files.nodup
          rw [hfiles, List.map_append, List.nodup_append] at hnodup
          exact hnodup.2.2 _ (List.mem_map_of_mem hg) _
            (List.mem_map_of_mem List.mem_cons_self) (staged_inj heq)
        exact (Function.update_of_ne hne _ _).trans (hstaged g hg)
      · rw [List.mem_singleton.mp hg]
        exact Function.update_self ..
  | refused existing token f rest failure hfs =>
    obtain ⟨⟨hsame, hshown⟩, ht, hfree, _⟩ := hfits
    rcases hfs with rfl | rfl
    · exact ⟨ht, hfree, .inl hsame⟩
    · obtain ⟨hplace, hforeign⟩ := write_staged (d := d) hr.isUuid ht w.outside f
      exact ⟨ht, (hforeign _ (isForeign_staging hr.isUuid hr.isUuid ht)).trans hfree,
        .inl fun name hname => (hplace name hname).trans (hsame name hname)⟩
  | activated existing token hscript => exact (hfits.activation hr hscript).1
  | stopped existing token k failure =>
    obtain ⟨fs', hscript, hplace, hforeign⟩ := hfits.activation_take hr k
    obtain ⟨⟨_, hshown⟩, ht, hfree, _⟩ := hfits
    rw [hscript]
    exact ⟨ht, (hforeign _ (isForeign_staging hr.isUuid hr.isUuid ht)).trans hfree,
      .inr ⟨existing, k, hshown, hplace⟩⟩
  | counted => exact hfits
  | cleaned token failure hfs =>
    obtain ⟨ht, hfree, hstopped⟩ := hfits
    rcases hfs with rfl | rfl
    · exact hstopped
    · exact hstopped.of_unchanged fun name hname =>
        eraseUnder_file hr.isUuid hname w.outside r.uuid token
  | release result => trivial

end Replacement

end Rampart
