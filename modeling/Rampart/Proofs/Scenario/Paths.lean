import Rampart.Proofs.Execution.Step
import Rampart.Proofs.Remote.Files
import Rampart.Proofs.Scenario.Names
import Rampart.Proofs.Text.Piece

/-!
# The paths of scenario files

Where the scenario files of an application lie, and which calls leave them alone. Files of other
applications, also new ones that are not in place yet, lie elsewhere.

* `IsScenarioPath`: a file in place, or a new one in a directory of the application's own;
  `IsForeign`: the paths that are no business of the application.
* `Spares`: a call that changes nothing at those paths, whether it succeeds or not.
* **`mem_ownedIn`**, **`mem_ownedIn_of_not_mem`**: a file in place is among the files that a listing
  shows.
-/

namespace Rampart

open Remote (Files)
open Execution (IsToken)
open ScenarioDir (staged)
open Text.Word (quote)

/-- The paths that scenario files of an application have, in place or new. -/
def IsScenarioPath (d : ScenarioDir) (uuid path : String) : Prop :=
  ∃ name, IsScenarioName uuid name ∧
    (path = d.file name ∨ ∃ token, IsToken token ∧ path = staged (d.staging uuid token) name)

/-- A call that leaves the scenario files of an application alone. -/
def Spares (d : ScenarioDir) (uuid : String) (c : Remote.Call) : Prop :=
  ∀ (fs : Files) (path : String), IsScenarioPath d uuid path → (fs.after c).1 path = fs path

/-- A command line that leaves the scenario files of an application alone. -/
def SparesLine (d : ScenarioDir) (uuid line : String) : Prop :=
  ∀ (fs fs' : Files), fs.line? line = some fs' → ∀ path, IsScenarioPath d uuid path →
    fs' path = fs path

/-! ## How paths are made -/

theorem toList_file (d : ScenarioDir) (name : String) :
    (d.file name).toList = d.path.toList ++ '/' :: name.toList := by
  have h : d.file name = d.path ++ "/" ++ name := rfl
  rw [h]
  simp

theorem toList_staging (d : ScenarioDir) (uuid token : String) :
    (d.staging uuid token).toList =
      d.path.toList ++ '/' :: (".staging-".toList ++ (uuid.toList ++ '-' :: token.toList)) := by
  have h : d.staging uuid token = d.path ++ "/.staging-" ++ uuid ++ "-" ++ token := rfl
  rw [h]
  simp

theorem toList_staged (staging name : String) :
    (staged staging name).toList = staging.toList ++ '/' :: name.toList := by
  have h : staged staging name = staging ++ "/" ++ name := rfl
  rw [h]
  simp

theorem file_inj {d : ScenarioDir} {a b : String} (h : d.file a = d.file b) : a = b := by
  have hchars := congrArg String.toList h
  rw [toList_file, toList_file] at hchars
  exact String.toList_inj.mp (List.cons.inj (List.append_cancel_left hchars)).2

theorem staged_inj {staging a b : String} (h : staged staging a = staged staging b) : a = b := by
  have hchars := congrArg String.toList h
  rw [toList_staged, toList_staged] at hchars
  exact String.toList_inj.mp (List.cons.inj (List.append_cancel_left hchars)).2

theorem not_mem_of_isToken {token : String} (h : IsToken token) {c : Char}
    (hc : c.isAlphanum = false) : c ∉ token.toList := by
  intro hmem
  have hchar := h c hmem
  rw [hc] at hchar
  cases hchar

theorem exists_cons_of_isOwned {uuid name : String} (hu : isUuid uuid = true)
    (h : isOwned uuid name = true) :
    ∃ c cs, name.toList = c :: cs ∧ isUuidChar c = true := by
  rw [isOwned, Bool.and_eq_true, List.isPrefixOf_iff_prefix] at h
  obtain ⟨⟨rest, hrest⟩, _⟩ := h
  obtain ⟨hne, hchars⟩ := (isUuid_iff uuid).mp hu
  have hstart : (ownedStart uuid).toList = uuid.toList ++ ['.'] := by simp [ownedStart]
  cases hcs : uuid.toList with
  | nil => exact absurd hcs hne
  | cons c cs =>
    refine ⟨c, cs ++ ['.'] ++ rest, ?_, hchars c (hcs ▸ List.mem_cons_self)⟩
    rw [← hrest, hstart, hcs]
    rfl

/-- A file of an application does not lie in a directory for new files. -/
theorem not_prefix_staging {uuid name : String} (hu : isUuid uuid = true)
    (h : isOwned uuid name = true) (d : ScenarioDir) (other token : String) :
    ¬ (d.staging other token).toList <+: (d.file name).toList := by
  obtain ⟨c, cs, hname, hc⟩ := exists_cons_of_isOwned hu h
  rw [toList_staging, toList_file, List.prefix_append_right_inj, hname, List.cons_prefix_cons]
  rintro ⟨_, hprefix⟩
  have hstart : ".staging-".toList = '.' :: "staging-".toList := by decide
  rw [hstart, List.cons_append, List.cons_prefix_cons] at hprefix
  exact ne_of_isUuidChar hc (by decide) hprefix.1.symm

theorem not_isUnder_staging {uuid name : String} (hu : isUuid uuid = true)
    (h : isOwned uuid name = true) (d : ScenarioDir) (other token : String) :
    ¬ Files.IsUnder (d.staging other token) (d.file name) := by
  rintro (heq | hprefix)
  · exact not_prefix_staging hu h d other token (heq ▸ List.prefix_refl _)
  · refine not_prefix_staging hu h d other token ((?_ : _ <+: _).trans hprefix)
    rw [String.toList_append]
    exact List.prefix_append _ _

/-- The directories for new files of two applications are apart. -/
theorem uuid_eq_of_staging {d : ScenarioDir} {uuid other token token' : String}
    {rest rest' : List Char} (hu : isUuid uuid = true) (ho : isUuid other = true)
    (ht : IsToken token) (ht' : IsToken token')
    (h : (d.staging uuid token).toList ++ '/' :: rest =
      (d.staging other token').toList ++ '/' :: rest') : uuid = other := by
  have hslash : ∀ {u t : String}, isUuid u = true → IsToken t →
      '/' ∉ u.toList ++ '-' :: t.toList := by
    intro u t hu ht hmem
    rcases List.mem_append.mp hmem with hmem | hmem
    · exact not_mem_of_isUuid hu (by decide) hmem
    · rcases List.mem_cons.mp hmem with heq | hmem
      · exact absurd heq (by decide)
      · exact not_mem_of_isToken ht (by decide) hmem
  have htail : uuid.toList ++ '-' :: token.toList ++ '/' :: rest =
      other.toList ++ '-' :: token'.toList ++ '/' :: rest' := by
    simpa [toList_staging] using h
  have hcut := cut_inj_first (hslash hu ht) (hslash ho ht') htail
  refine String.toList_inj.mp (cut_inj_last ?_ ?_ hcut.1).1
  · exact not_mem_of_isToken ht (by decide)
  · exact not_mem_of_isToken ht' (by decide)

theorem file_ne_staged {uuid name : String} (hu : isUuid uuid = true)
    (h : isOwned uuid name = true) (d : ScenarioDir) (other token name' : String) :
    d.file name ≠ staged (d.staging other token) name' := by
  intro heq
  refine not_prefix_staging hu h d other token ⟨'/' :: name'.toList, ?_⟩
  rw [heq, toList_staged]

/-! ## Other paths -/

/-- The paths that are no business of an application: neither its files in place nor its new ones. -/
def IsForeign (d : ScenarioDir) (uuid path : String) : Prop :=
  (∀ name, isOwned uuid name = true → path ≠ d.file name) ∧
    ∀ token name, IsToken token → path ≠ staged (d.staging uuid token) name

theorem IsForeign.not_isScenarioPath {d : ScenarioDir} {uuid path : String}
    (h : IsForeign d uuid path) : ¬ IsScenarioPath d uuid path := by
  rintro ⟨name, hname, heq | ⟨token, ht, heq⟩⟩
  · exact h.1 name (isOwned_of_isScenarioName hname) heq
  · exact h.2 token name ht heq

/-- A file in the directory that is not the application's. -/
theorem isForeign_file {d : ScenarioDir} {uuid name : String} (hslash : '/' ∉ name.toList)
    (h : isOwned uuid name = false) : IsForeign d uuid (d.file name) := by
  refine ⟨fun own howned heq => ?_, fun token own _ heq => ?_⟩
  · rw [file_inj heq, howned] at h
    cases h
  · have hchars := congrArg String.toList heq
    rw [toList_file, toList_staged, toList_staging, List.append_assoc] at hchars
    have htail := (List.cons.inj (List.append_cancel_left hchars)).2
    refine hslash ?_
    rw [htail]
    simp

/-- The directory of new files. -/
theorem isForeign_staging {d : ScenarioDir} {uuid other token : String} (hu : isUuid uuid = true)
    (ho : isUuid other = true) (ht : IsToken token) :
    IsForeign d uuid (d.staging other token) := by
  refine ⟨fun own howned heq => ?_, fun token' own _ heq => ?_⟩
  · refine not_prefix_staging hu howned d other token ?_
    exact heq ▸ List.prefix_refl _
  · have hchars := congrArg String.toList heq
    rw [toList_staged, toList_staging, toList_staging, List.append_assoc] at hchars
    have htail := List.append_cancel_left (List.cons.inj (List.append_cancel_left hchars)).2
    have hslash : '/' ∈ other.toList ++ '-' :: token.toList := by
      rw [htail]
      simp
    rcases List.mem_append.mp hslash with hmem | hmem
    · exact not_mem_of_isUuid ho (by decide) hmem
    · rcases List.mem_cons.mp hmem with heq | hmem
      · exact absurd heq (by decide)
      · exact not_mem_of_isToken ht (by decide) hmem

/-- A file of one application is foreign to another. -/
theorem isForeign_owned {d : ScenarioDir} {uuid other name : String} (hu : isUuid uuid = true)
    (ho : isUuid other = true) (hne : other ≠ uuid) (h : isOwned other name = true) :
    IsForeign d uuid (d.file name) := by
  refine ⟨fun own howned heq => ?_, fun token own _ heq => ?_⟩
  · rw [← file_inj heq] at howned
    exact hne (uuid_eq_of_isOwned ho hu h howned)
  · exact file_ne_staged ho h d uuid token own heq

/-- A new file of one application is foreign to another. -/
theorem isForeign_staged {d : ScenarioDir} {uuid other token : String} (hu : isUuid uuid = true)
    (ho : isUuid other = true) (hne : other ≠ uuid) (ht : IsToken token) (name : String) :
    IsForeign d uuid (staged (d.staging other token) name) := by
  refine ⟨fun own howned heq => ?_, fun token' own ht' heq => ?_⟩
  · exact file_ne_staged hu howned d other token name heq.symm
  · have hchars := congrArg String.toList heq
    rw [toList_staged, toList_staged] at hchars
    exact hne (uuid_eq_of_staging ho hu ht ht' hchars)

theorem exists_of_isScenarioPath {d : ScenarioDir} {uuid path : String}
    (h : IsScenarioPath d uuid path) :
    ∃ before name, IsScenarioName uuid name ∧ path.toList = before ++ '/' :: name.toList := by
  obtain ⟨name, hname, rfl | ⟨token, _, rfl⟩⟩ := h
  · exact ⟨_, name, hname, toList_file d name⟩
  · exact ⟨_, name, hname, toList_staged _ name⟩

/-- The file that makes the proxy forget what it keeps. -/
theorem not_isScenarioPath_marker {uuid : String} (hu : isUuid uuid = true) (d : ScenarioDir)
    (engine : Engine.Client) : ¬ IsScenarioPath d uuid engine.markerPath := by
  intro h
  obtain ⟨before, name, hname, hpath⟩ := exists_of_isScenarioPath h
  have hmarker : engine.markerPath.toList =
      engine.settings.proxyDynamicDir.toList ++ '/' :: "crowdsec-reload.yaml".toList := by
    rw [Engine.Client.markerPath, String.toList_append]
    rfl
  have hslash := slash_not_mem_of_isScenarioName hu hname
  obtain ⟨middle, _, hchars⟩ := hname
  have hcut := (cut_inj_last hslash (by decide) (hpath.symm.trans hmarker)).2
  have hdots : uuid.toList ++ '.' :: (middle ++ ".yaml".toList) =
      "crowdsec-reload".toList ++ '.' :: "yaml".toList := by
    rw [← hchars, hcut]
    decide
  have htail := (cut_inj_first (not_mem_of_isUuid hu (by decide)) (by decide) hdots).2
  have hlength := congrArg List.length htail
  have hlong : ".yaml".toList.length = 5 := by decide
  have hshort : "yaml".toList.length = 4 := by decide
  rw [List.length_append, hlong, hshort] at hlength
  omega

/-! ## Calls that leave files alone -/

theorem Spares.upload {d : ScenarioDir} {uuid path : String} (h : ¬ IsScenarioPath d uuid path)
    (contents : String) : Spares d uuid (.upload path contents) := by
  intro fs own hown
  have hne : own ≠ path := fun heq => h (heq ▸ hown)
  exact Function.update_of_ne hne _ _

theorem Spares.run {d : ScenarioDir} {uuid : String} {lines : List String}
    (h : ∀ line ∈ lines, SparesLine d uuid line) : Spares d uuid (.run lines) := by
  intro fs path hpath
  have hscript : (fs.script lines).1 path = fs path := by
    induction lines generalizing fs with
    | nil => rfl
    | cons line lines ih =>
      rw [Remote.Files.script]
      cases hline : fs.line? line with
      | none => rfl
      | some fs' =>
        exact (ih (fun l hl => h l (List.mem_cons_of_mem line hl)) fs').trans
          (h line List.mem_cons_self fs fs' hline path hpath)
  exact hscript

theorem Spares.of_ignores {d : ScenarioDir} {uuid : String} {lines : List String}
    (h : ∀ line ∈ lines, Files.Ignores line) : Spares d uuid (.run lines) := by
  refine Spares.run fun line hline fs fs' hfs path _ => ?_
  rw [h line hline fs] at hfs
  rw [Option.some.inj hfs]

theorem SparesLine.move {d : ScenarioDir} {uuid source target : String}
    (hs : ¬ IsScenarioPath d uuid source) (ht : ¬ IsScenarioPath d uuid target) :
    SparesLine d uuid s!"mv -f {quote source} {quote target}" := by
  intro fs fs' hline path hpath
  rw [Remote.Files.move_eq_line, Remote.Files.line?_line, Remote.Files.command?] at hline
  obtain ⟨contents, _, rfl⟩ := Option.map_eq_some_iff.mp hline
  have htarget : path ≠ target := fun heq => ht (heq ▸ hpath)
  have hsource : path ≠ source := fun heq => hs (heq ▸ hpath)
  exact (Function.update_of_ne htarget _ _).trans (Function.update_of_ne hsource _ _)

theorem SparesLine.remove {d : ScenarioDir} {uuid target : String}
    (h : ¬ IsScenarioPath d uuid target) : SparesLine d uuid s!"rm -f {quote target}" := by
  intro fs fs' hline path hpath
  rw [Remote.Files.line?_remove] at hline
  rw [← Option.some.inj hline]
  have hne : path ≠ target := fun heq => h (heq ▸ hpath)
  exact Function.update_of_ne hne _ _

/-- Removing the new files of another application. -/
theorem SparesLine.removeAll {d : ScenarioDir} {uuid other token : String}
    (hu : isUuid uuid = true) (ho : isUuid other = true) (hne : other ≠ uuid)
    (ht : IsToken token) : SparesLine d uuid s!"rm -rf {quote (d.staging other token)}" := by
  intro fs fs' hline path hpath
  rw [Remote.Files.line?_removeAll] at hline
  rw [← Option.some.inj hline]
  refine if_neg ?_
  have hslash : ((d.staging other token) ++ "/").toList =
      (d.staging other token).toList ++ ['/'] := by simp
  obtain ⟨name, hname, rfl | ⟨token', ht', rfl⟩⟩ := hpath
  · exact not_isUnder_staging hu (isOwned_of_isScenarioName hname) d other token
  · rintro (heq | ⟨rest, hrest⟩)
    · have hchars := congrArg (fun s : String => s.toList ++ '/' :: []) heq
      simp only [toList_staged, List.append_assoc, List.cons_append] at hchars
      exact hne (uuid_eq_of_staging hu ho ht' ht hchars).symm
    · rw [hslash, toList_staged, List.append_assoc] at hrest
      exact hne (uuid_eq_of_staging ho hu ht ht' hrest)

/-! ## Listings -/

/-- **A file in place is among the files that a listing shows.** -/
theorem mem_ownedIn {uuid output name : String} {names : List String}
    (houtput : output.toList = Text.listing (names.map String.toList)) (h : name ∈ names)
    (hblank : IsBlankFree name) (howned : isOwned uuid name = true) :
    name ∈ ScenarioDir.ownedIn uuid output := by
  have hline : name.toList ∈ Text.lines output.toList := by
    rw [houtput]
    exact Text.mem_lines_listing (List.mem_map_of_mem h) hblank
  refine List.mem_filter.mpr ⟨List.mem_map.mpr ⟨name.toList, hline, ?_⟩, howned⟩
  rw [Text.trim_eq_self hblank, String.ofList_toList]

/-- **So is any file of the application**, unless there is a line break in its name. -/
theorem mem_ownedIn_of_not_mem {uuid output name : String} {names : List String}
    (hu : isUuid uuid = true) (houtput : output.toList = Text.listing (names.map String.toList))
    (h : name ∈ names) (howned : isOwned uuid name = true) (hfeed : '\n' ∉ name.toList) :
    name ∈ ScenarioDir.ownedIn uuid output := by
  obtain ⟨c, cs, hstart, hc⟩ := exists_cons_of_isOwned hu howned
  have hsuffix : ".yaml".toList <:+ name.toList := by
    rw [isOwned, Bool.and_eq_true, List.isSuffixOf_iff_suffix] at howned
    exact howned.2
  obtain ⟨before, hend⟩ := hsuffix
  have hend : name.toList = (before ++ ".yam".toList) ++ ['l'] := by
    rw [← hend, List.append_assoc]
    rfl
  have hline : name.toList ∈ Text.lines output.toList := by
    rw [houtput]
    refine Text.mem_lines_listing_of_not_mem (List.mem_map_of_mem h) hfeed ?_
    rw [hend, List.getLast?_concat]
    decide
  refine List.mem_filter.mpr ⟨List.mem_map.mpr ⟨name.toList, hline, ?_⟩, howned⟩
  have htrim : Text.trim name.toList = name.toList := by
    rw [hstart]
    exact Text.trim_eq_self_of_ends (hstart.symm.trans hend) (not_isBlank_of_isUuidChar hc)
      (by decide)
  rw [htrim, String.ofList_toList]

end Rampart
