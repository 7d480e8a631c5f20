import Rampart.Install.Installer
import Rampart.Proofs.Remote.Tools

/-!
# Flags are added once

The commands that add the flags of request logging and of header logging to the compose file of the
proxy, run in any order and as often as it may be.

* `loggingFlags`: the flags. **`isFlagCommand_iff`**: the installers run the commands for them.
* `IsAnchorLine`, `HasAnchor`: the lines that they are put after. The anchor is a pattern.
* `firstOf?_ensureFlag`, **`runs?_ensureFlag`**: what such commands make of the files of a server.
  `ensured` is the new text of the compose file.
* `withFlags`: lines with those of flags after each that has the anchor. `Flagged`: a text that
  differs from another one by that. **`Flagged.ensured`** is what a command keeps of it,
  **`Flagged.all`** what all of them keep.
* `mem_missing_iff`: which flags are added.
* `AddedOnce`, **`flags_added_once`**: the lines of the file stay, with just the flags that it did
  not have after every line with the anchor. With an anchor all flags are there then, and the
  commands change nothing any more.
-/

namespace Rampart.Install

open Remote (Files Insertion LinePattern hasInLine hasInLine_iff isOption)
open Shell (IsCommand IsNulFree alternatives?)
open Text (fileLines)
open Text.Word (quote)

/-! ## The commands that are run -/

/-- The flags of request logging and header logging. -/
def loggingFlags : List String :=
  requestFlags ++ headerFlags

/-- A command that the installer of request logging or that of header logging runs before it starts
the proxy again. -/
inductive IsFlagCommand (i : Installer) (command : String) : Prop
  | of_install (component : Component)
    (hcomponent : component = .requestLogging ∨ component = .headerLogging) (server : Server)
    (commands : List String)
    (next : Except Failure String → Process Unit (Except Failure (List StatusUpdate)))
    (hcalls : (i.install component server).process =
      .call server (.run (commands ++ [i.recreateProxy])) next)
    (hmem : command ∈ commands)

variable {i : Installer}

theorem installFlags_calls (i : Installer) (server : Server) (flags : List String) :
    ∃ next, (i.installFlags server flags : Task Unit (List StatusUpdate)).process = .call server
      (.run (flags.map (ensureFlag i.engine.proxyComposePath) ++ [i.recreateProxy])) next :=
  ⟨_, rfl⟩

theorem eq_of_installFlags_calls (flags : List String) {server : Server} {commands : List String}
    {next : Except Failure String → Process Unit (Except Failure (List StatusUpdate))}
    (h : (i.installFlags server flags).process =
      .call server (.run (commands ++ [i.recreateProxy])) next) :
    commands = flags.map (ensureFlag i.engine.proxyComposePath) := by
  obtain ⟨_, hcalls⟩ := installFlags_calls i server flags
  rw [hcalls] at h
  injection h with _ hrun
  injection hrun with hrun
  exact (List.append_cancel_right hrun).symm

/-- **The installers run the commands for their flags**, and no others. -/
theorem isFlagCommand_iff {command : String} :
    IsFlagCommand i command ↔
      ∃ flag ∈ loggingFlags, ensureFlag i.engine.proxyComposePath flag = command := by
  constructor
  · rintro ⟨component, rfl | rfl, server, commands, next, hcalls, hmem⟩
    · rw [eq_of_installFlags_calls requestFlags hcalls, List.mem_map] at hmem
      obtain ⟨flag, hflag, heq⟩ := hmem
      exact ⟨flag, List.mem_append_left _ hflag, heq⟩
    · rw [eq_of_installFlags_calls headerFlags hcalls, List.mem_map] at hmem
      obtain ⟨flag, hflag, heq⟩ := hmem
      exact ⟨flag, List.mem_append_right _ hflag, heq⟩
  · rintro ⟨flag, hflag, rfl⟩
    rcases List.mem_append.mp hflag with hflag | hflag
    · obtain ⟨next, hcalls⟩ := installFlags_calls i default requestFlags
      exact .of_install .requestLogging (.inl rfl) default _ next hcalls
        (List.mem_map_of_mem hflag)
    · obtain ⟨next, hcalls⟩ := installFlags_calls i default headerFlags
      exact .of_install .headerLogging (.inr rfl) default _ next hcalls
        (List.mem_map_of_mem hflag)

theorem exists_flags {commands : List String} (h : ∀ command ∈ commands, IsFlagCommand i command) :
    ∃ flags : List String, (∀ flag ∈ flags, flag ∈ loggingFlags) ∧
      commands = flags.map (ensureFlag i.engine.proxyComposePath) := by
  induction commands with
  | nil => exact ⟨[], nofun, rfl⟩
  | cons command commands ih =>
    obtain ⟨hcommand, hcommands⟩ := List.forall_mem_cons.mp h
    obtain ⟨flag, hflag, rfl⟩ := isFlagCommand_iff.mp hcommand
    obtain ⟨flags, hflags, rfl⟩ := ih hcommands
    exact ⟨flag :: flags, List.forall_mem_cons.mpr ⟨hflag, hflags⟩, rfl⟩

/-! ## What a command says -/

/-- A path that tools take for that of a file, and not for an option. -/
structure IsOperand (path : String) : Prop where
  nulFree : IsNulFree path
  notOption : isOption path = false

/-- A flag that is a text of one line, and that a script can have in it. -/
structure IsWritable (flag : String) : Prop where
  nulFree : IsNulFree flag
  noFeed : '\n' ∉ flag.toList
  noBackslash : '\\' ∉ flag.toList
  nonempty : flag ≠ ""

instance (flag : String) : Decidable (IsWritable flag) :=
  decidable_of_iff
    (IsNulFree flag ∧ '\n' ∉ flag.toList ∧ '\\' ∉ flag.toList ∧ flag ≠ "")
    ⟨fun ⟨h, hfeed, hbackslash, hne⟩ => ⟨h, hfeed, hbackslash, hne⟩,
      fun h => ⟨h.nulFree, h.noFeed, h.noBackslash, h.nonempty⟩⟩

theorem isWritable_of_mem : ∀ flag ∈ loggingFlags, IsWritable flag := by
  decide +kernel

/-- The anchor as a pattern. Its dots stand for any character. -/
def anchorPattern : LinePattern :=
  anchor.toList.map fun c => if c = '.' then none else some c

/-- A line with the anchor. -/
def IsAnchorLine (line : List Char) : Prop :=
  anchorPattern.Matches line

instance : DecidablePred IsAnchorLine := fun line =>
  inferInstanceAs (Decidable (anchorPattern.Matches line))

/-- The script that puts the line of a flag after every line with the anchor. -/
def insertionScript (flag : String) : String :=
  "/" ++ anchor ++ "/a\\" ++ flagLine flag

/-- What the script says. -/
def insertion (flag : String) : Insertion :=
  ⟨anchorPattern, (flagLine flag).toList⟩

theorem read?_insertionScript {flag : String} (h : IsWritable flag) :
    Insertion.read? (insertionScript flag) = some (insertion flag) := by
  have htext : (insertionScript flag).toList =
      '/' :: (anchor.toList ++ '/' :: 'a' :: '\\' :: (flagLine flag).toList) := by
    simp [insertionScript]
  have hcut := Text.cut?_append_cons (by decide : '/' ∉ anchor.toList)
    ('a' :: '\\' :: (flagLine flag).toList)
  have hnonempty : (flagLine flag).toList.isEmpty = false := by simp [flagLine]
  have hplain : (flagLine flag).toList.any (fun c => c = '\\' || c = '\n') = false := by
    have hspaces : "      - ".toList.any (fun c => c = '\\' || c = '\n') = false := by decide
    rw [flagLine, String.toList_append, List.any_append, hspaces, Bool.false_or,
      List.any_eq_false]
    intro c hc
    rw [Bool.or_eq_true, decide_eq_true_eq, decide_eq_true_eq, not_or]
    exact ⟨fun heq => h.noBackslash (heq ▸ hc), fun heq => h.noFeed (heq ▸ hc)⟩
  have hpattern : LinePattern.read? anchor.toList = some anchorPattern := by decide
  rw [Insertion.read?, htext]
  simp only [hcut, hnonempty, hplain, Bool.or_self, Bool.false_eq_true, if_false, hpattern]
  rfl

theorem ensureFlag_eq (path flag : String) :
    ensureFlag path flag =
      Text.Word.line ["grep", "-qF", "--", flag, path] ++ " || " ++
        Text.Word.line ["sed", "-i", insertionScript flag, path] := by
  have hgrep : quote "grep" = "grep" := by decide
  have hfixed : quote "-qF" = "-qF" := by decide
  have hend : quote "--" = "--" := by decide
  have hsed : quote "sed" = "sed" := by decide
  have hplace : quote "-i" = "-i" := by decide
  have h : ensureFlag path flag = "grep -qF -- " ++ quote flag ++ " " ++ quote path ++
      " || sed -i " ++ quote (insertionScript flag) ++ " " ++ quote path := rfl
  apply String.toList_inj.mp
  rw [h]
  simp only [String.toList_append, Text.Word.toList_line_cons]
  simp [Text.Word.behind, hgrep, hfixed, hend, hsed, hplace]

theorem alternatives?_ensureFlag {path flag : String} (hpath : IsOperand path)
    (hflag : IsWritable flag) :
    alternatives? (ensureFlag path flag) =
      some [["grep", "-qF", "--", flag, path], ["sed", "-i", insertionScript flag, path]] := by
  have hscript : IsNulFree (insertionScript flag) := by
    have hanchor : IsNulFree ("/" ++ anchor ++ "/a\\      - ") := by decide
    have htext : (insertionScript flag).toList =
        ("/" ++ anchor ++ "/a\\      - ").toList ++ flag.toList := by
      simp [insertionScript, flagLine]
    unfold IsNulFree at *
    rw [htext, List.mem_append, not_or]
    exact ⟨hanchor, hflag.nulFree⟩
  have hsearch : IsCommand ["grep", "-qF", "--", flag, path] := by
    refine ⟨rfl, ?_⟩
    simp only [List.forall_mem_cons]
    exact ⟨by decide, by decide, by decide, hflag.nulFree, hpath.nulFree, nofun⟩
  have hedit : IsCommand ["sed", "-i", insertionScript flag, path] := by
    refine ⟨rfl, ?_⟩
    simp only [List.forall_mem_cons]
    exact ⟨by decide, by decide, hscript, hpath.nulFree, nofun⟩
  rw [ensureFlag_eq]
  exact Shell.alternatives?_line hsearch hedit (by simp) (by simp)

/-! ## What a command does -/

/-- The text of the file after the command for a flag. -/
def ensured (text flag : String) : String :=
  if hasInLine text flag then text else (insertion flag).apply text

/-- **What the command for a flag does**: it succeeds, and changes no other file. -/
theorem firstOf?_ensureFlag {path flag : String} (hpath : IsOperand path) (hflag : IsWritable flag)
    (files : Files) (text : String) :
    (alternatives? (ensureFlag path flag)).bind (files.write path text).firstOf? =
      some (files.write path (ensured text flag), true) := by
  have hthere : (files.write path text) path = some text := Function.update_self ..
  have hoption : isOption (insertionScript flag) = false := by
    simp [isOption, insertionScript]
  have hsearch : (files.write path text).tool? ["grep", "-qF", "--", flag, path] =
      some (files.write path text, hasInLine text flag) := by
    rw [Files.tool?, hpath.notOption, hthere]
    rfl
  have hedit : (files.write path text).tool? ["sed", "-i", insertionScript flag, path] =
      some (files.write path ((insertion flag).apply text), true) := by
    rw [Files.tool?, hoption, hpath.notOption, hthere, read?_insertionScript hflag]
    simp [Files.write]
  rw [alternatives?_ensureFlag hpath hflag, Option.bind_some, ensured]
  cases hfound : hasInLine text flag with
  | true => simp [Files.firstOf?, hsearch, hfound]
  | false => simp [Files.firstOf?, hsearch, hfound, hedit]

/-- **What the commands do**, one after the other. -/
theorem runs?_ensureFlag {path : String} (hpath : IsOperand path) (files : Files)
    {flags : List String} (hflags : ∀ flag ∈ flags, IsWritable flag) (text : String) :
    (files.write path text).runs? (flags.map (ensureFlag path)) =
      some (files.write path (flags.foldl ensured text), true) := by
  induction flags generalizing text with
  | nil => rfl
  | cons flag flags ih =>
    obtain ⟨hflag, hflags⟩ := List.forall_mem_cons.mp hflags
    rw [List.map_cons, Files.runs?, firstOf?_ensureFlag hpath hflag, List.foldl_cons]
    exact ih hflags _

/-! ## Lines of flags -/

/-- The file has a line with the anchor. -/
def HasAnchor (text : String) : Prop :=
  ∃ line ∈ fileLines text.toList, IsAnchorLine line

instance (text : String) : Decidable (HasAnchor text) :=
  inferInstanceAs (Decidable (∃ line ∈ fileLines text.toList, IsAnchorLine line))

/-- Lines, with those of flags after each that has the anchor. -/
def withFlags (added : List String) (lines : List (List Char)) : List (List Char) :=
  lines.flatMap fun line =>
    line :: if IsAnchorLine line then added.map fun flag => (flagLine flag).toList else []

/-- The lines of flags do not have the anchor, so that nothing is put after them. -/
theorem not_isAnchorLine_flagLine :
    ∀ flag ∈ loggingFlags, ¬ IsAnchorLine (flagLine flag).toList := by
  decide +kernel

/-- Long as the texts are that flags begin with alike, none is a part of the line of another. -/
theorem eq_of_occursIn_flagLine : ∀ flag ∈ loggingFlags, ∀ other ∈ loggingFlags,
    Text.occursIn flag.toList (flagLine other).toList = true → flag = other := by
  decide +kernel

theorem occursIn_flagLine (flag : String) :
    Text.occursIn flag.toList (flagLine flag).toList = true := by
  rw [Text.occursIn_iff, flagLine, String.toList_append]
  exact (List.suffix_append _ _).isInfix

theorem sublist_withFlags (added : List String) (lines : List (List Char)) :
    lines.Sublist (withFlags added lines) := by
  induction lines with
  | nil => exact List.Sublist.slnil
  | cons line lines ih =>
    rw [withFlags, List.flatMap_cons, List.cons_append]
    exact (ih.trans (List.sublist_append_right _ _)).cons_cons line

/-- The line of one more flag stands before those that are there. -/
theorem flatMap_withFlags {added : List String} (hadded : ∀ other ∈ added, other ∈ loggingFlags)
    (flag : String) (lines : List (List Char)) :
    ((withFlags added lines).flatMap fun line =>
      if IsAnchorLine line then [line, (flagLine flag).toList] else [line]) =
      withFlags (flag :: added) lines := by
  have hlines : ((added.map fun other => (flagLine other).toList).flatMap fun line =>
      if IsAnchorLine line then [line, (flagLine flag).toList] else [line]) =
      added.map fun other => (flagLine other).toList := by
    rw [List.flatMap_map, ← List.flatMap_singleton' (added.map _), List.flatMap_map]
    exact List.flatMap_congr fun other hother =>
      if_neg (not_isAnchorLine_flagLine other (hadded other hother))
  unfold withFlags
  rw [List.flatMap_assoc]
  refine List.flatMap_congr fun line _ => ?_
  rw [List.flatMap_cons]
  by_cases hanchor : IsAnchorLine line
  · simp only [if_pos hanchor, hlines]
    simp
  · simp [if_neg hanchor]

theorem fileLines_insertion {flag : String} (h : IsWritable flag) (text : String) :
    fileLines ((insertion flag).apply text).toList = (fileLines text.toList).flatMap fun line =>
      if IsAnchorLine line then [line, (flagLine flag).toList] else [line] := by
  have hfeed : '\n' ∉ (flagLine flag).toList := by
    have hspaces : '\n' ∉ "      - ".toList := by decide
    rw [flagLine, String.toList_append, List.mem_append, not_or]
    exact ⟨hspaces, h.noFeed⟩
  have hlines := Text.fileLines_addAfter (fun line => decide (anchorPattern.Matches line)) hfeed
    text.toList
  simp only [decide_eq_true_eq] at hlines
  rw [Insertion.apply, String.toList_ofList]
  exact hlines

theorem insertion_of_not_hasAnchor {text : String} (h : ¬ HasAnchor text) (flag : String) :
    (insertion flag).apply text = text := by
  have hnone : ∀ line ∈ fileLines text.toList,
      decide (anchorPattern.Matches line) = false := fun line hline =>
    decide_eq_false fun hmatches => h ⟨line, hline, hmatches⟩
  rw [Insertion.apply, insertion, Text.addAfter_of_forall_not hnone, String.ofList_toList]

/-! ## What the commands keep -/

/-- The result differs from the text by the lines of the added flags, if it differs from it. -/
structure Flagged (text : String) (added : List String) (result : String) : Prop where
  lines : fileLines result.toList = withFlags added (fileLines text.toList)
  same : added = [] ∨ ¬ HasAnchor text → result = text
  logging : ∀ flag ∈ added, flag ∈ loggingFlags

/-- The flags that are added once there is a command for another one. -/
def noted (text : String) (added : List String) (flag : String) : List String :=
  if hasInLine text flag then added else added.insert flag

/-- The ones of some flags that a file does not have, last ones first. -/
def missing (text : String) (flags : List String) : List String :=
  flags.foldl (noted text) []

section Commands

variable {text result flag : String} {added flags : List String}

theorem noted_of_known (h : hasInLine text flag = true ∨ flag ∈ added) :
    noted text added flag = added := by
  unfold noted
  split
  · rfl
  · rename_i hnone
    exact List.insert_of_mem (h.resolve_left hnone)

theorem noted_of_new (h : ¬ (hasInLine text flag = true ∨ flag ∈ added)) :
    noted text added flag = flag :: added := by
  rw [not_or] at h
  rw [noted, if_neg h.1, List.insert_of_not_mem h.2]

theorem Flagged.refl (text : String) : Flagged text [] text where
  lines := by simp [withFlags]
  same _ := rfl
  logging := nofun

/-- A flag is there that was there before or has been added after an anchor. -/
theorem Flagged.hasInLine_iff (h : Flagged text added result) (hflag : flag ∈ loggingFlags) :
    hasInLine result flag = true ↔ hasInLine text flag = true ∨ HasAnchor text ∧ flag ∈ added := by
  unfold hasInLine
  rw [h.lines, List.any_eq_true, List.any_eq_true]
  simp only [withFlags, List.mem_flatMap, List.mem_cons]
  constructor
  · rintro ⟨found, ⟨line, hline, rfl | hfound⟩, hoccurs⟩
    · exact .inl ⟨found, hline, hoccurs⟩
    · split at hfound
      · rename_i hanchor
        obtain ⟨other, hother, rfl⟩ := List.mem_map.mp hfound
        obtain rfl := eq_of_occursIn_flagLine flag hflag other (h.logging other hother) hoccurs
        exact .inr ⟨⟨line, hline, hanchor⟩, hother⟩
      · cases hfound
  · rintro (⟨line, hline, hoccurs⟩ | ⟨⟨line, hline, hanchor⟩, hmem⟩)
    · exact ⟨line, ⟨line, hline, .inl rfl⟩, hoccurs⟩
    · refine ⟨(flagLine flag).toList, ⟨line, hline, .inr ?_⟩, occursIn_flagLine flag⟩
      rw [if_pos hanchor]
      exact List.mem_map_of_mem hmem

/-- Without an anchor there is no line to put anything after. -/
theorem Flagged.insertion_of_not_hasAnchor (h : Flagged text added result)
    (hanchor : ¬ HasAnchor text) : (insertion flag).apply result = text := by
  rw [h.same (.inr hanchor), Install.insertion_of_not_hasAnchor hanchor]

/-- Nothing is done about a flag that was there before, or has been added already. -/
theorem Flagged.ensured_of_known (h : Flagged text added result) (hflag : flag ∈ loggingFlags)
    (hknown : hasInLine text flag = true ∨ flag ∈ added) : ensured result flag = result := by
  unfold Install.ensured
  split
  · rfl
  · rename_i hnone
    rw [h.hasInLine_iff hflag, not_or] at hnone
    have hanchor : ¬ HasAnchor text := fun hanchor =>
      hnone.2 ⟨hanchor, hknown.resolve_left hnone.1⟩
    rw [h.insertion_of_not_hasAnchor hanchor, h.same (.inr hanchor)]

theorem Flagged.ensured_of_new (h : Flagged text added result) (hflag : flag ∈ loggingFlags)
    (hnew : ¬ (hasInLine text flag = true ∨ flag ∈ added)) :
    ensured result flag = (insertion flag).apply result := by
  refine if_neg fun hthere => hnew ?_
  exact ((h.hasInLine_iff hflag).mp hthere).imp_right And.right

/-- One more flag. -/
theorem Flagged.insertion (h : Flagged text added result) (hflag : flag ∈ loggingFlags) :
    Flagged text (flag :: added) ((insertion flag).apply result) where
  lines := by
    rw [fileLines_insertion (isWritable_of_mem flag hflag), h.lines, flatMap_withFlags h.logging]
  same := by
    rintro (hnil | hanchor)
    · cases hnil
    · exact h.insertion_of_not_hasAnchor hanchor
  logging := List.forall_mem_cons.mpr ⟨hflag, h.logging⟩

/-- **A command adds a flag that is missing**, and no other one. -/
theorem Flagged.ensured (h : Flagged text added result) (hflag : flag ∈ loggingFlags) :
    Flagged text (noted text added flag) (ensured result flag) := by
  by_cases hknown : hasInLine text flag = true ∨ flag ∈ added
  · rw [noted_of_known hknown, h.ensured_of_known hflag hknown]
    exact h
  · rw [noted_of_new hknown, h.ensured_of_new hflag hknown]
    exact h.insertion hflag

/-- What all of the commands keep. -/
theorem Flagged.all (h : Flagged text added result) (hflags : ∀ flag ∈ flags, flag ∈ loggingFlags) :
    Flagged text (flags.foldl (noted text) added) (flags.foldl Install.ensured result) := by
  induction flags generalizing added result with
  | nil => exact h
  | cons flag flags ih =>
    obtain ⟨hflag, hflags⟩ := List.forall_mem_cons.mp hflags
    exact ih (h.ensured hflag) hflags

theorem mem_noted_iff {other : String} :
    flag ∈ noted text added other ↔ flag ∈ added ∨ flag = other ∧ hasInLine text flag = false := by
  unfold noted
  split
  · rename_i hthere
    refine ⟨.inl, ?_⟩
    rintro (hadded | ⟨rfl, hnone⟩)
    · exact hadded
    · rw [hthere] at hnone
      cases hnone
  · rename_i hnone
    rw [List.mem_insert_iff, or_comm]
    refine or_congr_right ⟨?_, And.left⟩
    rintro rfl
    exact ⟨rfl, Bool.eq_false_iff.mpr hnone⟩

theorem mem_foldl_noted_iff :
    flag ∈ flags.foldl (noted text) added ↔
      flag ∈ added ∨ flag ∈ flags ∧ hasInLine text flag = false := by
  induction flags generalizing added with
  | nil => simp
  | cons other flags ih =>
    rw [List.foldl_cons, ih, mem_noted_iff, or_assoc, ← or_and_right, List.mem_cons]

theorem nodup_foldl_noted (h : added.Nodup) : (flags.foldl (noted text) added).Nodup := by
  induction flags generalizing added with
  | nil => exact h
  | cons flag flags ih =>
    refine ih ?_
    by_cases hknown : hasInLine text flag = true ∨ flag ∈ added
    · rw [noted_of_known hknown]
      exact h
    · rw [noted_of_new hknown]
      exact List.nodup_cons.mpr ⟨fun hmem => hknown (.inr hmem), h⟩

/-- The flags that are added are those that the file does not have, each once. -/
theorem mem_missing_iff :
    flag ∈ missing text flags ↔ flag ∈ flags ∧ hasInLine text flag = false := by
  rw [missing, mem_foldl_noted_iff]
  simp

theorem flagged_missing (text : String) (hflags : ∀ flag ∈ flags, flag ∈ loggingFlags) :
    Flagged text (missing text flags) (flags.foldl ensured text) :=
  (Flagged.refl text).all hflags

/-- With an anchor all flags are there in the end. -/
theorem hasInLine_foldl_ensured (hflags : ∀ flag ∈ flags, flag ∈ loggingFlags)
    (hanchor : HasAnchor text) (hflag : flag ∈ flags) :
    hasInLine (flags.foldl ensured text) flag = true := by
  rw [(flagged_missing text hflags).hasInLine_iff (hflags flag hflag), mem_missing_iff]
  cases hthere : hasInLine text flag with
  | true => exact .inl rfl
  | false => exact .inr ⟨hanchor, hflag, rfl⟩

/-- Nothing changes where no flag is missing. -/
theorem foldl_ensured_of_forall (hflags : ∀ flag ∈ flags, flag ∈ loggingFlags)
    (h : ∀ flag ∈ flags, hasInLine text flag = true) : flags.foldl ensured text = text := by
  refine (flagged_missing text hflags).same (.inl (List.eq_nil_iff_forall_not_mem.mpr ?_))
  intro flag hmem
  obtain ⟨hflag, hnone⟩ := mem_missing_iff.mp hmem
  rw [h flag hflag] at hnone
  cases hnone

theorem hasInLine_eq_hasText (h : flag ∈ loggingFlags) (text : String) :
    hasInLine text flag = Text.hasText text flag :=
  Bool.eq_iff_iff.mpr
    (hasInLine_iff (isWritable_of_mem flag h).noFeed (isWritable_of_mem flag h).nonempty text)

end Commands

/-! ## What is left of the file -/

/-- **What commands for flags make of a compose file**, whose text is `result` in the end. -/
structure AddedOnce (path : String) (files : Files) (text : String) (commands flags : List String)
    (added : List String) (result : String) : Prop where
  commands_eq : commands = flags.map (ensureFlag path)
  logging : ∀ flag ∈ flags, flag ∈ loggingFlags
  /-- All commands succeed, and no other file is changed. -/
  runs : (files.write path text).runs? commands = some (files.write path result, true)
  nodup : added.Nodup
  /-- What is added is what the file does not have anywhere. -/
  mem_added_iff : ∀ flag, flag ∈ added ↔ flag ∈ flags ∧ Text.hasText text flag = false
  /-- The lines of what is added stand after every line with the anchor; nothing else is new. -/
  lines : fileLines result.toList = withFlags added (fileLines text.toList)
  /-- All lines stay, in their order. -/
  kept : (fileLines text.toList).Sublist (fileLines result.toList)
  /-- Where nothing is added, the text is as before to the last character. -/
  same : added = [] ∨ ¬ HasAnchor text → result = text
  /-- With an anchor, the commands change nothing when they are run again. -/
  again : HasAnchor text →
    (files.write path result).runs? commands = some (files.write path result, true)
  /-- With an anchor, all flags are there. -/
  found : HasAnchor text → ∀ flag ∈ flags, Text.hasText result flag = true

/-- **Flags are added once.** The commands for flags that the installers of request logging and of
header logging run, in any order and with any repetitions, succeed on every compose file and add to
it just the lines of those flags that it does not have, after each line with the anchor. With such
a line all of the flags are there then, and the commands change nothing any more. -/
theorem flags_added_once (i : Installer) (hpath : IsOperand i.engine.proxyComposePath)
    (files : Files) (text : String) {commands : List String}
    (hcommands : ∀ command ∈ commands, IsFlagCommand i command) :
    ∃ flags added result,
      AddedOnce i.engine.proxyComposePath files text commands flags added result := by
  obtain ⟨flags, hflags, rfl⟩ := exists_flags hcommands
  have hwritable : ∀ flag ∈ flags, IsWritable flag := fun flag hflag =>
    isWritable_of_mem flag (hflags flag hflag)
  have hflagged := flagged_missing text hflags
  have hall : HasAnchor text → ∀ flag ∈ flags, hasInLine (flags.foldl ensured text) flag = true :=
    fun hanchor _ hflag => hasInLine_foldl_ensured hflags hanchor hflag
  refine ⟨flags, missing text flags, flags.foldl ensured text, rfl, hflags,
    runs?_ensureFlag hpath files hwritable text, nodup_foldl_noted List.nodup_nil, fun flag => ?_,
    hflagged.lines, ?_, hflagged.same, fun hanchor => ?_, fun hanchor flag hflag => ?_⟩
  · rw [mem_missing_iff]
    exact and_congr_right fun hflag => by rw [hasInLine_eq_hasText (hflags flag hflag)]
  · rw [hflagged.lines]
    exact sublist_withFlags _ _
  · rw [runs?_ensureFlag hpath files hwritable, foldl_ensured_of_forall hflags (hall hanchor)]
  · rw [← hasInLine_eq_hasText (hflags flag hflag)]
    exact hall hanchor flag hflag

/-- A compose file that has one of the flags, and two lines that the anchor stands for as a pattern.
Nothing ends the second one. -/
def composeText : String :=
  "command:\n  - --entrypoints.http.address=:80\n  - --accesslog.format=json\n" ++
    "# --entrypoints-http-address"

/-- Commands of both installers, some of them twice. -/
def mixedCommands : List String :=
  (requestFlags ++ headerFlags.reverse ++ requestFlags).map
    (ensureFlag ({} : Installer).engine.proxyComposePath)

/-- The two installers take turns with a file that has the anchor. -/
theorem flags_added_once_mixed :
    IsOperand ({} : Installer).engine.proxyComposePath ∧
    (∀ command ∈ mixedCommands, IsFlagCommand {} command) ∧ HasAnchor composeText ∧
    ∃ flags added result, AddedOnce ({} : Installer).engine.proxyComposePath (fun _ => none)
      composeText mixedCommands flags added result := by
  have hpath : IsOperand ({} : Installer).engine.proxyComposePath := ⟨by decide, by decide⟩
  have hcommands : ∀ command ∈ mixedCommands, IsFlagCommand {} command := by
    intro command hcommand
    obtain ⟨flag, hflag, rfl⟩ := List.mem_map.mp hcommand
    have hlogging : ∀ flag ∈ requestFlags ++ headerFlags.reverse ++ requestFlags,
        flag ∈ loggingFlags := by decide
    exact isFlagCommand_iff.mpr ⟨flag, hlogging flag hflag, rfl⟩
  exact ⟨hpath, hcommands, by decide, flags_added_once {} hpath _ composeText hcommands⟩

end Rampart.Install
