import Rampart.Proofs.Text.Piece

/-!
# Lines of a file

A file as tools see it that work line by line. A line feed ends a line; what stands behind the last
line feed is a line too, unless it is empty. A carriage return is a part of its line here, other
than in `Text.lines`.

* `rows`: the lines of a text with their line feeds. `fileLines`: without them.
* `rows_induction`: a text is empty, or one line without its line feed, or a line with its line
  feed and another text.
* **`infix_iff_exists_fileLines`**: a text without line feeds stands in a file if and only if it
  stands in a line of it.
* `addAfter` puts a line after some lines. **`fileLines_addAfter`**: what that does to the lines.
  `addAfter_of_forall_not`: a file without such lines stays as it is.
-/

namespace Rampart.Text

/-! ## Rows -/

/-- The lines of a text, each with its line feed. The last one may have none. -/
def rows : List Char → List (List Char)
  | [] => []
  | c :: cs =>
    if c = '\n' then [c] :: rows cs
    else match rows cs with
      | [] => [[c]]
      | row :: others => (c :: row) :: others

/-- A line without its line feed. -/
def withoutFeed (row : List Char) : List Char :=
  row.takeWhile (· != '\n')

/-- The lines of a text, without their line feeds. -/
def fileLines (cs : List Char) : List (List Char) :=
  (rows cs).map withoutFeed

theorem rows_append {line : List Char} (h : '\n' ∉ line) (rest : List Char) :
    rows (line ++ '\n' :: rest) = (line ++ ['\n']) :: rows rest := by
  induction line with
  | nil => simp [rows]
  | cons c line ih =>
    rw [List.mem_cons, not_or] at h
    rw [List.cons_append, rows, if_neg (Ne.symm h.1), ih h.2]
    rfl

theorem rows_of_not_mem {line : List Char} (h : '\n' ∉ line) (hne : line ≠ []) :
    rows line = [line] := by
  induction line with
  | nil => exact absurd rfl hne
  | cons c line ih =>
    rw [List.mem_cons, not_or] at h
    rw [rows, if_neg (Ne.symm h.1)]
    cases line with
    | nil => rfl
    | cons d line => rw [ih h.2 (List.cons_ne_nil d line)]

/-- A text is empty, or one line that nothing ends, or a line and what follows it. -/
@[elab_as_elim]
theorem rows_induction {motive : List Char → Prop} (empty : motive [])
    (unended : ∀ line, '\n' ∉ line → line ≠ [] → motive line)
    (ended : ∀ line rest, '\n' ∉ line → motive rest → motive (line ++ '\n' :: rest))
    (cs : List Char) : motive cs := by
  induction hlength : cs.length using Nat.strongRecOn generalizing cs with
  | _ n ih =>
    rcases exists_first_separator (· == '\n') cs with hnone | ⟨line, c, rest, rfl, hline, hc⟩
    · cases cs with
      | nil => exact empty
      | cons c cs =>
        refine unended _ (fun hmem => ?_) (List.cons_ne_nil c cs)
        exact absurd (hnone _ hmem) (by decide)
    · obtain rfl : c = '\n' := beq_iff_eq.mp hc
      have hshorter : rest.length < n := by
        rw [← hlength, List.length_append, List.length_cons]
        omega
      refine ended line rest (fun hmem => ?_) (ih rest.length hshorter rest rfl)
      exact absurd (hline _ hmem) (by decide)

theorem flatten_rows (cs : List Char) : (rows cs).flatten = cs := by
  induction cs using rows_induction with
  | empty => rfl
  | unended line hline hne => rw [rows_of_not_mem hline hne, List.flatten_singleton]
  | ended line rest hline ih =>
    rw [rows_append hline, List.flatten_cons, ih, List.append_assoc, List.singleton_append]

/-! ## Lines -/

theorem withoutFeed_of_not_mem {line : List Char} (h : '\n' ∉ line) : withoutFeed line = line :=
  List.takeWhile_eq_self_iff.mpr fun _ hc => bne_iff_ne.mpr fun heq => h (heq ▸ hc)

theorem withoutFeed_append {line : List Char} (h : '\n' ∉ line) :
    withoutFeed (line ++ ['\n']) = line := by
  have hline : line.takeWhile (· != '\n') = line := withoutFeed_of_not_mem h
  rw [withoutFeed, List.takeWhile_append, hline, if_pos rfl]
  exact List.append_nil line

theorem fileLines_append {line : List Char} (h : '\n' ∉ line) (rest : List Char) :
    fileLines (line ++ '\n' :: rest) = line :: fileLines rest := by
  rw [fileLines, rows_append h, List.map_cons, withoutFeed_append h]
  rfl

theorem fileLines_of_not_mem {line : List Char} (h : '\n' ∉ line) (hne : line ≠ []) :
    fileLines line = [line] := by
  rw [fileLines, rows_of_not_mem h hne, List.map_singleton, withoutFeed_of_not_mem h]

theorem prefix_of_prefix_feed {part line rest : List Char} (h : '\n' ∉ part)
    (hpart : part <+: line ++ '\n' :: rest) : part <+: line := by
  have hline : line ++ ['\n'] <+: line ++ '\n' :: rest := ⟨rest, by simp⟩
  rcases List.prefix_or_prefix_of_prefix hpart hline with hshort | hlong
  · rcases List.prefix_concat_iff.mp hshort with rfl | hshort
    · exact absurd (List.mem_append_right line List.mem_cons_self) h
    · exact hshort
  · exact absurd (hlong.mem (List.mem_append_right line List.mem_cons_self)) h

/-- A text without line feeds does not reach from one line into the next. -/
theorem infix_append_feed_iff {part : List Char} (h : '\n' ∉ part) (line rest : List Char) :
    part <:+: line ++ '\n' :: rest ↔ part <:+: line ∨ part <:+: rest := by
  constructor
  · intro hpart
    induction line with
    | nil =>
      rcases List.infix_cons_iff.mp hpart with hprefix | hrest
      · exact .inl (prefix_of_prefix_feed h hprefix).isInfix
      · exact .inr hrest
    | cons c line ih =>
      rcases List.infix_cons_iff.mp hpart with hprefix | hpart
      · have hline : part <+: c :: line := prefix_of_prefix_feed h hprefix
        exact .inl hline.isInfix
      · exact (ih hpart).imp_left fun hline => hline.trans (List.suffix_cons c line).isInfix
  · rintro (hline | hrest)
    · exact hline.trans (List.prefix_append line _).isInfix
    · exact hrest.trans ((List.suffix_cons _ rest).trans (List.suffix_append line _)).isInfix

/-- **What stands in a file stands in a line of it**, if it has no line feeds and is not empty. -/
theorem infix_iff_exists_fileLines {part : List Char} (h : '\n' ∉ part) (hne : part ≠ [])
    (cs : List Char) : part <:+: cs ↔ ∃ line ∈ fileLines cs, part <:+: line := by
  induction cs using rows_induction with
  | empty => simp [fileLines, rows, hne]
  | unended line hline hnonempty => simp [fileLines_of_not_mem hline hnonempty]
  | ended line rest hline ih => simp [fileLines_append hline, infix_append_feed_iff h, ih]

/-! ## Adding lines -/

/-- Put `added` after every line that is wanted. Such a line has a line feed then. -/
def addAfter (isWanted : List Char → Bool) (added cs : List Char) : List Char :=
  (rows cs).flatMap fun row =>
    let line := withoutFeed row
    if isWanted line then line ++ '\n' :: added ++ ['\n'] else row

variable {isWanted : List Char → Bool} {added : List Char}

theorem addAfter_append {line : List Char} (h : '\n' ∉ line) (rest : List Char) :
    addAfter isWanted added (line ++ '\n' :: rest) =
      line ++ '\n' :: ((if isWanted line then added ++ ['\n'] else []) ++
        addAfter isWanted added rest) := by
  rw [addAfter, rows_append h, List.flatMap_cons]
  simp only [withoutFeed_append h]
  split <;> simp [addAfter]

theorem addAfter_of_not_mem {line : List Char} (h : '\n' ∉ line) (hne : line ≠ []) :
    addAfter isWanted added line =
      if isWanted line then line ++ '\n' :: added ++ ['\n'] else line := by
  rw [addAfter, rows_of_not_mem h hne, List.flatMap_singleton, withoutFeed_of_not_mem h]

/-- **Added lines stand after the lines that are wanted**, and all lines stay. -/
theorem fileLines_addAfter (isWanted : List Char → Bool) (hadded : '\n' ∉ added) (cs : List Char) :
    fileLines (addAfter isWanted added cs) =
      (fileLines cs).flatMap fun line => if isWanted line then [line, added] else [line] := by
  induction cs using rows_induction with
  | empty => rfl
  | unended line hline hne =>
    rw [addAfter_of_not_mem hline hne, fileLines_of_not_mem hline hne, List.flatMap_singleton]
    split
    · rw [List.append_assoc, List.cons_append, fileLines_append hline, fileLines_append hadded]
      rfl
    · exact fileLines_of_not_mem hline hne
  | ended line rest hline ih =>
    rw [addAfter_append hline, fileLines_append hline, fileLines_append hline, List.flatMap_cons,
      ← ih]
    split
    · rw [List.append_assoc, List.singleton_append, fileLines_append hadded]
      rfl
    · rfl

/-- Nothing changes where no line is wanted. -/
theorem addAfter_of_forall_not {cs : List Char} (h : ∀ line ∈ fileLines cs, isWanted line = false) :
    addAfter isWanted added cs = cs := by
  have hrow : ∀ row ∈ rows cs, isWanted (withoutFeed row) = false := fun row hrow =>
    h _ (List.mem_map_of_mem hrow)
  have hsame : addAfter isWanted added cs = (rows cs).flatMap id :=
    List.flatMap_congr fun row hmem => if_neg (Bool.eq_false_iff.mp (hrow row hmem))
  rw [hsame, List.flatMap_id, flatten_rows]

end Rampart.Text
