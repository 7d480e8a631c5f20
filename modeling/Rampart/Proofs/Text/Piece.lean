import Mathlib.Data.List.DropRight
import Rampart.Text.Blank
import Rampart.Text.Search

/-!
# Pieces of a text

Where one text starts or cuts another, which lines, fields and trimmed texts it has. A listing
writes every entry on a line of its own. What is read back as lines are the entries, unless an entry
has a line feed in it. Which pieces of a text are between separators is said here without saying how
they are found. A trimmed text is empty, or begins and ends with something that is not blank, so
that it stays as it is when it is trimmed again.

* **`startsWith?_eq_some_iff`**: what follows a leading text is what makes the whole of it.
* **`cut?_eq_some_iff`**: a text is cut at the first place where a character stands.
* `splitBy_append`: a separator cuts a text in two.
* **`mem_lines_listing_of_not_mem`**, `mem_lines_listing`: an entry without line breaks is a line of
  the listing, and so is one without blanks.
* `Stands`: a piece without separators stands between two of them, or where the text ends.
* `mem_splitBy_iff`, **`mem_fieldsBy_iff`**: the pieces of a text are those that stand there, and
  its fields are those that are not empty.
* `fieldsBy_append`, `fieldsBy_eq_singleton`: the fields of a text with a separator and of one
  without.
* `trim_begins`, `mem_of_mem_trim`: what is left of a trimmed text is a part of it.
* `head_trim`, `getLast?_trim`: how it begins and ends.
* **`trimmed_trimmed`**: it is trimmed. `isEmpty_trimmed`: when it is empty.
* **`lines_of_line`**: a text of one line that is trimmed.
-/

namespace Rampart.Text

/-! ## Where one text starts or cuts another -/

theorem startsWith?_append (start text : List Char) :
    startsWith? start (start ++ text) = some text := by
  induction start with
  | nil => rfl
  | cons c start ih => simp [startsWith?, ih]

/-- What follows a leading text is what makes the whole of it. -/
theorem startsWith?_eq_some_iff {start text rest : List Char} :
    startsWith? start text = some rest ↔ text = start ++ rest := by
  constructor
  · intro h
    induction start generalizing text with
    | nil => exact Option.some.inj h
    | cons c start ih =>
      cases text with
      | nil => cases h
      | cons d text =>
        rw [startsWith?] at h
        split at h
        · rename_i heq
          rw [heq, ih h, List.cons_append]
        · cases h
  · rintro rfl
    exact startsWith?_append start rest

theorem cut?_append_cons {c : Char} {before : List Char} (h : c ∉ before) (after : List Char) :
    cut? [c] (before ++ c :: after) = some (before, after) := by
  induction before with
  | nil => simp [cut?, startsWith?]
  | cons b before ih =>
    rw [List.mem_cons, not_or] at h
    simp [cut?, startsWith?, h.1, ih h.2]

/-- A text is cut at the first place where a character stands. -/
theorem cut?_eq_some_iff {c : Char} {text before after : List Char} :
    cut? [c] text = some (before, after) ↔ c ∉ before ∧ text = before ++ c :: after := by
  constructor
  · intro h
    induction text generalizing before with
    | nil => cases h
    | cons d text ih =>
      rw [cut?] at h
      split at h
      · rename_i rest hstarts
        obtain ⟨rfl, rfl⟩ := Prod.mk.inj (Option.some.inj h)
        have htext : d :: text = [c] ++ rest := startsWith?_eq_some_iff.mp hstarts
        exact ⟨List.not_mem_nil, htext⟩
      · rename_i hnone
        split at h
        · rename_i front back hcut
          obtain ⟨rfl, rfl⟩ := Prod.mk.inj (Option.some.inj h)
          obtain ⟨hnot, rfl⟩ := ih hcut
          refine ⟨List.not_mem_cons_of_ne_of_not_mem ?_ hnot, rfl⟩
          rintro rfl
          simp [startsWith?] at hnone
        · cases h
  · rintro ⟨hnot, rfl⟩
    exact cut?_append_cons hnot after

/-! ## Lines of a listing -/

theorem splitBy_ne_nil (isSeparator : Char → Bool) (cs : List Char) :
    splitBy isSeparator cs ≠ [] := by
  cases cs with
  | nil => simp [splitBy]
  | cons c cs =>
    rw [splitBy]
    split
    · simp
    · split <;> simp

theorem splitBy_append {isSeparator : Char → Bool} {c : Char} (hc : isSeparator c = true)
    (xs ys : List Char) :
    splitBy isSeparator (xs ++ c :: ys) = splitBy isSeparator xs ++ splitBy isSeparator ys := by
  induction xs with
  | nil => simp [splitBy, hc]
  | cons x xs ih =>
    rw [List.cons_append, splitBy, splitBy, ih]
    split
    · rfl
    · cases hxs : splitBy isSeparator xs with
      | nil => exact absurd hxs (splitBy_ne_nil isSeparator xs)
      | cons piece pieces => rfl

theorem splitBy_eq_singleton {isSeparator : Char → Bool} {cs : List Char}
    (h : ∀ c ∈ cs, isSeparator c = false) : splitBy isSeparator cs = [cs] := by
  induction cs with
  | nil => rfl
  | cons c cs ih =>
    have hc := h c List.mem_cons_self
    rw [splitBy, ih fun d hd => h d (List.mem_cons_of_mem c hd)]
    simp [hc]

/-- A text with every entry on a line of its own. -/
def listing (entries : List (List Char)) : List Char :=
  entries.flatMap fun entry => entry ++ ['\n']

theorem mem_dropLast_splitBy_listing {entries : List (List Char)} {entry : List Char}
    (h : entry ∈ entries) (hentry : ∀ c ∈ entry, (c == '\n') = false) :
    entry ∈ (splitBy (· == '\n') (listing entries)).dropLast := by
  induction entries with
  | nil => cases h
  | cons e es ih =>
    have hlisting : listing (e :: es) = e ++ '\n' :: listing es := by simp [listing]
    rw [hlisting, splitBy_append (by decide), List.dropLast_append_of_ne_nil (splitBy_ne_nil _ _)]
    rcases List.mem_cons.mp h with rfl | h
    · rw [splitBy_eq_singleton hentry]
      exact List.mem_append_left _ List.mem_cons_self
    · exact List.mem_append_right _ (ih h)

/-- **An entry without line breaks is a line of the listing.** -/
theorem mem_lines_listing_of_not_mem {entries : List (List Char)} {entry : List Char}
    (h : entry ∈ entries) (hfeed : '\n' ∉ entry) (hreturn : entry.getLast? ≠ some '\r') :
    entry ∈ lines (listing entries) := by
  have hpiece := mem_dropLast_splitBy_listing h fun c hc =>
    beq_eq_false_iff_ne.mpr fun heq => hfeed (heq ▸ hc)
  have hsame : lines.dropCarriageReturn entry = entry :=
    if_neg fun hlast => hreturn (beq_iff_eq.mp hlast)
  have hmem : entry ∈ (splitBy (· == '\n') (listing entries)).dropLast.map
      lines.dropCarriageReturn :=
    List.mem_map.mpr ⟨entry, hpiece, hsame⟩
  simp only [lines]
  split
  · split
    · exact hmem
    · exact List.mem_append_left _ hmem
  · exact hmem

/-- **An entry without blanks is a line of the listing.** -/
theorem mem_lines_listing {entries : List (List Char)} {entry : List Char}
    (h : entry ∈ entries) (hentry : ∀ c ∈ entry, isBlank c = false) :
    entry ∈ lines (listing entries) := by
  refine mem_lines_listing_of_not_mem h (fun hmem => ?_) fun hlast => ?_
  · exact absurd (hentry _ hmem) (by decide)
  · exact absurd (hentry _ (List.mem_of_getLast? hlast)) (by decide)

/-- A text that begins and ends with something that is not blank stays as it is. -/
theorem trim_eq_self_of_ends {c d : Char} {cs ds : List Char} (h : c :: cs = ds ++ [d])
    (hc : isBlank c = false) (hd : isBlank d = false) : trim (c :: cs) = c :: cs := by
  rw [trim, trimLeft, List.dropWhile_cons_of_neg (by simp [hc]), trimRight, h,
    List.reverse_append, List.reverse_singleton, List.singleton_append,
    List.dropWhile_cons_of_neg (by simp [hd]), List.reverse_cons, List.reverse_reverse]

theorem trim_eq_self {cs : List Char} (h : ∀ c ∈ cs, isBlank c = false) : trim cs = cs := by
  have hleft : ∀ {ds : List Char}, (∀ c ∈ ds, isBlank c = false) → ds.dropWhile isBlank = ds := by
    intro ds hds
    cases ds with
    | nil => rfl
    | cons d ds => exact List.dropWhile_cons_of_neg (by simp [hds d List.mem_cons_self])
  rw [trim, trimLeft, hleft h, trimRight, hleft fun c hc => h c (List.mem_reverse.mp hc),
    List.reverse_reverse]

/-! ## Fields between separators -/

/-- The piece has no separator, and there is one, or the end of the text, on either side of it. -/
def Stands (isSeparator : Char → Bool) (piece cs : List Char) : Prop :=
  (∀ c ∈ piece, isSeparator c = false) ∧ ∃ before after, cs = before ++ piece ++ after ∧
    (∀ c ∈ before.getLast?, isSeparator c = true) ∧ ∀ c ∈ after.head?, isSeparator c = true

variable {isSeparator : Char → Bool} {piece cs : List Char}

/-- A text has no separator, or a first one. -/
theorem exists_first_separator (isSeparator : Char → Bool) (cs : List Char) :
    (∀ c ∈ cs, isSeparator c = false) ∨ ∃ xs c ys, cs = xs ++ c :: ys ∧
      (∀ x ∈ xs, isSeparator x = false) ∧ isSeparator c = true := by
  induction cs with
  | nil => exact .inl fun _ hc => absurd hc List.not_mem_nil
  | cons c cs ih =>
    cases hc : isSeparator c with
    | true => exact .inr ⟨[], c, cs, rfl, fun _ hx => absurd hx List.not_mem_nil, hc⟩
    | false =>
      rcases ih with hnone | ⟨xs, d, ys, rfl, hxs, hd⟩
      · exact .inl (List.forall_mem_cons.mpr ⟨hc, hnone⟩)
      · exact .inr ⟨c :: xs, d, ys, rfl, List.forall_mem_cons.mpr ⟨hc, hxs⟩, hd⟩

/-- What stands behind a separator stands in the text. -/
theorem Stands.behind {xs ys : List Char} {c : Char} (hc : isSeparator c = true)
    (h : Stands isSeparator piece ys) : Stands isSeparator piece (xs ++ c :: ys) := by
  obtain ⟨hpiece, before, after, rfl, hbefore, hafter⟩ := h
  refine ⟨hpiece, xs ++ c :: before, after, by simp, fun d hd => ?_, hafter⟩
  rw [List.getLast?_append, List.getLast?_cons, Option.some_or] at hd
  cases hlast : before.getLast? with
  | none =>
    rw [hlast] at hd
    exact Option.some.inj hd ▸ hc
  | some last =>
    rw [hlast] at hd
    exact hbefore d (hlast ▸ hd)

theorem stands_of_mem_splitBy (h : piece ∈ splitBy isSeparator cs) :
    Stands isSeparator piece cs := by
  induction hlength : cs.length using Nat.strongRecOn generalizing cs with
  | _ n ih =>
    rcases exists_first_separator isSeparator cs with hnone | ⟨xs, c, ys, rfl, hxs, hc⟩
    · rw [splitBy_eq_singleton hnone] at h
      obtain rfl := List.mem_singleton.mp h
      exact ⟨hnone, [], [], by simp, nofun, nofun⟩
    · rw [splitBy_append hc, splitBy_eq_singleton hxs] at h
      rcases List.mem_cons.mp h with rfl | h
      · exact ⟨hxs, [], c :: ys, rfl, nofun, fun d hd => Option.some.inj hd ▸ hc⟩
      · have hshorter : ys.length < n := by
          rw [← hlength, List.length_append, List.length_cons]
          omega
        exact (ih ys.length hshorter h rfl).behind hc

theorem mem_splitBy_of_stands (h : Stands isSeparator piece cs) :
    piece ∈ splitBy isSeparator cs := by
  obtain ⟨hpiece, before, after, rfl, hbefore, hafter⟩ := h
  have hrest : piece ∈ splitBy isSeparator (piece ++ after) := by
    cases after with
    | nil =>
      rw [List.append_nil, splitBy_eq_singleton hpiece]
      exact List.mem_cons_self
    | cons c after =>
      rw [splitBy_append (hafter c rfl), splitBy_eq_singleton hpiece]
      exact List.mem_cons_self
  rcases List.eq_nil_or_concat before with rfl | ⟨front, c, rfl⟩
  · exact hrest
  · have hc : isSeparator c = true := hbefore c (by simp)
    rw [List.concat_eq_append, List.append_assoc, List.append_assoc, List.singleton_append,
      splitBy_append hc]
    exact List.mem_append_right _ hrest

/-- The pieces of a text are those that stand between its separators. -/
theorem mem_splitBy_iff : piece ∈ splitBy isSeparator cs ↔ Stands isSeparator piece cs :=
  ⟨stands_of_mem_splitBy, mem_splitBy_of_stands⟩

/-- **The fields of a text are the pieces between its separators** that are not empty. -/
theorem mem_fieldsBy_iff :
    piece ∈ fieldsBy isSeparator cs ↔ piece ≠ [] ∧ Stands isSeparator piece cs := by
  rw [fieldsBy, List.mem_filter, mem_splitBy_iff, Bool.not_eq_true', List.isEmpty_eq_false_iff,
    and_comm]

/-- A separator cuts the fields in two. -/
theorem fieldsBy_append {c : Char} (hc : isSeparator c = true) (xs ys : List Char) :
    fieldsBy isSeparator (xs ++ c :: ys) = fieldsBy isSeparator xs ++ fieldsBy isSeparator ys := by
  unfold fieldsBy
  rw [splitBy_append hc, List.filter_append]

theorem fieldsBy_eq_singleton (h : ∀ c ∈ cs, isSeparator c = false) (hne : cs ≠ []) :
    fieldsBy isSeparator cs = [cs] := by
  unfold fieldsBy
  rw [splitBy_eq_singleton h]
  simp [hne]

/-! ## Trimmed texts -/

/-- A trimmed text begins as one whose beginning is trimmed. -/
theorem trim_begins (cs : List Char) : trim cs <+: trimLeft cs :=
  List.rdropWhile_prefix isBlank (trimLeft cs)

theorem mem_of_mem_trim {c : Char} {cs : List Char} (h : c ∈ trim cs) : c ∈ cs :=
  (List.dropWhile_sublist isBlank).mem ((trim_begins cs).mem h)

theorem head_trimLeft {c : Char} {cs rest : List Char} (h : trimLeft cs = c :: rest) :
    isBlank c = false := by
  have hhead := List.head?_dropWhile_not isBlank cs
  rw [show cs.dropWhile isBlank = c :: rest from h] at hhead
  exact hhead

theorem head_trim {c : Char} {cs rest : List Char} (h : trim cs = c :: rest) :
    isBlank c = false := by
  obtain ⟨others, hleft⟩ := trim_begins cs
  rw [h, List.cons_append] at hleft
  exact head_trimLeft hleft.symm

theorem getLast?_trim {c : Char} {cs : List Char} (h : (trim cs).getLast? = some c) :
    isBlank c = false := by
  have hne : trim cs ≠ [] := fun hnil => by
    rw [hnil] at h
    cases h
  have hlast := List.rdropWhile_last_not isBlank (trimLeft cs) hne
  rw [List.getLast?_eq_some_getLast hne] at h
  rw [← Option.some.inj h]
  exact Bool.eq_false_iff.mpr hlast

theorem trim_trim (cs : List Char) : trim (trim cs) = trim cs := by
  have hleft : trimLeft (trim cs) = trim cs := by
    cases h : trim cs with
    | nil => rfl
    | cons c rest => exact List.dropWhile_cons_of_neg (by rw [head_trim h]; decide)
  rw [trim, hleft]
  exact List.rdropWhile_idempotent isBlank (trimLeft cs)

theorem trimmed_trimmed (s : String) : trimmed (trimmed s) = trimmed s := by
  unfold trimmed
  rw [String.toList_ofList, trim_trim]

theorem toList_trimmed (s : String) : (trimmed s).toList = trim s.toList :=
  String.toList_ofList

/-- Nothing is left of a text if and only if it is blank. -/
theorem isEmpty_trimmed (s : String) : (trimmed s).isEmpty = isBlankText s := by
  have hnil : trim s.toList = [] ↔ ∀ c ∈ s.toList, isBlank c = true := by
    constructor
    · intro h
      cases hleft : trimLeft s.toList with
      | nil => exact List.dropWhile_eq_nil_iff.mp hleft
      | cons c rest =>
        have hall := List.rdropWhile_eq_nil_iff.mp h
        have hhead := head_trimLeft hleft
        rw [hall c (hleft ▸ List.mem_cons_self)] at hhead
        cases hhead
    · intro h
      rw [trim, trimLeft, List.dropWhile_eq_nil_iff.mpr h]
      rfl
  rw [Bool.eq_iff_iff, isBlankText, List.all_eq_true, ← hnil, String.isEmpty_iff, trimmed,
    ← String.toList_inj, String.toList_ofList]
  exact Iff.rfl

/-- A text of one line that is trimmed. -/
theorem lines_of_line {cs : List Char} (hfeed : '\n' ∉ cs) (htrim : trim cs = cs) :
    lines (cs ++ ['\n']) = [cs] := by
  have hreturn : cs.getLast? ≠ some '\r' := fun h =>
    absurd (getLast?_trim (htrim.symm ▸ h)) (by decide)
  have hpieces : splitBy (· == '\n') (cs ++ ['\n']) = [cs, []] := by
    rw [splitBy_append (by decide), splitBy_eq_singleton]
    · rfl
    · exact fun c hc => beq_eq_false_iff_ne.mpr fun heq => hfeed (heq ▸ hc)
  have hsame : lines.dropCarriageReturn cs = cs :=
    if_neg fun hlast => hreturn (beq_iff_eq.mp hlast)
  simp only [lines, hpieces]
  exact congrArg (fun line => [line]) hsame

end Rampart.Text
