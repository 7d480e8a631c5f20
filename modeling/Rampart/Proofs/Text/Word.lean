import Rampart.Text.Word

/-!
# Quoted words are read back

A shell that expands nothing reads a quoted argument back as one word.

* `splitFrom_quoteBody`: single quotes keep everything, and a quote mark stands for a quote.
* **`splitFrom_quote`**: a quoted argument, up to the next blank, is one word.
* **`split_line`**: a command line of quoted arguments is those arguments.
-/

namespace Rampart.Text.Word

/-- A plain character means nothing to a shell. -/
theorem plain_is_bare {c : Char} (h : isPlain c = true) :
    isSeparator c = false ∧ c ≠ '\'' ∧ c ≠ '"' ∧ isSpecial c = false := by
  have hne : ∀ d : Char, isPlain d = false → c ≠ d := by
    rintro d hd rfl
    rw [h] at hd
    cases hd
  have hseparator : isSeparator c = false := by
    simp [isSeparator, hne ' ' (by decide), hne '\t' (by decide), hne '\n' (by decide)]
  have hspecial : isSpecial c = false := by
    have hall : "|&;<>()$\x60\\*?[]#~\x7b\x7d!".toList.all (!isPlain ·) = true := by decide
    unfold isSpecial
    rw [Bool.eq_false_iff, Ne, List.contains_iff_mem]
    exact fun hmem => hne c (by simpa using List.all_eq_true.mp hall c hmem) rfl
  exact ⟨hseparator, hne '\'' (by decide), hne '"' (by decide), hspecial⟩

/-- A text after which a word has ended. -/
def Apart : List Char → Prop
  | [] => True
  | c :: _ => isSeparator c = true

theorem splitFrom_bare_of_apart {rest : List Char} (h : Apart rest) (word : List Char) :
    splitFrom .bare word rest = (splitFrom .between [] rest).map (word.reverse :: ·) := by
  cases rest with
  | nil => rfl
  | cons c rest =>
    have hc : isSeparator c = true := h
    simp [splitFrom, hc]

theorem splitFrom_plain {cs : List Char} (h : cs.all isPlain = true) (word rest : List Char) :
    splitFrom .bare word (cs ++ rest) = splitFrom .bare (cs.reverse ++ word) rest := by
  induction cs generalizing word with
  | nil => rfl
  | cons c cs ih =>
    rw [List.all_cons, Bool.and_eq_true] at h
    obtain ⟨hseparator, hsingle, hdouble, hspecial⟩ := plain_is_bare h.1
    have hstep : splitFrom .bare word (c :: (cs ++ rest)) =
        splitFrom .bare (c :: word) (cs ++ rest) := by
      simp [splitFrom, hseparator, hsingle, hdouble, hspecial]
    rw [List.cons_append, hstep, ih h.2]
    simp

theorem splitFrom_quoteBody (cs word rest : List Char) :
    splitFrom .single word (quoteBody cs ++ '\'' :: rest) =
      splitFrom .bare (cs.reverse ++ word) rest := by
  induction cs generalizing word with
  | nil => simp [quoteBody, splitFrom]
  | cons c cs ih =>
    by_cases hc : c = '\''
    · subst hc
      have hmark : splitFrom .single word (quoteMark ++ (quoteBody cs ++ '\'' :: rest)) =
          splitFrom .single ('\'' :: word) (quoteBody cs ++ '\'' :: rest) := by
        simp [quoteMark, splitFrom, isSeparator]
      rw [quoteBody, if_pos rfl, List.append_assoc, hmark, ih]
      simp
    · have hstep : splitFrom .single word (c :: (quoteBody cs ++ '\'' :: rest)) =
          splitFrom .single (c :: word) (quoteBody cs ++ '\'' :: rest) := by
        simp [splitFrom, hc]
      rw [quoteBody, if_neg hc, List.cons_append, hstep, ih]
      simp

/-- **A quoted argument is one word.** -/
theorem splitFrom_quote (argument : String) {rest : List Char} (h : Apart rest) :
    splitFrom .between [] ((quote argument).toList ++ rest) =
      (splitFrom .between [] rest).map (argument.toList :: ·) := by
  rw [quote, String.toList_ofList, quoteChars]
  split
  · rename_i hplain
    rw [Bool.and_eq_true] at hplain
    cases hcs : argument.toList with
    | nil => simp [hcs] at hplain
    | cons c cs =>
      rw [hcs, List.all_cons, Bool.and_eq_true] at hplain
      obtain ⟨hseparator, hsingle, hdouble, hspecial⟩ := plain_is_bare hplain.2.1
      have hstep : splitFrom .between [] (c :: (cs ++ rest)) = splitFrom .bare [c] (cs ++ rest) := by
        simp [splitFrom, hseparator, hsingle, hdouble, hspecial]
      rw [List.cons_append, hstep, splitFrom_plain hplain.2.2, splitFrom_bare_of_apart h]
      simp
  · have hopen : splitFrom .between []
        ('\'' :: quoteBody argument.toList ++ ['\''] ++ rest) =
        splitFrom .single [] (quoteBody argument.toList ++ '\'' :: rest) := by
      simp [splitFrom, isSeparator]
    rw [hopen, splitFrom_quoteBody, splitFrom_bare_of_apart h]
    simp

/-- The quoted arguments after the first word of a line, each after a blank. -/
def behind (arguments : List String) : List Char :=
  arguments.flatMap fun argument => ' ' :: (quote argument).toList

theorem apart_behind (arguments : List String) : Apart (behind arguments) := by
  cases arguments with
  | nil => trivial
  | cons a as => exact (by decide : isSeparator ' ' = true)

theorem splitFrom_behind (arguments : List String) :
    splitFrom .between [] (behind arguments) = some (arguments.map String.toList) := by
  induction arguments with
  | nil => rfl
  | cons a as ih =>
    have hblank : splitFrom .between [] (behind (a :: as)) =
        splitFrom .between [] ((quote a).toList ++ behind as) := by
      simp [behind, splitFrom, isSeparator]
    rw [hblank, splitFrom_quote a (apart_behind as), ih]
    rfl

theorem toList_line_cons (a : String) (as : List String) :
    (line (a :: as)).toList = (quote a).toList ++ behind as := by
  unfold line behind
  rw [List.map_cons, String.toList_intercalate, List.map_cons]
  induction as generalizing a with
  | nil => simp
  | cons b bs ih => simpa using congrArg (fun cs => (quote a).toList ++ ' ' :: cs) (ih b)

/-- **A command line of quoted arguments is those arguments.** -/
theorem split_line (arguments : List String) : split (line arguments) = some arguments := by
  cases arguments with
  | nil => rfl
  | cons a as =>
    unfold split
    rw [toList_line_cons, splitFrom_quote a (apart_behind as), splitFrom_behind]
    simp [Function.comp_def]

theorem line_injective {as bs : List String} (h : line as = line bs) : as = bs := by
  have hsplit := split_line as
  rw [h, split_line bs] at hsplit
  exact (Option.some.inj hsplit).symm

end Rampart.Text.Word
