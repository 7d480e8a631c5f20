import Rampart.Proofs.Text.Letter
import Rampart.Yaml.Reader

/-!
# Strings of a document are read back

A string is written in the simplest of four styles that keeps it. Whatever the style, a reader makes
the string of what has been written.

* `plain?_append`: a text that can stand without quotes, and is no number or the like.
* `singleFrom_indentLines`, `foldFrom_indentLines`: in single quotes, where lines are folded.
* `doubleFrom_writeDouble`: in double quotes, one character after another.
* `blockFrom_indentLines`, `marks?_literalMarks`: in a literal block, up to a line with less indent.
* **`inline?_writeText`**, **`literalFrom_writeText`**: a string of any style.
-/

namespace Rampart.Yaml

/-! ## Characters -/

/-- Characters that are not blank are left at the end. -/
theorem dropEnd_append {test : Char → Bool} {cs tail : List Char}
    (hcs : ∀ c ∈ cs.getLast?, test c = false) (htail : ∀ c ∈ tail, test c = true) :
    dropEnd test (cs ++ tail) = cs := by
  have hrev : ∀ c ∈ tail.reverse, test c = true := fun c hc => htail c (List.mem_reverse.mp hc)
  rw [dropEnd, List.reverse_append, List.dropWhile_append_of_pos hrev]
  cases hcases : cs.reverse with
  | nil => rw [List.reverse_eq_nil_iff.mp hcases]; rfl
  | cons c others =>
    have hlast : test c = false := hcs c (by rw [← List.head?_reverse, hcases]; rfl)
    rw [List.dropWhile_cons_of_neg (by rw [hlast]; decide), ← hcases, List.reverse_reverse]

theorem hasPair_tail {first second : Char → Bool} {c : Char} {cs : List Char}
    (h : hasPair first second (c :: cs) = false) : hasPair first second cs = false := by
  cases cs with
  | nil => rfl
  | cons d cs => exact (Bool.or_eq_false_iff.mp h).2

/-- Where there is no pair, what follows a first character is no second one. -/
theorem second_eq_false {first second : Char → Bool} {c : Char} {cs : List Char}
    (h : hasPair first second (c :: cs) = false) (hc : first c = true) :
    ∀ d ∈ cs.head?, second d = false := by
  cases cs with
  | nil => exact fun _ hd => absurd hd (by simp)
  | cons d cs =>
    intro e he
    have hpair := (Bool.or_eq_false_iff.mp h).1
    rw [hc, Bool.true_and] at hpair
    exact Option.some.inj he ▸ hpair

theorem hasPair_cons {first second : Char → Bool} {c : Char} (hc : first c = false)
    (cs : List Char) : hasPair first second (c :: cs) = hasPair first second cs := by
  cases cs with
  | nil => rfl
  | cons d cs => rw [hasPair, hc, Bool.false_and, Bool.false_or]

theorem hasPair_spaces {first second : Char → Bool} (hspace : first ' ' = false) (n : Nat)
    (cs : List Char) : hasPair first second (spaces n ++ cs) = hasPair first second cs := by
  induction n with
  | zero => rfl
  | succ n ih => exact (hasPair_cons hspace _).trans ih

theorem isPrintable_of_needsEscapes {cs : List Char} (h : needsEscapes cs = false) :
    ∀ c ∈ cs, isPrintable c = true := by
  have hany := (Bool.or_eq_false_iff.mp h).1
  exact fun c hc => by simpa using List.any_eq_false.mp hany c hc

theorem isWhite_iff (c : Char) : isWhite c = true ↔ c = ' ' ∨ c = '\t' := by
  simp [isWhite]

/-- A tab needs an escape. -/
theorem isSpace_of_isWhite {c : Char} (hc : isPrintable c = true) (h : isWhite c = true) :
    isSpace c = true := by
  rcases (isWhite_iff c).mp h with rfl | rfl
  · rfl
  · exact absurd hc (by decide)

/-! ## Plain scalars -/

/-- What can follow a plain scalar: the end of its line, or a colon that ends it. -/
def EndsPlain (rest : List Char) : Prop :=
  ∀ c cs, rest = c :: cs → isBreak c = true ∨ (c = ':' ∧ endsHere cs = true)

theorem endsHere_append {cs : List Char} (h : endsHere cs = false) (rest : List Char) :
    endsHere (cs ++ rest) = false := by
  cases cs with
  | nil => cases h
  | cons c cs => exact h

theorem plainFrom_append {previous : Char} {cs rest : List Char} (hbreak : cs.any isBreak = false)
    (hinner : hasInnerIndicator previous cs = false) (hrest : EndsPlain rest) :
    plainFrom previous (cs ++ rest) = (cs, rest) := by
  induction cs generalizing previous with
  | nil =>
    cases rest with
    | nil => rfl
    | cons c cs =>
      rw [List.nil_append, plainFrom, if_pos]
      rcases hrest c cs rfl with hc | ⟨rfl, hcs⟩
      · simp [hc]
      · simp [hcs]
  | cons c cs ih =>
    rw [List.any_cons, Bool.or_eq_false_iff] at hbreak
    rw [hasInnerIndicator, Bool.or_eq_false_iff, Bool.or_eq_false_iff] at hinner
    have hcolon : (c = ':' && endsHere (cs ++ rest)) = false := by
      rcases Bool.and_eq_false_iff.mp hinner.1.1 with hc | hcs
      · rw [hc, Bool.false_and]
      · rw [endsHere_append hcs, Bool.and_false]
    rw [List.cons_append, plainFrom, if_neg (by simp only [hbreak.1, hcolon, hinner.1.2]; decide),
      ih hbreak.2 hinner.2]

/-- A string that is no other scalar stands for itself. -/
theorem resolve_of_isPlainString {s : String} (h : isPlainString s = true) :
    resolve s = .text s := by
  simp only [isPlainString, Bool.and_eq_true, Bool.not_eq_true'] at h
  obtain ⟨⟨⟨⟨hnull, hboolean⟩, hinteger⟩, hdigits⟩, hfloat⟩ := h
  simp [resolve, hnull, hboolean, hinteger, hdigits, hfloat]

/-- What makes a text one that can stand without quotes. -/
structure IsPlain (cs : List Char) : Prop where
  printable : ∀ c ∈ cs, isPrintable c = true
  line : cs.any isBreak = false
  first : ∀ c ∈ cs.head?, isSpace c = false
  last : ∀ c ∈ cs.getLast?, isSpace c = false
  noIndicator : hasIndicator cs = false

theorem isPlain_of_allowsPlain {cs : List Char} (h : allowsPlain cs = true) : IsPlain cs := by
  simp only [allowsPlain, isEdged, Bool.and_eq_true, Bool.not_eq_true', Bool.or_eq_false_iff] at h
  obtain ⟨⟨⟨hescapes, hbreak⟩, hfirst, hlast⟩, hindicator⟩ := h
  have hedge : ∀ o : Option Char, o.any isSpace = false → ∀ c ∈ o, isSpace c = false := by
    rintro _ hany c rfl
    exact hany
  exact ⟨isPrintable_of_needsEscapes hescapes, hbreak, hedge _ hfirst, hedge _ hlast, hindicator⟩

/-- How a plain scalar begins. -/
theorem IsPlain.begins {c : Char} {cs : List Char} (h : IsPlain (c :: cs)) :
    isBlankOrBreak c = false ∧ isIndicator c = false ∧
      ((c = '?' || c = ':' || c = '-') && endsHere cs) = false ∧
      hasInnerIndicator c cs = false ∧ isMarker (c :: cs) = false := by
  have hindicator := h.noIndicator
  simp only [hasIndicator, Bool.or_eq_false_iff] at hindicator
  obtain ⟨hmarker, ⟨hfirst, hstart⟩, hinner⟩ := hindicator
  refine ⟨?_, hfirst, hstart, hinner, Bool.or_eq_false_iff.mpr hmarker⟩
  have hspace : c ≠ ' ' := fun hc => absurd (h.first c rfl) (by rw [hc]; decide)
  have hprint := h.printable c List.mem_cons_self
  have htab : c ≠ '\t' := fun hc => absurd hprint (by rw [hc]; decide)
  have hzero : c.toNat ≠ 0 := fun hc => absurd hprint (by simp [isPrintable, hc])
  have hbreak : isBreak c = false := (Bool.or_eq_false_iff.mp h.line).1
  simp [isBlankOrBreak, hspace, htab, hzero, hbreak]

/-- **A plain scalar is read back.** -/
theorem plain?_append {c : Char} {cs rest : List Char} (h : IsPlain (c :: cs))
    (hrest : EndsPlain rest) :
    plain? (c :: cs ++ rest) = some (resolve (String.ofList (c :: cs)), rest) := by
  obtain ⟨hblank, hindicator, hstart, hinner, hmarker⟩ := h.begins
  have hstart' : ((c = '?' || c = ':' || c = '-') && endsHere (cs ++ rest)) = false := by
    rcases Bool.and_eq_false_iff.mp hstart with hc | hcs
    · rw [hc, Bool.false_and]
    · rw [endsHere_append hcs, Bool.and_false]
  have hlast : ∀ d ∈ (c :: cs).getLast?, isWhite d = false := fun d hd =>
    Bool.eq_false_iff.mpr fun hwhite => absurd (h.last d hd) (by
      rw [isSpace_of_isWhite (h.printable d (List.mem_of_getLast? hd)) hwhite]; decide)
  have hdrop : dropEnd isWhite (c :: cs) = c :: cs := by
    simpa using dropEnd_append hlast (fun _ hd => absurd hd List.not_mem_nil)
  rw [List.cons_append, plain?, if_neg (by simp only [hblank, hindicator, hstart']; decide),
    plainFrom_append (Bool.or_eq_false_iff.mp h.line).2 hinner hrest]
  simp only [hdrop, hmarker, Bool.false_eq_true, if_false]

/-! ## Single quotes -/

theorem singleFrom_cons {c : Char} (hc : c ≠ '\'') (cs : List Char) :
    singleFrom (c :: cs) = (singleFrom cs).map (prepend c) := by
  rw [singleFrom]
  · exact fun _ h => absurd h hc
  · exact hc

theorem singleFrom_writeSingle (c : Char) (cs : List Char) :
    singleFrom (writeSingle c ++ cs) = (singleFrom cs).map (prepend c) := by
  unfold writeSingle
  split
  · next hc => rw [hc]; rfl
  · next hc => exact singleFrom_cons hc cs

theorem singleFrom_spaces {tail read rest : List Char} (h : singleFrom tail = some (read, rest))
    (n : Nat) : singleFrom (spaces n ++ tail) = some (spaces n ++ read, rest) := by
  induction n with
  | zero => exact h
  | succ n ih =>
    have hcons := singleFrom_cons (show ' ' ≠ '\'' by decide) (spaces n ++ tail)
    rw [ih] at hcons
    exact hcons

/-- The lines of a text, without doubled quotes. -/
abbrev rawLines (indent : Nat) (broken : Bool) (cs : List Char) : List Char :=
  indentLines indent (fun c => [c]) broken cs

/-- **Between single quotes** stand the lines of the text. -/
theorem singleFrom_indentLines {indent : Nat} {broken : Bool} {cs tail read rest : List Char}
    (h : singleFrom tail = some (read, rest)) :
    singleFrom (indentLines indent writeSingle broken cs ++ tail) =
      some (rawLines indent broken cs ++ read, rest) := by
  induction cs generalizing broken with
  | nil => exact h
  | cons c cs ih =>
    rw [indentLines, rawLines, indentLines]
    split
    · next hc =>
      have hne : c ≠ '\'' := fun heq => absurd hc (by rw [heq]; decide)
      rw [List.cons_append, singleFrom_cons hne, ih]
      rfl
    · have hrest : singleFrom (writeSingle c ++ indentLines indent writeSingle false cs ++ tail) =
          some (c :: (rawLines indent false cs ++ read), rest) := by
        rw [List.append_assoc, singleFrom_writeSingle, ih]
        rfl
      cases broken with
      | false => exact hrest
      | true =>
        have hspaces := singleFrom_spaces hrest indent
        rw [← List.append_assoc] at hspaces
        simpa using hspaces

/-- Breaks that are no line feeds all count. -/
theorem joint_eq {breaks : List Char} (h : '\n' ∉ breaks) : joint breaks = breaks := by
  unfold joint
  split
  · exact absurd List.mem_cons_self h
  · exact absurd List.mem_cons_self h
  · rfl

theorem held_eq {breaks blanks : List Char} (h : '\n' ∉ breaks)
    (hblanks : breaks ≠ [] → blanks = []) : held breaks blanks = breaks ++ blanks := by
  unfold held
  cases breaks with
  | nil => rfl
  | cons c breaks =>
    rw [hblanks (List.cons_ne_nil c breaks), List.append_nil]
    exact joint_eq h

theorem foldFrom_spaces (breaks blanks : List Char) (n : Nat) (cs : List Char) :
    foldFrom breaks blanks (spaces n ++ cs) = foldFrom breaks (blanks ++ spaces n) cs := by
  induction n generalizing blanks with
  | zero => simp [spaces]
  | succ n ih =>
    have hstep : foldFrom breaks blanks (spaces (n + 1) ++ cs) =
        foldFrom breaks (blanks ++ [' ']) (spaces n ++ cs) := rfl
    rw [hstep, ih, List.append_assoc]
    rfl

/-- Blanks do not count after a break. -/
theorem held_blanks {breaks : List Char} (h : breaks ≠ []) (blanks blanks' : List Char) :
    held breaks blanks = held breaks blanks' := by
  cases breaks with
  | nil => exact absurd rfl h
  | cons c breaks => rfl

/-- What a text that is folded must not have: a line feed, a blank next to a break, or a tab. -/
structure IsFoldable (cs : List Char) : Prop where
  noLineFeed : '\n' ∉ cs
  before : hasPair isSpace isBreak cs = false
  after : hasPair isBreak isSpace cs = false
  white : ∀ c ∈ cs, isWhite c = true → isSpace c = true

theorem IsFoldable.tail {c : Char} {cs : List Char} (h : IsFoldable (c :: cs)) : IsFoldable cs where
  noLineFeed hcs := h.noLineFeed (List.mem_cons_of_mem c hcs)
  before := hasPair_tail h.before
  after := hasPair_tail h.after
  white d hd := h.white d (List.mem_cons_of_mem c hd)

theorem closing_cons {c : Char} (h : isBreak c = false) (indent : Nat) (front cs : List Char) :
    closing indent (front ++ c :: cs) = closing indent cs := by
  rw [closing, closing, List.getLast?_append_of_ne_nil _ (List.cons_ne_nil c cs)]
  cases cs with
  | nil => simp [h]
  | cons d cs => rw [List.getLast?_cons_cons]

/-- **The lines are folded to the text.** The induction is on the text; `breaks` or `blanks` stand
in front of it and have not been given out, and at most one of them. -/
theorem foldFrom_rawLines (indent : Nat) (breaks blanks : List Char) {cs : List Char}
    (h : IsFoldable cs) (hbreaks : '\n' ∉ breaks) (hall : ∀ c ∈ breaks, isBreak c = true)
    (hnone : breaks ≠ [] → blanks = [] ∧ ∀ c ∈ cs.head?, isSpace c = false)
    (hsome : blanks ≠ [] → ∀ c ∈ cs.head?, isBreak c = false) :
    foldFrom breaks blanks
        (rawLines indent (!breaks.isEmpty) cs ++ closing indent (breaks ++ cs)) =
      breaks ++ blanks ++ cs := by
  have hheld := held_eq hbreaks fun hne => (hnone hne).1
  induction cs generalizing breaks blanks with
  | nil =>
    rw [List.append_nil, List.append_nil, ← hheld]
    cases hlast : breaks.getLast? with
    | none =>
      rw [List.getLast?_eq_none_iff] at hlast
      rw [hlast]
      rfl
    | some c =>
      have hne : breaks ≠ [] := fun hnil => by rw [hnil] at hlast; cases hlast
      rw [closing, hlast, Option.any_some, if_pos (hall c (List.mem_of_getLast? hlast))]
      have hspaces := (foldFrom_spaces breaks blanks indent []).trans (held_blanks hne _ blanks)
      rwa [List.append_nil] at hspaces
  | cons c cs ih =>
    rw [rawLines, indentLines]
    by_cases hc : isBreak c = true
    · have hblanks : blanks = [] := by
        by_contra hne
        exact absurd (hsome hne c rfl) (by rw [hc]; decide)
      have hfeed : '\n' ∉ breaks ++ [c] := by
        rw [List.mem_append, List.mem_singleton]
        rintro (hmem | rfl)
        · exact hbreaks hmem
        · exact h.noLineFeed List.mem_cons_self
      have hnext := ih (breaks ++ [c]) [] h.tail hfeed
        (List.forall_mem_append.mpr ⟨hall, by simpa using hc⟩)
        (fun _ => ⟨rfl, second_eq_false h.after hc⟩) (fun hne => absurd rfl hne)
        (held_eq hfeed fun _ => rfl)
      rw [show (breaks ++ [c]).isEmpty = false by simp] at hnext
      rw [if_pos hc, List.cons_append, foldFrom, if_pos hc]
      simpa [hblanks] using hnext
    · have hc' : isBreak c = false := Bool.eq_false_iff.mpr hc
      rw [if_neg hc, closing_cons hc']
      by_cases hwhite : isWhite c = true
      · have hspace := h.white c List.mem_cons_self hwhite
        have hnil : breaks = [] := by
          by_contra hne
          exact absurd ((hnone hne).2 c rfl) (by rw [hspace]; decide)
        subst hnil
        have hnext := ih [] (blanks ++ [c]) h.tail hbreaks hall
          (fun hne => absurd rfl hne) (fun _ => second_eq_false h.before hspace) rfl
        rw [show ([] : List Char).isEmpty = true from rfl, Bool.not_true,
          if_neg Bool.false_ne_true, List.singleton_append, List.cons_append, foldFrom, if_neg hc,
          if_pos hwhite]
        simpa using hnext
      · have hnext := ih [] [] h.tail (by simp) (by simp) (fun hne => absurd rfl hne)
          (fun hne => absurd rfl hne) rfl
        have hcons : ∀ blanks,
            foldFrom breaks blanks (c :: (rawLines indent false cs ++ closing indent cs)) =
              held breaks blanks ++ c :: cs := fun blanks => by
          rw [foldFrom, if_neg hc, if_neg hwhite]
          simpa using hnext
        cases breaks with
        | nil => simpa [← hheld] using hcons blanks
        | cons b breaks =>
          rw [← hheld, held_blanks (List.cons_ne_nil b breaks) blanks (blanks ++ spaces indent),
            ← hcons]
          simpa using foldFrom_spaces (b :: breaks) blanks indent _

/-- A line after a break begins with a space. -/
theorem hasPair_indented (b : Char) (indent : Nat) (cs : List Char) :
    hasPair isBreak isOuter (b :: (spaces (indent + 1) ++ cs)) = hasPair isBreak isOuter cs := by
  have hspace : hasPair isBreak isOuter (b :: ' ' :: (spaces indent ++ cs)) =
      hasPair isBreak isOuter (' ' :: (spaces indent ++ cs)) := by
    rw [hasPair, show isOuter ' ' = false from rfl, Bool.and_false, Bool.false_or]
  exact hspace.trans (hasPair_spaces rfl (indent + 1) cs)

/-- All lines after the first are indented, the one of the closing quote too. The induction is on
the text after `b`. -/
theorem hasPair_rawLines (indent : Nat) (b : Char) (cs : List Char) :
    hasPair isBreak isOuter
      (b :: (rawLines (indent + 1) (isBreak b) cs ++ (closing (indent + 1) (b :: cs) ++ ['\'']))) =
        false := by
  induction cs generalizing b with
  | nil =>
    cases hb : isBreak b with
    | true =>
      rw [show closing (indent + 1) [b] = spaces (indent + 1) by simp [closing, hb]]
      exact hasPair_indented b indent ['\'']
    | false =>
      rw [hasPair_cons hb, show closing (indent + 1) [b] = [] by simp [closing, hb]]
      rfl
  | cons c cs ih =>
    have hnext := ih c
    have hclosing : closing (indent + 1) (b :: c :: cs) = closing (indent + 1) (c :: cs) := by
      rw [closing, closing, List.getLast?_cons_cons]
    rw [rawLines, indentLines, hclosing]
    by_cases hc : isBreak c = true
    · rw [hc] at hnext
      rw [if_pos hc, List.cons_append, hasPair, hnext, isOuter, hc]
      simp
    · rw [Bool.eq_false_iff.mpr hc] at hnext
      rw [if_neg hc]
      cases hb : isBreak b with
      | false =>
        rw [hasPair_cons hb]
        exact hnext
      | true =>
        rw [if_pos rfl, List.append_assoc, hasPair_indented]
        exact hnext

/-- A text that can stand in single quotes is folded back. -/
theorem isFoldable_of_allowsSingle {cs : List Char} (h : allowsSingle cs = true)
    (hfeed : '\n' ∉ cs) : IsFoldable cs := by
  rw [allowsSingle, Bool.and_eq_true, Bool.not_eq_true', Bool.not_eq_true'] at h
  exact ⟨hfeed, (Bool.or_eq_false_iff.mp h.1).2, h.2, fun c hc =>
    isSpace_of_isWhite (isPrintable_of_needsEscapes h.1 c hc)⟩

/-- **A scalar in single quotes is read back.** -/
theorem single?_append (indent : Nat) {cs rest : List Char} (h : IsFoldable cs)
    (hrest : rest.head? ≠ some '\'') :
    single? (indentLines (indent + 1) writeSingle false cs ++
        (closing (indent + 1) cs ++ '\'' :: rest)) = some (.text (String.ofList cs), rest) := by
  have hquote : singleFrom ('\'' :: rest) = some ([], rest) := by
    rw [singleFrom]
    rintro tail rfl
    exact hrest rfl
  have hclosing : singleFrom (closing (indent + 1) cs ++ '\'' :: rest) =
      some (closing (indent + 1) cs, rest) := by
    unfold closing
    split
    · simpa using singleFrom_spaces hquote (indent + 1)
    · exact hquote
  have houter := hasPair_rawLines indent ' ' cs
  rw [hasPair_cons rfl, show isBreak ' ' = false from rfl, ← List.append_assoc,
    show closing (indent + 1) (' ' :: cs) = closing (indent + 1) cs from
      closing_cons rfl (indent + 1) [] cs] at houter
  have hfold := foldFrom_rawLines (indent + 1) [] [] h (by simp) (by simp)
    (fun hne => absurd rfl hne) (fun hne => absurd rfl hne)
  rw [single?, singleFrom_indentLines hclosing]
  simp only [hasOuterLine, houter, Bool.false_eq_true, if_false, fold]
  exact congrArg (fun cs => some (Value.text (String.ofList cs), rest)) hfold

/-! ## Double quotes -/

theorem digitOf?_hexDigit {n : Nat} (h : n < 16) : digitOf? 16 (hexDigit n) = some n := by
  have hall : ∀ n < 16, digitOf? 16 (hexDigit n) = some n := by decide
  exact hall n h

/-- The number of a character is read digit by digit: in front of its last digits, the others make
up the number without them. -/
theorem doubleFrom_hexDigits {n left : Nat} (hn : n.isValidChar) (cs : List Char) :
    doubleFrom (.digits (left + 1) (n >>> (4 * (left + 1)))) (hexDigits (left + 1) n ++ cs) =
      (doubleFrom .between cs).map (prepend (Char.ofNat n)) := by
  have hdigit : ∀ left, digitOf? 16 (hexDigit (n >>> (4 * left) % 16)) =
      some (n >>> (4 * left) % 16) := fun left => digitOf?_hexDigit (Nat.mod_lt _ (by decide))
  have hvalue : ∀ left, 16 * n >>> (4 * (left + 1)) + n >>> (4 * left) % 16 = n >>> (4 * left) :=
    fun left => by
      rw [Nat.mul_succ, Nat.shiftRight_add, Nat.shiftRight_eq_div_pow (n >>> (4 * left))]
      omega
  induction left with
  | zero =>
    rw [hexDigits, List.cons_append, doubleFrom, hdigit]
    simp only [hvalue]
    rw [if_neg (by decide), Nat.mul_zero, Nat.shiftRight_zero, if_pos hn]
    rfl
  | succ left ih =>
    rw [hexDigits, List.cons_append, doubleFrom, hdigit]
    simp only [hvalue]
    rw [if_pos (by omega)]
    exact ih

/-- A letter that is written for a character stands for it, and for itself needs no escape. -/
theorem escaped?_of_escapeLetter? {n : Nat} {letter : Char} (h : escapeLetter? n = some letter) :
    digitsAfter? letter = none ∧ escaped? letter = some n ∧
      isPrintable letter = true ∧ isBreak letter = false := by
  obtain ⟨front, back, htable, -⟩ := List.lookup_eq_some_iff.mp h
  have hmem : (n, letter) ∈ front ++ (n, letter) :: back :=
    List.mem_append_right front List.mem_cons_self
  rw [← htable] at hmem
  refine (?_ : ∀ pair ∈ _, digitsAfter? pair.2 = none ∧ escaped? pair.2 = some pair.1 ∧
    isPrintable pair.2 = true ∧ isBreak pair.2 = false) (n, letter) hmem
  decide

/-- **A character between double quotes is read back.** -/
theorem doubleFrom_writeDouble (c : Char) (cs : List Char) :
    doubleFrom .between (writeDouble c ++ cs) = (doubleFrom .between cs).map (prepend c) := by
  have hchar : Char.ofNat c.toNat = c := Char.ofNat_toNat c
  have hhex : ∀ left, c.toNat < 16 ^ (left + 1) →
      doubleFrom (.digits (left + 1) 0) (hexDigits (left + 1) c.toNat ++ cs) =
        (doubleFrom .between cs).map (prepend c) := fun left hlt => by
    have hzero : c.toNat >>> (4 * (left + 1)) = 0 := by
      rw [Nat.shiftRight_eq_div_pow, Nat.pow_mul]
      exact Nat.div_eq_of_lt hlt
    have hdigits := @doubleFrom_hexDigits c.toNat left c.valid cs
    rwa [hzero, hchar] at hdigits
  unfold writeDouble
  split
  · next hplain =>
    simp only [Bool.and_eq_true, Bool.not_eq_true', bne_iff_ne, ne_eq] at hplain
    obtain ⟨⟨⟨-, hbreak⟩, hquote⟩, hslash⟩ := hplain
    rw [List.singleton_append, doubleFrom, if_neg hquote, if_neg hslash, if_neg (by simp [hbreak])]
  · dsimp only
    split
    · next letter hletter =>
      obtain ⟨hnone, hsome, -⟩ := escaped?_of_escapeLetter? hletter
      have hescape : doubleFrom .escape (letter :: cs) =
          (doubleFrom .between cs).map (prepend c) := by
        rw [doubleFrom, hnone, hsome]
        simp only [hchar]
      exact hescape
    · split
      · next hlt => exact hhex 1 (Nat.lt_succ_of_le hlt)
      · split
        · next hlt => exact hhex 3 (Nat.lt_succ_of_le hlt)
        · exact hhex 7 c.val.toNat_lt

theorem doubleFrom_flatMap (cs rest : List Char) :
    doubleFrom .between (cs.flatMap writeDouble ++ '"' :: rest) = some (cs, rest) := by
  induction cs with
  | nil => rfl
  | cons c cs ih =>
    rw [List.flatMap_cons, List.append_assoc, doubleFrom_writeDouble, ih]
    rfl

/-! ## Literal blocks -/

theorem indentLines_lineFeed (indent : Nat) (write : Char → List Char) (broken : Bool)
    (cs : List Char) :
    indentLines indent write broken (cs ++ ['\n']) =
      indentLines indent write broken cs ++ ['\n'] := by
  induction cs generalizing broken with
  | nil => rfl
  | cons c cs ih =>
    rw [List.cons_append, indentLines, indentLines]
    split
    · rw [ih, List.cons_append]
    · cases broken <;> simp [ih]

theorem getLast?_rawLines {cs : List Char} (hcs : cs ≠ []) (front : List Char) (indent : Nat)
    (broken : Bool) : (front ++ rawLines indent broken cs).getLast? = cs.getLast? := by
  have hlast : ∀ (broken : Bool) (front : List Char), ∀ d ∈ cs.getLast?,
      (front ++ rawLines indent broken cs).getLast? = some d := by
    induction cs with
    | nil => exact absurd rfl hcs
    | cons c cs ih =>
      intro broken front d hd
      have hcons : ∀ (front : List Char) (broken : Bool),
          (front ++ c :: rawLines indent broken cs).getLast? = some d := fun front broken => by
        cases cs with
        | nil => simpa [rawLines, indentLines] using hd
        | cons e cs =>
          have hnext := ih (List.cons_ne_nil e cs) broken (front ++ [c]) d
            (by rwa [List.getLast?_cons_cons] at hd)
          simpa using hnext
      rw [rawLines, indentLines]
      split
      · exact hcons front true
      · cases broken with
        | false => exact hcons front false
        | true => simpa using hcons (front ++ spaces indent) false
  have hsome := List.getLast?_eq_some_getLast hcs
  rw [hsome, hlast broken front _ hsome]

/-- A block ends like the text, or with a line feed. -/
theorem endLine_rawLines {cs : List Char} (hcs : cs ≠ []) (front : List Char) (indent : Nat)
    (broken : Bool) :
    endLine (front ++ rawLines indent broken cs) =
      front ++ rawLines indent broken (endLine cs) := by
  unfold endLine
  rw [getLast?_rawLines hcs]
  split
  · rfl
  · rw [rawLines, rawLines, indentLines_lineFeed, List.append_assoc]

theorem blockFrom_break {c : Char} (hc : isBreak c = true) (indent due : Nat) (cs : List Char) :
    blockFrom indent due (c :: cs) = prepend c (blockFrom indent indent cs) := by
  cases due <;> rw [blockFrom, if_pos hc]

theorem blockFrom_spaces (indent due k : Nat) (cs : List Char) :
    blockFrom indent (due + k) (spaces k ++ cs) = blockFrom indent due cs := by
  induction k with
  | zero => rfl
  | succ k ih => exact ih

/-- What ends a block of some indent: the end of the text, or a line with less indent. -/
def EndsBlock (indent : Nat) (rest : List Char) : Prop :=
  rest = [] ∨ ∃ k c cs, k < indent ∧ rest = spaces k ++ c :: cs ∧ isSpace c = false ∧
    isBreak c = false

theorem EndsBlock.mono {m n : Nat} {rest : List Char} (h : EndsBlock m rest) (hmn : m ≤ n) :
    EndsBlock n rest := by
  rcases h with rfl | ⟨k, c, cs, hk, hrest⟩
  · exact .inl rfl
  · exact .inr ⟨k, c, cs, Nat.lt_of_lt_of_le hk hmn, hrest⟩

theorem blockFrom_of_endsBlock {indent : Nat} {rest : List Char} (h : EndsBlock indent rest) :
    blockFrom indent indent rest = ([], rest) := by
  rcases h with rfl | ⟨k, c, cs, hk, rfl, hspace, hbreak⟩
  · rw [blockFrom, Nat.sub_self]
    rfl
  · obtain ⟨left, rfl⟩ : ∃ left, indent = left + 1 + k := ⟨indent - k - 1, by omega⟩
    rw [blockFrom_spaces, blockFrom]
    simp only [hbreak, hspace, Bool.false_eq_true, if_false]
    rw [show left + 1 + k - (left + 1) = k by omega]

/-- **The lines of a block are read back** up to what ends it. Where a line begins, its indent is
due. -/
theorem blockFrom_rawLines {indent : Nat} (broken : Bool) {cs rest : List Char}
    (hrest : EndsBlock indent rest) (hnil : cs = [] → broken = true)
    (hlast : ∀ c ∈ cs.getLast?, isBreak c = true) :
    blockFrom indent (if broken then indent else 0) (rawLines indent broken cs ++ rest) =
      (cs, rest) := by
  induction cs generalizing broken with
  | nil =>
    rw [hnil rfl, if_pos rfl]
    exact blockFrom_of_endsBlock hrest
  | cons c cs ih =>
    have hlast' : ∀ d ∈ cs.getLast?, isBreak d = true := fun d hd => hlast d (by
      cases cs with
      | nil => cases hd
      | cons e cs => rwa [List.getLast?_cons_cons])
    rw [rawLines, indentLines]
    by_cases hc : isBreak c = true
    · have hnext := ih true (fun _ => rfl) hlast'
      rw [if_pos rfl] at hnext
      rw [if_pos hc, List.cons_append, blockFrom_break hc, hnext]
      rfl
    · have hne : cs = [] → false = true := by
        rintro rfl
        exact absurd (hlast c rfl) hc
      have hnext := ih false hne hlast'
      rw [if_neg Bool.false_ne_true] at hnext
      have hcons : blockFrom indent 0 (c :: (rawLines indent false cs ++ rest)) =
          (c :: cs, rest) := by
        rw [blockFrom, if_neg hc]
        simp only [hnext, prepend]
      rw [if_neg hc]
      cases broken with
      | false => simpa using hcons
      | true =>
        have hspaces := blockFrom_spaces indent 0 indent (c :: (rawLines indent false cs ++ rest))
        rw [Nat.zero_add, hcons] at hspaces
        simpa using hspaces

/-- How a reader deals with the breaks at the end of a block that is written for a text. -/
def chompOf (cs : List Char) : Chomp :=
  match cs.reverse with
  | [] => .strip
  | last :: others =>
    if isBreak last then (if others.head?.any (!isBreak ·) then .clip else .keep) else .strip

theorem chompOf_apply (cs : List Char) : (chompOf cs).apply (endLine cs) = cs := by
  unfold chompOf endLine
  cases hcs : cs.reverse with
  | nil =>
    rw [List.reverse_eq_nil_iff.mp hcs]
    rfl
  | cons last others =>
    have heq : cs = others.reverse ++ [last] := by
      rw [← List.reverse_reverse cs, hcs, List.reverse_cons]
    have hlast : cs.getLast? = some last := by rw [← List.head?_reverse, hcs]; rfl
    rw [hlast, Option.any_some]
    dsimp only
    by_cases hbreak : isBreak last = true
    · rw [if_pos hbreak, if_pos hbreak]
      split
      · next hother =>
        have hcontent : dropEnd isBreak cs = others.reverse := by
          rw [heq]
          refine dropEnd_append (fun c hc => ?_) (by simpa using hbreak)
          rw [List.getLast?_reverse] at hc
          simpa [Option.mem_def.mp hc] using hother
        have hne : others.reverse.isEmpty = false := by
          cases others with
          | nil => cases hother
          | cons c others => simp
        rw [Chomp.apply, hcontent]
        simp only [hne, Bool.false_eq_true, if_false]
        exact List.take_of_length_le (by rw [heq]; simp)
      · rfl
    · rw [if_neg hbreak, if_neg hbreak]
      refine dropEnd_append (fun c hc => ?_) (by simp [isBreak])
      obtain rfl : last = c := Option.some.inj (hlast.symm.trans hc)
      exact Bool.eq_false_iff.mpr hbreak

/-- The mark of a way to deal with the breaks at the end. -/
def Chomp.marks : Chomp → List Char
  | .strip => ['-']
  | .clip => []
  | .keep => ['+']

/-- Whether a text does not show the indent of its block. -/
def hidesIndent (cs : List Char) : Bool :=
  cs.head?.any fun c => isSpace c || isBreak c

theorem literalMarks_eq (cs : List Char) :
    literalMarks cs = (if hidesIndent cs then ['2'] else []) ++ (chompOf cs).marks := by
  unfold literalMarks chompOf hidesIndent
  cases cs.reverse with
  | nil => rfl
  | cons last others =>
    dsimp only
    cases hlast : isBreak last with
    | false => rfl
    | true =>
      cases others with
      | nil => rfl
      | cons c others => cases hc : isBreak c <;> simp [hc, Chomp.marks]

theorem marks?_literalMarks (cs : List Char) :
    marks? (literalMarks cs) = some (if hidesIndent cs then some 2 else none, chompOf cs) := by
  rw [literalMarks_eq]
  cases hidesIndent cs <;> cases chompOf cs <;> rfl

theorem of_mem_literalMarks (cs : List Char) :
    ∀ c ∈ literalMarks cs, isPrintable c = true ∧ isBreak c = false := by
  have hdigit : isPrintable '2' = true ∧ isBreak '2' = false := by decide
  have hstrip : isPrintable '-' = true ∧ isBreak '-' = false := by decide
  have hkeep : isPrintable '+' = true ∧ isBreak '+' = false := by decide
  rw [literalMarks_eq]
  cases hidesIndent cs <;> cases chompOf cs <;> simp [Chomp.marks, hdigit, hstrip, hkeep]

theorem indentFrom_spaces (column deepest k : Nat) (cs : List Char) :
    indentFrom column deepest (spaces k ++ cs) = indentFrom (column + k) deepest cs := by
  induction k generalizing column with
  | zero => rfl
  | succ k ih =>
    have hstep : indentFrom column deepest (spaces (k + 1) ++ cs) =
        indentFrom (column + 1) deepest (spaces k ++ cs) := rfl
    rw [hstep, ih, Nat.add_right_comm, Nat.add_assoc]

/-- The indent of a block is found out. -/
theorem indentFrom_rawLines {indent : Nat} {cs : List Char} (hcs : cs ≠ [])
    (h : hidesIndent cs = false) (rest : List Char) :
    indentFrom 0 0 (rawLines indent true cs ++ rest) = indent := by
  cases cs with
  | nil => exact absurd rfl hcs
  | cons c cs =>
    obtain ⟨hspace, hbreak⟩ := Bool.or_eq_false_iff.mp h
    rw [rawLines, indentLines, if_neg (by rw [hbreak]; decide), if_pos rfl, List.append_assoc,
      indentFrom_spaces, List.append_assoc, List.singleton_append, indentFrom]
    simp [hspace, hbreak]

theorem hidesIndent_endLine {cs : List Char} (hcs : cs ≠ []) :
    hidesIndent (endLine cs) = hidesIndent cs := by
  unfold endLine
  split
  · rfl
  · rw [hidesIndent, hidesIndent, List.head?_append_of_ne_nil _ hcs]

theorem literalFrom_append {level : Nat} {cs rest : List Char} (hcs : cs ≠ [])
    (hrest : EndsBlock (level + 2) rest) :
    literalFrom level
        (literalMarks cs ++ '\n' :: (rawLines (level + 2) true (endLine cs) ++ rest)) =
      some (.text (String.ofList cs), rest) := by
  have hmarks : ∀ c ∈ literalMarks cs, (!isBreak c) = true := fun c hc => by
    rw [(of_mem_literalMarks cs c hc).2]
    rfl
  have hlast : ∀ c ∈ (endLine cs).getLast?, isBreak c = true := by
    unfold endLine
    split
    · next hbreak => exact fun c hc => by rwa [Option.mem_def.mp hc] at hbreak
    · simp [isBreak]
  have hne : endLine cs ≠ [] := by
    unfold endLine
    split <;> simp [hcs]
  have hblock := blockFrom_rawLines true hrest (fun _ => rfl) hlast
  rw [if_pos rfl] at hblock
  rw [literalFrom, List.takeWhile_append_of_pos hmarks, List.dropWhile_append_of_pos hmarks]
  simp only [List.takeWhile_cons, List.dropWhile_cons, show isBreak '\n' = true from rfl,
    Bool.not_true, Bool.false_eq_true, if_false, List.append_nil, marks?_literalMarks,
    List.drop_one, List.tail_cons]
  have hindent : blockIndent level (if hidesIndent cs then some 2 else none)
      (rawLines (level + 2) true (endLine cs) ++ rest) = level + 2 := by
    cases hhides : hidesIndent cs with
    | true => rfl
    | false =>
      rw [← hidesIndent_endLine hcs] at hhides
      rw [if_neg Bool.false_ne_true, blockIndent, indentFrom_rawLines hne hhides]
      exact Nat.max_eq_left (by omega)
  rw [hindent, hblock]
  simp only [chompOf_apply]

/-! ## Strings of any style -/

section

variable {s : String}

theorem isPlain_of_styleOf (h : styleOf s = .plain) :
    isPlainString s = true ∧ IsPlain s.toList := by
  unfold styleOf at h
  dsimp only at h
  split at h
  · split at h <;> cases h
  · split at h
    · next hplain =>
      rw [Bool.and_eq_true] at hplain
      exact ⟨hplain.1, isPlain_of_allowsPlain hplain.2⟩
    · split at h <;> cases h

theorem allowsSingle_of_styleOf (h : styleOf s = .single) :
    '\n' ∉ s.toList ∧ allowsSingle s.toList = true := by
  unfold styleOf at h
  dsimp only at h
  split at h
  · split at h <;> cases h
  · next hfeed =>
    split at h
    · cases h
    · split at h
      · next hsingle => exact ⟨fun hmem => hfeed (List.contains_iff_mem.mpr hmem), hsingle⟩
      · cases h

theorem allowsLiteral_of_styleOf (h : styleOf s = .literal) :
    '\n' ∈ s.toList ∧ allowsLiteral s.toList = true := by
  unfold styleOf at h
  dsimp only at h
  split at h
  · next hfeed =>
    split at h
    · next hliteral => exact ⟨List.contains_iff_mem.mp hfeed, hliteral⟩
    · cases h
  · split at h
    · cases h
    · split at h <;> cases h

theorem inline?_eq_plain? {c : Char} (h : isIndicator c = false) (cs : List Char) :
    inline? (c :: cs) = plain? (c :: cs) := by
  unfold inline?
  split
  · next heq => cases heq; exact absurd h (by decide)
  · next heq => cases heq; exact absurd h (by decide)
  · next heq => cases heq; exact absurd h (by decide)
  · rfl

/-- **A string in one piece is read back**, whatever its style. -/
theorem inline?_writeText (h : styleOf s ≠ .literal) (indent : Nat) {rest : List Char}
    (hrest : EndsPlain rest) :
    inline? (writeText (indent + 1) s ++ rest) = some (.text s, rest) := by
  unfold writeText
  cases hstyle : styleOf s with
  | plain =>
    obtain ⟨hstring, hplain⟩ := isPlain_of_styleOf hstyle
    cases hcs : s.toList with
    | nil =>
      rw [String.toList_eq_nil_iff.mp hcs] at hstring
      exact absurd hstring (by decide)
    | cons c cs =>
      rw [hcs] at hplain
      have hresolve := resolve_of_isPlainString hstring
      rw [← String.ofList_toList (s := s), hcs] at hresolve ⊢
      exact (inline?_eq_plain? hplain.begins.2.1 _).trans
        ((plain?_append hplain hrest).trans (by rw [hresolve]))
  | single =>
    obtain ⟨hfeed, hsingle⟩ := allowsSingle_of_styleOf hstyle
    have hquote : rest.head? ≠ some '\'' := fun hhead => by
      cases rest with
      | nil => cases hhead
      | cons c cs =>
        obtain rfl : c = '\'' := Option.some.inj hhead
        rcases hrest _ cs rfl with hbreak | ⟨hcolon, -⟩
        · exact absurd hbreak (by decide)
        · exact absurd hcolon (by decide)
    have hsingle := single?_append indent (isFoldable_of_allowsSingle hsingle hfeed) hquote
    rw [String.ofList_toList] at hsingle
    rw [← hsingle]
    simp [inline?, closing]
  | double =>
    have hdouble : double? (s.toList.flatMap writeDouble ++ '"' :: rest) =
        some (.text s, rest) := by
      rw [double?, doubleFrom_flatMap, Option.map_some]
      simp only [String.ofList_toList]
    rw [← hdouble]
    simp [inline?]
  | literal => exact absurd hstyle h

/-- How a string in one piece begins. -/
theorem exists_writeText_eq (h : styleOf s ≠ .literal) (indent : Nat) :
    ∃ c cs, writeText indent s = c :: cs ∧ isBlankOrBreak c = false ∧ c ≠ '|' := by
  unfold writeText
  cases hstyle : styleOf s with
  | plain =>
    obtain ⟨hstring, hplain⟩ := isPlain_of_styleOf hstyle
    cases hcs : s.toList with
    | nil =>
      rw [String.toList_eq_nil_iff.mp hcs] at hstring
      exact absurd hstring (by decide)
    | cons c cs =>
      rw [hcs] at hplain
      refine ⟨c, cs, rfl, hplain.begins.1, ?_⟩
      rintro rfl
      exact absurd hplain.begins.2.1 (by decide)
  | single => exact ⟨'\'', _, rfl, by decide, by decide⟩
  | double => exact ⟨'"', _, rfl, by decide, by decide⟩
  | literal => exact absurd hstyle h

/-- A string in one piece does not end its line. -/
theorem getLast?_writeText (h : styleOf s ≠ .literal) (indent : Nat) :
    (writeText indent s).getLast?.any isBreak = false := by
  unfold writeText
  cases hstyle : styleOf s with
  | plain =>
    have hline := (isPlain_of_styleOf hstyle).2.line
    cases hlast : s.toList.getLast? with
    | none => rfl
    | some c => simpa using List.any_eq_false.mp hline c (List.mem_of_getLast? hlast)
  | single =>
    dsimp only
    rw [List.getLast?_concat]
    rfl
  | double =>
    dsimp only
    rw [List.getLast?_concat]
    rfl
  | literal => exact absurd hstyle h

/-- **A literal block is read back**, as a value in a mapping. -/
theorem literalFrom_writeText {level : Nat} {rest : List Char} (h : styleOf s = .literal)
    (hrest : EndsBlock (level + 2) rest) :
    ∃ cs, endLine (' ' :: writeText (level + 2) s) = ' ' :: '|' :: cs ∧
      literalFrom level (cs ++ rest) = some (.text s, rest) := by
  have hne : s.toList ≠ [] := List.ne_nil_of_mem (allowsLiteral_of_styleOf h).1
  refine ⟨literalMarks s.toList ++ '\n' :: rawLines (level + 2) true (endLine s.toList), ?_, ?_⟩
  · have hend := endLine_rawLines hne (' ' :: '|' :: literalMarks s.toList ++ ['\n']) (level + 2)
      true
    simpa [writeText, h] using hend
  · have hliteral := literalFrom_append hne hrest
    rw [String.ofList_toList] at hliteral
    simpa using hliteral

/-! ## The characters of a written string -/

theorem of_mem_indentLines {P : Char → Prop} {indent : Nat} {write : Char → List Char}
    {broken : Bool} {cs : List Char} (hspace : P ' ') (hcs : ∀ c ∈ cs, P c)
    (hwrite : ∀ c ∈ cs, ∀ d ∈ write c, P d) : ∀ d ∈ indentLines indent write broken cs, P d := by
  induction cs generalizing broken with
  | nil => exact fun _ hd => absurd hd List.not_mem_nil
  | cons c cs ih =>
    have hnext : ∀ broken, ∀ d ∈ indentLines indent write broken cs, P d := fun broken =>
      ih (List.forall_mem_cons.mp hcs).2 (List.forall_mem_cons.mp hwrite).2
    have hspaces : ∀ d ∈ spaces indent, P d := fun d hd => List.eq_of_mem_replicate hd ▸ hspace
    have hc := (List.forall_mem_cons.mp hcs).1
    have hc' := (List.forall_mem_cons.mp hwrite).1
    rw [indentLines]
    split
    · exact List.forall_mem_cons.mpr ⟨hc, hnext true⟩
    · have hrest := List.forall_mem_append.mpr ⟨hc', hnext false⟩
      cases broken with
      | false => exact hrest
      | true => exact List.forall_mem_append.mpr ⟨hspaces, hrest⟩

/-- What is written between double quotes: printable characters and no breaks. -/
theorem of_mem_writeDouble (c : Char) :
    ∀ d ∈ writeDouble c, isPrintable d = true ∧ isBreak d = false := by
  have hslash : isPrintable '\\' = true ∧ isBreak '\\' = false := by decide
  have hhex : ∀ width, ∀ d ∈ hexDigits width c.toNat, isPrintable d = true ∧ isBreak d = false := by
    have hdigit : ∀ n < 16, isPrintable (hexDigit n) = true ∧ isBreak (hexDigit n) = false := by
      decide
    intro width
    induction width with
    | zero => exact fun _ hd => absurd hd List.not_mem_nil
    | succ width ih => exact List.forall_mem_cons.mpr ⟨hdigit _ (Nat.mod_lt _ (by decide)), ih⟩
  have hescape : ∀ letter width, isPrintable letter = true ∧ isBreak letter = false →
      ∀ d ∈ '\\' :: letter :: hexDigits width c.toNat,
        isPrintable d = true ∧ isBreak d = false := fun letter width hletter =>
    List.forall_mem_cons.mpr ⟨hslash, List.forall_mem_cons.mpr ⟨hletter, hhex width⟩⟩
  unfold writeDouble
  split
  · next hplain =>
    simp only [Bool.and_eq_true, Bool.not_eq_true'] at hplain
    exact List.forall_mem_singleton.mpr hplain.1.1
  · dsimp only
    split
    · next letter hletter => exact hescape letter 0 (escaped?_of_escapeLetter? hletter).2.2
    · split
      · exact hescape 'x' 2 (by decide)
      · split
        · exact hescape 'u' 4 (by decide)
        · exact hescape 'U' 8 (by decide)

/-- All characters of a written string have a property if those of the string have it, and
everything that is printable and no break. -/
theorem of_mem_writeText {P : Char → Prop} {indent : Nat}
    (hplain : ∀ c, isPrintable c = true → isBreak c = false → P c)
    (hs : styleOf s ≠ .double → ∀ c ∈ s.toList, P c) (hfeed : styleOf s = .literal → P '\n') :
    ∀ c ∈ writeText indent s, P c := by
  have hspace : P ' ' := hplain ' ' (by decide) (by decide)
  have hquote : P '\'' := hplain '\'' (by decide) (by decide)
  unfold writeText
  cases hstyle : styleOf s with
  | plain => exact hs (by rw [hstyle]; decide)
  | single =>
    have hcs := hs (by rw [hstyle]; decide)
    have hwrite : ∀ c ∈ s.toList, ∀ d ∈ writeSingle c, P d := fun c hc => by
      unfold writeSingle
      split <;> simp [hquote, hcs c hc]
    have hclosing : ∀ c ∈ closing indent s.toList, P c := by
      unfold closing
      split
      · exact fun c hc => List.eq_of_mem_replicate hc ▸ hspace
      · exact fun _ hc => absurd hc List.not_mem_nil
    exact List.forall_mem_append.mpr ⟨List.forall_mem_append.mpr ⟨List.forall_mem_cons.mpr
      ⟨hquote, of_mem_indentLines hspace hcs hwrite⟩, hclosing⟩,
      List.forall_mem_singleton.mpr hquote⟩
  | double =>
    have hmark : P '"' := hplain '"' (by decide) (by decide)
    have hwrite : ∀ c ∈ s.toList.flatMap writeDouble, P c := fun c hc => by
      obtain ⟨d, -, hd⟩ := List.mem_flatMap.mp hc
      exact hplain c (of_mem_writeDouble d c hd).1 (of_mem_writeDouble d c hd).2
    exact List.forall_mem_append.mpr ⟨List.forall_mem_cons.mpr ⟨hmark, hwrite⟩,
      List.forall_mem_singleton.mpr hmark⟩
  | literal =>
    have hcs := hs (by rw [hstyle]; decide)
    have hmarks : ∀ c ∈ '|' :: literalMarks s.toList, P c :=
      List.forall_mem_cons.mpr ⟨hplain '|' (by decide) (by decide), fun c hc =>
        hplain c (of_mem_literalMarks _ c hc).1 (of_mem_literalMarks _ c hc).2⟩
    exact List.forall_mem_append.mpr ⟨hmarks, List.forall_mem_cons.mpr ⟨hfeed hstyle,
      of_mem_indentLines hspace hcs fun c hc => List.forall_mem_singleton.mpr (hcs c hc)⟩⟩

/-- **Everything that is written of a string is printable.** -/
theorem isPrintable_of_mem_writeText {indent : Nat} :
    ∀ c ∈ writeText indent s, isPrintable c = true := by
  refine of_mem_writeText (fun _ hc _ => hc) (fun hstyle => ?_) fun _ => by decide
  cases hcases : styleOf s with
  | plain => exact (isPlain_of_styleOf hcases).2.printable
  | single =>
    have hsingle := (allowsSingle_of_styleOf hcases).2
    rw [allowsSingle, Bool.and_eq_true, Bool.not_eq_true'] at hsingle
    exact isPrintable_of_needsEscapes hsingle.1
  | double => exact absurd hcases hstyle
  | literal =>
    have hliteral := (allowsLiteral_of_styleOf hcases).2
    simp only [allowsLiteral, Bool.and_eq_true, Bool.not_eq_true'] at hliteral
    exact isPrintable_of_needsEscapes hliteral.1.2

end

end Rampart.Yaml
