import Rampart.Proofs.Yaml.Scalar

/-!
# Documents are read back

A document gives back its entries, with the kinds that they have: nothing that stands in a string
ends it early, begins an entry, or makes it something else than a string.

* `meaning`: what a reader has to make of a document. `isProper`: documents with words for numbers
  and truth values, and with keys that stand without quotes, each of them once in its mapping.
* `key?_append`: a key is read back.
* `ReadsBack`: a value is read back, up to a line with less indent. `entriesFrom_writeEntries`:
  entries are, if their values are.
* **`read?_document`**: a proper document is read back.
-/

namespace Rampart.Yaml

/-! ## What a document means -/

mutual

/-- What a part of a document stands for. -/
def meaning : Yaml → Value
  | .text s => .text s
  | .scalar word => resolve word
  | .mapping entries => .mapping (meanings entries)

/-- `meaning` on entries. -/
def meanings : List (String × Yaml) → List (String × Value)
  | [] => []
  | (key, value) :: entries => (key, meaning value) :: meanings entries

end

/-- Words of letters and digits. -/
def isWord (word : String) : Bool :=
  !word.toList.isEmpty && word.toList.all Char.isAlphanum

/-- Keys that stand without quotes. -/
def isPlainKey (key : String) : Bool :=
  key.toList.length ≤ keyLimit && isSimpleKey key && styleOf key = .plain

mutual

/-- Whether numbers and truth values are words, and all mappings have plain keys, each of them
once. -/
def isProper : Yaml → Bool
  | .text _ => true
  | .scalar word => isWord word
  | .mapping entries => areProper entries

/-- `isProper` on entries. -/
def areProper : List (String × Yaml) → Bool
  | [] => true
  | (key, value) :: entries =>
    isPlainKey key && isProper value && !(entries.map (·.1)).contains key && areProper entries

end

theorem map_meanings (entries : List (String × Yaml)) :
    (meanings entries).map (·.1) = entries.map (·.1) := by
  induction entries with
  | nil => rfl
  | cons entry entries ih => rw [meanings, List.map_cons, List.map_cons, ih]

/-- Entries are proper if their keys are plain, their values proper, and all keys different. -/
theorem areProper_of_nodup {entries : List (String × Yaml)}
    (hkeys : ∀ key ∈ entries.map (·.1), isPlainKey key = true)
    (hvalues : ∀ value ∈ entries.map (·.2), isProper value = true)
    (hnodup : (entries.map (·.1)).Nodup) : areProper entries = true := by
  induction entries with
  | nil => rfl
  | cons entry entries ih =>
    obtain ⟨key, value⟩ := entry
    obtain ⟨hkey, hkeys⟩ := List.forall_mem_cons.mp hkeys
    obtain ⟨hvalue, hvalues⟩ := List.forall_mem_cons.mp hvalues
    obtain ⟨hnew, hnodup⟩ := List.nodup_cons.mp hnodup
    have hcontains : (entries.map (·.1)).contains key = false := by
      rwa [Bool.eq_false_iff, Ne, List.contains_iff_mem]
    rw [areProper, hkey, hvalue, hcontains, ih hkeys hvalues hnodup]
    rfl

/-! ## Words -/

theorem ne_of_isAlphanum {c d : Char} (hc : c.isAlphanum = true) (hd : d.isAlphanum = false) :
    c ≠ d := by
  rintro rfl
  rw [hc] at hd
  cases hd

/-- A letter or digit means nothing else in a document. -/
theorem bare_of_isAlphanum {c : Char} (h : c.isAlphanum = true) :
    isPrintable c = true ∧ isBreak c = false ∧ isSpace c = false ∧ isIndicator c = false := by
  have hcode := (Text.isAlphanum_iff c).mp h
  refine ⟨?_, ?_, ?_, ?_⟩
  · have hrange : 0x20 ≤ c.toNat ∧ c.toNat ≤ 0x7E := by omega
    simp [isPrintable, hrange.1, hrange.2]
  · have hfeed := ne_of_isAlphanum h (show '\n'.isAlphanum = false by decide)
    have hreturn := ne_of_isAlphanum h (show '\r'.isAlphanum = false by decide)
    have hseparator : c.toNat ≠ 0x85 ∧ c.toNat ≠ 0x2028 ∧ c.toNat ≠ 0x2029 := by omega
    simp [isBreak, hfeed, hreturn, hseparator]
  · exact decide_eq_false (ne_of_isAlphanum h (by decide))
  · have hall : "#,[]\x7b\x7d&*!|>'\"%@\x60".toList.all (!Char.isAlphanum ·) = true := by decide
    rw [isIndicator, Bool.eq_false_iff, Ne, List.contains_iff_mem]
    exact fun hmem => ne_of_isAlphanum h (by simpa using List.all_eq_true.mp hall c hmem) rfl

theorem hasInnerIndicator_of_isAlphanum {cs : List Char} (h : ∀ c ∈ cs, c.isAlphanum = true)
    (previous : Char) : hasInnerIndicator previous cs = false := by
  induction cs generalizing previous with
  | nil => rfl
  | cons c cs ih =>
    obtain ⟨hc, hcs⟩ := List.forall_mem_cons.mp h
    have hcolon := ne_of_isAlphanum hc (show ':'.isAlphanum = false by decide)
    have hsign := ne_of_isAlphanum hc (show '#'.isAlphanum = false by decide)
    simp [hasInnerIndicator, hcolon, hsign, ih hcs]

theorem isPlain_of_isAlphanum {cs : List Char} (h : ∀ c ∈ cs, c.isAlphanum = true) :
    IsPlain cs where
  printable c hc := (bare_of_isAlphanum (h c hc)).1
  line := List.any_eq_false.mpr fun c hc => by simp [(bare_of_isAlphanum (h c hc)).2.1]
  first c hc := (bare_of_isAlphanum (h c (List.mem_of_mem_head? hc))).2.2.1
  last c hc := (bare_of_isAlphanum (h c (List.mem_of_getLast? hc))).2.2.1
  noIndicator := by
    cases cs with
    | nil => rfl
    | cons c cs =>
      obtain ⟨hc, hcs⟩ := List.forall_mem_cons.mp h
      have hne : ∀ d : Char, d.isAlphanum = false → c ≠ d := fun d hd => ne_of_isAlphanum hc hd
      have hhyphen : ('-' == c) = false := beq_eq_false_iff_ne.mpr (hne '-' (by decide)).symm
      have hstop : ('.' == c) = false := beq_eq_false_iff_ne.mpr (hne '.' (by decide)).symm
      simp [hasIndicator, List.isPrefixOf, hhyphen, hstop, (bare_of_isAlphanum hc).2.2.2,
        hne '?' (by decide), hne ':' (by decide), hne '-' (by decide),
        hasInnerIndicator_of_isAlphanum hcs]

/-! ## Numbers -/

theorem digitOf?_of_digit? {c : Char} {d : Nat} (h : Text.Decimal.digit? c = some d) :
    digitOf? 10 c = some d := by
  unfold Text.Decimal.digit? at h
  split at h
  · next hrange =>
    have hle : c.toNat ≤ 57 := by
      simpa [Char.le_def, UInt32.le_iff_toNat_le] using (Bool.and_eq_true_iff.mp hrange).2
    obtain rfl := Option.some.inj h
    rw [digitOf?, if_pos hrange]
    exact Option.filter_eq_some_iff.mpr ⟨rfl, by
      rw [decide_eq_true_eq]
      change c.toNat - 48 < 10
      omega⟩
  · cases h

/-- Digits make up one number, whichever way they are read. -/
theorem foldl_of_extend? {cs : List Char} {value n : Nat}
    (h : Text.Decimal.extend? value cs = some n) :
    (cs.all fun c => (digitOf? 10 c).isSome) = true ∧
      cs.foldl (fun n c => 10 * n + (digitOf? 10 c).getD 0) value = n := by
  induction cs generalizing value with
  | nil => exact ⟨rfl, Option.some.inj h⟩
  | cons c cs ih =>
    rw [Text.Decimal.extend?] at h
    split at h
    · next d hdigit =>
      have hd := digitOf?_of_digit? hdigit
      obtain ⟨hall, hvalue⟩ := ih h
      rw [List.all_cons, List.foldl_cons, hd]
      exact ⟨hall, hvalue⟩
    · cases h

theorem isWord_toString (n : Nat) : isWord (toString n) = true := by
  rw [isWord, Text.Decimal.toList_toString, Bool.and_eq_true, Bool.not_eq_true',
    List.isEmpty_eq_false_iff]
  refine ⟨Nat.toDigits_ne_nil, List.all_eq_true.mpr fun c hc => ?_⟩
  rw [Char.isAlphanum, Text.Decimal.isDigit_of_mem_toDigits hc, Bool.or_true]

/-- A word that is not made of digits is no number that has been written. -/
theorem toString_ne {n : Nat} {s : String} (h : s.toList.any (!Char.isDigit ·) = true) :
    toString n ≠ s := by
  rintro rfl
  obtain ⟨c, hc, hdigit⟩ := List.any_eq_true.mp h
  rw [Text.Decimal.toList_toString] at hc
  rw [Text.Decimal.isDigit_of_mem_toDigits hc] at hdigit
  cases hdigit

theorem contains_toString (n : Nat) {words : List String}
    (h : words.all (fun word => word.toList.any (!Char.isDigit ·)) = true) :
    words.contains (toString n) = false := by
  rw [Bool.eq_false_iff, Ne, List.contains_iff_mem]
  exact fun hmem => toString_ne (List.all_eq_true.mp h _ hmem) rfl

/-- What digits of a number are not: a sign, a mark of another base, or zeros in front. -/
theorem unsigned_toDigits (n : Nat) :
    ∃ c cs, Nat.toDigits 10 n = c :: cs ∧ c ≠ '-' ∧ c ≠ '+' ∧ based? (c :: cs) = none ∧
      isDigitsOnly (c :: cs) = false := by
  obtain ⟨c, cs, hcs⟩ := List.exists_cons_of_ne_nil (Nat.toDigits_ne_nil (n := n) (b := 10))
  have hdigit : c.isDigit = true :=
    Text.Decimal.isDigit_of_mem_toDigits (n := n) (by rw [hcs]; exact List.mem_cons_self)
  have hne : ∀ d : Char, d.isDigit = false → c ≠ d := by
    rintro d hd rfl
    rw [hdigit] at hd
    cases hd
  have hzero : c = '0' → cs = [] := by
    rintro rfl
    exact Text.Decimal.eq_nil_of_toDigits_eq hcs
  refine ⟨c, cs, hcs, hne '-' (by decide), hne '+' (by decide), ?_, ?_⟩
  · unfold based?
    split
    · next heq => cases heq; cases hzero rfl
    · next heq => cases heq; cases hzero rfl
    · next heq => cases heq; cases hzero rfl
    · rfl
  · have hminus := hne '-' (by decide)
    have hplus := hne '+' (by decide)
    cases cs with
    | nil => simp [isDigitsOnly, hminus, hplus]
    | cons d cs =>
      have hfirst : c ≠ '0' := fun heq => List.cons_ne_nil d cs (hzero heq)
      simp [isDigitsOnly, hminus, hplus, hfirst]

/-- **A number is read back**, up to 128 bits. -/
theorem resolve_toString {n : Nat} (h : n < 2 ^ 128) : resolve (toString n) = .integer n := by
  obtain ⟨c, cs, hcs, hminus, hplus, hbased, hdigits⟩ := unsigned_toDigits n
  have hempty : (toString n).isEmpty = false := by
    rw [Bool.eq_false_iff, Ne, String.isEmpty_iff, ← String.toList_inj,
      Text.Decimal.toList_toString]
    exact Nat.toDigits_ne_nil
  have hnull : isNull (toString n) = false := by
    rw [isNull, hempty, contains_toString n (by decide)]
    rfl
  have hboolean : isBoolean (toString n) = false := contains_toString n (by decide)
  obtain ⟨hall, hvalue⟩ := foldl_of_extend? (Text.Decimal.extend?_toDigits n)
  rw [hcs] at hall hvalue
  have hinteger : isInteger (c :: cs) = true := by
    have hbound : n ≤ 1 <<< 128 - 1 := by
      rw [Nat.one_shiftLeft]
      exact Nat.le_pred_of_lt h
    unfold isInteger
    -- the bound stays closed
    generalize 1 <<< 128 - 1 = bound at hbound ⊢
    simp [hminus, hplus, hbased, hdigits, isNatBelow, hall, hvalue, hbound]
  have hread : integerValue (c :: cs) = n := by
    simp [integerValue, hminus, hplus, hbased, hvalue]
  rw [resolve, if_neg (by rw [hnull]; decide), if_neg (by rw [hboolean]; decide),
    Text.Decimal.toList_toString, hcs, if_pos hinteger, hread]

/-! ## Keys -/

theorem endsPlain_colon {rest : List Char} (h : endsHere rest = true) :
    EndsPlain (':' :: rest) := by
  intro c cs heq
  obtain ⟨rfl, rfl⟩ := List.cons.inj heq
  exact .inr ⟨rfl, h⟩

theorem endsPlain_lineFeed (rest : List Char) : EndsPlain ('\n' :: rest) := by
  intro c cs heq
  obtain ⟨rfl, rfl⟩ := List.cons.inj heq
  exact .inl rfl

section Key

variable {key : String} (h : isPlainKey key = true)
include h

theorem writeText_key (indent : Nat) : writeText indent key = key.toList := by
  simp only [isPlainKey, Bool.and_eq_true, decide_eq_true_eq] at h
  rw [writeText, h.2]

theorem writeKey_key (level : Nat) :
    writeKey level key = spaces level ++ (key.toList ++ [':']) := by
  have hsimple := h
  simp only [isPlainKey, Bool.and_eq_true] at hsimple
  rw [writeKey, if_pos hsimple.1.2, writeText_key h, List.append_assoc]

/-- How a key begins. -/
theorem exists_key_eq : ∃ c cs, key.toList = c :: cs ∧ isSpace c = false ∧ isBreak c = false := by
  have hstyle : styleOf key = .plain := by
    simp only [isPlainKey, Bool.and_eq_true, decide_eq_true_eq] at h
    exact h.2
  obtain ⟨c, cs, hcs, hblank, -⟩ := exists_writeText_eq (by rw [hstyle]; decide) 0
  rw [writeText_key h] at hcs
  simp only [isBlankOrBreak, Bool.or_eq_false_iff] at hblank
  exact ⟨c, cs, hcs, hblank.1.1.1, hblank.2⟩

/-- **A key is read back.** -/
theorem key?_append {rest : List Char} (hrest : endsHere rest = true) :
    key? (key.toList ++ ':' :: rest) = some (key, rest) := by
  have hkey := h
  simp only [isPlainKey, isSimpleKey, Bool.and_eq_true, decide_eq_true_eq,
    Bool.not_eq_true'] at hkey
  obtain ⟨⟨hlength, hline, -⟩, hstyle⟩ := hkey
  have hinline := inline?_writeText (show styleOf key ≠ .literal by rw [hstyle]; decide) 0
    (endsPlain_colon hrest)
  rw [writeText_key h] at hinline
  have htake : (key.toList ++ ':' :: rest).take
      ((key.toList ++ ':' :: rest).length - (rest.length + 1)) = key.toList := by
    rw [List.length_append, List.length_cons, Nat.add_sub_cancel, List.take_left]
  rw [key?, hinline]
  simp only [htake, hrest, hlength, hline, decide_true, Bool.not_false, Bool.and_self, if_true]

end Key

/-! ## Values -/

/-- A value in one piece, to the end of its line. -/
theorem valueFrom_inline (fuel level : Nat) {c : Char} {cs rest : List Char} {value : Value}
    (hblank : isBlankOrBreak c = false) (hmark : c ≠ '|')
    (h : inline? (c :: cs ++ '\n' :: rest) = some (value, '\n' :: rest)) :
    valueFrom (fuel + 1) level (' ' :: (c :: cs ++ '\n' :: rest)) = some (value, rest) := by
  simp only [isBlankOrBreak, Bool.or_eq_false_iff] at hblank
  obtain ⟨⟨⟨hspace, htab⟩, -⟩, hbreak⟩ := hblank
  have hdrop : (' ' :: (c :: cs ++ '\n' :: rest)).dropWhile isWhite = c :: cs ++ '\n' :: rest := by
    simp [isWhite, hspace, htab]
  have hline : nextLine? (' ' :: (c :: cs ++ '\n' :: rest)) = none := by
    rw [nextLine?, hdrop, List.cons_append]
    simp only [hbreak, Bool.false_eq_true, if_false]
  have hend : nextLine? ('\n' :: rest) = some rest := rfl
  rw [valueFrom, hline]
  simp only [hdrop]
  split
  · next heq => exact absurd (List.cons.inj heq).1 hmark
  · rw [h]
    simp [hend]

/-- A value is read back, up to a line with less indent. -/
def ReadsBack (value : Yaml) : Prop :=
  ∀ (level fuel : Nat) (rest : List Char), (writeValue level value).length < fuel →
    EndsBlock (level + 1) rest →
      valueFrom fuel level (writeValue level value ++ rest) = some (meaning value, rest)

theorem readsBack_scalar {word : String} (h : isWord word = true) : ReadsBack (.scalar word) := by
  intro level fuel rest hfuel _
  rw [isWord, Bool.and_eq_true, Bool.not_eq_true', List.isEmpty_eq_false_iff] at h
  have hall := List.all_eq_true.mp h.2
  have hplain := isPlain_of_isAlphanum hall
  obtain ⟨fuel, rfl⟩ : ∃ n, fuel = n + 1 := ⟨fuel - 1, by omega⟩
  obtain ⟨c, cs, hcs⟩ := List.exists_cons_of_ne_nil h.1
  have hc : c.isAlphanum = true := hall c (by rw [hcs]; exact List.mem_cons_self)
  rw [hcs] at hplain
  obtain ⟨hblank, hindicator, -⟩ := hplain.begins
  have hinline : inline? (c :: cs ++ '\n' :: rest) = some (resolve word, '\n' :: rest) := by
    rw [List.cons_append, inline?_eq_plain? hindicator, ← List.cons_append,
      plain?_append hplain (endsPlain_lineFeed rest), ← hcs, String.ofList_toList]
  have hvalue := valueFrom_inline fuel level hblank
    (ne_of_isAlphanum hc (by decide)) hinline
  rw [writeValue, hcs, meaning, ← hvalue]
  simp

theorem readsBack_text (s : String) : ReadsBack (.text s) := by
  intro level fuel rest hfuel hrest
  obtain ⟨fuel, rfl⟩ : ∃ n, fuel = n + 1 := ⟨fuel - 1, by omega⟩
  rw [writeValue, meaning]
  by_cases hstyle : styleOf s = .literal
  · obtain ⟨cs, hwritten, hliteral⟩ := literalFrom_writeText hstyle (hrest.mono (Nat.le_succ _))
    rw [hwritten, ← hliteral]
    rfl
  · obtain ⟨c, cs, hcs, hblank, hmark⟩ := exists_writeText_eq hstyle (level + 2)
    have hinline := inline?_writeText hstyle (level + 1) (endsPlain_lineFeed rest)
    have hlast := getLast?_writeText hstyle (level + 2)
    rw [hcs] at hinline hlast
    rw [← List.getLast?_cons_cons (a := ' ')] at hlast
    have hvalue := valueFrom_inline fuel level hblank hmark hinline
    rw [endLine, hcs, hlast, ← hvalue]
    simp

/-! ## Mappings -/

theorem depth_spaces {c : Char} (hc : isSpace c = false) (level : Nat) (cs : List Char) :
    depth (spaces level ++ c :: cs) = level := by
  have hall : ∀ d ∈ spaces level, isSpace d = true := fun d hd => List.eq_of_mem_replicate hd ▸ rfl
  rw [depth, List.takeWhile_append_of_pos hall, List.takeWhile_cons_of_neg (by simp [hc]),
    List.append_nil, spaces, List.length_replicate]

theorem dropWhile_spaces {c : Char} (hc : isSpace c = false) (level : Nat) (cs : List Char) :
    (spaces level ++ c :: cs).dropWhile isSpace = c :: cs := by
  have hall : ∀ d ∈ spaces level, isSpace d = true := fun d hd => List.eq_of_mem_replicate hd ▸ rfl
  rw [List.dropWhile_append_of_pos hall, List.dropWhile_cons_of_neg (by simp [hc])]

/-- A mapping ends where a block would. -/
theorem entriesFrom_of_endsBlock {fuel level : Nat} {rest : List Char}
    (h : EndsBlock level rest) : entriesFrom (fuel + 1) level rest = some ([], rest) := by
  rcases h with rfl | ⟨k, c, cs, hk, rfl, hspace, -⟩
  · rfl
  · rw [entriesFrom, dropWhile_spaces hspace, depth_spaces hspace]
    simp [hk]

/-- An entry, whose key is not one of those that follow. -/
theorem entriesFrom_cons {fuel level : Nat} {key : String} {value : Value}
    {entries : List (String × Value)} {tail rest end' : List Char} (h : isPlainKey key = true)
    (htail : endsHere tail = true) (hvalue : valueFrom fuel level tail = some (value, rest))
    (hentries : entriesFrom fuel level rest = some (entries, end'))
    (hkey : (entries.map (·.1)).contains key = false) :
    entriesFrom (fuel + 1) level (spaces level ++ (key.toList ++ ':' :: tail)) =
      some ((key, value) :: entries, end') := by
  obtain ⟨c, cs, hcs, hspace, -⟩ := exists_key_eq h
  have hread := key?_append h htail
  rw [hcs, List.cons_append] at hread ⊢
  rw [entriesFrom, dropWhile_spaces hspace, depth_spaces hspace]
  simp only [List.isEmpty_cons, Bool.false_eq_true, if_false, Nat.lt_irrefl, hread, hvalue,
    hentries, Option.bind_eq_bind, Option.bind_some, hkey]

theorem endsHere_writeValue (level : Nat) (value : Yaml) (rest : List Char) :
    endsHere (writeValue level value ++ rest) = true := by
  cases value with
  | text s =>
    rw [writeValue, endLine]
    split <;> rfl
  | scalar word => rfl
  | mapping entries => cases entries <;> rfl

/-- How entries begin. -/
theorem exists_writeEntries_eq {entry : String × Yaml} {entries : List (String × Yaml)}
    (h : areProper (entry :: entries) = true) (level : Nat) :
    ∃ c cs, writeEntries level (entry :: entries) = spaces level ++ c :: cs ∧ isSpace c = false ∧
      isBreak c = false := by
  obtain ⟨key, value⟩ := entry
  simp only [areProper, Bool.and_eq_true] at h
  obtain ⟨c, cs, hcs, hspace, hbreak⟩ := exists_key_eq h.1.1.1
  refine ⟨c, cs ++ ':' :: (writeValue level value ++ writeEntries level entries), ?_, hspace,
    hbreak⟩
  rw [writeEntries, writeKey_key h.1.1.1, hcs]
  simp

theorem endsBlock_writeEntries {entries : List (String × Yaml)} (h : areProper entries = true)
    {level : Nat} {rest : List Char} (hrest : EndsBlock level rest) :
    EndsBlock (level + 1) (writeEntries level entries ++ rest) := by
  cases entries with
  | nil => exact hrest.mono (Nat.le_succ level)
  | cons entry entries =>
    obtain ⟨c, cs, hcs, hspace, hbreak⟩ := exists_writeEntries_eq h level
    refine .inr ⟨level, c, cs ++ rest, Nat.lt_succ_self level, ?_, hspace, hbreak⟩
    rw [hcs, List.append_assoc, List.cons_append]

/-- **Entries are read back** if their values are. -/
theorem entriesFrom_writeEntries {entries : List (String × Yaml)} (h : areProper entries = true)
    (hvalues : ∀ entry ∈ entries, ReadsBack entry.2) (level fuel : Nat) {rest : List Char}
    (hfuel : (writeEntries level entries).length < fuel) (hrest : EndsBlock level rest) :
    entriesFrom fuel level (writeEntries level entries ++ rest) =
      some (meanings entries, rest) := by
  induction entries generalizing fuel with
  | nil =>
    obtain ⟨fuel, rfl⟩ : ∃ n, fuel = n + 1 := ⟨fuel - 1, by omega⟩
    exact entriesFrom_of_endsBlock hrest
  | cons entry entries ih =>
    obtain ⟨key, value⟩ := entry
    obtain ⟨hvalue, hothers⟩ := List.forall_mem_cons.mp hvalues
    have hvalue : ReadsBack value := hvalue
    simp only [areProper, Bool.and_eq_true, Bool.not_eq_true'] at h
    obtain ⟨⟨⟨hkey, -⟩, hnew⟩, hproper⟩ := h
    rw [writeEntries, writeKey_key hkey] at hfuel ⊢
    simp only [List.length_append, List.length_singleton] at hfuel
    obtain ⟨fuel, rfl⟩ : ∃ n, fuel = n + 1 := ⟨fuel - 1, by omega⟩
    have hread := hvalue level fuel (writeEntries level entries ++ rest) (by omega)
      (endsBlock_writeEntries hproper hrest)
    have hnext := ih hproper hothers fuel (by omega)
    rw [← map_meanings] at hnew
    have hcons := entriesFrom_cons hkey (endsHere_writeValue level value _) hread hnext hnew
    rw [meanings, ← hcons]
    simp

theorem readsBack_mapping {entry : String × Yaml} {entries : List (String × Yaml)}
    (h : areProper (entry :: entries) = true)
    (hvalues : ∀ other ∈ entry :: entries, ReadsBack other.2) :
    ReadsBack (.mapping (entry :: entries)) := by
  intro level fuel rest hfuel hrest
  obtain ⟨fuel, rfl⟩ : ∃ n, fuel = n + 1 := ⟨fuel - 1, by omega⟩
  rw [writeValue] at hfuel ⊢
  rw [List.length_cons] at hfuel
  have hentries := entriesFrom_writeEntries h hvalues (level + 2) fuel (by omega)
    (hrest.mono (Nat.le_succ _))
  obtain ⟨c, cs, hcs, hspace, -⟩ := exists_writeEntries_eq h (level + 2)
  have hdepth : depth (writeEntries (level + 2) (entry :: entries) ++ rest) = level + 2 := by
    rw [hcs, List.append_assoc, List.cons_append, depth_spaces hspace]
  have hline : nextLine? ('\n' :: (writeEntries (level + 2) (entry :: entries) ++ rest)) =
      some (writeEntries (level + 2) (entry :: entries) ++ rest) := rfl
  have hmeaning : meanings (entry :: entries) =
      (entry.1, meaning entry.2) :: meanings entries := rfl
  rw [List.cons_append, valueFrom, hline]
  simp only [hdepth]
  rw [if_pos (by omega), hentries, meaning, hmeaning]
  rfl

mutual

/-- **A proper value is read back.** -/
theorem readsBack : ∀ {value : Yaml}, isProper value = true → ReadsBack value
  | .text s, _ => readsBack_text s
  | .scalar _, h => readsBack_scalar h
  | .mapping [], _ => fun level fuel rest hfuel _ => by
    obtain ⟨fuel, rfl⟩ : ∃ n, fuel = n + 1 := ⟨fuel - 1, by omega⟩
    rfl
  | .mapping (_ :: _), h => readsBack_mapping h (readsBack_of_mem h)

/-- All values of proper entries are read back. -/
theorem readsBack_of_mem : ∀ {entries : List (String × Yaml)}, areProper entries = true →
    ∀ entry ∈ entries, ReadsBack entry.2
  | [], _ => fun _ hentry => absurd hentry List.not_mem_nil
  | (_, _) :: _, h => by
    simp only [areProper, Bool.and_eq_true] at h
    exact List.forall_mem_cons.mpr ⟨readsBack h.1.1.2, readsBack_of_mem h.2⟩

end

/-! ## Whole documents -/

theorem lineFeeds_eq_self {cs : List Char} (h : ∀ c ∈ cs, isPrintable c = true) :
    lineFeeds cs = cs := by
  induction cs with
  | nil => rfl
  | cons c cs ih =>
    obtain ⟨hc, hcs⟩ := List.forall_mem_cons.mp h
    have hreturn : c ≠ '\r' := fun heq => absurd hc (by rw [heq]; decide)
    have hnext : c.toNat ≠ 0x85 := fun heq => absurd hc (by simp [isPrintable, heq])
    rw [lineFeeds, ih hcs, if_neg (by simp [hreturn, hnext])]
    exact fun _ heq => absurd heq hreturn

theorem isReadable_of_isPrintable {c : Char} (h : isPrintable c = true) : isReadable c = true := by
  simp only [isPrintable, isReadable, Bool.or_eq_true, Bool.and_eq_true, decide_eq_true_eq] at h ⊢
  tauto

mutual

/-- **Everything that is written of a proper value is printable.** -/
theorem isPrintable_of_mem_writeValue : ∀ {value : Yaml}, isProper value = true →
    ∀ level, ∀ c ∈ writeValue level value, isPrintable c = true
  | .text s, _ => fun level => by
    have htext : ∀ c ∈ ' ' :: writeText (level + 2) s, isPrintable c = true :=
      List.forall_mem_cons.mpr ⟨by decide, isPrintable_of_mem_writeText⟩
    rw [writeValue, endLine]
    split
    · exact htext
    · exact List.forall_mem_append.mpr ⟨htext, List.forall_mem_singleton.mpr (by decide)⟩
  | .scalar word, h => fun level => by
    rw [isProper, isWord, Bool.and_eq_true] at h
    have hword := (isPlain_of_isAlphanum (List.all_eq_true.mp h.2)).printable
    exact List.forall_mem_append.mpr ⟨List.forall_mem_cons.mpr ⟨by decide, hword⟩,
      List.forall_mem_singleton.mpr (by decide)⟩
  | .mapping [], _ => fun level => by
    rw [writeValue]
    exact List.all_eq_true.mp (by decide)
  | .mapping (_ :: _), h => fun level =>
    List.forall_mem_cons.mpr ⟨by decide, isPrintable_of_mem_writeEntries h (level + 2)⟩

/-- Everything that is written of proper entries is printable. -/
theorem isPrintable_of_mem_writeEntries : ∀ {entries : List (String × Yaml)},
    areProper entries = true → ∀ level, ∀ c ∈ writeEntries level entries, isPrintable c = true
  | [], _ => fun level _ hc => absurd hc List.not_mem_nil
  | (key, value) :: entries, h => fun level => by
    simp only [areProper, Bool.and_eq_true] at h
    have hspaces : ∀ c ∈ spaces level, isPrintable c = true := fun c hc =>
      List.eq_of_mem_replicate hc ▸ by decide
    have hkey : ∀ c ∈ key.toList, isPrintable c = true := by
      rw [← writeText_key h.1.1.1 0]
      exact isPrintable_of_mem_writeText
    rw [writeEntries, writeKey_key h.1.1.1]
    exact List.forall_mem_append.mpr ⟨List.forall_mem_append.mpr ⟨List.forall_mem_append.mpr
      ⟨hspaces, List.forall_mem_append.mpr ⟨hkey, List.forall_mem_singleton.mpr (by decide)⟩⟩,
      isPrintable_of_mem_writeValue h.1.1.2 level⟩, isPrintable_of_mem_writeEntries h.2 level⟩

end

/-- **A document is read back.** -/
theorem read?_document {entry : String × Yaml} {entries : List (String × Yaml)}
    (h : areProper (entry :: entries) = true) :
    read? (document (entry :: entries)) = some (.mapping (meanings (entry :: entries))) := by
  have hprintable := isPrintable_of_mem_writeEntries h 0
  have hentries := entriesFrom_writeEntries h (readsBack_of_mem h) 0 _ (Nat.lt_succ_self _)
    (show EndsBlock 0 [] from .inl rfl)
  rw [List.append_nil] at hentries
  rw [read?, document, String.toList_ofList, lineFeeds_eq_self hprintable]
  simp only [List.all_eq_true.mpr fun c hc => isReadable_of_isPrintable (hprintable c hc), if_true,
    hentries]
  rfl

end Rampart.Yaml
