import Rampart.Json.Decode
import Rampart.Proofs.Text.Letter

/-!
# JSON texts are read back

What has been written of a value, on one line or on many, is read as that value.

* `Json.isExact`: values that a text can give back, which are all but those that only come from
  reading one.
* `Json.Layout`: the blanks between the parts of a text; `Layout.value` writes a value with them.
  `toList_compress` and `toList_pretty` say that both ways of writing are layouts.
* `string?_quoted`, `number?_int`: a string and a number are read back.
* `Layout.ReadsBack`: a value is read back in a layout. **`Layout.readsBack`**: exact values are.
* **`read_compress`**, **`read_pretty`**: what this means for whole texts.
-/

namespace Rampart.Json

/-! ## Exact values -/

mutual

/-- Whether a text can give a value back. -/
def isExact : Json → Bool
  | .null | .bool _ | .str _ => true
  | .int n => -2 ^ 63 ≤ n && n < 2 ^ 64
  | .arr items => areExact items
  | .obj members => haveExact members
  | .decimal _ | .illegible | .broken => false

/-- `isExact` on items. -/
def areExact : List Json → Bool
  | [] => true
  | item :: items => isExact item && areExact items

/-- `isExact` on members. -/
def haveExact : List (String × Json) → Bool
  | [] => true
  | (_, value) :: members => isExact value && haveExact members

end

mutual

/-- The text of an exact value does not stop inside it. -/
theorem isCutShort_of_isExact : ∀ {j : Json}, isExact j = true → isCutShort j = false
  | .arr _, h => areCutShort_of_areExact h
  | .obj _, h => haveCutShort_of_haveExact h
  | .null, _ | .bool _, _ | .str _, _ | .int _, _ => rfl

theorem areCutShort_of_areExact : ∀ {items : List Json}, areExact items = true →
    areCutShort items = false
  | [], _ => rfl
  | item :: items, h => by
    rw [areExact, Bool.and_eq_true] at h
    rw [areCutShort, isCutShort_of_isExact h.1, areCutShort_of_areExact h.2, Bool.or_false]

theorem haveCutShort_of_haveExact : ∀ {members : List (String × Json)},
    haveExact members = true → haveCutShort members = false
  | [], _ => rfl
  | (_, value) :: members, h => by
    rw [haveExact, Bool.and_eq_true] at h
    rw [haveCutShort, isCutShort_of_isExact h.1, haveCutShort_of_haveExact h.2, Bool.or_false]

end

/-! ## Layouts -/

/-- The blanks between the parts of a text. -/
structure Layout where
  /-- What stands before an item of a level, and before the end of the level below. -/
  line : Nat → List Char
  /-- What stands between a name's colon and the value. -/
  gap : List Char
  line_isSpace : ∀ level, ∀ c ∈ line level, isSpace c = true
  gap_isSpace : ∀ c ∈ gap, isSpace c = true

/-- Everything on one line. -/
def Layout.oneLine : Layout where
  line _ := []
  gap := []
  line_isSpace _ _ h := absurd h List.not_mem_nil
  gap_isSpace _ h := absurd h List.not_mem_nil

/-- Items and members on lines of their own. -/
def Layout.indented : Layout where
  line level := (newline level).toList
  gap := [' ']
  line_isSpace level c h := by
    rw [newline, String.toList_append] at h
    simp only [String.toList_ofList] at h
    rcases List.mem_append.mp h with h | h
    · rw [List.mem_singleton.mp h]
      rfl
    · rw [List.eq_of_mem_replicate h]
      rfl
  gap_isSpace c h := by
    rw [List.mem_singleton.mp h]
    rfl

namespace Layout

variable (l : Layout)

mutual

/-- The text of a value. -/
def value (level : Nat) : Json → List Char
  | .null | .illegible | .broken => "null".toList
  | .bool b => (if b then "true" else "false").toList
  | .int n => (toString n).toList
  | .decimal text => text.toList
  | .str s => (quoted s).toList
  | .arr [] => ['[', ']']
  | .arr (item :: rest) =>
    '[' :: l.line (level + 1) ++ items (level + 1) (item :: rest) ++ l.line level ++ [']']
  | .obj [] => ['\x7b', '\x7d']
  | .obj (member :: rest) =>
    '\x7b' :: l.line (level + 1) ++ members (level + 1) (member :: rest) ++ l.line level ++ ['\x7d']

/-- Items with commas between them. -/
def items (level : Nat) : List Json → List Char
  | [] => []
  | [item] => value level item
  | item :: rest => value level item ++ ',' :: l.line level ++ items level rest

/-- Members with commas between them. -/
def members (level : Nat) : List (String × Json) → List Char
  | [] => []
  | [(name, j)] => (quoted name).toList ++ ':' :: l.gap ++ value level j
  | (name, j) :: rest =>
    (quoted name).toList ++ ':' :: l.gap ++ value level j ++ ',' :: l.line level ++
      members level rest

end

end Layout

theorem toList_newline (level : Nat) :
    (newline level).toList = Layout.indented.line level := rfl

theorem toList_brackets :
    "[".toList = ['['] ∧ "]".toList = [']'] ∧ "\x7b".toList = ['\x7b'] ∧
      "\x7d".toList = ['\x7d'] ∧ ",".toList = [','] ∧ ":".toList = [':'] ∧
      ": ".toList = [':', ' '] :=
  ⟨rfl, rfl, rfl, rfl, rfl, rfl, rfl⟩

mutual

theorem toList_prettyAt (level : Nat) : ∀ j : Json,
    (prettyAt level j).toList = Layout.indented.value level j
  | .null | .illegible | .broken | .int _ | .decimal _ | .str _ => by
    rw [prettyAt, Layout.value]
  | .bool b => by rw [prettyAt, Layout.value]
  | .arr [] => by
    rw [prettyAt, Layout.value, if_pos List.isEmpty_nil]
    rfl
  | .obj [] => by
    rw [prettyAt, Layout.value, if_pos List.isEmpty_nil]
    rfl
  | .arr (item :: rest) => by
    rw [prettyAt, Layout.value]
    simp only [List.isEmpty_cons, Bool.false_eq_true, if_false, String.toList_append,
      toList_newline, toList_prettyItems (level + 1) (item :: rest), toList_brackets,
      List.nil_append, List.cons_append]
  | .obj (member :: rest) => by
    rw [prettyAt, Layout.value]
    simp only [List.isEmpty_cons, Bool.false_eq_true, if_false, String.toList_append,
      toList_newline, toList_prettyMembers (level + 1) (member :: rest), toList_brackets,
      List.nil_append, List.cons_append]

theorem toList_prettyItems (level : Nat) : ∀ items : List Json,
    (prettyItems level items).toList = Layout.indented.items level items
  | [] => by
    rw [prettyItems, Layout.items]
    rfl
  | [item] => by rw [prettyItems, Layout.items, toList_prettyAt level item]
  | item :: next :: rest => by
    simp only [prettyItems, Layout.items, String.toList_append, toList_newline,
      toList_prettyAt level item, toList_prettyItems level (next :: rest), toList_brackets,
      List.append_assoc, List.nil_append, List.cons_append]

theorem toList_prettyMembers (level : Nat) : ∀ members : List (String × Json),
    (prettyMembers level members).toList = Layout.indented.members level members
  | [] => by
    rw [prettyMembers, Layout.members]
    rfl
  | [(name, j)] => by
    simp only [prettyMembers, Layout.members, String.toList_append, toList_prettyAt level j,
      toList_brackets, List.append_assoc, List.cons_append]
    rfl
  | (name, j) :: next :: rest => by
    simp only [prettyMembers, Layout.members, String.toList_append, toList_newline,
      toList_prettyAt level j, toList_prettyMembers level (next :: rest), toList_brackets,
      List.append_assoc, List.nil_append, List.cons_append]
    rfl

end

mutual

theorem toList_compress (level : Nat) : ∀ j : Json,
    (compress j).toList = Layout.oneLine.value level j
  | .null | .illegible | .broken | .int _ | .decimal _ | .str _ => by
    rw [compress, Layout.value]
  | .bool b => by rw [compress, Layout.value]
  | .arr [] => by
    rw [compress, compressItems, Layout.value]
    rfl
  | .obj [] => by
    rw [compress, compressMembers, Layout.value]
    rfl
  | .arr (item :: rest) => by
    rw [compress, Layout.value]
    simp only [String.toList_append, toList_compressItems (level + 1) (item :: rest),
      toList_brackets, Layout.oneLine, List.cons_append, List.nil_append,
      List.append_nil]
  | .obj (member :: rest) => by
    rw [compress, Layout.value]
    simp only [String.toList_append, toList_compressMembers (level + 1) (member :: rest),
      toList_brackets, Layout.oneLine, List.cons_append, List.nil_append,
      List.append_nil]

theorem toList_compressItems (level : Nat) : ∀ items : List Json,
    (compressItems items).toList = Layout.oneLine.items level items
  | [] => by
    rw [compressItems, Layout.items]
    rfl
  | [item] => by rw [compressItems, Layout.items, toList_compress level item]
  | item :: next :: rest => by
    simp only [compressItems, Layout.items, String.toList_append, toList_compress level item,
      toList_compressItems level (next :: rest), toList_brackets, List.append_assoc,
      List.nil_append, List.cons_append]
    rfl

theorem toList_compressMembers (level : Nat) : ∀ members : List (String × Json),
    (compressMembers members).toList = Layout.oneLine.members level members
  | [] => by
    rw [compressMembers, Layout.members]
    rfl
  | [(name, j)] => by
    simp only [compressMembers, Layout.members, String.toList_append, toList_compress level j,
      toList_brackets, List.append_assoc, List.nil_append, List.cons_append]
    rfl
  | (name, j) :: next :: rest => by
    simp only [compressMembers, Layout.members, String.toList_append, toList_compress level j,
      toList_compressMembers level (next :: rest), toList_brackets, List.append_assoc,
      List.nil_append, List.cons_append]
    rfl

end

/-! ## Strings -/

theorem hexValue?_hexDigit {n : Nat} (h : n < 16) : hexValue? (hexDigit n) = some n := by
  have hall : ∀ n < 16, hexValue? (hexDigit n) = some n := by decide
  exact hall n h

theorem hexUnit?_hexDigits {n : Nat} (h : n < 256) (rest : List Char) :
    hexUnit? ('0' :: '0' :: hexDigit (n / 16) :: hexDigit (n % 16) :: rest) = some (n, rest) := by
  have hzero : hexValue? '0' = some 0 := rfl
  rw [hexUnit?, hzero, hexValue?_hexDigit (by omega), hexValue?_hexDigit (by omega)]
  simp only [Option.some.injEq, Prod.mk.injEq, and_true]
  omega

/-- A character of a string is read back. -/
theorem stringFrom_escapeChar (fuel : Nat) (read : List Char) (c : Char) (rest : List Char) :
    stringFrom (fuel + 1) (some read) none (escapeChar c ++ rest) =
      stringFrom fuel (some (c :: read)) none rest := by
  unfold escapeChar
  by_cases hquote : c = '"'
  · rw [if_pos hquote, hquote]
    rfl
  rw [if_neg hquote]
  by_cases hslash : c = '\\'
  · rw [if_pos hslash, hslash]
    rfl
  rw [if_neg hslash]
  split
  case isTrue h => rw [h]; rfl
  split
  case isTrue h => rw [h]; rfl
  split
  case isTrue h => rw [h]; rfl
  split
  case isTrue h => rw [h]; rfl
  split
  case isTrue h => rw [h]; rfl
  split
  case isTrue hcontrol =>
    have hunit := hexUnit?_hexDigits (by omega : c.toNat < 256) rest
    have hhigh : isHighUnit c.toNat = false := by simp [isHighUnit]; omega
    have hlow : isLowUnit c.toNat = false := by simp [isLowUnit]; omega
    simp only [List.cons_append, List.nil_append, stringFrom, hunit, hhigh, hlow, Char.ofNat_toNat]
    rfl
  case isFalse hplain =>
    rw [List.singleton_append, stringFrom.eq_def]
    simp only [if_neg hquote, if_neg hslash, if_neg hplain]
    rfl

theorem stringFrom_escaped {fuel : Nat} (read cs rest : List Char) (h : cs.length < fuel) :
    stringFrom fuel (some read) none (cs.flatMap escapeChar ++ '"' :: rest) =
      some (some (cs.reverse ++ read), rest) := by
  induction cs generalizing fuel read with
  | nil =>
    obtain ⟨fuel, rfl⟩ := Nat.exists_eq_add_one_of_ne_zero (Nat.ne_zero_of_lt h)
    rfl
  | cons c cs ih =>
    obtain ⟨fuel, rfl⟩ := Nat.exists_eq_add_one_of_ne_zero (Nat.ne_zero_of_lt h)
    rw [List.flatMap_cons, List.append_assoc, stringFrom_escapeChar,
      ih _ (by simpa using h), List.reverse_cons, List.append_assoc]
    rfl

theorem length_le_escaped (cs : List Char) : cs.length ≤ (cs.flatMap escapeChar).length := by
  induction cs with
  | nil => exact Nat.le_refl 0
  | cons c cs ih =>
    have hpos : 0 < (escapeChar c).length := by
      unfold escapeChar
      repeat' split
      all_goals exact Nat.zero_lt_succ _
    rw [List.flatMap_cons, List.length_append, List.length_cons]
    omega

/-- **A string is read back.** -/
theorem string?_quoted (s : String) (rest : List Char) :
    string? (s.toList.flatMap escapeChar ++ '"' :: rest) = some (some s, rest) := by
  have hfuel : s.toList.length < (s.toList.flatMap escapeChar ++ '"' :: rest).length + 1 := by
    rw [List.length_append]
    have hle := length_le_escaped s.toList
    omega
  rw [string?, stringFrom_escaped [] s.toList rest hfuel]
  simp

theorem toList_quoted (s : String) :
    (quoted s).toList = '"' :: (s.toList.flatMap escapeChar ++ ['"']) := by
  rw [quoted]
  simp only [String.toList_ofList, List.cons_append]

/-! ## Numbers -/

/-- What follows a number does not go on with it. -/
def EndsNumber (rest : List Char) : Prop :=
  ∀ c ∈ rest.head?, c.isDigit = false ∧ c ≠ '.' ∧ c ≠ 'e' ∧ c ≠ 'E'

variable {rest : List Char}

theorem wholePart?_toDigits (n : Nat) (h : EndsNumber rest) :
    wholePart? (Nat.toDigits 10 n ++ rest) = some (Nat.toDigits 10 n, rest) := by
  have hdigits : digits (Nat.toDigits 10 n ++ rest) = (Nat.toDigits 10 n, rest) := by
    have hall : ∀ c ∈ Nat.toDigits 10 n, c.isDigit = true :=
      fun c hc => Text.Decimal.isDigit_of_mem_toDigits hc
    rw [digits, List.takeWhile_append_of_pos hall, List.dropWhile_append_of_pos hall]
    cases rest with
    | nil => simp
    | cons c rest => simp [(h c rfl).1]
  obtain ⟨c, cs, hcs⟩ := List.exists_cons_of_ne_nil (Nat.toDigits_ne_nil (n := n) (b := 10))
  rw [wholePart?, hdigits, hcs]
  split
  · next hnil => cases hnil
  · next hzero =>
    obtain ⟨⟨rfl, rfl⟩, -⟩ := by simpa using hzero
    cases Text.Decimal.eq_nil_of_toDigits_eq hcs
  · rfl

theorem fraction?_of_endsNumber (h : EndsNumber rest) : fraction? rest = some ([], rest) := by
  unfold fraction?
  split
  · exact absurd rfl (h _ rfl).2.1
  · rfl

theorem exponent?_of_endsNumber (h : EndsNumber rest) : exponent? rest = some ([], rest) := by
  unfold exponent?
  split
  · next c cs =>
    obtain ⟨-, -, hlower, hupper⟩ := h c rfl
    simp [hlower, hupper]
  · rfl

theorem toList_toString_negSucc (n : Nat) :
    (toString (Int.negSucc n)).toList = '-' :: Nat.toDigits 10 (n + 1) := by
  have h : toString (Int.negSucc n) = "-" ++ toString (n + 1) := rfl
  rw [h, String.toList_append, Text.Decimal.toList_toString]
  rfl

/-- **A number is read back.** -/
theorem number?_int {n : Int} (hlow : -2 ^ 63 ≤ n) (hhigh : n < 2 ^ 64) (h : EndsNumber rest) :
    number? ((toString n).toList ++ rest) = some (.int n, rest) := by
  cases n with
  | ofNat n =>
    have hinteger : integer? false (Nat.toDigits 10 n) = some (n : Int) := by
      have hsize : n < UInt64.size := Int.ofNat_lt.mp hhigh
      rw [integer?, Text.Decimal.nat?_toDigits]
      simp only [Bool.false_eq_true, if_false, if_pos hsize]
    have hdigits : (toString (Int.ofNat n)).toList = Nat.toDigits 10 n :=
      Text.Decimal.toList_toString n
    have hsign : ∀ tail, Nat.toDigits 10 n ++ rest = '-' :: tail → False := by
      obtain ⟨c, cs, hcs⟩ := List.exists_cons_of_ne_nil (Nat.toDigits_ne_nil (n := n) (b := 10))
      have hdigit : c.isDigit = true :=
        Text.Decimal.isDigit_of_mem_toDigits (hcs ▸ List.mem_cons_self)
      rintro tail heq
      rw [hcs, List.cons_append] at heq
      rw [(List.cons.inj heq).1] at hdigit
      cases hdigit
    rw [hdigits, number?]
    · simp only [wholePart?_toDigits n h, fraction?_of_endsNumber h, exponent?_of_endsNumber h,
        hinteger]
      rfl
    · exact hsign
  | negSucc n =>
    have hinteger : integer? true (Nat.toDigits 10 (n + 1)) = some (Int.negSucc n) := by
      have hsize : ¬n + 1 > 1 <<< 63 := by
        have hshift : 1 <<< 63 = 2 ^ 63 := rfl
        omega
      rw [integer?, Text.Decimal.nat?_toDigits]
      simp only [if_true, Nat.add_one_ne_zero, hsize, decide_false, Bool.or_false]
      rfl
    rw [toList_toString_negSucc, List.cons_append, number?.eq_def]
    simp only [wholePart?_toDigits (n + 1) h, fraction?_of_endsNumber h,
      exponent?_of_endsNumber h, hinteger]
    rfl

/-! ## Values -/

theorem skipSpace_append {blanks : List Char} (h : ∀ c ∈ blanks, isSpace c = true)
    (cs : List Char) : skipSpace (blanks ++ cs) = skipSpace cs :=
  List.dropWhile_append_of_pos h

theorem skipSpace_cons {c : Char} (h : isSpace c = false) (cs : List Char) :
    skipSpace (c :: cs) = c :: cs :=
  List.dropWhile_cons_of_neg (by rw [h]; exact Bool.false_ne_true)

theorem valueFrom_append {blanks : List Char} (h : ∀ c ∈ blanks, isSpace c = true) (fuel : Nat)
    (cs : List Char) : valueFrom fuel (blanks ++ cs) = valueFrom fuel cs := by
  cases fuel with
  | zero => rfl
  | succ fuel => simp only [valueFrom.eq_def, skipSpace_append h]

theorem itemsFrom_append {blanks : List Char} (h : ∀ c ∈ blanks, isSpace c = true) (fuel : Nat)
    (cs : List Char) : itemsFrom fuel (blanks ++ cs) = itemsFrom fuel cs := by
  cases fuel with
  | zero => rfl
  | succ fuel => rw [itemsFrom, itemsFrom, valueFrom_append h]

theorem membersFrom_append {blanks : List Char} (h : ∀ c ∈ blanks, isSpace c = true)
    (fuel : Nat) (cs : List Char) : membersFrom fuel (blanks ++ cs) = membersFrom fuel cs := by
  cases fuel with
  | zero => rfl
  | succ fuel => rw [membersFrom, membersFrom, skipSpace_append h]

theorem valueFrom_string (fuel : Nat) (s : String) (rest : List Char) :
    valueFrom (fuel + 1) ((quoted s).toList ++ rest) = (.str s, some rest) := by
  rw [toList_quoted, List.cons_append, List.append_assoc, List.singleton_append,
    valueFrom.eq_def]
  simp only [skipSpace_cons (show isSpace '"' = false from rfl), string?_quoted]

/-- A number begins with a digit or a minus sign. -/
def BeginsNumber (c : Char) : Prop :=
  c.isDigit = true ∨ c = '-'

theorem BeginsNumber.ne {c d : Char} (hc : BeginsNumber c) (hd : d.isDigit = false ∧ d ≠ '-') :
    c ≠ d := by
  rintro rfl
  rcases hc with hdigit | hminus
  · exact Bool.false_ne_true (hd.1.symm.trans hdigit)
  · exact hd.2 hminus

theorem BeginsNumber.isSpace {c : Char} (hc : BeginsNumber c) : isSpace c = false := by
  simp only [Json.isSpace, Bool.or_eq_false_iff, decide_eq_false_iff_not]
  exact ⟨⟨⟨hc.ne (by decide), hc.ne (by decide)⟩, hc.ne (by decide)⟩, hc.ne (by decide)⟩

theorem valueFrom_number {c : Char} (hc : BeginsNumber c) {cs rest : List Char} {j : Json}
    (h : number? (c :: cs) = some (j, rest)) (fuel : Nat) :
    valueFrom (fuel + 1) (c :: cs) = (j, some rest) := by
  rw [valueFrom]
  simp only [skipSpace_cons hc.isSpace]
  split
  case h_8 => rw [h]
  case h_1 heq => cases heq
  all_goals
    rename_i heq
    exact absurd (List.cons.inj heq).1 (hc.ne (by decide))

theorem exists_toString_eq (n : Int) :
    ∃ c cs, (toString n).toList = c :: cs ∧ BeginsNumber c := by
  cases n with
  | ofNat n =>
    obtain ⟨c, cs, hcs⟩ := List.exists_cons_of_ne_nil (Nat.toDigits_ne_nil (n := n) (b := 10))
    exact ⟨c, cs, (Text.Decimal.toList_toString n).trans hcs,
      .inl (Text.Decimal.isDigit_of_mem_toDigits (hcs ▸ List.mem_cons_self))⟩
  | negSucc n => exact ⟨'-', _, toList_toString_negSucc n, .inr rfl⟩

theorem endsNumber_cons {c : Char} (h : c = ',' ∨ c = ']' ∨ c = '\x7d' ∨ isSpace c = true)
    (cs : List Char) : EndsNumber (c :: cs) := by
  intro d hd
  obtain rfl : c = d := Option.some.inj hd
  simp only [isSpace, Bool.or_eq_true, decide_eq_true_eq] at h
  rcases h with rfl | rfl | rfl | ((rfl | rfl) | rfl) | rfl <;> decide

theorem endsNumber_append {blanks : List Char} (h : ∀ c ∈ blanks, isSpace c = true)
    {cs : List Char} (hcs : EndsNumber cs) : EndsNumber (blanks ++ cs) := by
  cases blanks with
  | nil => exact hcs
  | cons c blanks => exact endsNumber_cons (.inr (.inr (.inr (h c List.mem_cons_self)))) _

theorem valueFrom_bracket {c : Char} {text cs : List Char} (h : skipSpace text = c :: cs)
    (hc : c ≠ ']') (fuel : Nat) :
    valueFrom (fuel + 1) ('[' :: text) =
      (.arr (itemsFrom fuel text).1, (itemsFrom fuel text).2) := by
  rw [valueFrom]
  simp only [skipSpace_cons (show isSpace '[' = false from rfl), h]
  split
  · next heq => exact absurd (List.cons.inj heq).1 hc
  · rfl

theorem valueFrom_brace {c : Char} {text cs : List Char} (h : skipSpace text = c :: cs)
    (hc : c ≠ '\x7d') (fuel : Nat) :
    valueFrom (fuel + 1) ('\x7b' :: text) =
      (.obj (membersFrom fuel text).1, (membersFrom fuel text).2) := by
  rw [valueFrom]
  simp only [skipSpace_cons (show isSpace '\x7b' = false from rfl), h]
  split
  · next heq => exact absurd (List.cons.inj heq).1 hc
  · rfl

theorem itemsFrom_close {item : Json} {fuel : Nat} {text blanks rest : List Char}
    (h : valueFrom fuel text = (item, some (blanks ++ ']' :: rest)))
    (hblanks : ∀ c ∈ blanks, isSpace c = true) :
    itemsFrom (fuel + 1) text = ([item], some rest) := by
  rw [itemsFrom, h]
  simp only [skipSpace_append hblanks, skipSpace_cons (show isSpace ']' = false from rfl)]

theorem itemsFrom_comma {item : Json} {items : List Json} {fuel : Nat}
    {text next rest : List Char} (h : valueFrom fuel text = (item, some (',' :: next)))
    (hnext : itemsFrom fuel next = (items, some rest)) :
    itemsFrom (fuel + 1) text = (item :: items, some rest) := by
  rw [itemsFrom, h]
  simp only [skipSpace_cons (show isSpace ',' = false from rfl), hnext]

theorem membersFrom_close {name : String} {j : Json} {fuel : Nat} {text blanks rest : List Char}
    (h : valueFrom fuel text = (j, some (blanks ++ '\x7d' :: rest)))
    (hblanks : ∀ c ∈ blanks, isSpace c = true) :
    membersFrom (fuel + 1) ((quoted name).toList ++ ':' :: text) = ([(name, j)], some rest) := by
  rw [toList_quoted, List.cons_append, List.append_assoc, List.singleton_append, membersFrom]
  simp only [skipSpace_cons (show isSpace '"' = false from rfl), string?_quoted,
    skipSpace_cons (show isSpace ':' = false from rfl), h, skipSpace_append hblanks,
    skipSpace_cons (show isSpace '\x7d' = false from rfl)]

theorem membersFrom_comma {name : String} {j : Json} {members : List (String × Json)}
    {fuel : Nat} {text next rest : List Char}
    (h : valueFrom fuel text = (j, some (',' :: next)))
    (hnext : membersFrom fuel next = (members, some rest)) :
    membersFrom (fuel + 1) ((quoted name).toList ++ ':' :: text) =
      ((name, j) :: members, some rest) := by
  rw [toList_quoted, List.cons_append, List.append_assoc, List.singleton_append, membersFrom]
  simp only [skipSpace_cons (show isSpace '"' = false from rfl), string?_quoted,
    skipSpace_cons (show isSpace ':' = false from rfl), h,
    skipSpace_cons (show isSpace ',' = false from rfl), hnext]

namespace Layout

variable (l : Layout)

theorem items_cons_cons (level : Nat) (item other : Json) (items : List Json) :
    l.items level (item :: other :: items) =
      l.value level item ++ ',' :: (l.line level ++ l.items level (other :: items)) := by
  rw [Layout.items, List.append_assoc, List.cons_append]
  exact List.cons_ne_nil other items

theorem members_cons_cons (level : Nat) (name : String) (j : Json) (other : String × Json)
    (members : List (String × Json)) :
    l.members level ((name, j) :: other :: members) =
      (quoted name).toList ++ ':' :: (l.gap ++ (l.value level j ++
        ',' :: (l.line level ++ l.members level (other :: members)))) := by
  rw [Layout.members]
  · simp only [List.append_assoc, List.cons_append]
  · exact List.cons_ne_nil other members

/-- A text begins neither with a blank nor with the end of a list. -/
theorem exists_value_eq {j : Json} (h : isExact j = true) (level : Nat) :
    ∃ c cs, l.value level j = c :: cs ∧ isSpace c = false ∧ c ≠ ']' := by
  cases j with
  | null => exact ⟨'n', _, rfl, by decide, by decide⟩
  | bool b =>
    cases b
    · exact ⟨'f', _, rfl, by decide, by decide⟩
    · exact ⟨'t', _, rfl, by decide, by decide⟩
  | int n =>
    obtain ⟨c, cs, hcs, hc⟩ := exists_toString_eq n
    exact ⟨c, cs, by rw [value, hcs], hc.isSpace, hc.ne (by decide)⟩
  | str s => exact ⟨'"', _, by rw [value, toList_quoted], by decide, by decide⟩
  | arr items =>
    cases items <;> rw [value] <;> exact ⟨'[', _, rfl, by decide, by decide⟩
  | obj members =>
    cases members <;> rw [value] <;> exact ⟨'\x7b', _, rfl, by decide, by decide⟩
  | decimal | illegible | broken => cases h

theorem exists_items_eq {item : Json} {items : List Json} (h : areExact (item :: items) = true)
    (level : Nat) :
    ∃ c cs, l.items level (item :: items) = c :: cs ∧ isSpace c = false ∧ c ≠ ']' := by
  rw [areExact, Bool.and_eq_true] at h
  obtain ⟨c, cs, hcs, hspace, hend⟩ := l.exists_value_eq h.1 level
  cases items with
  | nil => exact ⟨c, cs, by rw [Layout.items, hcs], hspace, hend⟩
  | cons other items =>
    rw [l.items_cons_cons, hcs]
    exact ⟨c, _, rfl, hspace, hend⟩

theorem exists_members_eq (member : String × Json) (members : List (String × Json))
    (level : Nat) : ∃ cs, l.members level (member :: members) = '"' :: cs := by
  obtain ⟨name, j⟩ := member
  cases members with
  | nil =>
    rw [Layout.members, toList_quoted]
    exact ⟨_, rfl⟩
  | cons other members =>
    rw [l.members_cons_cons, toList_quoted]
    exact ⟨_, rfl⟩

theorem length_value_pos {j : Json} (h : isExact j = true) (level : Nat) :
    0 < (l.value level j).length := by
  obtain ⟨c, cs, hcs, -⟩ := l.exists_value_eq h level
  rw [hcs]
  exact Nat.zero_lt_succ _

/-- A value is read back, whatever follows it that does not go on with a number. -/
def ReadsBack (j : Json) : Prop :=
  ∀ (level fuel : Nat) (rest : List Char), (l.value level j).length ≤ fuel + 1 →
    EndsNumber rest → valueFrom (fuel + 1) (l.value level j ++ rest) = (j, some rest)

variable {l}

/-- Items are read back if each of them is. -/
theorem itemsFrom_items {item : Json} {items : List Json}
    (hexact : areExact (item :: items) = true) (h : ∀ j ∈ item :: items, l.ReadsBack j)
    (level next fuel : Nat) (rest : List Char)
    (hfuel : (l.items level (item :: items)).length ≤ fuel) :
    itemsFrom (fuel + 1) (l.items level (item :: items) ++ (l.line next ++ ']' :: rest)) =
      (item :: items, some rest) := by
  induction items generalizing item fuel with
  | nil =>
    rw [areExact, Bool.and_eq_true] at hexact
    have hpos := l.length_value_pos hexact.1 level
    rw [Layout.items] at hfuel ⊢
    obtain ⟨fuel, rfl⟩ : ∃ n, fuel = n + 1 := ⟨fuel - 1, by omega⟩
    have hrest : EndsNumber (l.line next ++ ']' :: rest) :=
      endsNumber_append (l.line_isSpace next) (endsNumber_cons (.inr (.inl rfl)) rest)
    exact itemsFrom_close (h item List.mem_cons_self level fuel _ hfuel hrest)
      (l.line_isSpace next)
  | cons other items ih =>
    rw [areExact, Bool.and_eq_true] at hexact
    have hpos := l.length_value_pos hexact.1 level
    rw [l.items_cons_cons] at hfuel ⊢
    rw [List.length_append, List.length_cons, List.length_append] at hfuel
    obtain ⟨fuel, rfl⟩ : ∃ n, fuel = n + 1 := ⟨fuel - 1, by omega⟩
    have hitems := ih hexact.2 (List.forall_mem_cons.mp h).2 fuel (by omega)
    rw [← itemsFrom_append (l.line_isSpace level)] at hitems
    simp only [List.append_assoc, List.cons_append]
    exact itemsFrom_comma (h item List.mem_cons_self level fuel _ (by omega)
      (endsNumber_cons (.inl rfl) _)) hitems

/-- Members are read back if the value of each is. -/
theorem membersFrom_members {member : String × Json} {members : List (String × Json)}
    (hexact : haveExact (member :: members) = true)
    (h : ∀ entry ∈ member :: members, l.ReadsBack entry.2) (level next fuel : Nat)
    (rest : List Char) (hfuel : (l.members level (member :: members)).length ≤ fuel) :
    membersFrom (fuel + 1)
        (l.members level (member :: members) ++ (l.line next ++ '\x7d' :: rest)) =
      (member :: members, some rest) := by
  induction members generalizing member fuel with
  | nil =>
    obtain ⟨name, j⟩ := member
    rw [haveExact, Bool.and_eq_true] at hexact
    have hpos := l.length_value_pos hexact.1 level
    rw [Layout.members] at hfuel ⊢
    rw [List.length_append, List.length_append, List.length_cons] at hfuel
    obtain ⟨fuel, rfl⟩ : ∃ n, fuel = n + 1 := ⟨fuel - 1, by omega⟩
    have hrest : EndsNumber (l.line next ++ '\x7d' :: rest) :=
      endsNumber_append (l.line_isSpace next) (endsNumber_cons (.inr (.inr (.inl rfl))) rest)
    have hvalue := h _ List.mem_cons_self level fuel _ (by dsimp only; omega) hrest
    rw [← valueFrom_append l.gap_isSpace] at hvalue
    simp only [List.append_assoc, List.cons_append]
    exact membersFrom_close hvalue (l.line_isSpace next)
  | cons other members ih =>
    obtain ⟨name, j⟩ := member
    rw [haveExact, Bool.and_eq_true] at hexact
    have hpos := l.length_value_pos hexact.1 level
    rw [l.members_cons_cons] at hfuel ⊢
    rw [List.length_append, List.length_cons, List.length_append, List.length_append,
      List.length_cons, List.length_append] at hfuel
    obtain ⟨fuel, rfl⟩ : ∃ n, fuel = n + 1 := ⟨fuel - 1, by omega⟩
    have hmembers := ih hexact.2 (List.forall_mem_cons.mp h).2 fuel (by omega)
    rw [← membersFrom_append (l.line_isSpace level)] at hmembers
    have hvalue := h _ List.mem_cons_self level fuel
      (',' :: (l.line level ++ (l.members level (other :: members) ++
        (l.line next ++ '\x7d' :: rest)))) (by dsimp only; omega) (endsNumber_cons (.inl rfl) _)
    rw [← valueFrom_append l.gap_isSpace] at hvalue
    simp only [List.append_assoc, List.cons_append]
    exact membersFrom_comma hvalue hmembers

theorem readsBack_int {n : Int} (h : isExact (.int n) = true) : l.ReadsBack (.int n) := by
  intro level fuel rest _ hrest
  rw [isExact, Bool.and_eq_true, decide_eq_true_eq, decide_eq_true_eq] at h
  obtain ⟨c, cs, hcs, hc⟩ := exists_toString_eq n
  have hnumber := number?_int h.1 h.2 hrest
  rw [hcs, List.cons_append] at hnumber
  rw [value, hcs, List.cons_append, valueFrom_number hc hnumber]

theorem readsBack_arr {item : Json} {items : List Json}
    (hexact : areExact (item :: items) = true) (h : ∀ j ∈ item :: items, l.ReadsBack j) :
    l.ReadsBack (.arr (item :: items)) := by
  intro level fuel rest hfuel _
  obtain ⟨c, cs, hcs, hspace, hend⟩ := l.exists_items_eq hexact (level + 1)
  have hhead : skipSpace (l.line (level + 1) ++ (l.items (level + 1) (item :: items) ++
      (l.line level ++ ']' :: rest))) = c :: (cs ++ (l.line level ++ ']' :: rest)) := by
    rw [skipSpace_append (l.line_isSpace _), hcs, List.cons_append, skipSpace_cons hspace]
  rw [value, List.length_append, List.length_append, List.length_append, List.length_cons,
    List.length_singleton] at hfuel
  obtain ⟨fuel, rfl⟩ : ∃ n, fuel = n + 1 := ⟨fuel - 1, by omega⟩
  have hitems := itemsFrom_items hexact h (level + 1) level fuel rest (by omega)
  rw [value]
  simp only [List.append_assoc, List.cons_append, List.nil_append]
  rw [valueFrom_bracket hhead hend, itemsFrom_append (l.line_isSpace _), hitems]

theorem readsBack_obj {member : String × Json} {members : List (String × Json)}
    (hexact : haveExact (member :: members) = true)
    (h : ∀ entry ∈ member :: members, l.ReadsBack entry.2) :
    l.ReadsBack (.obj (member :: members)) := by
  intro level fuel rest hfuel _
  obtain ⟨cs, hcs⟩ := l.exists_members_eq member members (level + 1)
  have hhead : skipSpace (l.line (level + 1) ++ (l.members (level + 1) (member :: members) ++
      (l.line level ++ '\x7d' :: rest))) = '"' :: (cs ++ (l.line level ++ '\x7d' :: rest)) := by
    rw [skipSpace_append (l.line_isSpace _), hcs, List.cons_append,
      skipSpace_cons (show isSpace '"' = false from rfl)]
  rw [value, List.length_append, List.length_append, List.length_append, List.length_cons,
    List.length_singleton] at hfuel
  obtain ⟨fuel, rfl⟩ : ∃ n, fuel = n + 1 := ⟨fuel - 1, by omega⟩
  have hmembers := membersFrom_members hexact h (level + 1) level fuel rest (by omega)
  rw [value]
  simp only [List.append_assoc, List.cons_append, List.nil_append]
  rw [valueFrom_brace hhead (by decide), membersFrom_append (l.line_isSpace _), hmembers]

variable (l)

mutual

/-- **Exact values are read back.** -/
theorem readsBack : ∀ {j : Json}, isExact j = true → l.ReadsBack j
  | .null, _ => fun level fuel rest _ _ => by rw [value]; rfl
  | .bool true, _ => fun level fuel rest _ _ => by rw [value]; rfl
  | .bool false, _ => fun level fuel rest _ _ => by rw [value]; rfl
  | .int _, h => readsBack_int h
  | .str s, _ => fun level fuel rest _ _ => by rw [value, valueFrom_string]
  | .arr [], _ => fun level fuel rest _ _ => by rw [value]; rfl
  | .arr (_ :: _), h => readsBack_arr h (readsBack_of_mem_items h)
  | .obj [], _ => fun level fuel rest _ _ => by rw [value]; rfl
  | .obj (_ :: _), h => readsBack_obj h (readsBack_of_mem_members h)

theorem readsBack_of_mem_items : ∀ {items : List Json}, areExact items = true →
    ∀ j ∈ items, l.ReadsBack j
  | [], _ => fun _ hj => absurd hj List.not_mem_nil
  | _ :: _, h => by
    rw [areExact, Bool.and_eq_true] at h
    exact List.forall_mem_cons.mpr ⟨readsBack h.1, readsBack_of_mem_items h.2⟩

theorem readsBack_of_mem_members : ∀ {members : List (String × Json)},
    haveExact members = true → ∀ entry ∈ members, l.ReadsBack entry.2
  | [], _ => fun _ hj => absurd hj List.not_mem_nil
  | (_, _) :: _, h => by
    rw [haveExact, Bool.and_eq_true] at h
    exact List.forall_mem_cons.mpr ⟨readsBack h.1, readsBack_of_mem_members h.2⟩

end

end Layout

/-! ## Whole texts -/

theorem read_of_toList {text : String} {j : Json} (l : Layout) (h : isExact j = true)
    (htext : text.toList = l.value 0 j) : read text = (j, some []) := by
  have hvalue := l.readsBack h 0 (2 * text.toList.length + 1) [] (by rw [htext]; omega)
    (fun _ hc => absurd hc (by simp))
  rwa [List.append_nil, ← htext] at hvalue

/-- **A text on one line is read back.** -/
theorem read_compress {j : Json} (h : isExact j = true) : read j.compress = (j, some []) :=
  read_of_toList .oneLine h (toList_compress 0 j)

/-- **A text on many lines is read back.** -/
theorem read_pretty {j : Json} (h : isExact j = true) : read j.pretty = (j, some []) :=
  read_of_toList .indented h (toList_prettyAt 0 j)

theorem decodeText_of_read {α : Type} (decode : Decoder α) {text : String} {j : Json}
    (h : read text = (j, some [])) : decodeText decode text = decode j := by
  rw [decodeText, h]
  dsimp only
  cases decode j <;> rfl

/-- A text says what its value is. -/
theorem compress_injective {j k : Json} (hj : isExact j = true) (hk : isExact k = true)
    (h : j.compress = k.compress) : j = k := by
  have hread := read_compress hj
  rw [h, read_compress hk] at hread
  exact (Prod.mk.inj hread).1.symm

end Rampart.Json
