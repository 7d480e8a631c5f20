import Rampart.Proofs.Filter.Grammar

/-!
# Rendered filters read back

The text of a tree stands for that tree, if its accessors are words (`Spelled`) and its parentheses
are where the grammar needs them (`Derives l e.tokens e`).

* `unquote?_quoteChars`: a quoted literal is one literal, whatever its value is. No character of the
  value ends it.
* **`scans_render`**: rendering writes the tokens of the tree.
* **`reads_render`**: so the text stands for the tree.
-/

namespace Rampart.Filter

/-! ## Literals -/

theorem unquoteBody?_escapeChar (c : Char) (cs : List Char) :
    unquoteBody? (escapeChar c ++ cs) = (unquoteBody? cs).map (c :: ·) := by
  unfold escapeChar
  by_cases hb : c = '\\'
  · subst hb; rfl
  by_cases hq : c = '\''
  · subst hq; rfl
  by_cases hn : c = '\n'
  · subst hn; rfl
  by_cases hr : c = '\r'
  · subst hr; rfl
  simp [hb, hq, hn, hr, unquoteBody?]

theorem unquoteBody?_flatMap (cs : List Char) :
    unquoteBody? (cs.flatMap escapeChar) = some cs := by
  induction cs with
  | nil => rfl
  | cons c cs ih => rw [List.flatMap_cons, unquoteBody?_escapeChar, ih, Option.map_some]

theorem unquote?_quoteChars (cs : List Char) : unquote? (quoteChars cs) = some cs := by
  simp [quoteChars, unquote?, unquoteBody?_flatMap]

/-! ## Reading characters -/

/-- Reading characters in a mode ends these tokens and leaves that mode. -/
def Scans (m : Scan) (cs : List Char) (ts : List Token) (after : Scan) : Prop :=
  m.run? cs = some (ts, after)

instance (m : Scan) (cs : List Char) (ts : List Token) (after : Scan) :
    Decidable (Scans m cs ts after) := by
  unfold Scans; infer_instance

theorem Scans.nil (m : Scan) : Scans m [] [] m := rfl

theorem Scans.cons {m m₁ m₂ : Scan} {c : Char} {cs : List Char} {ts us : List Token}
    (h : m.step? c = some (ts, m₁)) (hs : Scans m₁ cs us m₂) : Scans m (c :: cs) (ts ++ us) m₂ := by
  unfold Scans at hs ⊢
  simp [Scan.run?, h, hs]

theorem Scans.append {m m₁ m₂ : Scan} {cs ds : List Char} {ts us : List Token}
    (h : Scans m cs ts m₁) (hs : Scans m₁ ds us m₂) : Scans m (cs ++ ds) (ts ++ us) m₂ := by
  induction cs generalizing m ts with
  | nil =>
    obtain ⟨rfl, rfl⟩ : [] = ts ∧ m = m₁ := by simpa [Scans, Scan.run?] using h
    exact hs
  | cons c cs ih =>
    unfold Scans at h
    simp only [Scan.run?, Option.bind_eq_bind, Option.bind_eq_some_iff, Option.pure_def,
      Option.some.injEq, Prod.exists, Prod.mk.injEq] at h
    obtain ⟨ts₁, m', hstep, ts₂, m'', hrun, rfl, rfl⟩ := h
    rw [List.cons_append, List.append_assoc]
    exact Scans.cons hstep (ih hrun)

/-- The characters of a word are collected. -/
theorem scans_word {cs : List Char} (h : ∀ c ∈ cs, isWordChar c = true) (read : List Char) :
    Scans (.word read) cs [] (.word (cs.reverse ++ read)) := by
  induction cs generalizing read with
  | nil => exact Scans.nil _
  | cons c cs ih =>
    have hc : isWordChar c = true := h c List.mem_cons_self
    have hstep : (Scan.word read).step? c = some ([], .word (c :: read)) := by
      simp [Scan.step?, hc]
    have hrest := ih (fun d hd => h d (List.mem_cons_of_mem c hd)) (c :: read)
    simpa using Scans.cons hstep hrest

/-- A word can be an accessor: it is not one of the comparators that are words. -/
def IsAccessor (name : String) : Prop :=
  name.toList ≠ [] ∧ (∀ c ∈ name.toList, isWordChar c = true) ∧
    Token.ofWord name.toList = .accessor name

instance (name : String) : Decidable (IsAccessor name) :=
  decidable_of_decidable_of_iff
    (p := name.toList ≠ [] ∧ name.toList.all isWordChar = true ∧
      Token.ofWord name.toList = .accessor name)
    (by rw [IsAccessor, List.all_eq_true])

/-- A character of a word is none of those that stand for themselves between tokens. -/
theorem start?_of_isWordChar {c : Char} (h : isWordChar c = true) :
    Scan.start? c = some ([], .word [c]) := by
  have hne : ∀ d : Char, isWordChar d = false → c ≠ d := by
    rintro d hd rfl
    rw [h] at hd
    cases hd
  have hspace : isSpace c = false := by
    simp [isSpace, hne ' ' (by decide), hne '\t' (by decide), hne '\n' (by decide),
      hne '\r' (by decide)]
  simp [Scan.start?, hspace, hne '(' (by decide), hne ')' (by decide), hne '\'' (by decide), h]

/-- An accessor, with the blank after it. -/
theorem scans_accessor {name : String} (h : IsAccessor name) :
    Scans .between (name.toList ++ [' ']) [.accessor name] .between := by
  obtain ⟨hne, hword, hof⟩ := h
  cases hcs : name.toList with
  | nil => exact absurd hcs hne
  | cons c cs =>
    rw [hcs] at hword hof
    have hstart : Scan.between.step? c = some ([], .word [c]) :=
      start?_of_isWordChar (hword c List.mem_cons_self)
    have hrest := scans_word (fun d hd => hword d (List.mem_cons_of_mem c hd)) [c]
    have hend : (Scan.word (cs.reverse ++ [c])).step? ' ' = some ([.accessor name], .between) := by
      have hblank : isWordChar ' ' = false := by decide
      have hspace : Scan.start? ' ' = some ([], .between) := by decide
      simp [Scan.step?, hblank, Scan.endWith?, hspace, hof]
    have hlast : Scans (.word (cs.reverse ++ [c])) [' '] [.accessor name] .between :=
      Scans.cons hend (Scans.nil _)
    simpa using Scans.cons hstart (hrest.append hlast)

/-- A comparator, with the blank after it. -/
theorem scans_comparator (c : Comparator) :
    Scans .between (c.text.toList ++ [' ']) [.comparator c] .between := by
  cases c <;> decide

/-- The text of a literal is collected up to its closing quote. -/
theorem scans_escapeChar (c : Char) (read : List Char) :
    Scans (.literal read) (escapeChar c) [] (.literal ((escapeChar c).reverse ++ read)) := by
  unfold escapeChar
  by_cases hb : c = '\\'
  · subst hb; rfl
  by_cases hq : c = '\''
  · subst hq; rfl
  by_cases hn : c = '\n'
  · subst hn; rfl
  by_cases hr : c = '\r'
  · subst hr; rfl
  simp [hb, hq, hn, hr, Scans, Scan.run?, Scan.step?]

theorem scans_flatMap_escapeChar (cs read : List Char) :
    Scans (.literal read) (cs.flatMap escapeChar) []
      (.literal ((cs.flatMap escapeChar).reverse ++ read)) := by
  induction cs generalizing read with
  | nil => exact Scans.nil _
  | cons c cs ih =>
    have hboth := (scans_escapeChar c read).append (ih ((escapeChar c).reverse ++ read))
    simpa [List.flatMap_cons] using hboth

/-- **A quoted text is one literal token**, whatever the text is. -/
theorem scans_quote (value : String) :
    Scans .between (quote value).toList [.literal value] .between := by
  have hopen : Scan.between.step? '\'' = some ([], .literal []) := by decide
  have hinside := scans_flatMap_escapeChar value.toList []
  have hread := unquote?_quoteChars value.toList
  rw [quoteChars, List.cons_append] at hread
  have hclose : (Scan.literal ((value.toList.flatMap escapeChar).reverse ++ [])).step? '\'' =
      some ([.literal value], .between) := by
    simp [Scan.step?, Scan.literal?, hread]
  have hall := Scans.cons hopen (hinside.append (Scans.cons hclose (Scans.nil _)))
  simpa [quote, quoteChars] using hall

/-! ## Trees -/

/-- The tokens of a tree. -/
def tokens : Filter → List Token
  | compare accessor comparator value => [.accessor accessor, .comparator comparator, .literal value]
  | negate e => .bang :: e.tokens
  | both l r => l.tokens ++ .conj :: r.tokens
  | either l r => l.tokens ++ .disj :: r.tokens
  | group e => .opening :: (e.tokens ++ [.closing])

theorem toList_render_compare (a v : String) (c : Comparator) :
    (compare a c v).render.toList =
      (a.toList ++ [' ']) ++ (c.text.toList ++ [' ']) ++ (quote v).toList := by
  have h : (compare a c v).render = a ++ " " ++ c.text ++ " " ++ quote v := rfl
  simp [h]

/-- Every accessor of a tree is a word that can be one. -/
def Spelled : Filter → Prop
  | compare accessor _ _ => IsAccessor accessor
  | negate e => e.Spelled
  | both l r => l.Spelled ∧ r.Spelled
  | either l r => l.Spelled ∧ r.Spelled
  | group e => e.Spelled

/-- A text starts with something else than `=`, so that a `!` before it stands alone. -/
def StartsApart : List Char → Prop
  | [] => False
  | c :: _ => c ≠ '='

theorem StartsApart.append {cs : List Char} (h : StartsApart cs) (ds : List Char) :
    StartsApart (cs ++ ds) := by
  cases cs with
  | nil => exact h.elim
  | cons c cs => exact h

theorem startsApart_render {e : Filter} (h : e.Spelled) : StartsApart e.render.toList := by
  induction e with
  | compare a c v =>
    obtain ⟨hne, hword, -⟩ := h
    have ha : StartsApart a.toList := by
      cases hcs : a.toList with
      | nil => exact absurd hcs hne
      | cons d ds =>
        rintro rfl
        rw [hcs] at hword
        exact absurd (hword '=' List.mem_cons_self) (by decide)
    rw [toList_render_compare, List.append_assoc, List.append_assoc]
    exact ha.append _
  | negate e _ => simp [render, StartsApart]
  | both l r ihl _ => simpa [render, List.append_assoc] using (ihl h.1).append _
  | either l r ihl _ => simpa [render, List.append_assoc] using (ihl h.1).append _
  | group e _ => simp [render, StartsApart]

/-- A `!` alone is a token, and what follows is read as if it was not there. -/
theorem scans_bang {cs : List Char} {ts : List Token} {m : Scan} (hapart : StartsApart cs)
    (h : Scans .between cs ts m) : Scans .between ('!' :: cs) (.bang :: ts) m := by
  cases cs with
  | nil => exact hapart.elim
  | cons c cs =>
    have hbang : Scan.between.step? '!' = some ([], .half '!') := by decide
    unfold Scans at h
    simp only [Scan.run?, Option.bind_eq_bind, Option.bind_eq_some_iff, Option.pure_def,
      Option.some.injEq, Prod.exists, Prod.mk.injEq] at h
    obtain ⟨ts₁, m', hstep, ts₂, m'', hrun, rfl, rfl⟩ := h
    have hstart : Scan.start? c = some (ts₁, m') := hstep
    have hhalf : (Scan.half '!').step? c = some (.bang :: ts₁, m') := by
      simp [Scan.step?, Scan.second?, show c ≠ '=' from hapart, Scan.endWith?, hstart]
    simpa using Scans.cons hbang (Scans.cons hhalf hrun)

/-- A joiner between two texts. -/
theorem scans_joiner {c : Char} {t : Token} {l r : List Char} {ts us : List Token}
    (hl : Scans .between l ts .between) (hjoin : Scans .between [' ', c, c, ' '] [t] .between)
    (hr : Scans .between r us .between) :
    Scans .between (l ++ [' ', c, c, ' '] ++ r) (ts ++ t :: us) .between := by
  simpa [List.append_assoc] using (hl.append hjoin).append hr

/-- **Rendering a tree writes its tokens.** -/
theorem scans_render {e : Filter} (h : e.Spelled) :
    Scans .between e.render.toList e.tokens .between := by
  induction e with
  | compare a c v =>
    rw [toList_render_compare]
    exact ((scans_accessor h).append (scans_comparator c)).append (scans_quote v)
  | negate e ih =>
    have htext : (negate e).render.toList = '!' :: e.render.toList := by simp [render]
    rw [htext]
    exact scans_bang (startsApart_render h) (ih h)
  | both l r ihl ihr =>
    have hall := scans_joiner (c := '&') (t := .conj) (ihl h.1) (by decide) (ihr h.2)
    simpa [render, tokens, List.append_assoc] using hall
  | either l r ihl ihr =>
    have hall := scans_joiner (c := '|') (t := .disj) (ihl h.1) (by decide) (ihr h.2)
    simpa [render, tokens, List.append_assoc] using hall
  | group e ih =>
    have hopen : Scan.between.step? '(' = some ([.opening], .between) := by decide
    have hclose : Scans .between [')'] [.closing] .between := by decide
    have hall := Scans.cons hopen ((ih h).append hclose)
    simpa [render, tokens, List.append_assoc] using hall

theorem tokens?_render {e : Filter} (h : e.Spelled) : tokens? e.render = some e.tokens := by
  have hscan : Scan.between.run? e.render.toList = some (e.tokens, .between) := scans_render h
  simp [tokens?, hscan, Scan.finish?]

/-- **A rendered tree reads back**, and as no other tree (`reads_unique`). -/
theorem reads_render {e : Filter} (h : e.Spelled) (hd : Derives .disjunction e.tokens e) :
    Reads e.render e :=
  ⟨e.tokens, tokens?_render h, hd⟩

end Rampart.Filter
