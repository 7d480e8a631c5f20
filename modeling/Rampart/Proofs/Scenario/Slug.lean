import Rampart.Proofs.Text.Letter
import Rampart.Scenario

/-!
# Slugs

A slug is a word of letters in lower case and digits, with a hyphen for every run of other
characters between them. `slugFrom` goes through a name once: `started` tells that something of the
slug is there, and `gap` that characters were skipped since.

* `IsSlug`: groups of letters and digits with single hyphens between them.
* **`isSlug_slug`**: slugs are such words.
* **`slug_slug`**: a slug is its own slug.
* **`IsSlug.exists_groups`**: the groups.
* `slugFrom_eq_nil_iff`, **`slugFrom_eq_word_iff`**: names that leave nothing, or one given word.
-/

namespace Rampart

/-- A letter in lower case, or a digit. -/
def isSlugLetter (c : Char) : Bool :=
  c.isLower || c.isDigit

/-- Letters and digits, with hyphens between them: none in front, none at the end, no two in a
row. -/
inductive IsSlug : List Char → Prop
  | single {c : Char} (h : isSlugLetter c = true) : IsSlug [c]
  | letter {c : Char} {cs : List Char} (h : isSlugLetter c = true) (hs : IsSlug cs) :
    IsSlug (c :: cs)
  | hyphen {c : Char} {cs : List Char} (h : isSlugLetter c = true) (hs : IsSlug cs) :
    IsSlug (c :: '-' :: cs)

/-! ## Letters -/

theorem isSlugLetter_iff (c : Char) : isSlugLetter c = true ↔
    (97 ≤ c.toNat ∧ c.toNat ≤ 122) ∨ (48 ≤ c.toNat ∧ c.toNat ≤ 57) := by
  rw [isSlugLetter, Bool.or_eq_true, Text.isLower_iff, Text.isDigit_iff]

theorem isSlugLetter_toLower {c : Char} (h : isSlugChar c = true) :
    isSlugLetter c.toLower = true := by
  have hrange := (Text.isAlphanum_iff c).mp h
  rw [isSlugLetter_iff]
  cases hupper : c.isUpper with
  | true =>
    have hbounds := (Text.isUpper_iff c).mp hupper
    rw [Text.toNat_toLower hupper]
    omega
  | false =>
    rw [Text.toLower_of_not_isUpper hupper]
    have hbounds := (Text.isUpper_iff c).not.mp (by rw [hupper]; exact Bool.false_ne_true)
    omega

theorem isSlugChar_of_isSlugLetter {c : Char} (h : isSlugLetter c = true) :
    isSlugChar c = true := by
  rw [isSlugLetter_iff] at h
  exact (Text.isAlphanum_iff c).mpr (by omega)

theorem isSlugChar_toLower (c : Char) : isSlugChar c.toLower = isSlugChar c := by
  cases hupper : c.isUpper with
  | true =>
    have hrange := (Text.isUpper_iff c).mp hupper
    have halnum : isSlugChar c = true := (Text.isAlphanum_iff c).mpr (by omega)
    rw [halnum]
    exact isSlugChar_of_isSlugLetter (isSlugLetter_toLower halnum)
  | false => rw [Text.toLower_of_not_isUpper hupper]

/-- Letters in lower case and digits stay as they are. -/
theorem toLower_of_isSlugLetter {c : Char} (h : isSlugLetter c = true) : c.toLower = c := by
  rw [isSlugLetter_iff] at h
  refine Text.toLower_of_not_isUpper (Bool.eq_false_iff.mpr fun hupper => ?_)
  have hbounds := (Text.isUpper_iff c).mp hupper
  omega

/-! ## Slugs of names -/

theorem slugFrom_cons {c : Char} (h : isSlugChar c = true) (started gap : Bool)
    (cs : List Char) :
    slugFrom started gap (c :: cs) =
      (if gap && started then ['-'] else []) ++ c.toLower :: slugFrom true false cs := by
  rw [slugFrom, if_pos h]
  cases gap <;> cases started <;> rfl

theorem slugFrom_skip {c : Char} (h : isSlugChar c = false) (started gap : Bool)
    (cs : List Char) : slugFrom started gap (c :: cs) = slugFrom started true cs := by
  rw [slugFrom, h, if_neg Bool.false_ne_true]

/-- **What follows the first letter**: nothing, a slug, or a hyphen and a slug. -/
theorem isSlug_cons_slugFrom {c : Char} (h : isSlugLetter c = true) (gap : Bool)
    (cs : List Char) : IsSlug (c :: slugFrom true gap cs) := by
  induction cs generalizing c gap with
  | nil => exact .single h
  | cons d ds ih =>
    cases hd : isSlugChar d with
    | true =>
      have hrest := ih (isSlugLetter_toLower hd) false
      rw [slugFrom_cons hd]
      cases gap with
      | true => exact .hyphen h hrest
      | false => exact .letter h hrest
    | false =>
      rw [slugFrom_skip hd]
      exact ih h true

theorem isSlug_slugFrom (gap : Bool) (cs : List Char) :
    slugFrom false gap cs = [] ∨ IsSlug (slugFrom false gap cs) := by
  induction cs generalizing gap with
  | nil => exact .inl rfl
  | cons c cs ih =>
    cases hc : isSlugChar c with
    | true =>
      rw [slugFrom_cons hc, Bool.and_false]
      exact .inr (isSlug_cons_slugFrom (isSlugLetter_toLower hc) false cs)
    | false =>
      rw [slugFrom_skip hc]
      exact ih true

/-- **Slugs are words** of letters and digits with single hyphens between them. -/
theorem isSlug_slug (name : String) : IsSlug (slug name).toList := by
  unfold slug
  simp only
  split
  · exact .letter (by decide) (.letter (by decide) (.letter (by decide) (.single (by decide))))
  · rename_i hsome
    rw [String.toList_ofList]
    exact (isSlug_slugFrom false name.toList).resolve_left (by simpa using hsome)

/-! ## Slugs of slugs -/

theorem IsSlug.slugFrom_eq {cs : List Char} (h : IsSlug cs) :
    ∀ started gap : Bool, slugFrom started gap cs =
      (if gap && started then ['-'] else []) ++ cs := by
  induction h with
  | single h =>
    intro started gap
    rw [slugFrom_cons (isSlugChar_of_isSlugLetter h), toLower_of_isSlugLetter h]
    rfl
  | letter h _ ih =>
    intro started gap
    rw [slugFrom_cons (isSlugChar_of_isSlugLetter h), toLower_of_isSlugLetter h, ih]
    rfl
  | hyphen h _ ih =>
    intro started gap
    rw [slugFrom_cons (isSlugChar_of_isSlugLetter h), toLower_of_isSlugLetter h,
      slugFrom_skip (by decide), ih]
    rfl

theorem IsSlug.ne_nil {cs : List Char} (h : IsSlug cs) : cs ≠ [] := by
  cases h <;> exact List.cons_ne_nil _ _

/-- **A slug is its own slug.** -/
theorem slug_slug (name : String) : slug (slug name) = slug name := by
  have hslug := isSlug_slug name
  have hsame : slugFrom false false (slug name).toList = (slug name).toList :=
    hslug.slugFrom_eq false false
  rw [slug, hsame, if_neg (by simpa using hslug.ne_nil), String.ofList_toList]

/-! ## Groups -/

/-- **A slug is made of groups** of letters and digits, with one hyphen between two of them. -/
theorem IsSlug.exists_groups {cs : List Char} (h : IsSlug cs) :
    ∃ groups : List (List Char), groups ≠ [] ∧
      (∀ group ∈ groups, group ≠ [] ∧ ∀ c ∈ group, isSlugLetter c = true) ∧
      cs = ['-'].intercalate groups := by
  induction h with
  | @single c h => exact ⟨[[c]], by simp, by simpa using h, by simp⟩
  | @letter c cs h _ ih =>
    obtain ⟨groups, hne, hgroups, rfl⟩ := ih
    obtain ⟨group, rest, rfl⟩ := List.exists_cons_of_ne_nil hne
    refine ⟨(c :: group) :: rest, by simp, ?_, ?_⟩
    · intro g hg
      rcases List.mem_cons.mp hg with rfl | hg
      · refine ⟨by simp, fun d hd => ?_⟩
        rcases List.mem_cons.mp hd with rfl | hd
        · exact h
        · exact (hgroups group List.mem_cons_self).2 d hd
      · exact hgroups g (List.mem_cons_of_mem _ hg)
    · cases rest <;> simp
  | @hyphen c cs h _ ih =>
    obtain ⟨groups, hne, hgroups, rfl⟩ := ih
    refine ⟨[c] :: groups, by simp, ?_, ?_⟩
    · intro g hg
      rcases List.mem_cons.mp hg with rfl | hg
      · exact ⟨by simp, by simpa using h⟩
      · exact hgroups g hg
    · rw [List.intercalate_cons_of_ne_nil hne]
      rfl

/-! ## Slugs of one group -/

/-- Nothing is left of a name without letters and digits. -/
theorem slugFrom_eq_nil_iff {started gap : Bool} {cs : List Char} :
    slugFrom started gap cs = [] ↔ ∀ c ∈ cs, isSlugChar c = false := by
  induction cs generalizing gap with
  | nil => exact ⟨fun _ => nofun, fun _ => rfl⟩
  | cons c cs ih =>
    cases hc : isSlugChar c with
    | true =>
      rw [slugFrom_cons hc]
      exact ⟨fun h => by simp at h, fun h => absurd (h c List.mem_cons_self) (by simp [hc])⟩
    | false => rw [slugFrom_skip hc, ih, List.forall_mem_cons, and_iff_right hc]

/-- After a gap nothing is left, or a hyphen comes first. -/
theorem slugFrom_gap (cs : List Char) :
    slugFrom true true cs = [] ∨ ∃ rest, slugFrom true true cs = '-' :: rest := by
  induction cs with
  | nil => exact .inl rfl
  | cons c cs ih =>
    cases hc : isSlugChar c with
    | true => exact .inr ⟨_, slugFrom_cons hc true true cs⟩
    | false => rwa [slugFrom_skip hc]

/-- What is left after the beginning is one group if the letters and digits stand in a row. -/
theorem slugFrom_eq_row_iff {cs word : List Char} (hword : ∀ c ∈ word, isSlugChar c = true) :
    slugFrom true false cs = word ↔
      ∃ row back, cs = row ++ back ∧ row.map Char.toLower = word ∧
        ∀ c ∈ back, isSlugChar c = false := by
  induction cs generalizing word with
  | nil =>
    constructor
    · rintro rfl
      exact ⟨[], [], rfl, rfl, nofun⟩
    · rintro ⟨row, back, hcs, rfl, _⟩
      rw [(List.append_eq_nil_iff.mp hcs.symm).1]
      rfl
  | cons c cs ih =>
    cases hc : isSlugChar c with
    | true =>
      rw [slugFrom_cons hc]
      constructor
      · rintro rfl
        obtain ⟨row, back, rfl, hrow, hback⟩ :=
          (ih fun d hd => hword d (by simp [hd])).mp rfl
        exact ⟨c :: row, back, rfl, by simp [hrow], hback⟩
      · rintro ⟨row, back, hcs, rfl, hback⟩
        cases row with
        | nil =>
          rw [List.nil_append] at hcs
          exact absurd (hback c (hcs ▸ List.mem_cons_self)) (by simp [hc])
        | cons d row =>
          obtain ⟨rfl, rfl⟩ := List.cons.inj hcs
          have hrest := (ih fun e he => hword e (List.mem_cons_of_mem _ he)).mpr
            ⟨row, back, rfl, rfl, hback⟩
          rw [hrest]
          rfl
    | false =>
      rw [slugFrom_skip hc]
      constructor
      · intro h
        have hnil : word = [] := by
          rcases slugFrom_gap cs with hnone | ⟨rest, hrest⟩
          · rw [← h, hnone]
          · have hhyphen : '-' ∈ word := by
              rw [← h, hrest]
              exact List.mem_cons_self
            exact absurd (hword '-' hhyphen) (by decide)
        rw [hnil] at h ⊢
        exact ⟨[], c :: cs, rfl, rfl, List.forall_mem_cons.mpr ⟨hc, slugFrom_eq_nil_iff.mp h⟩⟩
      · rintro ⟨row, back, hcs, rfl, hback⟩
        cases row with
        | nil =>
          rw [List.nil_append] at hcs
          subst hcs
          exact slugFrom_eq_nil_iff.mpr (List.forall_mem_cons.mp hback).2
        | cons d row =>
          obtain ⟨rfl, _⟩ := List.cons.inj hcs
          have hd := hword c.toLower List.mem_cons_self
          rw [isSlugChar_toLower, hc] at hd
          cases hd

/-- **The slug is one word** if the letters and digits of the name stand in a row and read it. -/
theorem slugFrom_eq_word_iff {cs word : List Char} (hne : word ≠ [])
    (hword : ∀ c ∈ word, isSlugChar c = true) (gap : Bool) :
    slugFrom false gap cs = word ↔
      ∃ front row back, cs = front ++ row ++ back ∧ row.map Char.toLower = word ∧
        ∀ c ∈ front ++ back, isSlugChar c = false := by
  induction cs generalizing gap with
  | nil =>
    constructor
    · intro h
      exact absurd h.symm hne
    · rintro ⟨front, row, back, hcs, rfl, _⟩
      have hrow : row = [] := by
        have hboth := (List.append_eq_nil_iff.mp hcs.symm).1
        exact (List.append_eq_nil_iff.mp hboth).2
      rw [hrow] at hne
      exact absurd rfl hne
  | cons c cs ih =>
    cases hc : isSlugChar c with
    | true =>
      have hsame : slugFrom false gap (c :: cs) = slugFrom true false (c :: cs) := by
        rw [slugFrom_cons hc, slugFrom_cons hc, Bool.and_false]
        rfl
      rw [hsame, slugFrom_eq_row_iff hword]
      constructor
      · rintro ⟨row, back, hcs, hrow, hback⟩
        exact ⟨[], row, back, hcs, hrow, hback⟩
      · rintro ⟨front, row, back, hcs, hrow, hout⟩
        cases front with
        | nil => exact ⟨row, back, hcs, hrow, hout⟩
        | cons d front =>
          obtain ⟨rfl, _⟩ := List.cons.inj hcs
          exact absurd (hout c List.mem_cons_self) (by simp [hc])
    | false =>
      rw [slugFrom_skip hc, ih]
      constructor
      · rintro ⟨front, row, back, rfl, hrow, hout⟩
        exact ⟨c :: front, row, back, rfl, hrow, List.forall_mem_cons.mpr ⟨hc, hout⟩⟩
      · rintro ⟨front, row, back, hcs, hrow, hout⟩
        cases front with
        | cons d front =>
          obtain ⟨_, rfl⟩ := List.cons.inj hcs
          exact ⟨front, row, back, rfl, hrow, (List.forall_mem_cons.mp hout).2⟩
        | nil =>
          cases row with
          | nil => exact absurd hrow.symm hne
          | cons d row =>
            obtain ⟨rfl, _⟩ := List.cons.inj hcs
            have hd := hword c.toLower (hrow ▸ List.mem_cons_self)
            rw [isSlugChar_toLower, hc] at hd
            cases hd

end Rampart
