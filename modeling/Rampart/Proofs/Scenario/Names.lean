import Rampart.Proofs.Text.Letter
import Rampart.Scenario.Upload

/-!
# The names of scenario files

The name of a scenario file is the uuid of its application, a full stop, something without
slashes, and an ending. The full stop cannot occur in a uuid, so that the name tells whose file it
is.

* `IsScenarioName`: names of that form; `isOwned_of_isScenarioName`: they count as the
  application's.
* **`uuid_eq_of_isOwned`**: a name is of one application only.
* **`scenarioFileName_inj`**: rules of different numbers have files of different names.
-/

namespace Rampart

/-! ## Cutting at a character -/

theorem cut_inj_first {α : Type} {c : α} {xs xs' ys ys' : List α} (h : c ∉ xs) (h' : c ∉ xs')
    (heq : xs ++ c :: ys = xs' ++ c :: ys') : xs = xs' ∧ ys = ys' := by
  induction xs generalizing xs' with
  | nil =>
    cases xs' with
    | nil => exact ⟨rfl, (List.cons.inj heq).2⟩
    | cons x xs' => exact absurd (List.cons.inj heq).1 (List.ne_of_not_mem_cons h')
  | cons x xs ih =>
    cases xs' with
    | nil => exact absurd (List.cons.inj heq).1.symm (List.ne_of_not_mem_cons h)
    | cons x' xs' =>
      obtain ⟨rfl, htail⟩ := List.cons.inj heq
      obtain ⟨rfl, hys⟩ :=
        ih (List.not_mem_of_not_mem_cons h) (List.not_mem_of_not_mem_cons h') htail
      exact ⟨rfl, hys⟩

theorem cut_inj_last {α : Type} {c : α} {xs xs' ys ys' : List α} (h : c ∉ ys) (h' : c ∉ ys')
    (heq : xs ++ c :: ys = xs' ++ c :: ys') : xs = xs' ∧ ys = ys' := by
  have hreverse : ys.reverse ++ c :: xs.reverse = ys'.reverse ++ c :: xs'.reverse := by
    simpa using congrArg List.reverse heq
  obtain ⟨hys, hxs⟩ := cut_inj_first (by simpa using h) (by simpa using h') hreverse
  exact ⟨List.reverse_inj.mp hxs, List.reverse_inj.mp hys⟩

/-! ## Characters of names -/

theorem isUuidChar_iff (c : Char) :
    isUuidChar c = true ↔ c.isAlphanum = true ∨ c = '-' ∨ c = '_' := by
  simp [isUuidChar, or_assoc]

theorem not_isBlank_of_isUuidChar {c : Char} (h : isUuidChar c = true) :
    Text.isBlank c = false := by
  rcases (isUuidChar_iff c).mp h with h | rfl | rfl
  · exact Text.not_isBlank_of_isAlphanum h
  · decide
  · decide

theorem ne_of_isUuidChar {c d : Char} (h : isUuidChar c = true) (hd : isUuidChar d = false) :
    c ≠ d := by
  rintro rfl
  rw [h] at hd
  cases hd

theorem isUuid_iff (uuid : String) :
    isUuid uuid = true ↔ uuid.toList ≠ [] ∧ ∀ c ∈ uuid.toList, isUuidChar c = true := by
  simp [isUuid]

theorem not_mem_of_isUuid {uuid : String} (h : isUuid uuid = true) {c : Char}
    (hc : isUuidChar c = false) : c ∉ uuid.toList :=
  fun hmem => ne_of_isUuidChar (((isUuid_iff uuid).mp h).2 c hmem) hc rfl

theorem isUuidChar_of_mem_slugFrom {started gap : Bool} {cs : List Char} {c : Char}
    (h : c ∈ slugFrom started gap cs) : isUuidChar c = true := by
  induction cs generalizing started gap with
  | nil => cases h
  | cons d ds ih =>
    rw [slugFrom] at h
    split at h
    · rename_i hd
      have hrest (h : c ∈ d.toLower :: slugFrom true false ds) : isUuidChar c = true := by
        rcases List.mem_cons.mp h with rfl | h
        · exact (isUuidChar_iff _).mpr (.inl (Text.isAlphanum_toLower hd))
        · exact ih h
      simp only at h
      split at h
      · rcases List.mem_cons.mp h with rfl | h
        · decide
        · exact hrest h
      · exact hrest h
    · exact ih h

theorem isUuidChar_of_mem_slug {name : String} {c : Char} (h : c ∈ (slug name).toList) :
    isUuidChar c = true := by
  unfold slug at h
  simp only at h
  split at h
  · exact List.all_eq_true.mp (by decide : "rule".toList.all isUuidChar = true) c h
  · rw [String.toList_ofList] at h
    exact isUuidChar_of_mem_slugFrom h

theorem isUuidChar_of_mem_toString {n : UInt64} {c : Char} (h : c ∈ (toString n).toList) :
    isUuidChar c = true := by
  refine (isUuidChar_iff c).mpr (.inl ?_)
  rw [Char.isAlphanum, Text.isDigit_of_mem_toString h, Bool.or_true]

/-! ## Names -/

/-- The names of scenario files of an application. -/
def IsScenarioName (uuid name : String) : Prop :=
  ∃ middle : List Char, '/' ∉ middle ∧
    name.toList = uuid.toList ++ '.' :: (middle ++ ".yaml".toList)

/-- A name without blanks. -/
def IsBlankFree (name : String) : Prop :=
  ∀ c ∈ name.toList, Text.isBlank c = false

instance (name : String) : Decidable (IsBlankFree name) :=
  decidable_of_decidable_of_iff (p := name.toList.all (!Text.isBlank ·) = true)
    (by simp [IsBlankFree])

theorem isOwned_of_isScenarioName {uuid name : String} (h : IsScenarioName uuid name) :
    isOwned uuid name = true := by
  obtain ⟨middle, _, hname⟩ := h
  rw [isOwned, Bool.and_eq_true, List.isPrefixOf_iff_prefix, List.isSuffixOf_iff_suffix, hname]
  have hstart : (ownedStart uuid).toList = uuid.toList ++ ['.'] := by simp [ownedStart]
  rw [hstart]
  refine ⟨⟨middle ++ ".yaml".toList, by simp⟩, ⟨uuid.toList ++ '.' :: middle, by simp⟩⟩

/-- **A name is of one application only.** -/
theorem uuid_eq_of_isOwned {uuid other name : String} (hu : isUuid uuid = true)
    (ho : isUuid other = true) (h : isOwned uuid name = true) (h' : isOwned other name = true) :
    uuid = other := by
  rw [isOwned, Bool.and_eq_true, List.isPrefixOf_iff_prefix] at h h'
  obtain ⟨⟨rest, hrest⟩, _⟩ := h
  obtain ⟨⟨rest', hrest'⟩, _⟩ := h'
  have hstart : ∀ u : String, (ownedStart u).toList = u.toList ++ ['.'] := by simp [ownedStart]
  rw [← hrest', hstart, hstart, List.append_assoc, List.append_assoc] at hrest
  refine String.toList_inj.mp (cut_inj_first ?_ ?_ hrest).1
  · exact not_mem_of_isUuid hu (by decide)
  · exact not_mem_of_isUuid ho (by decide)

theorem slash_not_mem_of_isScenarioName {uuid name : String} (hu : isUuid uuid = true)
    (h : IsScenarioName uuid name) : '/' ∉ name.toList := by
  obtain ⟨middle, hmiddle, hname⟩ := h
  have huuid := not_mem_of_isUuid hu (c := '/') (by decide)
  rw [hname]
  simp [hmiddle, huuid]

theorem toList_scenarioFileName (uuid : String) (rule : Rule) :
    (scenarioFileName uuid rule).toList =
      uuid.toList ++ '.' :: ((slug rule.name).toList ++ '-' :: (toString rule.id).toList ++
        ".yaml".toList) := by
  have h : scenarioFileName uuid rule =
      uuid ++ "." ++ slug rule.name ++ "-" ++ toString rule.id ++ ".yaml" := rfl
  rw [h]
  simp

theorem scenarioFileName_isScenarioName (uuid : String) (rule : Rule) :
    IsScenarioName uuid (scenarioFileName uuid rule) := by
  refine ⟨_, ?_, toList_scenarioFileName uuid rule⟩
  intro hmem
  rcases List.mem_append.mp hmem with hmem | hmem
  · exact ne_of_isUuidChar (isUuidChar_of_mem_slug hmem) (by decide) rfl
  · rcases List.mem_cons.mp hmem with heq | hmem
    · exact absurd heq (by decide)
    · exact ne_of_isUuidChar (isUuidChar_of_mem_toString hmem) (by decide) rfl

theorem scenarioFileName_isBlankFree {uuid : String} (hu : isUuid uuid = true) (rule : Rule) :
    IsBlankFree (scenarioFileName uuid rule) := by
  intro c hc
  rw [toList_scenarioFileName] at hc
  simp only [List.mem_append, List.mem_cons] at hc
  rcases hc with hc | rfl | (hc | rfl | hc) | hc
  · exact not_isBlank_of_isUuidChar (((isUuid_iff uuid).mp hu).2 c hc)
  · decide
  · exact not_isBlank_of_isUuidChar (isUuidChar_of_mem_slug hc)
  · decide
  · exact not_isBlank_of_isUuidChar (isUuidChar_of_mem_toString hc)
  · exact (by decide : IsBlankFree ".yaml") c hc

/-- **Rules of different numbers have files of different names.** -/
theorem scenarioFileName_inj {uuid : String} {a b : Rule}
    (h : scenarioFileName uuid a = scenarioFileName uuid b) : a.id = b.id := by
  have hchars := congrArg String.toList h
  rw [toList_scenarioFileName, toList_scenarioFileName] at hchars
  have hrest := (List.cons.inj (List.append_cancel_left hchars)).2
  refine Text.toString_inj (String.toList_inj.mp ?_)
  refine (cut_inj_last ?_ ?_ (List.append_cancel_right hrest)).2
  · exact fun hmem => absurd (Text.isDigit_of_mem_toString hmem) (by decide)
  · exact fun hmem => absurd (Text.isDigit_of_mem_toString hmem) (by decide)

end Rampart
