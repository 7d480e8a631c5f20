import Mathlib.Data.List.Nodup
import Rampart.Table

/-!
# Tables without double keys

A table that only `Table.insert` and `Table.erase` have changed has every key once, and then its
entries are what can be looked up.

* `nodup_keys_insert`, `nodup_keys_erase`: changes keep every key once.
* **`get?_eq_some_iff`**, `mem_values_iff`: entries and values by their keys.
* `filter_values_insert`, `filter_values_erase`: values of another kind are not touched.
* `lookup_filter_ne`: the same of lists of entries, by their keys.
-/

namespace Rampart.Table

variable {κ α : Type} [DecidableEq κ]

theorem nodup_keys_erase {t : Table κ α} (h : t.keys.Nodup) (key : κ) :
    (t.erase key).keys.Nodup :=
  h.sublist (List.filter_sublist.map _)

theorem nodup_keys_insert {t : Table κ α} (h : t.keys.Nodup) (key : κ) (value : α) :
    (t.insert key value).keys.Nodup := by
  refine List.nodup_cons.mpr ⟨?_, nodup_keys_erase h key⟩
  intro hmem
  obtain ⟨entry, hentry, hkey⟩ := List.mem_map.mp hmem
  have hne := (List.mem_filter.mp hentry).2
  rw [hkey] at hne
  simp at hne

/-- What is found after an insertion was inserted, or was there before. -/
theorem of_get?_insert {t : Table κ α} {key other : κ} {value found : α}
    (h : (t.insert key value).get? other = some found) :
    other = key ∧ found = value ∨ t.get? other = some found := by
  rw [get?_insert] at h
  split at h
  · rename_i hkey
    exact .inl ⟨hkey, (Option.some.inj h).symm⟩
  · exact .inr h

theorem get?_eq_some_iff {t : Table κ α} (h : t.keys.Nodup) {key : κ} {value : α} :
    t.get? key = some value ↔ (key, value) ∈ t.entries := by
  obtain ⟨entries⟩ := t
  have hkeys : (entries.map (·.1)).Nodup := h
  unfold get?
  rw [Option.map_eq_some_iff]
  constructor
  · rintro ⟨entry, hentry, rfl⟩
    have hkey := List.find?_some hentry
    rw [decide_eq_true_eq] at hkey
    rw [← hkey]
    exact List.mem_of_find?_eq_some hentry
  · intro hmem
    refine ⟨(key, value), ?_, rfl⟩
    cases hfind : entries.find? (·.1 = key) with
    | none =>
      have hnot := List.find?_eq_none.mp hfind (key, value) hmem
      simp at hnot
    | some entry =>
      have hkey := List.find?_some hfind
      rw [decide_eq_true_eq] at hkey
      exact congrArg some
        (List.inj_on_of_nodup_map hkeys (List.mem_of_find?_eq_some hfind) hmem hkey)

theorem mem_values_iff {t : Table κ α} (h : t.keys.Nodup) {value : α} :
    value ∈ t.values ↔ ∃ key, t.get? key = some value := by
  unfold values
  rw [List.mem_map]
  constructor
  · rintro ⟨⟨key, _⟩, hmem, rfl⟩
    exact ⟨key, (get?_eq_some_iff h).mpr hmem⟩
  · rintro ⟨key, hget⟩
    exact ⟨(key, value), (get?_eq_some_iff h).mp hget, rfl⟩

theorem mem_keys_iff {t : Table κ α} (h : t.keys.Nodup) {key : κ} :
    key ∈ t.keys ↔ ∃ value, t.get? key = some value := by
  unfold keys
  rw [List.mem_map]
  constructor
  · rintro ⟨⟨_, value⟩, hmem, rfl⟩
    exact ⟨value, (get?_eq_some_iff h).mpr hmem⟩
  · rintro ⟨value, hget⟩
    exact ⟨(key, value), (get?_eq_some_iff h).mp hget, rfl⟩

/-! ## Values of a kind -/

/-- Values that a property picks out are not touched where it holds of none of a key's. -/
theorem filter_values_erase {t : Table κ α} (h : t.keys.Nodup) {p : α → Bool} {key : κ}
    (hold : ∀ old, t.get? key = some old → p old = false) :
    (t.erase key).values.filter p = t.values.filter p := by
  have hkept : ∀ entry ∈ t.entries, p entry.2 = true → entry.1 ≠ key := by
    rintro ⟨other, value⟩ hentry hp rfl
    rw [hold value ((get?_eq_some_iff h).mpr hentry)] at hp
    cases hp
  unfold values erase
  rw [List.filter_map, List.filter_map, List.filter_filter]
  refine congrArg (List.map _) (List.filter_congr fun entry hentry => ?_)
  cases hp : p entry.2 with
  | false => simp [hp]
  | true => simp [hp, hkept entry hentry hp]

theorem filter_values_insert {t : Table κ α} (h : t.keys.Nodup) {p : α → Bool} {key : κ}
    {value : α} (hold : ∀ old, t.get? key = some old → p old = false) (hnew : p value = false) :
    (t.insert key value).values.filter p = t.values.filter p := by
  rw [← filter_values_erase h hold]
  exact List.filter_cons_of_neg (by rw [hnew]; exact Bool.false_ne_true)

/-- Entries of one key may go without a change to what is found under another. -/
theorem lookup_filter_ne {κ α : Type} [BEq κ] [LawfulBEq κ] {entries : List (κ × α)}
    {key other : κ} (h : other ≠ key) :
    (entries.filter (·.1 != key)).lookup other = entries.lookup other := by
  induction entries with
  | nil => rfl
  | cons entry entries ih =>
    obtain ⟨first, value⟩ := entry
    by_cases hfirst : first = key
    · subst hfirst
      rw [List.filter_cons_of_neg (by simp), ih, List.lookup_cons, beq_eq_false_iff_ne.mpr h]
    · rw [List.filter_cons_of_pos (by simpa using hfirst), List.lookup_cons, List.lookup_cons, ih]

end Rampart.Table
