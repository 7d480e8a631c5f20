import Mathlib.Data.String.Basic
import Mathlib.Data.List.Sort
import Rampart.Context
import Rampart.Proofs.Scenario.Negation
import Rampart.Proofs.Text.Letter
import Rampart.Template

/-!
# Rules that block countries

The countries come as texts of the user, in any order, spelling and number. What is left of them is
a set of codes.

* `IsCountry`: a text that names a country, with its code.
* `mem_insertSorted`, `pairwise_insertSorted`: the codes are a set, in order.
  **`countryCodes_eq_ok_iff`**: exactly the set of the countries' codes.
* `exists_geoBlockRule_iff`, `geoBlockRule_congr`: when there is a rule, and what it depends on.
* `exists_scenarioOf_codes`, `meets_codes_iff`: a rule of such conditions compiles, and what it
  matches.
* **`geoBlockRule_means_set`**: from the list of texts to the events that the filter of the scenario
  is for.
-/

namespace Rampart

/-- A text that names a country: two letters of ASCII, with blanks around them or not. The code is
both letters in upper case. -/
def IsCountry (text code : String) : Prop :=
  ∃ a b : Char, Text.trim text.toList = [a, b] ∧ a.isAlpha = true ∧ b.isAlpha = true ∧
    code = String.ofList [a.toUpper, b.toUpper]

/-! ## Codes -/

theorem countryCode?_eq_some_iff {text code : String} :
    countryCode? text = some code ↔ IsCountry text code := by
  unfold countryCode? IsCountry
  constructor
  · intro h
    split at h
    · next x y hmap =>
      obtain ⟨a, _, htrim, rfl, hrest⟩ := List.map_eq_cons_iff.mp hmap
      obtain ⟨b, _, rfl, rfl, hnil⟩ := List.map_eq_cons_iff.mp hrest
      rw [List.map_eq_nil_iff.mp hnil] at htrim
      rw [Text.isUpper_toUpper, Text.isUpper_toUpper] at h
      split at h
      · next hletters =>
        rw [Bool.and_eq_true] at hletters
        exact ⟨a, b, htrim, hletters.1, hletters.2, (Option.some.inj h).symm⟩
      · cases h
    · cases h
  · rintro ⟨a, b, htrim, ha, hb, rfl⟩
    simp only [htrim, List.map_cons, List.map_nil, Text.isUpper_toUpper, ha, hb, Bool.and_self,
      if_true]

theorem mem_insertSorted {text x : String} {codes : List String} :
    x ∈ insertSorted text codes ↔ x = text ∨ x ∈ codes := by
  induction codes with
  | nil => rw [insertSorted, List.mem_singleton, or_iff_left List.not_mem_nil]
  | cons other others ih =>
    rw [insertSorted]
    split
    · next heq => rw [heq, List.mem_cons, or_self_left]
    · split
      · exact List.mem_cons
      · rw [List.mem_cons, ih, List.mem_cons, or_left_comm]

theorem pairwise_insertSorted {text : String} {codes : List String}
    (h : codes.Pairwise (· < ·)) : (insertSorted text codes).Pairwise (· < ·) := by
  induction codes with
  | nil => exact List.pairwise_singleton _ _
  | cons other others ih =>
    obtain ⟨hfirst, hrest⟩ := List.pairwise_cons.mp h
    rw [insertSorted]
    split
    · exact h
    · next hne =>
      split
      · next hlt =>
        refine List.pairwise_cons.mpr ⟨fun x hx => ?_, h⟩
        rcases List.mem_cons.mp hx with rfl | hx
        · exact hlt
        · exact String.lt_trans hlt (hfirst x hx)
      · next hge =>
        have hlt : other < text := ((lt_trichotomy text other).resolve_left hge).resolve_left hne
        refine List.pairwise_cons.mpr ⟨fun x hx => ?_, ih hrest⟩
        rcases mem_insertSorted.mp hx with rfl | hx
        · exact hlt
        · exact hfirst x hx

theorem IsCountry.code_eq {text code code' : String} (h : IsCountry text code)
    (h' : IsCountry text code') : code = code' :=
  Option.some.inj ((countryCode?_eq_some_iff.mpr h).symm.trans (countryCode?_eq_some_iff.mpr h'))

/-- What a fold over countries makes of the codes that are there, if every step inserts one. -/
theorem foldlM_codes {step : List String → String → Except Failure (List String)}
    (hstep : ∀ codes text next, step codes text = .ok next →
      ∃ code, IsCountry text code ∧ next = insertSorted code codes)
    {countries start codes : List String} (h : countries.foldlM step start = .ok codes)
    (hstart : start.Pairwise (· < ·)) :
    codes.Pairwise (· < ·) ∧
      ∀ code, code ∈ codes ↔ code ∈ start ∨ ∃ text ∈ countries, IsCountry text code := by
  induction countries generalizing start with
  | nil =>
    cases h
    exact ⟨hstart, fun code => by simp⟩
  | cons text countries ih =>
    rw [List.foldlM_cons, Except.bind_eq_ok_iff] at h
    obtain ⟨next, hnext, hrest⟩ := h
    obtain ⟨added, hadded, rfl⟩ := hstep start text next hnext
    obtain ⟨hordered, hmem⟩ := ih hrest (pairwise_insertSorted hstart)
    refine ⟨hordered, fun code => ?_⟩
    have hcode : IsCountry text code ↔ code = added :=
      ⟨fun h => h.code_eq hadded, fun h => h ▸ hadded⟩
    rw [hmem, mem_insertSorted, List.exists_mem_cons_iff, hcode, or_comm (a := code = added),
      or_assoc]

theorem exists_countryCodes_iff {countries : List String} :
    (∃ codes, countryCodes countries = .ok codes) ↔
      ∀ text ∈ countries, ∃ code, IsCountry text code := by
  refine Except.exists_foldlM_eq_ok_iff fun codes text => ?_
  simp only [← countryCode?_eq_some_iff]
  cases countryCode? text <;> simp

/-- **The codes are the set of the countries' codes**, in order, where all are countries. -/
theorem countryCodes_eq_ok_iff {countries codes : List String} :
    countryCodes countries = .ok codes ↔
      (∀ text ∈ countries, ∃ code, IsCountry text code) ∧ codes.Pairwise (· < ·) ∧
        ∀ code, code ∈ codes ↔ ∃ text ∈ countries, IsCountry text code := by
  have hspec : ∀ {codes}, countryCodes countries = .ok codes → codes.Pairwise (· < ·) ∧
      ∀ code, code ∈ codes ↔ ∃ text ∈ countries, IsCountry text code := by
    intro codes h
    have hfold := foldlM_codes (fun codes text next hnext => ?_) h .nil
    · simpa using hfold
    · split at hnext
      · next code hcode =>
        exact ⟨code, countryCode?_eq_some_iff.mp hcode, (Except.ok.inj hnext).symm⟩
      · cases hnext
  refine ⟨fun h => ⟨exists_countryCodes_iff.mp ⟨codes, h⟩, hspec h⟩, ?_⟩
  rintro ⟨hall, hordered, hmem⟩
  obtain ⟨codes', hcodes'⟩ := exists_countryCodes_iff.mpr hall
  obtain ⟨hordered', hmem'⟩ := hspec hcodes'
  rw [hcodes', hordered'.eq_of_mem_iff hordered fun code => (hmem' code).trans (hmem code).symm]

/-! ## Rules -/

theorem of_geoBlockRule {countries : List String} {rule : Rule}
    (h : geoBlockRule countries = .ok rule) :
    ∃ codes, countryCodes countries = .ok codes ∧ codes ≠ [] ∧ rule.isBan = false ∧
      rule.joiner = .or ∧
      rule.conditions = codes.map fun code => ⟨"country_code", "equals", code⟩ := by
  unfold geoBlockRule at h
  obtain ⟨codes, hcodes, h⟩ := Except.bind_eq_ok_iff.mp h
  refine ⟨codes, hcodes, ?_⟩
  cases codes with
  | nil => cases h
  | cons code others =>
    rw [← Except.ok.inj h]
    exact ⟨List.cons_ne_nil code others, rfl, rfl, rfl⟩

theorem exists_geoBlockRule_iff {countries : List String} :
    (∃ rule, geoBlockRule countries = .ok rule) ↔
      countries ≠ [] ∧ ∀ text ∈ countries, ∃ code, IsCountry text code := by
  constructor
  · rintro ⟨rule, h⟩
    obtain ⟨codes, hcodes, hne, -⟩ := of_geoBlockRule h
    obtain ⟨hall, -, hmem⟩ := countryCodes_eq_ok_iff.mp hcodes
    obtain ⟨code, hcode⟩ := List.exists_mem_of_ne_nil codes hne
    obtain ⟨text, htext, -⟩ := (hmem code).mp hcode
    exact ⟨List.ne_nil_of_mem htext, hall⟩
  · rintro ⟨hne, hall⟩
    obtain ⟨codes, hcodes⟩ := exists_countryCodes_iff.mpr hall
    obtain ⟨text, htext⟩ := List.exists_mem_of_ne_nil countries hne
    obtain ⟨code, hcountry⟩ := hall text htext
    have hcode : code ∈ codes :=
      ((countryCodes_eq_ok_iff.mp hcodes).2.2 code).mpr ⟨text, htext, hcountry⟩
    unfold geoBlockRule
    rw [hcodes]
    simp only [bind, Except.bind, List.isEmpty_iff, List.ne_nil_of_mem hcode, if_false]
    exact ⟨_, rfl⟩

/-- **The rule is a function of the set of codes.** -/
theorem geoBlockRule_congr {countries others : List String}
    (hall : ∀ text ∈ countries, ∃ code, IsCountry text code)
    (hall' : ∀ text ∈ others, ∃ code, IsCountry text code)
    (hsame : ∀ code, (∃ text ∈ others, IsCountry text code) ↔
      ∃ text ∈ countries, IsCountry text code) :
    geoBlockRule others = geoBlockRule countries := by
  obtain ⟨codes, hcodes⟩ := exists_countryCodes_iff.mpr hall
  obtain ⟨-, hordered, hmem⟩ := countryCodes_eq_ok_iff.mp hcodes
  have hcodes' : countryCodes others = .ok codes :=
    countryCodes_eq_ok_iff.mpr ⟨hall', hordered, fun code => (hmem code).trans (hsame code).symm⟩
  unfold geoBlockRule
  rw [hcodes, hcodes']

/-! ## Scenarios -/

/-- The condition on a code, compiled. -/
def CompiledCondition.ofCode (code : String) : CompiledCondition :=
  ⟨.countryCode, .equals, .compare "evt.Enriched.IsoCode" .equal code⟩

/-- The code of a country is no blank text, so that a condition can look for it. -/
theorem ofCondition_code {text code : String} (h : IsCountry text code) :
    CompiledCondition.ofCondition ⟨"country_code", "equals", code⟩ = .ok (.ofCode code) := by
  obtain ⟨a, b, -, ha, -, rfl⟩ := h
  have hupper : a.toUpper.isUpper = true := (Text.isUpper_toUpper a).trans ha
  have hletter : Text.isBlank a.toUpper = false := by
    refine Text.not_isBlank_of_isAlphanum ((Text.isAlphanum_iff _).mpr ?_)
    exact .inr (.inl ((Text.isUpper_iff _).mp hupper))
  have hblank : Text.isBlankText (String.ofList [a.toUpper, b.toUpper]) = false := by
    rw [Text.isBlankText, String.toList_ofList, List.all_cons, hletter, Bool.false_and]
  have hfield : Field.ofName (Text.trimmed "country_code") = .ok .countryCode := rfl
  have hoperator : Operator.ofName (Text.trimmed "equals") = .ok .equals := rfl
  unfold CompiledCondition.ofCondition
  rw [hfield, hoperator]
  simp only [bind, Except.bind, hblank]
  rfl

variable {codes : List String} {rule : Rule}

/-- A rule whose conditions are the codes of countries has a scenario. -/
theorem exists_scenarioOf_codes (hne : codes ≠ [])
    (hcodes : ∀ code ∈ codes, ∃ text, IsCountry text code)
    (hconditions : rule.conditions = codes.map fun code => ⟨"country_code", "equals", code⟩)
    {ns uuid : String} (huuid : isUuid uuid = true) {duration : UInt64} :
    ∃ scenario, scenarioOf ns uuid rule duration = .ok scenario := by
  obtain ⟨code, others, rfl⟩ := List.exists_cons_of_ne_nil hne
  have hparts : rule.conditions.mapM CompiledCondition.ofCondition =
      .ok ((code :: others).map .ofCode) := by
    rw [hconditions, Except.mapM_eq_ok_iff, List.forall₂_map_left_iff, List.forall₂_map_right_iff,
      List.forall₂_same]
    intro x hx
    obtain ⟨text, htext⟩ := hcodes x hx
    exact ofCondition_code htext
  refine ⟨_, scenarioOf_eq_ok_iff.mpr ⟨huuid, _, _, hparts, ?_, rfl⟩⟩
  have hnone : ((code :: others).map CompiledCondition.ofCode).countP (·.operator.isNegated) = 0 :=
    List.countP_eq_zero.mpr (List.forall_mem_map.mpr fun _ _ => Bool.false_ne_true)
  exact if_pos hnone

theorem meets_codes_iff (hjoiner : rule.joiner = .or)
    (hconditions : rule.conditions = codes.map fun code => ⟨"country_code", "equals", code⟩)
    (event : String → String) (found : String → String → Bool) :
    rule.meets event found = true ↔ event "evt.Enriched.IsoCode" ∈ codes := by
  have hfield : Field.ofName (Text.trimmed "country_code") = .ok .countryCode := rfl
  have hoperator : Operator.ofName (Text.trimmed "equals") = .ok .equals := rfl
  have hmeets : ∀ code, Condition.meets event found ⟨"country_code", "equals", code⟩ =
      (event "evt.Enriched.IsoCode" == code) := fun code => by
    rw [Condition.meets, hfield, hoperator]
    rfl
  rw [Rule.meets, hjoiner, hconditions, List.any_map, List.any_eq_true]
  simp only [Function.comp_apply, hmeets, beq_iff_eq, exists_eq_right']

/-- **Blocking countries means a set of countries.** There is a rule if there are countries, and
nothing else among them. It is a function of the set of their codes. Its conditions are these
codes, in order and each once. Saved under whatever number it compiles for every uuid that can be
one, and read by the grammar of the engine its filter is the guard and a body that holds on the
events from one of these countries. -/
theorem geoBlockRule_means_set (countries : List String) :
    ((∃ rule, geoBlockRule countries = .ok rule) ↔
      countries ≠ [] ∧ ∀ text ∈ countries, ∃ code, IsCountry text code) ∧
    (∀ others : List String, (∀ text ∈ countries, ∃ code, IsCountry text code) →
      (∀ text ∈ others, ∃ code, IsCountry text code) →
      (∀ code, (∃ text ∈ others, IsCountry text code) ↔ ∃ text ∈ countries, IsCountry text code) →
      geoBlockRule others = geoBlockRule countries) ∧
    ∀ rule, geoBlockRule countries = .ok rule → ∃ codes : List String,
      codes.Pairwise (· < ·) ∧
      (∀ code, code ∈ codes ↔ ∃ text ∈ countries, IsCountry text code) ∧
      (rule.conditions = codes.map fun code => ⟨"country_code", "equals", code⟩) ∧
      ∀ (id owner : UInt64) (settings : Settings.Scenarios) (firewall : Firewall) (uuid : String),
        isUuid uuid = true → ∃ scenario body,
          { rule with id := id, firewallId := owner }.compile settings uuid firewall =
            .ok (.scenario scenario) ∧
          (∀ e, Filter.Reads scenario.filter e ↔
            e = .both (.both proxyLines (guardFor uuid)) (.group body)) ∧
          ∀ event found, body.holds event found = true ↔ event "evt.Enriched.IsoCode" ∈ codes := by
  refine ⟨exists_geoBlockRule_iff, fun others => geoBlockRule_congr, fun rule hrule => ?_⟩
  obtain ⟨codes, hcodes, hne, hban, hjoiner, hconditions⟩ := of_geoBlockRule hrule
  obtain ⟨-, hordered, hmem⟩ := countryCodes_eq_ok_iff.mp hcodes
  refine ⟨codes, hordered, hmem, hconditions, fun id owner settings firewall uuid huuid => ?_⟩
  let saved : Rule := { rule with id := id, firewallId := owner }
  have hcountries : ∀ code ∈ codes, ∃ text, IsCountry text code := by
    intro code hcode
    obtain ⟨text, -, htext⟩ := (hmem code).mp hcode
    exact ⟨text, htext⟩
  obtain ⟨scenario, hscenario⟩ : ∃ scenario, scenarioOf settings.ns uuid saved
      (saved.durationIn firewall) = .ok scenario :=
    @exists_scenarioOf_codes codes saved hne hcountries hconditions _ _ huuid _
  obtain ⟨body, hreads, hbody⟩ := reads_of_scenarioOf hscenario
  have hcompile : saved.compile settings uuid firewall = .ok (.scenario scenario) := by
    have hsaved : saved.isBan = false := hban
    rw [Rule.compile, hsaved, hscenario]
    rfl
  refine ⟨scenario, body, hcompile, fun e => ⟨fun he => Filter.reads_unique hreads he, ?_⟩, ?_⟩
  · rintro rfl
    exact hreads
  · intro event found
    rw [hbody]
    exact meets_codes_iff hjoiner hconditions event found

/-- Two countries, spelled in three ways and out of order. -/
theorem geoBlockRule_means_set_two :
    geoBlockRule ["ru", " CN\n", "RU"] = geoBlockRule ["CN", "RU"] ∧
      ∃ rule, geoBlockRule ["CN", "RU"] = .ok rule ∧ isUuid "abc" = true ∧ ∃ scenario body,
        rule.compile default "abc" { id := 1, enabled := true } = .ok (.scenario scenario) ∧
        Filter.Reads scenario.filter (.both (.both proxyLines (guardFor "abc")) (.group body)) ∧
        ∀ event found,
          body.holds event found = true ↔ event "evt.Enriched.IsoCode" ∈ ["CN", "RU"] := by
  have hlower : countryCode? "ru" = some "RU" := by decide
  have hblanks : countryCode? " CN\n" = some "CN" := by decide
  have hupper : countryCode? "RU" = some "RU" := by decide
  have hcode : countryCode? "CN" = some "CN" := by decide
  obtain ⟨hexists, hsame, hrule⟩ := geoBlockRule_means_set ["CN", "RU"]
  have hall : ∀ text ∈ ["CN", "RU"], ∃ code, IsCountry text code := by
    simp [← countryCode?_eq_some_iff, hupper, hcode]
  have hcodes : ∀ code, (∃ text ∈ ["CN", "RU"], IsCountry text code) ↔ code ∈ ["CN", "RU"] := by
    simp [← countryCode?_eq_some_iff, hupper, hcode, eq_comm]
  refine ⟨hsame _ hall ?_ fun code => ?_, ?_⟩
  · simp [← countryCode?_eq_some_iff, hlower, hblanks, hupper]
  · rw [hcodes]
    simp only [List.exists_mem_cons_iff, List.not_mem_nil, false_and, exists_false, or_false,
      ← countryCode?_eq_some_iff, hlower, hblanks, hupper, Option.some.injEq]
    grind
  · obtain ⟨rule, hmade⟩ := hexists.mpr ⟨by decide, hall⟩
    obtain ⟨codes, -, hmem, -, hcompiles⟩ := hrule rule hmade
    obtain ⟨scenario, body, hscenario, hreads, hbody⟩ :=
      hcompiles rule.id rule.firewallId default { id := 1, enabled := true } "abc" (by decide)
    refine ⟨rule, hmade, by decide, scenario, body, hscenario, (hreads _).mpr rfl,
      fun event found => ?_⟩
    rw [hbody, hmem, hcodes]

end Rampart
