import Rampart.Proofs.Scenario.Compiled
import Rampart.Proofs.Yaml.Document
import Rampart.Scenario.Document

/-!
# Scenario documents are read back

Names, descriptions and conditions are what users write, and they go into the document of a
scenario. Whatever they are, the document has the same keys, and behind each of them what the
scenario has there.

* `Scenario.values`: what the document of a scenario says.
* `areProper_entries`: the keys are plain, and the numbers are words.
* **`rendered_scenario_reads_back`**: every scenario of a rule is read back.
-/

namespace Rampart

open Yaml (Value areProper areProper_of_nodup isPlainKey isProper isWord_toString isWord meaning
  meanings read? read?_document resolve resolve_toString)

/-- What the document of an application's scenario says. -/
def Scenario.values (s : Scenario) (uuid : String) (capacity : UInt32) (leakSpeed : String) :
    List (String × Value) :=
  [("type", .text "leaky"),
   ("name", .text s.name),
   ("description", .text s.description),
   ("filter", .text s.filter),
   ("groupby", .text "evt.Meta.source_ip"),
   ("capacity", .integer capacity.toNat),
   ("leakspeed", .text leakSpeed),
   ("blackhole", .text (toString s.remediation.duration ++ "s")),
   ("labels", .mapping
     [("service", .text "http"),
      ("type", .text "firewall_rule"),
      ("remediation", .boolean true),
      ("remediation_type", .text s.remediation.action.name),
      ("remediation_duration", .integer s.remediation.duration.toNat),
      ("app_uuid", .text uuid)]),
   ("metadata", .mapping (s.metadata.map fun entry => (entry.1, .text entry.2)))]

section

variable {ns uuid : String} {rule : Rule} {duration : UInt64} {s : Scenario}

theorem areProper_metadata (h : scenarioOf ns uuid rule duration = .ok s) :
    areProper (s.metadata.map fun entry => (entry.1, .text entry.2)) = true := by
  obtain ⟨-, first, others, -, -, rfl⟩ := scenarioOf_eq_ok_iff.mp h
  refine areProper_of_nodup ?_ ?_ ?_
  · change ∀ key ∈ ["app_uuid", "protection_mode", "rule_id", "rule_name"], isPlainKey key = true
    decide +kernel
  · intro value hvalue
    simp only [scenarioFrom, List.map_cons, List.map_nil, List.mem_cons, List.not_mem_nil,
      or_false] at hvalue
    rcases hvalue with rfl | rfl | rfl | rfl <;> rfl
  · change ["app_uuid", "protection_mode", "rule_id", "rule_name"].Nodup
    decide

/-- **The document is one that is read back**: its keys are plain, and its numbers are words. -/
theorem areProper_entries (h : scenarioOf ns uuid rule duration = .ok s) (capacity : UInt32)
    (leakSpeed : String) : areProper (s.entries capacity leakSpeed) = true := by
  have hmetadata := areProper_metadata h
  have hcapacity : isWord (toString capacity) = true := isWord_toString capacity.toNat
  have hduration : isWord (toString s.remediation.duration) = true := isWord_toString _
  have hlabels : areProper [("service", .text "http"), ("type", .text "firewall_rule"),
      ("remediation", .scalar "true"), ("remediation_type", .text s.remediation.action.name),
      ("remediation_duration", .scalar (toString s.remediation.duration)),
      ("app_uuid", .text (s.uuid?.getD ""))] = true := by
    refine areProper_of_nodup ?_ ?_ ?_
    · change ∀ key ∈ ["service", "type", "remediation", "remediation_type", "remediation_duration",
        "app_uuid"], isPlainKey key = true
      decide +kernel
    · have hword : isWord "true" = true := by decide
      simp [isProper, hduration, hword]
    · change ["service", "type", "remediation", "remediation_type", "remediation_duration",
        "app_uuid"].Nodup
      decide
  refine areProper_of_nodup ?_ ?_ ?_
  · change ∀ key ∈ ["type", "name", "description", "filter", "groupby", "capacity", "leakspeed",
      "blackhole", "labels", "metadata"], isPlainKey key = true
    decide +kernel
  · simp [Scenario.entries, isProper, hcapacity, hlabels, hmetadata]
  · change ["type", "name", "description", "filter", "groupby", "capacity", "leakspeed",
      "blackhole", "labels", "metadata"].Nodup
    decide

/-- What the entries mean is what the scenario has. -/
theorem meanings_entries (h : scenarioOf ns uuid rule duration = .ok s) (capacity : UInt32)
    (leakSpeed : String) :
    meanings (s.entries capacity leakSpeed) = s.values uuid capacity leakSpeed := by
  have hcapacity : resolve (toString capacity) = .integer capacity.toNat :=
    resolve_toString (Nat.lt_trans capacity.toNat_lt (by decide))
  have hduration : resolve (toString s.remediation.duration) =
      .integer s.remediation.duration.toNat :=
    resolve_toString (Nat.lt_trans s.remediation.duration.toNat_lt (by decide))
  have huuid := (name_of_scenarioOf h).2.2.2
  obtain ⟨-, first, others, -, -, rfl⟩ := scenarioOf_eq_ok_iff.mp h
  simp only [Scenario.entries, Scenario.values, meanings, meaning, hcapacity, hduration, huuid]
  rfl

/-- **Every scenario of a rule is read back**: its document is one mapping, with these keys and what
the scenario has there, whatever the rule's name, its description and its conditions are. -/
theorem rendered_scenario_reads_back (h : scenarioOf ns uuid rule duration = .ok s)
    (capacity : UInt32) (leakSpeed : String) :
    read? (s.document capacity leakSpeed) =
      some (.mapping (s.values uuid capacity leakSpeed)) := by
  rw [← meanings_entries h]
  exact read?_document (areProper_entries h capacity leakSpeed)

end

/-! ## Texts that look like parts of a document -/

namespace Rendered

/-- A rule whose texts look like entries, an empty value and the end of a document. -/
def rule : Rule where
  id := 7
  name := "x\ntype: trigger\n"
  description := some "null"
  mode := .outofband
  action := .captcha
  conditions := [⟨"host", "equals", "a: b # c\u2028..."⟩]

theorem exists_scenarioOf : ∃ s, scenarioOf "bastion" "0" rule 300 = .ok s :=
  ⟨_, rfl⟩

end Rendered

theorem rendered_scenario_reads_back_lookalike :
    ∃ s, scenarioOf "bastion" "0" Rendered.rule 300 = .ok s ∧
      s.metadata.lookup "rule_name" = some "x\ntype: trigger\n" ∧
      read? (s.document 5 "~") = some (.mapping (s.values "0" 5 "~")) := by
  obtain ⟨s, hs⟩ := Rendered.exists_scenarioOf
  refine ⟨s, hs, ?_, rendered_scenario_reads_back hs 5 "~"⟩
  obtain ⟨-, first, others, -, -, rfl⟩ := scenarioOf_eq_ok_iff.mp hs
  rfl

end Rampart
