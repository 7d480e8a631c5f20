import Rampart.Proofs.Scenario.Meaning

/-!
# Scenarios and the traffic of other applications

The guard of a filter looks for the uuid of its application somewhere in the name of the router or
of the host. Traffic of another application gets past it if that uuid is a part of the other one.

* `Text.hasText_iff`: the substring test, by its meaning.
* `IsOnlyTrafficOf`: router and host are exactly the uuid of one application.
* **`foreign_traffic_matched_iff`**: on such traffic, the filter of another application holds if
  and only if the own uuid is a part of the foreign one, the line is one of the proxy, and the
  conditions are met. Uuids of one length keep applications apart.
* **`traffic_of_longer_uuid_matched`**: the scenarios of `shop` match traffic of `shop2`.
-/

namespace Rampart

/-! ## Parts of texts -/

theorem Text.occursIn_iff (part text : List Char) :
    Text.occursIn part text = true ↔ part <:+: text := by
  induction text with
  | nil => rw [Text.occursIn, List.isEmpty_iff, List.infix_nil]
  | cons c text ih =>
    rw [Text.occursIn, Bool.or_eq_true, ih, List.isPrefixOf_iff_prefix, List.infix_cons_iff]

theorem Text.hasText_iff (text part : String) :
    Text.hasText text part = true ↔ part.toList <:+: text.toList :=
  Text.occursIn_iff part.toList text.toList

/-- A part that is no shorter than the whole is the whole. -/
theorem Text.eq_of_part_of_length {part text : String} (hpart : part.toList <:+: text.toList)
    (hlength : text.length ≤ part.length) : part = text := by
  refine String.toList_injective (hpart.eq_of_length ?_)
  have hle := hpart.length_le
  simp only [String.length_toList] at hle ⊢
  omega

/-! ## Guards on foreign traffic -/

/-- The event is about traffic of one application only: the names of router and host are its
uuid. -/
structure IsOnlyTrafficOf (uuid : String) (event : String → String) : Prop where
  router : event "evt.Meta.traefik_router_name" = uuid
  host : event "evt.Meta.http_host" = uuid

theorem isTrafficOf_iff_part {a b : String} {event : String → String}
    (h : IsOnlyTrafficOf b event) :
    isTrafficOf a event = true ↔
      event "evt.Parsed.program" = "traefik" ∧ a.toList <:+: b.toList := by
  unfold isTrafficOf
  rw [h.router, h.host, Bool.or_self, Bool.and_eq_true, beq_iff_eq, Text.hasText_iff]

/-! ## Filters on foreign traffic -/

/-- **When a filter matches foreign traffic**: the filter of application `a` stands for one tree.
On traffic of another application `b` only, that tree holds if and only if the uuid of `a` is a
part of the uuid of `b`, the line is one of the proxy, and the conditions are met. A uuid no
longer than that of `a` never gets there. -/
theorem foreign_traffic_matched_iff {ns a b : String} {rule : Rule} {duration : UInt64}
    {s : Scenario} (h : scenarioOf ns a rule duration = .ok s) (hab : a ≠ b) :
    ∃ e, Filter.Reads s.filter e ∧ (∀ e', Filter.Reads s.filter e' → e' = e) ∧
      ∀ event found, IsOnlyTrafficOf b event →
        (e.holds event found = true ↔ a.toList <:+: b.toList ∧
          event "evt.Parsed.program" = "traefik" ∧ rule.meets event found = true) ∧
        (b.length ≤ a.length → e.holds event found = false) := by
  obtain ⟨e, hreads, hholds⟩ := exists_reads_of_scenarioOf h
  refine ⟨e, hreads, fun e' he' => Filter.reads_unique hreads he', fun event found honly => ?_⟩
  have hiff : e.holds event found = true ↔ a.toList <:+: b.toList ∧
      event "evt.Parsed.program" = "traefik" ∧ rule.meets event found = true := by
    rw [hholds, Bool.and_eq_true, isTrafficOf_iff_part honly]
    tauto
  refine ⟨hiff, fun hlength => ?_⟩
  rw [Bool.eq_false_iff]
  intro hmatch
  exact hab (Text.eq_of_part_of_length (hiff.mp hmatch).1 hlength)

/-- A rule against requests for the files of a repository. -/
def repositoryRule : Rule where
  id := 1
  name := "Repository files"
  mode := .inband
  action := .ban
  conditions := [{ field := "request_path", operator := "contains", value := "/.git" }]

/-- Two uuids of one length: the filter of `shop` never holds on traffic of `blog`. -/
theorem foreign_traffic_matched_iff_shop :
    ∃ s, scenarioOf "bastion" "shop" repositoryRule 600 = .ok s ∧ "shop" ≠ "blog" ∧
      ∃ e, Filter.Reads s.filter e ∧ (∀ e', Filter.Reads s.filter e' → e' = e) ∧
        ∀ event found, IsOnlyTrafficOf "blog" event →
          (e.holds event found = true ↔ "shop".toList <:+: "blog".toList ∧
            event "evt.Parsed.program" = "traefik" ∧ repositoryRule.meets event found = true) ∧
          ("blog".length ≤ "shop".length → e.holds event found = false) := by
  obtain ⟨s, hs⟩ : ∃ s, scenarioOf "bastion" "shop" repositoryRule 600 = .ok s := ⟨_, by rfl⟩
  have hne : "shop" ≠ "blog" := by decide
  exact ⟨s, hs, hne, foreign_traffic_matched_iff hs hne⟩

/-- A request for the files of a repository that is routed to `shop2`. -/
def foreignRequest (accessor : String) : String :=
  match accessor with
  | "evt.Parsed.program" => "traefik"
  | "evt.Meta.traefik_router_name" => "shop2"
  | "evt.Meta.http_host" => "shop2"
  | "evt.Parsed.request" => "/.git/config"
  | _ => ""

/-- Both uuids are admitted and differ, the request is routed to `shop2` alone, and yet the filter
of `shop` holds on it. -/
theorem traffic_of_longer_uuid_matched :
    checkUuid "shop" = .ok () ∧ checkUuid "shop2" = .ok () ∧ "shop" ≠ "shop2" ∧
      IsOnlyTrafficOf "shop2" foreignRequest ∧
      ∃ s, scenarioOf "bastion" "shop" repositoryRule 600 = .ok s ∧
        ∃ e, Filter.Reads s.filter e ∧ (∀ e', Filter.Reads s.filter e' → e' = e) ∧
          ∀ found, e.holds foreignRequest found = true := by
  obtain ⟨s, hs⟩ : ∃ s, scenarioOf "bastion" "shop" repositoryRule 600 = .ok s := ⟨_, by rfl⟩
  obtain ⟨e, hreads, hholds⟩ := exists_reads_of_scenarioOf hs
  refine ⟨by decide, by decide, by decide, ⟨rfl, rfl⟩, s, hs, e, hreads,
    fun e' he' => Filter.reads_unique hreads he', fun found => ?_⟩
  have hguard : isTrafficOf "shop" foreignRequest = true := by decide
  have hmeets : repositoryRule.meets foreignRequest found = true := by rfl
  rw [hholds, hguard, hmeets, Bool.and_self]

end Rampart
