import Rampart.Alert
import Rampart.Orchestrator.Audit
import Rampart.Proofs.Scenario.Names
import Rampart.Proofs.Scenario.Slug
import Rampart.Proofs.Text.Piece

/-!
# Whose a name is

Scenarios, their files and the reasons of bans have names that are put together from a namespace, a
uuid, the slug of a rule's name and its number. Slugs and uuids may hold the hyphen that stands in
front of the number, and a namespace may hold slashes; the names can be taken apart all the same.

* `scenarioName_inj`, `scenarioFileName_uuid_inj`, `banReason_inj`: what a name tells.
* **`ownerOf?_eq_some_iff`**: when a name is attributed to an application.
* `ownerOf?_scenarioName`, `ownerOf?_banReason`: names are attributed to the application that they
  were made for.
* `ownerOf?_eq_some_iff_start`, `ownNames_eq_filter`: audits attribute names as alerts do.
* **`names_tell_owner_and_rule`**: all of it.
-/

namespace Rampart

/-! ## Characters of names -/

theorem toList_scenarioName (ns uuid : String) (rule : Rule) :
    (scenarioName ns uuid rule).toList =
      (ns.toList ++ ['/']) ++
        (uuid.toList ++ '/' :: ((slug rule.name).toList ++ '-' :: (toString rule.id).toList)) := by
  have h : scenarioName ns uuid rule =
      ns ++ "/" ++ uuid ++ "/" ++ slug rule.name ++ "-" ++ toString rule.id := rfl
  rw [h]
  simp

theorem toList_banReason (ns uuid : String) (id : UInt64) :
    (banReason ns uuid id).toList =
      (ns.toList ++ ['/']) ++ (uuid.toList ++ '/' :: ("rule-".toList ++ (toString id).toList)) := by
  have h : banReason ns uuid id = ns ++ "/" ++ uuid ++ "/rule-" ++ toString id := rfl
  have hslash : "/".toList = ['/'] := rfl
  have hrule : "/rule-".toList = '/' :: "rule-".toList := rfl
  simp only [h, String.toList_append, hslash, hrule, List.append_assoc, List.cons_append]

theorem toList_ownedStart (uuid : String) : (ownedStart uuid).toList = uuid.toList ++ ['.'] := by
  simp [ownedStart]

theorem toList_auditStart (ns uuid : String) :
    (Audit.start ns uuid).toList = (ns.toList ++ ['/']) ++ (uuid.toList ++ ['/']) := by
  have h : Audit.start ns uuid = ns ++ "/" ++ uuid ++ "/" := rfl
  rw [h]
  simp

/-! ## What names tell -/

/-- A number at the end, behind a hyphen, can be read off. -/
theorem hyphen_number_inj {front front' : List Char} {m n : UInt64}
    (h : front ++ '-' :: (toString m).toList = front' ++ '-' :: (toString n).toList) : m = n := by
  have hnot : ∀ k : UInt64, '-' ∉ (toString k).toList := fun k hmem =>
    absurd (Text.isDigit_of_mem_toString hmem) (by decide)
  exact Text.toString_inj (String.toList_inj.mp (cut_inj_last (hnot m) (hnot n) h).2)

/-- **The name of a scenario tells the application and the number of the rule.** -/
theorem scenarioName_inj {ns u v : String} (hu : isUuid u = true) (hv : isUuid v = true)
    {r s : Rule} (h : scenarioName ns u r = scenarioName ns v s) : u = v ∧ r.id = s.id := by
  have hchars := congrArg String.toList h
  rw [toList_scenarioName, toList_scenarioName] at hchars
  obtain ⟨huuid, hrest⟩ := cut_inj_first (not_mem_of_isUuid hu (by decide))
    (not_mem_of_isUuid hv (by decide)) (List.append_cancel_left hchars)
  exact ⟨String.toList_inj.mp huuid, hyphen_number_inj hrest⟩

/-- The name of a file starts with the mark of its application, and of no other. -/
theorem ownedStart_prefix_iff {u v : String} (hu : isUuid u = true) (hv : isUuid v = true)
    (r : Rule) : (ownedStart v).toList <+: (scenarioFileName u r).toList ↔ u = v := by
  rw [toList_ownedStart, toList_scenarioFileName]
  constructor
  · rintro ⟨rest, hrest⟩
    rw [List.append_assoc, List.singleton_append] at hrest
    have hcut := cut_inj_first (not_mem_of_isUuid hv (by decide))
      (not_mem_of_isUuid hu (by decide)) hrest
    exact (String.toList_inj.mp hcut.1).symm
  · rintro rfl
    exact ⟨_, by rw [List.append_assoc, List.singleton_append]⟩

/-- The name of a file tells the application. -/
theorem scenarioFileName_uuid_inj {u v : String} (hu : isUuid u = true) (hv : isUuid v = true)
    {r s : Rule} (h : scenarioFileName u r = scenarioFileName v s) : u = v := by
  have hstart := (ownedStart_prefix_iff hv hv s).mpr rfl
  rw [← h] at hstart
  exact (ownedStart_prefix_iff hu hv r).mp hstart

/-- **A reason tells the number of its rule.** -/
theorem banReason_inj {ns uuid : String} {a b : UInt64}
    (h : banReason ns uuid a = banReason ns uuid b) : a = b := by
  have hlists := congrArg String.toList h
  rw [toList_banReason, toList_banReason] at hlists
  have htail := List.append_cancel_left (List.append_cancel_left hlists)
  have hid := List.append_cancel_left (List.cons.inj htail).2
  exact Text.toString_inj (String.toList_inj.mp hid)

/-! ## To whom names are attributed -/

/-- **A name is attributed to what stands between the slash after the namespace and the next
one**, if anything does. -/
theorem ownerOf?_eq_some_iff {ns x owner : String} :
    ownerOf? ns x = some owner ↔ owner ≠ "" ∧ '/' ∉ owner.toList ∧
      ∃ rest, x.toList = (ns.toList ++ ['/']) ++ (owner.toList ++ '/' :: rest) := by
  unfold ownerOf?
  constructor
  · intro h
    split at h
    · rename_i tail htail
      split at h
      · rename_i front rest hcut
        split at h
        · cases h
        · rename_i hfront
          obtain rfl := Option.some.inj h
          obtain ⟨hnot, rfl⟩ := Text.cut?_eq_some_iff.mp hcut
          rw [String.toList_ofList]
          refine ⟨fun hempty => hfront ?_, hnot, rest, Text.startsWith?_eq_some_iff.mp htail⟩
          simpa using hempty
      · cases h
    · cases h
  · rintro ⟨hne, hnot, rest, hx⟩
    have hsome : owner.toList.isEmpty = false := by simpa using hne
    rw [hx, Text.startsWith?_append]
    simp only [Text.cut?_append_cons hnot, hsome, String.ofList_toList]
    rfl

/-- Uuids are owners that a name can be attributed to. -/
theorem ownerOf?_of_isUuid {ns uuid x : String} (h : isUuid uuid = true) {rest : List Char}
    (hx : x.toList = (ns.toList ++ ['/']) ++ (uuid.toList ++ '/' :: rest)) :
    ownerOf? ns x = some uuid := by
  refine ownerOf?_eq_some_iff.mpr ⟨?_, not_mem_of_isUuid h (by decide), rest, hx⟩
  rintro rfl
  exact absurd h (by decide)

/-- **A scenario is attributed to the application** of its rule. -/
theorem ownerOf?_scenarioName {uuid : String} (h : isUuid uuid = true) (ns : String)
    (rule : Rule) : ownerOf? ns (scenarioName ns uuid rule) = some uuid :=
  ownerOf?_of_isUuid h (toList_scenarioName ns uuid rule)

/-- **A reason tells the application** of its rule. -/
theorem ownerOf?_banReason {uuid : String} (h : isUuid uuid = true) (ns : String) (id : UInt64) :
    ownerOf? ns (banReason ns uuid id) = some uuid :=
  ownerOf?_of_isUuid h (toList_banReason ns uuid id)

/-- **Audits attribute names as alerts do.** -/
theorem ownerOf?_eq_some_iff_start {ns x owner : String} (hne : owner ≠ "")
    (hnot : '/' ∉ owner.toList) :
    ownerOf? ns x = some owner ↔ (Audit.start ns owner).toList <+: x.toList := by
  rw [ownerOf?_eq_some_iff, toList_auditStart]
  constructor
  · rintro ⟨_, _, rest, hx⟩
    exact ⟨rest, by rw [hx]; simp⟩
  · rintro ⟨rest, hx⟩
    exact ⟨hne, hnot, rest, by rw [← hx]; simp⟩

/-- The names that an audit takes for an application's. -/
theorem ownNames_eq_filter {ns uuid : String} (h : isUuid uuid = true) (loaded : List String) :
    Audit.ownNames ns uuid loaded = loaded.filter fun x => ownerOf? ns x = some uuid := by
  refine List.filter_congr fun x _ => ?_
  have hne : uuid ≠ "" := by
    rintro rfl
    exact absurd h (by decide)
  rw [Bool.eq_iff_iff, List.isPrefixOf_iff_prefix, decide_eq_true_iff]
  exact (ownerOf?_eq_some_iff_start hne (not_mem_of_isUuid h (by decide))).symm

/-! ## Names, files, reasons and slugs -/

/-- **Names tell owner and rule.** Under any namespace, with any uuids that are admitted and any
rules: the name of a scenario and the name of its file tell the application and the rule's number;
a file starts with the mark of its own application only; scenarios and reasons of bans are
attributed to their application; a name is attributed to an owner exactly if an audit takes it for
that owner's; and a slug is made of groups of small letters and digits, with one hyphen between
two of them, and is its own slug. -/
theorem names_tell_owner_and_rule (ns : String) {u v : String} (hu : isUuid u = true)
    (hv : isUuid v = true) (r s : Rule) :
    (scenarioName ns u r = scenarioName ns v s → u = v ∧ r.id = s.id) ∧
    (scenarioFileName u r = scenarioFileName v s → u = v ∧ r.id = s.id) ∧
    ((ownedStart v).toList <+: (scenarioFileName u r).toList ↔ u = v) ∧
    ownerOf? ns (scenarioName ns u r) = some u ∧
    ownerOf? ns (banReason ns u r.id) = some u ∧
    (∀ x w : String, w ≠ "" → '/' ∉ w.toList →
      (ownerOf? ns x = some w ↔ (Audit.start ns w).toList <+: x.toList)) ∧
    (∀ loaded : List String,
      Audit.ownNames ns u loaded = loaded.filter fun x => ownerOf? ns x = some u) ∧
    ∀ name : String,
      (∃ groups : List (List Char), groups ≠ [] ∧
        (∀ group ∈ groups, group ≠ [] ∧ ∀ c ∈ group, isSlugLetter c = true) ∧
        (slug name).toList = ['-'].intercalate groups) ∧
      slug (slug name) = slug name := by
  refine ⟨scenarioName_inj hu hv, fun h => ?_, ownedStart_prefix_iff hu hv r,
    ownerOf?_scenarioName hu ns r, ownerOf?_banReason hu ns r.id,
    fun x w hne hnot => ownerOf?_eq_some_iff_start hne hnot, ownNames_eq_filter hu,
    fun name => ⟨(isSlug_slug name).exists_groups, slug_slug name⟩⟩
  obtain rfl := scenarioFileName_uuid_inj hu hv h
  exact ⟨rfl, scenarioFileName_inj h⟩

/-- A rule of some name and number. -/
def Demo.named (name : String) (id : UInt64) : Rule where
  id := id
  name := name
  mode := .inband
  action := .ban
  conditions := [{ field := "host", operator := "equals", value := "v" }]

/-- One uuid is the beginning of another, the rest of it begins the name of a rule, and the
namespace has a slash. -/
theorem names_tell_owner_and_rule_hyphens :
    (isUuid "shop" = true ∧ isUuid "shop-1" = true) ∧
    scenarioName "one/shop" "shop" (Demo.named "1 Ärger!" 7) ≠
      scenarioName "one/shop" "shop-1" (Demo.named "--rger" 7) ∧
    scenarioFileName "shop" (Demo.named "1 Ärger!" 7) ≠
      scenarioFileName "shop-1" (Demo.named "--rger" 7) ∧
    ¬ (ownedStart "shop-1").toList <+:
      (scenarioFileName "shop" (Demo.named "1 Ärger!" 7)).toList ∧
    ownerOf? "one/shop" (scenarioName "one/shop" "shop" (Demo.named "1 Ärger!" 7)) =
      some "shop" ∧
    ownerOf? "one/shop" (banReason "one/shop" "shop" 7) = some "shop" ∧
    ((slug "1 Ärger!").toList = "1-rger".toList ∧ slug (slug "1 Ärger!") = slug "1 Ärger!") := by
  have hu : isUuid "shop" = true := by decide
  have hv : isUuid "shop-1" = true := by decide
  have hne : "shop" ≠ "shop-1" := by decide
  obtain ⟨hname, hfile, hstart, howner, hreason, _, _, hslug⟩ :=
    names_tell_owner_and_rule "one/shop" hu hv (Demo.named "1 Ärger!" 7) (Demo.named "--rger" 7)
  exact ⟨⟨hu, hv⟩, fun h => hne (hname h).1, fun h => hne (hfile h).1, fun h => hne (hstart.mp h),
    howner, hreason, by decide, (hslug "1 Ärger!").2⟩

end Rampart
