import Rampart.Engine.Client
import Rampart.Proofs.Decision.Collection
import Rampart.Proofs.Net.Network
import Rampart.Proofs.Text.Piece

/-!
# What bans mean

The decisions of a rule say what its conditions say: an address is banned if a condition names it,
or names a network that it lies in. A target is written in one way only, whatever it was written as
by the user, so that the engine is asked about what it has been told.

* `IsTargetIn`: what a user may name in a value; `mem_targetsIn_iff`: that is what is found there.
* `Decision.Names`, `Decision.Covers`: the addresses that a user's text and a decision stand for.
* `Decision.target?_cases`: a target is an address, or a network of several addresses.
* `Decision.names_iff`, `target?_target`, `slash_mem_iff`, `targetsIn_target`: a target stands for
  what the text stands for, is read back, says its scope and is one word.
* `targetsIn_intercalate`: values joined by commas have the targets of all of them.
* `nodup_ips`, `exists_covers_iff`: no two decisions are about the same, and what they cover.
* `decisionsOf_joined_values`, `decisionsOf_joined_ips`: one condition can say what all of them say.
* **`decisions_mean_rule`**: when a rule has decisions, and what they are.
-/

namespace Rampart

/-! ## Targets in a value -/

/-- The text is not empty and stands in the value between commas or blanks. -/
def IsTargetIn (text value : String) : Prop :=
  text ≠ "" ∧ Text.Stands isTargetSeparator text.toList value.toList

theorem mem_targetsIn_iff {text value : String} :
    text ∈ targetsIn value ↔ IsTargetIn text value := by
  have hempty : text ≠ "" ↔ text.toList ≠ [] := String.toList_eq_nil_iff.not.symm
  unfold targetsIn IsTargetIn
  rw [hempty, ← Text.mem_fieldsBy_iff, List.mem_map]
  constructor
  · rintro ⟨piece, hpiece, rfl⟩
    rwa [String.toList_ofList]
  · exact fun htext => ⟨_, htext, String.ofList_toList⟩

/-- **Values joined by commas have the targets of all of them.** -/
theorem targetsIn_intercalate (values : List String) :
    targetsIn (",".intercalate values) = values.flatMap targetsIn := by
  have hcomma : ",".toList = [','] := rfl
  unfold targetsIn
  rw [String.toList_intercalate, hcomma]
  induction values with
  | nil => rfl
  | cons value values ih =>
    cases values with
    | nil => simp
    | cons next values =>
      rw [List.map_cons, List.map_cons, List.intercalate_cons_cons, List.append_assoc,
        List.singleton_append, Text.fieldsBy_append (by decide), List.map_append, ← List.map_cons,
        ih]
      rfl

/-- No character of an address separates targets. -/
theorem isTargetSeparator_eq_false {c : Char} (hle : 46 ≤ c.toNat) (hge : c.toNat ≤ 102) :
    isTargetSeparator c = false := by
  have hcomma : c ≠ ',' := by
    rintro rfl
    exact absurd hle (by decide)
  have hblank : Text.isBlank c = false := by
    unfold Text.isBlank
    simp only [Bool.or_eq_false_iff, Bool.and_eq_false_iff, decide_eq_false_iff_not,
      beq_eq_false_iff_ne]
    omega
  rw [isTargetSeparator, hblank, Bool.or_false, decide_eq_false hcomma]

namespace Decision

/-! ## What a target stands for -/

/-- The text is the address, or a network that it lies in. -/
def Names (text : String) (a : Address) : Prop :=
  Address.parse? text = some a ∨ ∃ n, Network.parse? text = some n ∧ a.LiesIn n

/-- The address is what the decision is about, or lies in it. -/
def Covers (ip : String) (scope : Scope) (a : Address) : Prop :=
  match scope with
  | .ip => Address.parse? ip = some a
  | .range => ∃ n, Network.parse? ip = some n ∧ a.LiesIn n

variable {text ip : String} {scope : Scope}

/-- **A target is an address, or a network of several addresses** without host bits, and stands for
the addresses that it has been made of. -/
theorem target?_cases (h : target? text = some (ip, scope)) :
    (∃ a, scope = .ip ∧ ip = a.toText ∧ ∀ b, Names text b ↔ a = b) ∨
      ∃ n, scope = .range ∧ ip = n.toText ∧ n.isSingle = false ∧ n.trunc = n ∧
        n.length ≤ Network.width n.address ∧ ∀ b, Names text b ↔ b.LiesIn n := by
  unfold target? at h
  split at h
  · rename_i a haddress
    obtain ⟨rfl, rfl⟩ := Prod.mk.inj (Option.some.inj h)
    refine .inl ⟨a, rfl, rfl, fun b => ?_⟩
    have hnetwork (n : Network) : Network.parse? text ≠ some n := fun hn =>
      Address.slash_not_mem_of_parse? haddress (Network.slash_mem_of_parse? hn)
    simp [Names, haddress, hnetwork]
  · rename_i haddress
    split at h
    · rename_i n hnetwork
      have hnames (b : Address) : Names text b ↔ b.LiesIn n := by
        simp [Names, haddress, hnetwork]
      split at h
      · rename_i hsingle
        obtain ⟨rfl, rfl⟩ := Prod.mk.inj (Option.some.inj h)
        exact .inl ⟨n.address, rfl, rfl, fun b =>
          (hnames b).trans (Network.liesIn_iff_of_isSingle hsingle b)⟩
      · rename_i hseveral
        obtain ⟨rfl, rfl⟩ := Prod.mk.inj (Option.some.inj h)
        have hwidth : Network.width n.trunc.address = Network.width n.address :=
          Network.width_clearHost n.length n.address
        refine .inr ⟨n.trunc, rfl, rfl, ?_, Network.trunc_trunc n, ?_, fun b => ?_⟩
        · rw [Network.isSingle, hwidth]
          exact Bool.not_eq_true _ ▸ hseveral
        · rw [hwidth]
          exact Network.le_width_of_parse? hnetwork
        · rw [hnames, Network.liesIn_trunc]
    · cases h

/-- A text is a target if it is an address or a network. -/
theorem isSome_target?_iff : (target? text).isSome = true ↔
    (∃ a, Address.parse? text = some a) ∨ ∃ n, Network.parse? text = some n := by
  unfold target?
  cases Address.parse? text with
  | some a => simp
  | none =>
    cases Network.parse? text with
    | some n =>
      dsimp only
      split <;> simp
    | none => simp

/-- The text of a network is no address. -/
theorem parse?_toText_eq_none (n : Network) : Address.parse? n.toText = none := by
  refine Option.eq_none_iff_forall_ne_some.mpr fun a ha => ?_
  refine Address.slash_not_mem_of_parse? ha ?_
  rw [Network.toList_toText]
  exact List.mem_append_right _ List.mem_cons_self

/-- **A target is read back.** -/
theorem target?_target (h : target? text = some (ip, scope)) :
    target? ip = some (ip, scope) := by
  rcases target?_cases h with ⟨a, rfl, rfl, _⟩ | ⟨n, rfl, rfl, hseveral, htrunc, hle, _⟩
  · simp only [target?, Address.parse?_toText]
  · simp only [target?, parse?_toText_eq_none, Network.parse?_toText hle, hseveral, htrunc,
      Bool.false_eq_true, if_false]

/-- **A target stands for what the text stands for.** -/
theorem names_iff (h : target? text = some (ip, scope)) (a : Address) :
    Names text a ↔ Covers ip scope a := by
  rcases target?_cases h with ⟨b, rfl, rfl, hnames⟩ | ⟨n, rfl, rfl, _, _, hle, hnames⟩
  · rw [hnames, Covers, Address.parse?_toText, Option.some.injEq]
  · simp [hnames, Covers, Network.parse?_toText hle]

/-- **A target says its scope.** -/
theorem slash_mem_iff (h : target? text = some (ip, scope)) :
    '/' ∈ ip.toList ↔ scope = .range := by
  rcases target?_cases h with ⟨a, rfl, rfl, _⟩ | ⟨n, rfl, rfl, _⟩
  · simp [Address.slash_not_mem_of_parse? (Address.parse?_toText a)]
  · simp [Network.toList_toText]

/-- A target has no character that separates targets. -/
theorem isTargetSeparator_target (h : target? text = some (ip, scope)) :
    ∀ c ∈ ip.toList, isTargetSeparator c = false := by
  have haddress (a : Address) : ∀ c ∈ a.toText.toList, isTargetSeparator c = false := by
    intro c hc
    obtain ⟨hle, hge⟩ := (Address.isChar_of_parse? (Address.parse?_toText a) c hc).toNat
    exact isTargetSeparator_eq_false hle hge
  rcases target?_cases h with ⟨a, rfl, rfl, _⟩ | ⟨n, rfl, rfl, _⟩
  · exact haddress a
  · intro c hc
    rw [Network.toList_toText] at hc
    rcases List.mem_append.mp hc with hc | hc
    · exact haddress n.address c hc
    · rcases List.mem_cons.mp hc with rfl | hc
      · decide
      · obtain ⟨hle, hge⟩ := Address.toNat_of_digitValue?
          (Address.isSome_of_mem_toDigits (by decide) (by decide) hc)
        exact isTargetSeparator_eq_false (by omega) hge

/-- **A target is one word.** -/
theorem targetsIn_target (h : target? text = some (ip, scope)) : targetsIn ip = [ip] := by
  have hempty : target? "" = none := by decide
  have hne : ip.toList ≠ [] := by
    intro hnil
    have hread := target?_target h
    rw [String.toList_eq_nil_iff.mp hnil, hempty] at hread
    cases hread
  unfold targetsIn
  rw [Text.fieldsBy_eq_singleton (isTargetSeparator_target h) hne, List.map_singleton,
    String.ofList_toList]

end Decision

/-! ## The decisions of a rule -/

section

variable {ns uuid : String} {rule : Rule} {duration : UInt64} {ds : List Decision}

/-- What a decision is about is the target of some text. -/
theorem exists_target?_of_mem (h : decisionsOf ns uuid rule duration = .ok ds) {d : Decision}
    (hd : d ∈ ds) : ∃ text, Decision.target? text = some (d.ip, d.scope) := by
  obtain ⟨target, htarget, rfl⟩ := (mem_decisionsOf_iff h).mp hd
  obtain ⟨_, _, text, _, htext⟩ := mem_targets_iff.mp htarget
  exact ⟨text, htext⟩

/-- **No two decisions are about the same target.** -/
theorem nodup_ips (h : decisionsOf ns uuid rule duration = .ok ds) : (ds.map (·.ip)).Nodup := by
  refine List.Nodup.map_on (fun d hd e he hip => ?_) (eq_of_decisionsOf h ▸ nodup_distinct _)
  obtain ⟨_, hd'⟩ := exists_target?_of_mem h hd
  obtain ⟨_, he'⟩ := exists_target?_of_mem h he
  have hread := (Decision.target?_target hd').symm.trans (hip ▸ Decision.target?_target he')
  have hscope : d.scope = e.scope := (Prod.mk.inj (Option.some.inj hread)).2
  obtain ⟨_, _, rfl⟩ := (mem_decisionsOf_iff h).mp hd
  obtain ⟨_, _, rfl⟩ := (mem_decisionsOf_iff h).mp he
  exact congrArg (rule.decision ns uuid duration) (Prod.ext hip hscope)

/-- **An address is covered if a condition names it.** -/
theorem exists_covers_iff (h : decisionsOf ns uuid rule duration = .ok ds) (a : Address) :
    (∃ d ∈ ds, Decision.Covers d.ip d.scope a) ↔
      ∃ c ∈ rule.conditions, ∃ text, IsTargetIn text c.value ∧ Decision.Names text a := by
  simp only [← mem_targetsIn_iff]
  constructor
  · rintro ⟨d, hd, hcovers⟩
    obtain ⟨target, htarget, rfl⟩ := (mem_decisionsOf_iff h).mp hd
    obtain ⟨c, hc, text, htext, hread⟩ := mem_targets_iff.mp htarget
    exact ⟨c, hc, text, htext, (Decision.names_iff hread a).mpr hcovers⟩
  · rintro ⟨c, hc, text, htext, hnames⟩
    obtain ⟨-, -, hconditions⟩ := exists_decisionsOf_iff.mp ⟨ds, h⟩
    obtain ⟨target, hread⟩ := Option.isSome_iff_exists.mp ((hconditions c hc).2.2 text htext)
    have htarget := mem_targets_iff.mpr ⟨c, hc, text, htext, hread⟩
    exact ⟨_, (mem_decisionsOf_iff h).mpr ⟨target, htarget, rfl⟩,
      (Decision.names_iff hread a).mp hnames⟩

/-! ## One condition for all -/

/-- The decisions of a rule with one condition. -/
theorem decisionsOf_singleton {c : Condition} (h : c.NamesTargets) :
    decisionsOf ns uuid { rule with conditions := [c] } duration =
      .ok (distinct ((Condition.targets [c]).map (rule.decision ns uuid duration))) := by
  obtain ⟨ds, hds⟩ : ∃ ds, decisionsOf ns uuid { rule with conditions := [c] } duration = .ok ds :=
    exists_decisionsOf_iff.mpr ⟨List.cons_ne_nil _ _, by simp, List.forall_mem_singleton.mpr h⟩
  rw [hds]
  exact congrArg _ (eq_of_decisionsOf hds)

/-- **One condition with the values of all** gives the same decisions. -/
theorem decisionsOf_joined_values (h : decisionsOf ns uuid rule duration = .ok ds) {c : Condition}
    (hban : c.isBan = true)
    (hvalue : c.value = ",".intercalate (rule.conditions.map (·.value))) :
    decisionsOf ns uuid { rule with conditions := [c] } duration = .ok ds := by
  obtain ⟨hsome, -, hconditions⟩ := exists_decisionsOf_iff.mp ⟨ds, h⟩
  have htexts : targetsIn c.value = rule.conditions.flatMap fun c => targetsIn c.value := by
    rw [hvalue, targetsIn_intercalate, List.flatMap_map]
  have hnames : c.NamesTargets := by
    refine ⟨hban, ?_, ?_⟩
    · obtain ⟨first, rest, hfirst⟩ := List.exists_cons_of_ne_nil hsome
      obtain ⟨-, hne, -⟩ := hconditions first (hfirst ▸ List.mem_cons_self)
      rw [htexts, hfirst, List.flatMap_cons]
      exact List.append_ne_nil_of_left_ne_nil hne _
    · intro text htext
      obtain ⟨other, hother, htext⟩ := List.mem_flatMap.mp (htexts ▸ htext)
      exact (hconditions other hother).2.2 text htext
  have htargets : Condition.targets [c] = Condition.targets rule.conditions := by
    rw [Condition.targets, List.flatMap_singleton, htexts, Condition.targets]
  rw [decisionsOf_singleton hnames, htargets, ← eq_of_decisionsOf h]

/-- **One condition with what the decisions are about** gives the same decisions. -/
theorem decisionsOf_joined_ips (h : decisionsOf ns uuid rule duration = .ok ds) {c : Condition}
    (hban : c.isBan = true) (hvalue : c.value = ",".intercalate (ds.map (·.ip))) :
    decisionsOf ns uuid { rule with conditions := [c] } duration = .ok ds := by
  have hread : ∀ d ∈ ds, Decision.target? d.ip = some (d.ip, d.scope) := fun d hd =>
    (exists_target?_of_mem h hd).elim fun _ => Decision.target?_target
  have htexts : targetsIn c.value = ds.map (·.ip) := by
    rw [hvalue, targetsIn_intercalate, List.flatMap_map, List.map_eq_flatMap]
    exact List.flatMap_congr fun d hd => Decision.targetsIn_target (hread d hd)
  have hnames : c.NamesTargets := by
    refine ⟨hban, ?_, fun text htext => ?_⟩
    · rw [htexts]
      exact fun hnil => decisionsOf_ne_nil h (List.map_eq_nil_iff.mp hnil)
    · obtain ⟨d, hd, rfl⟩ := List.mem_map.mp (htexts ▸ htext)
      rw [hread d hd]
      rfl
  have htargets : (Condition.targets [c]).map (rule.decision ns uuid duration) = ds := by
    rw [Condition.targets, List.flatMap_singleton, htexts, List.filterMap_map, List.map_filterMap]
    refine (List.filterMap_congr fun d hd => ?_).trans List.filterMap_some
    obtain ⟨target, -, rfl⟩ := (mem_decisionsOf_iff h).mp hd
    rw [Function.comp_apply, hread _ hd]
    rfl
  rw [decisionsOf_singleton hnames, htargets,
    distinct_of_nodup (List.Nodup.of_map _ (nodup_ips h))]

/-! ## The rule -/

theorem Condition.isBan_iff {c : Condition} : c.isBan = true ↔
    Field.ofName (Text.trimmed c.field) = .ok .sourceIp ∧
      Operator.ofName (Text.trimmed c.operator) = .ok .equals := by
  unfold isBan
  split
  · rename_i hfield hoperator
    exact iff_of_true rfl ⟨hfield, hoperator⟩
  · rename_i hother
    exact iff_of_false Bool.false_ne_true fun h => hother h.1 h.2

/-- The engine is asked about a target in the way in which it has been told about it. -/
theorem listCommand_eq (h : decisionsOf ns uuid rule duration = .ok ds) {d : Decision}
    (hd : d ∈ ds) (client : Engine.Client) :
    client.listCommand d.ip = client.command
      ["decisions", "list", Engine.Client.scopeFlag d.scope, d.ip, "-o", "json"] := by
  obtain ⟨_, htarget⟩ := exists_target?_of_mem h hd
  have hslash := Decision.slash_mem_iff htarget
  unfold Engine.Client.listCommand
  cases hscope : d.scope with
  | ip => simp [hslash, hscope, Engine.Client.scopeFlag]
  | range => simp [hslash, hscope, Engine.Client.scopeFlag]

end

/-- **The decisions of a rule mean what the rule says.** There are decisions if there are
conditions, not several of them joined by `and`, that compare the source address with some
addresses and networks. They cover what the conditions name and nothing else; no two of them are
about the same; what they are about is read back and says which scope it has. One condition has the
same decisions, with all that they are about or with the values of all conditions. -/
theorem decisions_mean_rule (ns uuid : String) (rule : Rule) (duration : UInt64) :
    ((∃ ds, decisionsOf ns uuid rule duration = .ok ds) ↔
      rule.conditions ≠ [] ∧ (rule.joiner = .and → rule.conditions.length ≤ 1) ∧
        ∀ c ∈ rule.conditions,
          Field.ofName (Text.trimmed c.field) = .ok .sourceIp ∧
          Operator.ofName (Text.trimmed c.operator) = .ok .equals ∧
          (∃ text, IsTargetIn text c.value) ∧
          ∀ text, IsTargetIn text c.value →
            (∃ a, Address.parse? text = some a) ∨ ∃ n, Network.parse? text = some n) ∧
    ∀ ds, decisionsOf ns uuid rule duration = .ok ds →
      (∀ a, (∃ d ∈ ds, Decision.Covers d.ip d.scope a) ↔
        ∃ c ∈ rule.conditions, ∃ text, IsTargetIn text c.value ∧ Decision.Names text a) ∧
      (ds.map (·.ip)).Nodup ∧
      (∀ d ∈ ds, Decision.target? d.ip = some (d.ip, d.scope) ∧
        ('/' ∈ d.ip.toList ↔ d.scope = .range) ∧
        ∀ client : Engine.Client, client.listCommand d.ip = client.command
          ["decisions", "list", Engine.Client.scopeFlag d.scope, d.ip, "-o", "json"]) ∧
      ∀ c : Condition, Field.ofName (Text.trimmed c.field) = .ok .sourceIp →
        Operator.ofName (Text.trimmed c.operator) = .ok .equals →
        (c.value = ",".intercalate (rule.conditions.map (·.value)) ∨
          c.value = ",".intercalate (ds.map (·.ip))) →
        decisionsOf ns uuid { rule with conditions := [c] } duration = .ok ds := by
  refine ⟨?_, fun ds h => ⟨exists_covers_iff h, nodup_ips h, fun d hd => ?_, ?_⟩⟩
  · have hsome (value : String) : targetsIn value ≠ [] ↔ ∃ text, text ∈ targetsIn value :=
      ⟨List.exists_mem_of_ne_nil _, fun ⟨_, htext⟩ => List.ne_nil_of_mem htext⟩
    simp only [exists_decisionsOf_iff, Condition.NamesTargets, Condition.isBan_iff, hsome,
      Decision.isSome_target?_iff, ← mem_targetsIn_iff, and_assoc, not_and, Nat.not_lt]
  · obtain ⟨_, htarget⟩ := exists_target?_of_mem h hd
    exact ⟨Decision.target?_target htarget, Decision.slash_mem_iff htarget, listCommand_eq h hd⟩
  · intro c hfield hoperator hvalue
    have hban := Condition.isBan_iff.mpr ⟨hfield, hoperator⟩
    rcases hvalue with hvalues | hips
    · exact decisionsOf_joined_values h hban hvalues
    · exact decisionsOf_joined_ips h hban hips

/-- Two conditions whose targets are three, one of them written in three ways. -/
def mixedBan : Rule where
  id := 3
  name := "Ban attacker"
  mode := .ipBan
  action := .ban
  joiner := .or
  conditions :=
    [⟨"ip_address", "equals", "10.1.2.3/16, 2001:DB8:0::1 10.1.0.0/16"⟩,
     ⟨" ip ", "equals", "9.9.9.9/32,10.1.255.255/16"⟩]

/-- The decisions of `mixedBan`. -/
def mixedDecisions : List Decision :=
  [("10.1.0.0/16", .range), ("2001:db8::1", .ip), ("9.9.9.9", .ip)].map
    (mixedBan.decision "bastion" "abc" 60)

/-- For `mixedBan`: an address within its network is covered, and what the decisions are about can
be written for its conditions. -/
theorem decisions_mean_rule_mixed :
    decisionsOf "bastion" "abc" mixedBan 60 = .ok mixedDecisions ∧
      (∃ d ∈ mixedDecisions, Decision.Covers d.ip d.scope (.v4 0x0A01FF07)) ∧
      (mixedDecisions.map (·.ip)).Nodup ∧
      decisionsOf "bastion" "abc" { mixedBan with
        conditions := [⟨"source_ip", "equals", "10.1.0.0/16,2001:db8::1,9.9.9.9"⟩] } 60 =
          .ok mixedDecisions := by
  have hdecisions : decisionsOf "bastion" "abc" mixedBan 60 = .ok mixedDecisions := by
    decide +kernel
  obtain ⟨hcovers, hnodup, -, hjoined⟩ :=
    (decisions_mean_rule "bastion" "abc" mixedBan 60).2 mixedDecisions hdecisions
  have hnetwork : Network.parse? "10.1.2.3/16" = some ⟨.v4 0x0A010203, 16⟩ := by
    decide +kernel
  have hlies : (Address.v4 0x0A01FF07).LiesIn ⟨.v4 0x0A010203, 16⟩ := ⟨rfl, by decide⟩
  have htarget : IsTargetIn "10.1.2.3/16" "10.1.2.3/16, 2001:DB8:0::1 10.1.0.0/16" :=
    mem_targetsIn_iff.mp (by decide +kernel)
  refine ⟨hdecisions, (hcovers _).mpr ⟨_, List.mem_cons_self, "10.1.2.3/16", htarget,
    .inr ⟨_, hnetwork, hlies⟩⟩, hnodup, ?_⟩
  exact hjoined ⟨"source_ip", "equals", "10.1.0.0/16,2001:db8::1,9.9.9.9"⟩ (by decide +kernel)
    (by decide +kernel) (.inr (by decide +kernel))

end Rampart
