import Rampart.Event.Wire
import Rampart.Proofs.Json.Decode
import Rampart.Proofs.Time
import Rampart.Server.Wire

/-!
# Rules, servers and their events are given back by their forms

* `Condition.givesBack`, **`Rule.givesBack`**: a rule of any mode, with or without its optional
  fields.
* **`RuleEvent.givesBack`**, **`ServerEvent.givesBack`**: what is announced of rules and servers.
* `Status.IsProper`, `Server.IsProper`: results of checks stand in order of the components' names,
  each name once, and the last check was at a time that there is.
* `Progress.givesBack`: a step of the set-up, whether or not it concerns a component.
* **`Server.givesBack`**: a server of any flags and details.
-/

namespace Rampart

open Json (GivesBack givesBack_boolean givesBack_dictionary givesBack_list givesBack_nullable
  givesBack_obj givesBack_signed32 givesBack_string givesBack_word givesBack_word16 haveExact_cons)
open Json.Fields (read_map read_optional read_orNull read_required read_seq read_withDefault)

theorem Mode.givesBack (mode : Mode) : GivesBack Mode.decode (encode mode) mode := by
  cases mode <;> exact ⟨rfl, rfl⟩

theorem Action.givesBack (action : Action) : GivesBack Action.decode (encode action) action := by
  cases action <;> exact ⟨rfl, rfl⟩

theorem Joiner.givesBack (joiner : Joiner) : GivesBack Joiner.decode (encode joiner) joiner := by
  cases joiner <;> exact ⟨rfl, rfl⟩

theorem Condition.givesBack (c : Condition) : GivesBack Condition.fields.decode (encode c) c := by
  have hfield := givesBack_string c.field
  have hoperator := givesBack_string c.operator
  have hvalue := givesBack_string c.value
  exact givesBack_obj rfl rfl (read_seq (read_seq (read_map (read_required hfield rfl))
    (read_required hoperator rfl)) (read_required hvalue rfl))

/-- **A rule is given back by its form.** -/
theorem Rule.givesBack (r : Rule) : GivesBack Rule.decode (encode r) r := by
  have hid := givesBack_word r.id
  have hfirewall := givesBack_word r.firewallId
  have hname := givesBack_string r.name
  have hdescription : GivesBack (Json.nullable Json.string) (encode r.description) r.description :=
    givesBack_nullable (fun s _ => givesBack_string s) (fun _ _ => nofun)
  have hmode := r.mode.givesBack
  have haction := r.action.givesBack
  have henabled := givesBack_boolean r.enabled
  have hjoiner := r.joiner.givesBack
  have hconditions : GivesBack (Json.list Condition.fields.decode) (encode r.conditions)
      r.conditions :=
    givesBack_list fun c _ => c.givesBack
  have hpriority := givesBack_signed32 r.priority
  have hduration : GivesBack (Json.nullable Json.word) (encode r.duration) r.duration :=
    givesBack_nullable (fun n _ => givesBack_word n) (fun _ _ => nofun)
  refine givesBack_obj ?_ rfl (read_seq (read_seq (read_seq (read_seq (read_seq (read_seq
    (read_seq (read_seq (read_seq (read_seq (read_map (read_withDefault hid rfl))
      (read_withDefault hfirewall rfl)) (read_required hname rfl))
      (read_optional hdescription rfl)) (read_required hmode rfl)) (read_required haction rfl))
      (read_withDefault henabled rfl)) (read_withDefault hjoiner rfl))
      (read_required hconditions rfl)) (read_withDefault hpriority rfl))
      (read_optional hduration rfl))
  exact haveExact_cons hid _ <| haveExact_cons hfirewall _ <| haveExact_cons hname _ <|
    haveExact_cons hdescription _ <| haveExact_cons hmode _ <| haveExact_cons haction _ <|
    haveExact_cons henabled _ <| haveExact_cons hjoiner _ <| haveExact_cons hconditions _ <|
    haveExact_cons hpriority _ <| haveExact_cons hduration _ rfl

theorem Rule.encode_ne_null (r : Rule) : encode r ≠ .null := nofun

/-! ## Events -/

namespace Json

variable {α : Type} {tag kind : String} {members : List (String × Json)}

theorem repeats_tag (h : members.any (·.1 == tag) = false) :
    Fields.repeats [tag] members = false := by
  induction members with
  | nil => rfl
  | cons entry members ih =>
    rw [List.any_cons, Bool.or_eq_false_iff] at h
    have hother : [tag].contains entry.1 = false := by
      rw [List.contains_cons, h.1]
      rfl
    rw [Fields.repeats, hother, ih h.2]
    rfl

theorem filter_tag (h : members.any (·.1 == tag) = false) :
    members.filter (·.1 != tag) = members := by
  refine List.filter_eq_self.mpr fun entry hentry => ?_
  simpa using List.any_eq_false.mp h entry hentry

/-- **A record is decoded by its kind**, which stands first among its members. -/
theorem tagged_obj {kinds : List (String × Decoder α)} {decode : Decoder α} {a : α}
    (hkind : kinds.lookup kind = some decode) (hexact : haveExact members = true)
    (habsent : members.any (·.1 == tag) = false) (hdecode : decode (.obj members) = .ok a) :
    tagged tag kinds (.obj (member tag kind :: members)) = .ok a := by
  have hcut : haveCutShort (member tag kind :: members) = false :=
    haveCutShort_of_haveExact (haveExact_cons (givesBack_string kind) tag hexact)
  have hrepeats : Fields.repeats [tag] (member tag kind :: members) = false := by
    rw [member, Fields.repeats, habsent, repeats_tag habsent, Bool.and_false]
    rfl
  have hfind : (member tag kind :: members).find? (·.1 == tag) = some (tag, .str kind) :=
    List.find?_cons_of_pos (beq_self_eq_true tag)
  have hfilter : (member tag kind :: members).filter (·.1 != tag) = members := by
    rw [List.filter_cons_of_neg (by simp [member]), filter_tag habsent]
  simp only [tagged, hcut, hrepeats, hfind, hfilter, Bool.false_eq_true, if_false,
    Option.map_some, kindOf, hkind]
  exact hdecode

/-- **A record is given back by its kind** and the fields of that kind. -/
theorem givesBack_tagged {kinds : List (String × Decoder α)} (fields : Fields α) {a : α}
    (hkind : kinds.lookup kind = some fields.decode) (hexact : haveExact members = true)
    (habsent : members.any (·.1 == tag) = false)
    (hrepeats : Fields.repeats fields.names members = false)
    (hread : fields.read (Fields.given members) = .ok a) :
    GivesBack (tagged tag kinds) (.obj (member tag kind :: members)) a where
  isExact := haveExact_cons (givesBack_string kind) tag hexact
  decode_eq := tagged_obj hkind hexact habsent (Fields.decode_obj hexact hrepeats hread)

end Json

open Json (givesBack_tagged)

/-- **An event of a rule is given back by its form.** -/
theorem RuleEvent.givesBack (e : RuleEvent) : GivesBack RuleEvent.decode (encode e) e := by
  cases e with
  | saved rule firewall previous =>
    have hrule := givesBack_word rule
    have hfirewall := givesBack_word firewall
    have hprevious : GivesBack (Json.nullable Rule.decode) (encode previous) previous :=
      givesBack_nullable (fun r _ => r.givesBack) (fun r _ => r.encode_ne_null)
    refine givesBack_tagged savedFields rfl ?_ rfl rfl (read_seq (read_seq (read_map
      (read_required hrule rfl)) (read_required hfirewall rfl)) (read_optional hprevious rfl))
    exact haveExact_cons hrule _ <| haveExact_cons hfirewall _ <|
      haveExact_cons hprevious _ rfl
  | deleted rule firewall =>
    have hrule := rule.givesBack
    have hfirewall := givesBack_word firewall
    refine givesBack_tagged deletedFields rfl ?_ rfl rfl (read_seq (read_map
      (read_required hrule rfl)) (read_required hfirewall rfl))
    exact haveExact_cons hrule _ <| haveExact_cons hfirewall _ rfl
  | firewallChanged firewall =>
    have hfirewall := givesBack_word firewall
    exact givesBack_tagged changedFields rfl (haveExact_cons hfirewall _ rfl) rfl rfl
      (read_map (read_required hfirewall rfl))

/-- **An event of a server is given back by its form.** -/
theorem ServerEvent.givesBack (e : ServerEvent) : GivesBack ServerEvent.decode (encode e) e := by
  cases e with
  | created server =>
    have hserver := givesBack_word server
    exact givesBack_tagged (.created <$> serverField) rfl (haveExact_cons hserver _ rfl) rfl
      rfl (read_map (read_required hserver rfl))
  | becameReachable server =>
    have hserver := givesBack_word server
    exact givesBack_tagged (.becameReachable <$> serverField) rfl
      (haveExact_cons hserver _ rfl) rfl rfl (read_map (read_required hserver rfl))

/-! ## Servers -/

theorem Component.givesBack (component : Component) :
    GivesBack Component.decode (encode component) component := by
  cases component <;> exact ⟨rfl, rfl⟩

theorem Health.givesBack (h : Health) : GivesBack Health.fields.decode (encode h) h := by
  have hhealthy := givesBack_boolean h.healthy
  have hmessage := givesBack_string h.message
  exact givesBack_obj (haveExact_cons hhealthy _ <| haveExact_cons hmessage _ rfl) rfl
    (read_seq (read_map (read_required hhealthy rfl)) (read_required hmessage rfl))

theorem Progress.givesBack (p : Progress) : GivesBack Progress.decode (encode p) p := by
  cases p with
  | requested | validating | validated => exact ⟨rfl, rfl⟩
  | installing component | failed component => cases component <;> exact ⟨rfl, rfl⟩

/-- Results stand in order of their names, each name once, and the time is one that there is. -/
structure Status.IsProper (status : Status) : Prop where
  details : status.details.Pairwise fun a b => a.1 < b.1
  validatedAt : ∀ i ∈ status.validatedAt, i.IsProper

/-- A server has a proper status. -/
def Server.IsProper (s : Server) : Prop :=
  s.status.IsProper

theorem Status.givesBack {status : Status} (h : status.IsProper) :
    GivesBack Status.decode (encode status) status := by
  have hinstalled := givesBack_boolean status.engineInstalled
  have havailable := givesBack_boolean status.engineAvailable
  have happsec := givesBack_boolean status.appsecAvailable
  have hrequests := givesBack_boolean status.requestLogging
  have hheaders := givesBack_boolean status.headerLogging
  have hshipping := givesBack_boolean status.logShipping
  have htraffic := givesBack_boolean status.trafficLogger
  have hvalidated := givesBack_boolean status.validated
  have hat : GivesBack (Json.nullable Instant.decode) (encode status.validatedAt)
      status.validatedAt :=
    givesBack_nullable (fun i hi => Instant.givesBack (h.validatedAt i hi)) (fun _ _ => nofun)
  have hdetails := givesBack_dictionary h.details fun entry _ => entry.2.givesBack
  refine givesBack_obj ?_ rfl (read_seq (read_seq (read_seq (read_seq (read_seq (read_seq (read_seq
    (read_seq (read_seq (read_map (read_required hinstalled rfl)) (read_required havailable rfl))
      (read_required happsec rfl)) (read_required hrequests rfl)) (read_required hheaders rfl))
      (read_required hshipping rfl)) (read_required htraffic rfl)) (read_required hvalidated rfl))
      (read_orNull hat rfl)) (read_withDefault hdetails rfl))
  exact haveExact_cons hinstalled _ <| haveExact_cons havailable _ <| haveExact_cons happsec _ <|
    haveExact_cons hrequests _ <| haveExact_cons hheaders _ <| haveExact_cons hshipping _ <|
    haveExact_cons htraffic _ <| haveExact_cons hvalidated _ <| haveExact_cons hat _ <|
    haveExact_cons hdetails _ rfl

/-- **A server is given back by its form.** -/
theorem Server.givesBack {s : Server} (h : s.IsProper) :
    GivesBack Server.decode (encode s) s := by
  have hid := givesBack_word s.id
  have hname := givesBack_string s.name
  have hhost := givesBack_string s.host
  have huser := givesBack_string s.user
  have hport := givesBack_word16 s.port
  have hstatus := Status.givesBack h
  have hprogress := s.progress.givesBack
  refine givesBack_obj ?_ rfl (read_seq (read_seq (read_seq (read_seq (read_seq (read_seq
    (read_map (read_required hid rfl)) (read_required hname rfl)) (read_required hhost rfl))
      (read_withDefault huser rfl)) (read_withDefault hport rfl)) (read_withDefault hstatus rfl))
      (read_withDefault hprogress rfl))
  exact haveExact_cons hid _ <| haveExact_cons hname _ <| haveExact_cons hhost _ <|
    haveExact_cons huser _ <| haveExact_cons hport _ <| haveExact_cons hstatus _ <|
    haveExact_cons hprogress _ rfl

end Rampart
