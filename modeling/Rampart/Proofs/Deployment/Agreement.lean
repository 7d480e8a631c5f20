import Rampart.Api.Handler
import Rampart.Proofs.Deployment.Shop
import Rampart.Proofs.Deployment.Uploads
import Rampart.Proofs.Orchestrator.Auditing

/-!
# Preview, sync and audit

What the rules of an application call for is worked out in three places: when it is previewed, when
it is written to a server, and when it is compared with what the engine has loaded.

* `alone_preview_iff`, `Audit.looked_eq`: what a preview shows, and what an audit expects.
* `IsLoaded`: an engine that has loaded what was uploaded, and what is foreign.
  **`IsLoaded.mem_iff`**: the foreign does not matter.
* `Agree`, `FailAlike`: what the three make of one state.
* **`preview_sync_audit_agree`**: they agree.
-/

namespace Rampart

open Execution

/-! ## What is shown, and what is expected -/

section

variable {ρ : Type} {o : Outside ρ} {w w' : Shared ρ} {s : Orchestrator} {uuid : String}
  {firewall : Firewall}

theorem Orchestrator.contextFor_eq (h : s.store.firewallFor uuid = .ok firewall) :
    s.contextFor uuid = s.contextOf firewall.id := by
  rw [contextFor, Store.contextFor, h]
  rfl

/-- **A preview** shows the files. -/
theorem alone_preview_iff (hfirewall : s.store.firewallFor uuid = .ok firewall)
    (hstate : w.state = s) {response : Api.Response} :
    Alone o w (Api.preview uuid) w' response ↔
      w' = w ∧ response = .ofResult 200 ((s.filesFor firewall.id).map (·.2)) := by
  have hfiles : (do
      let c ← s.contextFor uuid
      Failure.ofRule (c.files s.settings.scenarios)) = (s.filesFor firewall.id).map (·.2) := by
    rw [Orchestrator.contextFor_eq hfirewall, Orchestrator.filesFor]
    cases s.contextOf firewall.id with
    | error failure => rfl
    | ok c =>
      dsimp only [bind, Except.bind]
      cases Failure.ofRule (c.files s.settings.scenarios) <;> rfl
  rw [Api.preview, Api.look, alone_read_iff, hstate, hfiles]

/-- A file whose document is that of a scenario of some name. -/
def IsNamed (file : ScenarioFile) (name : String) : Prop :=
  ∃ entries, file.contents = Yaml.document entries ∧ entries.lookup "name" = some (.text name)

theorem Scenario.isNamed_file (s : Scenario) (capacity : UInt32) (leakSpeed : String) :
    IsNamed (s.file capacity leakSpeed) s.name :=
  ⟨s.entries capacity leakSpeed, rfl, rfl⟩

/-- **What an audit expects** are the names in the documents of the files, and all of them are the
application's. -/
theorem Audit.looked_eq (hfirewall : s.store.firewallFor uuid = .ok firewall)
    (hactive : ∀ c, s.contextOf firewall.id = .ok c → c.firewall.isActive = true) :
    match s.filesFor firewall.id with
    | .error failure => looked s uuid = .error failure
    | .ok (c, files) => ∃ names,
      Failure.ofRule (expectedNames c s.settings.scenarios) = .ok names ∧
      List.Forall₂ IsNamed files names ∧
      ∀ x ∈ names, (start s.settings.scenarios.ns c.uuid).toList <+: x.toList := by
  rw [Orchestrator.filesFor, looked, Orchestrator.contextFor_eq hfirewall]
  cases hc : s.contextOf firewall.id with
  | error failure => rfl
  | ok c =>
    dsimp only [bind, Except.bind]
    rw [expectedNames, if_pos (hactive c hc), Context.files]
    cases hscenarios : c.scenarios s.settings.scenarios with
    | error fault => rfl
    | ok scenarios =>
      refine ⟨scenarios.map (·.name), ?_, ?_, fun x hx => ?_⟩
      · rw [expectedNames, if_pos (hactive c hc), hscenarios]
        rfl
      · refine List.forall₂_map_left_iff.mpr (List.forall₂_map_right_iff.mpr ?_)
        exact List.forall₂_same.mpr fun scenario _ => scenario.isNamed_file _ _
      · obtain ⟨scenario, hmem, rfl⟩ := List.mem_map.mp hx
        obtain ⟨rule, _, hrule⟩ := (Except.mem_mapM_iff hscenarios).mp hmem
        obtain ⟨huuid, hname, -⟩ := name_of_scenarioOf hrule
        rw [hname]
        exact (start_prefix_scenarioName_iff huuid).mpr rfl

end

/-! ## Agreement -/

/-- The name of another application's scenario, or one that does not begin like this
application's. -/
inductive IsForeignName (ns uuid : String) : String → Prop
  | other (owner : String) (rule : Rule) (howner : isUuid owner = true) (hne : owner ≠ uuid) :
    IsForeignName ns uuid (scenarioName ns owner rule)
  | elsewhere (x : String) (h : ¬ (Audit.start ns uuid).toList <+: x.toList) :
    IsForeignName ns uuid x

/-- **An engine that has loaded what was uploaded** to its server, and foreign scenarios. It reads
the name in a document by `load`. -/
structure IsLoaded (ns uuid : String) (load : String → Option String) (server : Server)
    (uploads : List (Server × String)) (loaded : List String) : Prop where
  uploaded : ∀ contents x, (server, contents) ∈ uploads → load contents = some x → x ∈ loaded
  others : ∀ x ∈ loaded, (∃ contents, (server, contents) ∈ uploads ∧ load contents = some x) ∨
    IsForeignName ns uuid x

/-- **What preview, sync and audit make of one state**, in which the rules call for some files. -/
structure Agree (s : Orchestrator) (uuid : String) (id : UInt64) (c : Context)
    (files : List ScenarioFile) (names : List String) : Prop where
  /-- The names are those of the scenarios, and those in the documents. -/
  expected : Failure.ofRule (Audit.expectedNames c s.settings.scenarios) = .ok names
  documents : List.Forall₂ IsNamed files names
  /-- A preview shows the files. -/
  preview : ∀ {ρ : Type} (o : Outside ρ) (w w' : Shared ρ) (response : Api.Response), w.state = s →
    (Alone o w (Api.preview uuid) w' response ↔ w' = w ∧ response = .value 200 files)
  /-- A sync replaces those of the application by them. -/
  sync : ∀ generation attempt r r' s' rest answer, r.isSuperseded id generation = false →
    ((Orchestrator.handle (.sync id generation) attempt).process.Does
        (.step r r' :: .step s s' :: rest) answer ↔
      r' = r ∧ s' = s ∧ (Sync.passing s id generation c files).process.Does rest answer)
  uploads : ∀ generation deeds, Sync.CarriedOut s id generation deeds →
    deeds.flatMap Deed.uploads = files.map fun file => (c.server, file.contents)
  /-- An audit asks the engine, and compares. -/
  audit : ∀ {ρ : Type} (o : Outside ρ) (w w' : Shared ρ) (result : Except Failure Audit),
    w.state = s → (Alone o w (Audit.run uuid).process w' result ↔
      ∃ answer after, o.answers c.server (Audit.scenariosCall ⟨s.settings.engine⟩) w.outside
          answer after ∧ w' = { w with outside := after } ∧
        result = Audit.compared s.settings.scenarios.ns c names answer)
  reports : ∀ answer loaded, listed Engine.scenariosIn answer = .ok loaded →
    ∃ audit, Audit.compared s.settings.scenarios.ns c names answer = .ok audit ∧
      audit.uuid = c.uuid ∧ audit.server = c.server.id ∧ audit.Reports (· ∈ names)
        fun x => x ∈ loaded ∧ (Audit.start s.settings.scenarios.ns c.uuid).toList <+: x.toList
  /-- After a sync, and until something changes, audits find nothing missing or left over. -/
  inSync : ∀ generation deeds, Sync.CarriedOut s id generation deeds →
    ∀ load : String → Option String,
      List.Forall₂ (fun file name => load file.contents = some name) files names →
    ∀ loaded, IsLoaded s.settings.scenarios.ns c.uuid load c.server
      (deeds.flatMap Deed.uploads) loaded →
    ∀ {ρ : Type} (o : Outside ρ) (w w' : Shared ρ) (result : Except Failure Audit),
      w.state.contextFor uuid = .ok c → w.state.settings = s.settings →
      (∀ answer after, o.answers c.server (Audit.scenariosCall ⟨s.settings.engine⟩) w.outside
        answer after → listed Engine.scenariosIn answer = .ok loaded) →
      Alone o w (Audit.run uuid).process w' result →
      ∃ audit, result = .ok audit ∧ audit.inSync = true

/-- **The same failure for all**, where the rules call for no files. -/
structure FailAlike (s : Orchestrator) (uuid : String) (id : UInt64) (failure : Failure) :
    Prop where
  preview : ∀ {ρ : Type} (o : Outside ρ) (w w' : Shared ρ) (response : Api.Response), w.state = s →
    (Alone o w (Api.preview uuid) w' response ↔ w' = w ∧ response = .ofFailure failure)
  sync : ∀ generation attempt r r' s' rest answer, r.isSuperseded id generation = false →
    ((Orchestrator.handle (.sync id generation) attempt).process.Does
        (.step r r' :: .step s s' :: rest) answer ↔
      r' = r ∧ s' = s ∧ rest = [] ∧ answer = .error failure)
  audit : ∀ {ρ : Type} (o : Outside ρ) (w w' : Shared ρ) (result : Except Failure Audit),
    w.state = s → (Alone o w (Audit.run uuid).process w' result ↔
      w' = w ∧ result = .error failure)

section

variable {files : List ScenarioFile} {names : List String}

/-- What a reader of documents finds in the files. -/
theorem exists_load_iff {load : String → Option String} {x : String}
    (h : List.Forall₂ (fun file name => load file.contents = some name) files names) :
    (∃ file ∈ files, load file.contents = some x) ↔ x ∈ names := by
  induction h with
  | nil => simp
  | cons hload _ ih =>
    rw [List.exists_mem_cons_iff, ih, hload, List.mem_cons, Option.some.injEq, eq_comm]

/-- **Foreign scenarios do not matter**: of what is loaded, the application's own are those that
were uploaded. -/
theorem IsLoaded.mem_iff {ns uuid : String} {load : String → Option String} {server : Server}
    {loaded : List String} {x : String}
    (h : IsLoaded ns uuid load server (files.map fun file => (server, file.contents)) loaded)
    (hload : List.Forall₂ (fun file name => load file.contents = some name) files names)
    (hown : ∀ x ∈ names, (Audit.start ns uuid).toList <+: x.toList) :
    x ∈ names ↔ x ∈ loaded ∧ (Audit.start ns uuid).toList <+: x.toList := by
  have hmem : ∀ contents, (server, contents) ∈ files.map (fun file => (server, file.contents)) ↔
      ∃ file ∈ files, file.contents = contents := by
    intro contents
    simp
  constructor
  · intro hx
    obtain ⟨file, hfile, hname⟩ := (exists_load_iff hload).mpr hx
    exact ⟨h.uploaded _ x ((hmem _).mpr ⟨file, hfile, rfl⟩) hname, hown x hx⟩
  · rintro ⟨hx, hstart⟩
    rcases h.others x hx with ⟨contents, hcontents, hname⟩ | hforeign
    · obtain ⟨file, hfile, rfl⟩ := (hmem _).mp hcontents
      exact (exists_load_iff hload).mp ⟨file, hfile, hname⟩
    · cases hforeign with
      | other owner rule howner hne =>
        exact absurd ((Audit.start_prefix_scenarioName_iff howner).mp hstart).symm hne
      | elsewhere _ hnot => exact absurd hstart hnot

end

/-- **Preview, sync and audit agree.** In every state, and for every application whose firewall is
active: a preview shows the very files, in their order, that a sync replaces those of the
application by; an audit expects the names in the documents of these files, reports what is missing
of them and what else is loaded under the application's name, and is in sync exactly if that is
nothing; so it is in sync once a sync has been carried out and the engine has loaded what was
uploaded, whatever else it has loaded of other applications. Where the rules call for no files,
all three end with the same failure. -/
theorem preview_sync_audit_agree {s : Orchestrator} {uuid : String} {firewall : Firewall}
    (hfirewall : s.store.firewallFor uuid = .ok firewall)
    (hactive : ∀ c, s.contextOf firewall.id = .ok c → c.firewall.isActive = true) :
    match s.filesFor firewall.id with
    | .error failure => FailAlike s uuid firewall.id failure
    | .ok (c, files) => ∃ names, Agree s uuid firewall.id c files names := by
  have hlooked := Audit.looked_eq hfirewall hactive
  cases hfiles : s.filesFor firewall.id with
  | error failure =>
    rw [hfiles] at hlooked
    refine ⟨fun o w w' response hstate => ?_, fun generation attempt r r' s' rest answer hr => ?_,
      fun o w w' result hstate => ?_⟩
    · rw [alone_preview_iff hfirewall hstate, hfiles]
      rfl
    · rw [does_sync_iff hactive hr, hfiles]
    · rw [Audit.alone_run_iff, hstate, hlooked]
  | ok found =>
    obtain ⟨c, files⟩ := found
    rw [hfiles] at hlooked
    obtain ⟨names, hexpected, hdocuments, hown⟩ := hlooked
    have hcontext : s.contextFor uuid = .ok c :=
      (Orchestrator.contextFor_eq hfirewall).trans (Orchestrator.contextOf_of_filesFor hfiles)
    refine ⟨names, hexpected, hdocuments, fun o w w' response hstate => ?_,
      fun generation attempt r r' s' rest answer hr => ?_,
      fun generation deeds hdone => hdone.uploads_eq hactive hfiles,
      fun o w w' result hstate => ?_, fun answer loaded h => Audit.reports_of_compared h, ?_⟩
    · rw [alone_preview_iff hfirewall hstate, hfiles]
      rfl
    · rw [does_sync_iff hactive hr, hfiles]
    · exact Audit.alone_run_iff_of_context (hstate ▸ hcontext) (hstate ▸ rfl) hexpected
    · intro generation deeds hdone load hload loaded hloaded ρ o w w' result hc hsettings hlists hrun
      rw [hdone.uploads_eq hactive hfiles] at hloaded
      obtain ⟨answer, after, hanswer, -, rfl⟩ :=
        (Audit.alone_run_iff_of_context hc hsettings hexpected).mp hrun
      obtain ⟨audit, haudited, -, -, hreport⟩ :=
        Audit.reports_of_compared (hlists answer after hanswer)
      exact ⟨audit, haudited, hreport.inSync.mpr fun x => hloaded.mem_iff hload hown⟩

namespace Audited

/-- A rule about a host. -/
def rule : Rule where
  id := 1
  firewallId := 1
  name := "x"
  mode := .inband
  action := .ban
  conditions := [{ field := "host", operator := "equals", value := "v" }]

/-- An application with that rule. -/
def state : Orchestrator :=
  { Shop.state with store := { Shop.state.store with rules := ⟨[(1, rule)]⟩ } }

/-- What stands behind the key of the name, on the second line of a document. -/
def load (contents : String) : Option String :=
  (Text.startsWith? "type: leaky\nname: ".toList contents.toList).map fun rest =>
    String.ofList (rest.takeWhile (· ≠ '\n'))

theorem load_file {scenario : Scenario} (h : scenario.name = "bastion/abc/x-1")
    (capacity : UInt32) (leakSpeed : String) :
    load (scenario.file capacity leakSpeed).contents = some "bastion/abc/x-1" := by
  have hfront : Yaml.writeKey 0 "type" ++ Yaml.writeValue 0 (.text "leaky") ++
      (Yaml.writeKey 0 "name" ++ Yaml.writeValue 0 (.text "bastion/abc/x-1")) =
        "type: leaky\nname: ".toList ++ ("bastion/abc/x-1".toList ++ ['\n']) := by decide +kernel
  have hcontents : (scenario.file capacity leakSpeed).contents.toList =
      Yaml.writeKey 0 "type" ++ Yaml.writeValue 0 (.text "leaky") ++
        (Yaml.writeKey 0 "name" ++ Yaml.writeValue 0 (.text scenario.name) ++
          Yaml.writeEntries 0 ((scenario.entries capacity leakSpeed).drop 2)) :=
    String.toList_ofList
  have hline : ∀ c ∈ "bastion/abc/x-1".toList, decide (c ≠ '\n') = true := by simp
  rw [load, hcontents, h, ← List.append_assoc, hfront, List.append_assoc,
    Text.startsWith?_append, List.append_assoc, Option.map_some,
    List.takeWhile_append_of_pos hline]
  simp

/-- The application's scenario, one of an application whose uuid extends its own, and one of
nobody. -/
def loaded : List String :=
  ["bastion/abc/x-1", "bastion/abc-1/x-2", "ssh-bf"]

/-- How the engine lists them. -/
def output : String :=
  "\x7b\"scenarios\":[\x7b\"name\":\"bastion/abc/x-1\"\x7d," ++
    "\x7b\"name\":\"bastion/abc-1/x-2\"\x7d,\x7b\"name\":\"ssh-bf\"\x7d]\x7d"

theorem listing_output : listed Engine.scenariosIn (.ok output) = .ok loaded := by
  have hnames : Engine.scenariosIn output = some loaded := by decide +kernel
  rw [listed, hnames]

/-- The rule becomes one scenario. -/
theorem exists_scenario : ∃ c scenario, state.contextOf 1 = .ok c ∧ c.firewall.isActive = true ∧
    c.uuid = "abc" ∧ c.scenarios state.settings.scenarios = .ok [scenario] ∧
    scenario.name = "bastion/abc/x-1" := by
  have hfacts : (state.contextOf 1).map (fun c => (c.firewall.isActive, c.uuid,
      (c.scenarios state.settings.scenarios).map (·.map (·.name)))) =
        .ok (true, "abc", .ok ["bastion/abc/x-1"]) := by decide +kernel
  cases hc : state.contextOf 1 with
  | error failure =>
    rw [hc] at hfacts
    cases hfacts
  | ok c =>
    rw [hc] at hfacts
    obtain ⟨hactive, hfacts⟩ := Prod.mk.inj (Except.ok.inj hfacts)
    obtain ⟨huuid, hnames⟩ := Prod.mk.inj hfacts
    cases hscenarios : c.scenarios state.settings.scenarios with
    | error fault =>
      rw [hscenarios] at hnames
      cases hnames
    | ok scenarios =>
      rw [hscenarios] at hnames
      obtain ⟨scenario, rfl, hname⟩ := List.map_eq_singleton_iff.mp (Except.ok.inj hnames)
      exact ⟨c, scenario, rfl, hactive, huuid, hscenarios, hname⟩

/-- An engine that has loaded all of them. -/
theorem isLoaded {server : Server} {scenario : Scenario} (hname : scenario.name = "bastion/abc/x-1")
    (capacity : UInt32) (leakSpeed : String) :
    IsLoaded "bastion" "abc" load server
      [(server, (scenario.file capacity leakSpeed).contents)] loaded where
  uploaded contents x hmem hload := by
    obtain ⟨-, rfl⟩ := Prod.mk.inj (List.mem_singleton.mp hmem)
    rw [load_file hname] at hload
    cases hload
    decide
  others x hx := by
    rcases List.mem_cons.mp hx with rfl | hx
    · exact .inl ⟨_, List.mem_singleton.mpr rfl, load_file hname _ _⟩
    · rcases List.mem_cons.mp hx with rfl | hx
      · have hother : scenarioName "bastion" "abc-1" { rule with id := 2 } =
            "bastion/abc-1/x-2" := by decide +kernel
        exact .inr (hother ▸ .other "abc-1" _ (by decide) (by decide))
      · rw [List.mem_singleton.mp hx]
        exact .inr (.elsewhere _ (by decide +kernel))

end Audited

/-- One rule: a sync can be carried out, and then an audit is in sync beside foreign scenarios. -/
theorem preview_sync_audit_agree_one_rule :
    (Audited.state.store.firewallFor "abc" = .ok Shop.firewall ∧
      ∀ c, Audited.state.contextOf 1 = .ok c → c.firewall.isActive = true) ∧
    ∃ c file deeds w' audit, Agree Audited.state "abc" 1 c [file] ["bastion/abc/x-1"] ∧
      Sync.CarriedOut Audited.state 1 1 deeds ∧
      Alone (.steady fun _ _ => .ok Audited.output) ⟨Audited.state, [], ()⟩
        (Audit.run "abc").process w' (.ok audit) ∧ audit.inSync = true := by
  obtain ⟨c, scenario, hc, hactive, huuid, hscenarios, hname⟩ := Audited.exists_scenario
  have hfirewall : Audited.state.store.firewallFor "abc" = .ok Shop.firewall := by decide +kernel
  have hactive' : ∀ c, Audited.state.contextOf 1 = .ok c → c.firewall.isActive = true := by
    intro c' hc'
    cases hc.symm.trans hc'
    exact hactive
  have hfiles : Audited.state.filesFor 1 = .ok (c, [scenario.file
      Audited.state.settings.scenarios.capacity Audited.state.settings.scenarios.leakSpeed]) := by
    rw [Orchestrator.filesFor, hc]
    dsimp only [bind, Except.bind]
    rw [Context.files, hscenarios]
    rfl
  have hagree := preview_sync_audit_agree hfirewall hactive'
  have hid : Shop.firewall.id = 1 := rfl
  rw [hid, hfiles] at hagree
  obtain ⟨names, hagree⟩ := hagree
  have hnames : names = ["bastion/abc/x-1"] := by
    have hexpected := hagree.expected
    rw [Audit.expectedNames, if_pos hactive, hscenarios] at hexpected
    rw [← Except.ok.inj hexpected, ← hname]
    rfl
  subst hnames
  have hcurrent : Audited.state.isSuperseded 1 1 = false := by decide +kernel
  obtain ⟨deeds, hdone⟩ := Sync.exists_carriedOut hactive' hfiles hcurrent
  have hloaded : IsLoaded Audited.state.settings.scenarios.ns c.uuid Audited.load c.server
      (deeds.flatMap Deed.uploads) Audited.loaded := by
    rw [hagree.uploads 1 deeds hdone, huuid]
    exact Audited.isLoaded hname _ _
  have hlists : ∀ (server : Server) (call : Remote.Call) answer after,
      (Outside.steady fun _ _ => .ok Audited.output).answers server call () answer after →
        listed Engine.scenariosIn answer = .ok Audited.loaded := by
    intro server call answer after h
    have h : answer = .ok Audited.output := h
    rw [h, Audited.listing_output]
  have hrun := (hagree.audit (.steady fun _ _ => .ok Audited.output) ⟨Audited.state, [], ()⟩ _ _
    rfl).mpr ⟨.ok Audited.output, (), rfl, rfl, rfl⟩
  obtain ⟨audit, hresult, hsync⟩ := hagree.inSync 1 deeds hdone Audited.load
    (.cons (Audited.load_file hname _ _) .nil) Audited.loaded hloaded _ ⟨Audited.state, [], ()⟩
    _ _ ((Orchestrator.contextFor_eq hfirewall).trans hc) rfl (hlists _ _) hrun
  rw [hresult] at hrun
  exact ⟨⟨hfirewall, hactive'⟩, c, _, deeds, _, audit, hagree, hdone, hrun, hsync⟩

end Rampart
