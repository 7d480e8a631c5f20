import Rampart.Orchestrator.Audit
import Rampart.Proofs.Deployment.SyncSteps
import Rampart.Proofs.Execution.Alone
import Rampart.Proofs.Scenario.Ownership

/-!
# What audits report

An audit compares two sets of names, and takes those of the engine by what they start with.

* `Audit.mem_sorted`, `pairwise_sorted`: names in order, each once.
* `Audit.Reports`: what an audit says of the names that are expected and of those that are loaded.
  **`reports_of`**: comparing two lists of names gives that.
* `Audit.start_prefix_scenarioName_iff`: no scenario of one application is taken for another's.
* **`alone_run_iff`**: an audit asks the engine once, and compares what the engine lists with what
  the rules call for.
-/

namespace Rampart

open Execution

namespace Audit

/-! ## Names in order -/

section

variable {α : Type} [DecidableEq α] {a b x : α} {as acc : List α}

/-- What has been kept stays in front. -/
theorem eraseReps_loop_eq :
    List.eraseRepsBy.loop (· == ·) a as acc = acc.reverse ++ (a :: as).eraseReps := by
  induction as generalizing a acc with
  | nil =>
    show (a :: acc).reverse = acc.reverse ++ [a]
    rw [List.reverse_cons]
  | cons b as ih =>
    have hself : (a :: b :: as).eraseReps = List.eraseRepsBy.loop (· == ·) a (b :: as) [] := rfl
    rw [hself, List.eraseRepsBy.loop, List.eraseRepsBy.loop]
    cases hab : a == b with
    | true =>
      dsimp only
      rw [ih, ih, List.reverse_nil, List.nil_append]
    | false =>
      dsimp only
      rw [ih, ih, List.reverse_cons, List.reverse_singleton, List.append_assoc]

/-- Of two neighbours that are the same one is left. -/
theorem eraseReps_cons_cons :
    (a :: b :: as).eraseReps = if a = b then (a :: as).eraseReps else a :: (b :: as).eraseReps := by
  have hself : (a :: b :: as).eraseReps = List.eraseRepsBy.loop (· == ·) a (b :: as) [] := rfl
  rw [hself, List.eraseRepsBy.loop]
  by_cases hab : a = b
  · rw [if_pos hab, beq_iff_eq.mpr hab, eraseReps_loop_eq]
    rfl
  · rw [if_neg hab, beq_false_of_ne hab]
    exact eraseReps_loop_eq

theorem mem_eraseReps : x ∈ as.eraseReps ↔ x ∈ as := by
  cases as with
  | nil => exact Iff.rfl
  | cons a as =>
    induction as generalizing a with
    | nil => exact Iff.rfl
    | cons b as ih =>
      rw [eraseReps_cons_cons]
      split
      · next hab =>
        rw [ih, hab, List.mem_cons, List.mem_cons, List.mem_cons, or_self_left]
      · rw [List.mem_cons, ih, ← List.mem_cons]

/-- **Of texts in order, each is left once.** -/
theorem pairwise_eraseReps [LE α] [LT α] [Std.IsLinearOrder α] [Std.LawfulOrderLT α]
    (h : as.Pairwise (· ≤ ·)) : as.eraseReps.Pairwise (· < ·) := by
  cases as with
  | nil => exact .nil
  | cons a as =>
    induction as generalizing a with
    | nil => exact List.pairwise_singleton _ _
    | cons b as ih =>
      obtain ⟨hfirst, hrest⟩ := List.pairwise_cons.mp h
      rw [eraseReps_cons_cons]
      split
      · next hab =>
        rw [hab]
        exact ih b hrest
      · next hab =>
        refine List.pairwise_cons.mpr ⟨fun x hx => ?_, ih b hrest⟩
        have hlt : a < b := Std.lt_of_le_of_ne (hfirst b List.mem_cons_self) hab
        rcases List.mem_cons.mp (mem_eraseReps.mp hx) with rfl | hx
        · exact hlt
        · exact Std.lt_of_lt_of_le hlt ((List.pairwise_cons.mp hrest).1 x hx)

end

variable {names expected deployed : List String} {x : String}

@[simp] theorem mem_sorted : x ∈ sorted names ↔ x ∈ names :=
  mem_eraseReps.trans List.mem_mergeSort

theorem pairwise_sorted (names : List String) : (sorted names).Pairwise (· < ·) := by
  have hle : ∀ a b : String, (!decide (b < a)) = true ↔ a ≤ b := fun a b => by
    rw [Bool.not_eq_true', decide_eq_false_iff_not, String.not_lt]
  refine pairwise_eraseReps ((List.pairwise_mergeSort ?_ ?_ names).imp fun h => (hle _ _).mp h)
  · intro a b c hab hbc
    exact (hle a c).mpr (String.le_trans ((hle a b).mp hab) ((hle b c).mp hbc))
  · intro a b
    rw [Bool.or_eq_true_iff, hle, hle]
    exact String.le_total a b

/-! ## Comparing names -/

/-- **What an audit reports** of the names that should be there and of those that are. -/
structure Reports (audit : Audit) (wanted present : String → Prop) : Prop where
  expected : ∀ x, x ∈ audit.expected ↔ wanted x
  deployed : ∀ x, x ∈ audit.deployed ↔ present x
  missing : ∀ x, x ∈ audit.missing ↔ wanted x ∧ ¬ present x
  orphaned : ∀ x, x ∈ audit.orphaned ↔ present x ∧ ¬ wanted x
  inSync : audit.inSync = true ↔ ∀ x, wanted x ↔ present x
  /-- All names are in order, each once. -/
  inOrder : audit.expected.Pairwise (· < ·) ∧ audit.deployed.Pairwise (· < ·) ∧
    audit.missing.Pairwise (· < ·) ∧ audit.orphaned.Pairwise (· < ·)

/-- The names of one list that are not in another. -/
theorem mem_difference {other : List String} :
    x ∈ (sorted names).filter (fun name => !(sorted other).contains name) ↔
      x ∈ names ∧ x ∉ other := by
  rw [List.mem_filter, mem_sorted, Bool.not_eq_true', ← Bool.not_eq_true, List.contains_iff_mem,
    mem_sorted]

/-- Nothing is in one list only. -/
theorem difference_isEmpty_iff {other : List String} :
    ((sorted names).filter fun name => !(sorted other).contains name).isEmpty = true ↔
      ∀ x ∈ names, x ∈ other := by
  rw [List.isEmpty_iff, List.eq_nil_iff_forall_not_mem]
  refine forall_congr' fun x => ?_
  rw [mem_difference, not_and, not_not]

/-- **Comparing two lists** reports of their members. -/
theorem reports_of (uuid : String) (server : UInt64) (expected deployed : List String) :
    (Audit.of uuid server expected deployed).Reports (· ∈ expected) (· ∈ deployed) where
  expected _ := mem_sorted
  deployed _ := mem_sorted
  missing _ := mem_difference
  orphaned _ := mem_difference
  inSync := by
    refine (Bool.and_eq_true_iff.trans
      (and_congr difference_isEmpty_iff difference_isEmpty_iff)).trans ?_
    exact ⟨fun h x => ⟨h.1 x, h.2 x⟩, fun h => ⟨fun x => (h x).mp, fun x => (h x).mpr⟩⟩
  inOrder := ⟨pairwise_sorted _, pairwise_sorted _, (pairwise_sorted _).filter _,
    (pairwise_sorted _).filter _⟩

/-! ## Whose names they are -/

variable {ns uuid : String}

theorem mem_ownNames {loaded : List String} :
    x ∈ ownNames ns uuid loaded ↔ x ∈ loaded ∧ (start ns uuid).toList <+: x.toList := by
  rw [ownNames, List.mem_filter, List.isPrefixOf_iff_prefix]

/-- What follows the owner in the name of a scenario has no slash. -/
theorem slash_not_mem_tail (rule : Rule) :
    '/' ∉ (slug rule.name).toList ++ '-' :: (toString rule.id).toList := by
  intro h
  rcases List.mem_append.mp h with h | h
  · exact absurd (isUuidChar_of_mem_slug h) (by decide)
  · rcases List.mem_cons.mp h with h | h
    · exact absurd h (by decide)
    · exact absurd (Text.isDigit_of_mem_toString h) (by decide)

theorem start_append (ns uuid : String) (rest : List Char) :
    (start ns uuid).toList ++ rest =
      (ns.toList ++ ['/']) ++ (uuid.toList ++ '/' :: rest) := by
  rw [toList_auditStart]
  simp

/-- **No scenario of one application is taken for another's**, also where the uuid of one is the
beginning of the other's. -/
theorem start_prefix_scenarioName_iff {owner : String} (howner : isUuid owner = true)
    {rule : Rule} :
    (start ns uuid).toList <+: (scenarioName ns owner rule).toList ↔ uuid = owner := by
  rw [toList_scenarioName]
  constructor
  · rintro ⟨rest, hrest⟩
    rw [start_append] at hrest
    have htail := List.append_cancel_left hrest
    have hslash : '/' ∉ owner.toList := not_mem_of_isUuid howner (by decide)
    -- The name has no slash but those around its owner; so the uuid has none.
    have hcount := congrArg (List.count '/') htail
    simp only [List.count_append, List.count_cons_self, List.count_eq_zero_of_not_mem hslash,
      List.count_eq_zero_of_not_mem (slash_not_mem_tail rule)] at hcount
    have huuid : '/' ∉ uuid.toList := List.count_eq_zero.mp (by omega)
    exact String.toList_inj.mp (cut_inj_first huuid hslash htail).1
  · rintro rfl
    exact ⟨_, start_append ns uuid _⟩

/-! ## One audit -/

/-- The call for the scenarios that an engine has loaded. -/
def scenariosCall (c : Engine.Client) : Remote.Call :=
  .run [c.command ["scenarios", "list", "-o", "json"]]

/-- What an audit needs of the state. -/
def looked (s : Orchestrator) (uuid : String) : Except Failure (Context × List String) := do
  let c ← s.contextFor uuid
  let expected ← Failure.ofRule (expectedNames c s.settings.scenarios)
  return (c, expected)

/-- What an audit makes of the engine's answer. -/
def compared (ns : String) (c : Context) (expected : List String)
    (answer : Except Failure String) : Except Failure Audit :=
  (listed Engine.scenariosIn answer).map fun loaded =>
    .of c.uuid c.server.id expected (ownNames ns c.uuid loaded)

/-- The engine is asked once. -/
theorem process_asking (engine : Engine.Client) (ns : String) (c : Context)
    (expected : List String) :
    (do
      let loaded ← engine.scenarios c.server
      return .of c.uuid c.server.id expected (ownNames ns c.uuid loaded) :
        Task Orchestrator Audit).process.bind .done =
      .call c.server (scenariosCall engine) fun answer =>
        .done (compared ns c expected answer) := by
  rw [Task.process_bind, Engine.Client.scenarios, process_listing]
  refine congrArg (Process.call c.server _) (funext fun answer => ?_)
  unfold compared
  dsimp only [Process.pure_bind]
  cases listed Engine.scenariosIn answer <;> rfl

/-- **An audit** looks at the state, asks the engine and compares. -/
theorem process_run (uuid : String) :
    (run uuid).process = .atomic id fun s => match looked s uuid with
      | .error failure => .done (.error failure)
      | .ok (c, expected) => .call c.server (scenariosCall ⟨s.settings.engine⟩) fun answer =>
        .done (compared s.settings.scenarios.ns c expected answer) := by
  rw [← Process.bind_pure (run uuid).process, run, Task.process_read_bind]
  refine congrArg (Process.atomic id) (funext fun s => ?_)
  unfold looked
  cases s.contextFor uuid with
  | error failure => rfl
  | ok c =>
    dsimp only [bind, Except.bind]
    cases Failure.ofRule (expectedNames c s.settings.scenarios) with
    | error failure => rfl
    | ok expected => exact process_asking ⟨s.settings.engine⟩ s.settings.scenarios.ns c expected

/-- **All that an audit can do.** -/
theorem alone_run_iff {ρ : Type} {o : Outside ρ} {w w' : Shared ρ} {result : Except Failure Audit} :
    Alone o w (run uuid).process w' result ↔ match looked w.state uuid with
      | .error failure => w' = w ∧ result = .error failure
      | .ok (c, expected) =>
        ∃ answer after, o.answers c.server (scenariosCall ⟨w.state.settings.engine⟩) w.outside
            answer after ∧ w' = { w with outside := after } ∧
          result = compared w.state.settings.scenarios.ns c expected answer := by
  rw [process_run, alone_atomic_iff]
  show Alone o w _ w' result ↔ _
  cases looked w.state uuid with
  | error failure => exact alone_done_iff
  | ok found =>
    refine alone_call_iff.trans (exists_congr fun answer => exists_congr fun after => ?_)
    rw [alone_done_iff]

/-- An audit of an application of which the settings and the context are known. -/
theorem alone_run_iff_of_context {ρ : Type} {o : Outside ρ} {w w' : Shared ρ}
    {result : Except Failure Audit} {settings : Settings} {c : Context} {expected : List String}
    (hc : w.state.contextFor uuid = .ok c) (hsettings : w.state.settings = settings)
    (hexpected : Failure.ofRule (expectedNames c settings.scenarios) = .ok expected) :
    Alone o w (run uuid).process w' result ↔
      ∃ answer after, o.answers c.server (scenariosCall ⟨settings.engine⟩) w.outside answer after ∧
        w' = { w with outside := after } ∧
        result = compared settings.scenarios.ns c expected answer := by
  have hlooked : looked w.state uuid = .ok (c, expected) := by
    rw [looked, hc, hsettings]
    dsimp only [bind, Except.bind]
    rw [hexpected]
    rfl
  rw [alone_run_iff, hlooked, hsettings]

/-- What an audit reports of an answer that is a listing. -/
theorem reports_of_compared {ns : String} {c : Context} {expected loaded : List String}
    {answer : Except Failure String} (h : listed Engine.scenariosIn answer = .ok loaded) :
    ∃ audit, compared ns c expected answer = .ok audit ∧ audit.uuid = c.uuid ∧
      audit.server = c.server.id ∧ audit.Reports (· ∈ expected)
        fun x => x ∈ loaded ∧ (start ns c.uuid).toList <+: x.toList := by
  refine ⟨.of c.uuid c.server.id expected (ownNames ns c.uuid loaded), ?_, rfl, rfl, ?_⟩
  · rw [compared, h]
    rfl
  · have hreports := reports_of c.uuid c.server.id expected (ownNames ns c.uuid loaded)
    simpa only [mem_ownNames] using hreports

end Audit

end Rampart
