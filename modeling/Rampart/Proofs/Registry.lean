import Mathlib.Data.String.Basic
import Rampart.Registry

/-!
# Updates of one server by several jobs

The jobs that install, check and sum up a server's components run side by side and write to one
status. Every update has one owner, and each owner has its share of a server: as long as an owner's
own updates keep their order, the order among the owners makes no difference.

* `StatusUpdate.owner`, `Server.share`: who writes an update, and what of a server is whose.
* `Server.SameApart`: nothing is changed but one owner's share.
* `Registry.applyAll`: updates of one server, one after another.
* `foldl_eq_of_owners`: steps that commute across owners may be reordered across owners.
* **`branches_keep_their_updates`**: updates in any two orders that agree for every owner end in the
  same registry, no update touches another owner's share, and the engine's three flags stay
  consistent.
-/

namespace Rampart

/-! ## Owners and their shares -/

/-- Who writes a part of a server. -/
inductive Owner
  | part (component : Component)
  /-- The progress of the set-up. -/
  | provisioning
deriving DecidableEq, Repr

/-- The owner of an update: whether inspection can be reached belongs to the engine, the summary of
a validation pass to the validator. -/
def StatusUpdate.owner : StatusUpdate → Owner
  | .installed component _ => .part component
  | .appsec _ => .part .engine
  | .checked component _ => .part component
  | .completed _ _ => .part .validator
  | .progress _ => .provisioning

/-- The flags that belong to a component. -/
def Component.flags (component : Component) (status : Status) : List Bool :=
  match component with
  | engine => [status.engineInstalled, status.engineAvailable, status.appsecAvailable]
  | requestLogging => [status.requestLogging]
  | headerLogging => [status.headerLogging]
  | logShipping => [status.logShipping]
  | trafficLogger => [status.trafficLogger]
  | validator => [status.validated]

/-- What of a server belongs to one owner. -/
structure Share where
  flags : List Bool := []
  validatedAt : Option Instant := none
  health : Option Health := none
  progress : Option Progress := none
deriving DecidableEq

/-- The share of an owner. -/
def Server.share (s : Server) : Owner → Share
  | .part component =>
    { flags := component.flags s.status
      validatedAt := if component = .validator then s.status.validatedAt else none
      health := s.status.details.lookup component.name }
  | .provisioning => { progress := some s.progress }

/-- Two servers differ at most in one owner's share. -/
structure Server.SameApart (owner : Owner) (s t : Server) : Prop where
  shares : ∀ other, other ≠ owner → s.share other = t.share other
  details : ∀ name, (∀ component, owner = .part component → name ≠ component.name) →
    s.status.details.lookup name = t.status.details.lookup name
  id : s.id = t.id
  name : s.name = t.name
  host : s.host = t.host
  user : s.user = t.user
  port : s.port = t.port

/-- The engine is available exactly while it is installed, and inspection only while the engine
is available. -/
structure Status.IsCoupled (status : Status) : Prop where
  engine : status.engineInstalled = status.engineAvailable
  appsec : status.appsecAvailable = true → status.engineAvailable = true

/-- Two sequences of updates in which every owner's updates are the same, in the same order. -/
def SameOrders (us vs : List StatusUpdate) : Prop :=
  ∀ owner, us.filter (·.owner = owner) = vs.filter (·.owner = owner)

/-- A server after some updates. -/
def Server.updateAll (s : Server) (us : List StatusUpdate) : Server :=
  us.foldl Server.update s

/-- Updates of one server, one after another. -/
def Registry.applyAll (r : Registry) (id : UInt64) : List StatusUpdate → Except Failure Registry
  | [] => .ok r
  | u :: us => do
    let (_, updated) ← r.apply id u
    updated.applyAll id us

/-! ## Reordering across owners -/

section Reordering

variable {σ ι κ : Type} {step : σ → ι → σ} {owner : ι → κ}

/-- A step is moved in front of steps of other owners. -/
theorem foldl_move_front
    (hcomm : ∀ s i j, owner i ≠ owner j → step (step s i) j = step (step s j) i) {i : ι}
    {before : List ι} (hbefore : ∀ j ∈ before, owner j ≠ owner i) (rest : List ι) (s : σ) :
    (before ++ i :: rest).foldl step s = (i :: (before ++ rest)).foldl step s := by
  induction before generalizing s with
  | nil => rfl
  | cons j before ih =>
    have hj : owner j ≠ owner i := hbefore j List.mem_cons_self
    calc (before ++ i :: rest).foldl step (step s j)
        = (before ++ rest).foldl step (step (step s j) i) :=
          ih (fun k hk => hbefore k (List.mem_cons_of_mem j hk)) (step s j)
      _ = (before ++ rest).foldl step (step (step s i) j) := by rw [hcomm s j i hj]

/-- **Steps that commute across owners may be reordered across owners.** -/
theorem foldl_eq_of_owners [DecidableEq κ]
    (hcomm : ∀ s i j, owner i ≠ owner j → step (step s i) j = step (step s j) i) {is js : List ι}
    (hsame : ∀ k, is.filter (owner · = k) = js.filter (owner · = k)) (s : σ) :
    is.foldl step s = js.foldl step s := by
  induction is generalizing js s with
  | nil =>
    have hnil : js = [] := List.eq_nil_iff_forall_not_mem.mpr fun j hj => by
      have hmem : j ∈ js.filter (owner · = owner j) := List.mem_filter.mpr ⟨hj, by simp⟩
      rw [← hsame (owner j)] at hmem
      cases hmem
    rw [hnil]
  | cons i is ih =>
    -- The first step of this owner among the others' is the same one; it may as well come first.
    have hfirst : js.filter (owner · = owner i) = i :: is.filter (owner · = owner i) := by
      rw [← hsame (owner i), List.filter_cons_of_pos (by simp)]
    obtain ⟨before, after, rfl, hbefore, -, hafter⟩ := List.filter_eq_cons_iff.mp hfirst
    have hapart : ∀ j ∈ before, owner j ≠ owner i :=
      fun j hj hji => hbefore j hj (decide_eq_true hji)
    rw [foldl_move_front hcomm hapart]
    refine ih (fun k => ?_) (step s i)
    rw [List.filter_append]
    by_cases hk : k = owner i
    · have hnone : before.filter (owner · = owner i) = [] := List.filter_eq_nil_iff.mpr hbefore
      rw [hk, ← hafter, hnone, List.nil_append]
    · have hskip := hsame k
      rw [List.filter_cons_of_neg (by simpa using Ne.symm hk), List.filter_append,
        List.filter_cons_of_neg (by simpa using Ne.symm hk)] at hskip
      exact hskip

end Reordering

/-! ## Results of checks -/

theorem lookup_insertHealth_self (name : String) (health : Health)
    (details : List (String × Health)) :
    (insertHealth name health details).lookup name = some health := by
  induction details with
  | nil => simp [insertHealth]
  | cons entry details ih =>
    obtain ⟨other, kept⟩ := entry
    unfold insertHealth
    split
    · simp
    · split
      · simp
      · rename_i hne _
        rw [List.lookup_cons, beq_eq_false_iff_ne.mpr hne]
        exact ih

theorem lookup_insertHealth_of_ne {name other : String} (h : other ≠ name) (health : Health)
    (details : List (String × Health)) :
    (insertHealth name health details).lookup other = details.lookup other := by
  have hbeq : (other == name) = false := beq_eq_false_iff_ne.mpr h
  induction details with
  | nil => simp [insertHealth, List.lookup_cons, hbeq]
  | cons entry details ih =>
    obtain ⟨first, kept⟩ := entry
    unfold insertHealth
    split
    · rename_i hfirst
      rw [List.lookup_cons, List.lookup_cons, hbeq, ← hfirst, hbeq]
    · split
      · rw [List.lookup_cons, hbeq]
      · rw [List.lookup_cons, List.lookup_cons, ih]

theorem insertHealth_cons_self (name : String) (health kept : Health)
    (details : List (String × Health)) :
    insertHealth name health ((name, kept) :: details) = (name, health) :: details := by
  simp [insertHealth]

theorem insertHealth_cons_of_lt {name other : String} (h : name < other) (health kept : Health)
    (details : List (String × Health)) :
    insertHealth name health ((other, kept) :: details) =
      (name, health) :: (other, kept) :: details := by
  simp [insertHealth, h, h.ne]

theorem insertHealth_cons_of_gt {name other : String} (h : other < name) (health kept : Health)
    (details : List (String × Health)) :
    insertHealth name health ((other, kept) :: details) =
      (other, kept) :: insertHealth name health details := by
  simp [insertHealth, h.ne', h.not_gt]

theorem insertHealth_comm_of_lt {a b : String} (h : a < b) (x y : Health)
    (details : List (String × Health)) :
    insertHealth a x (insertHealth b y details) = insertHealth b y (insertHealth a x details) := by
  induction details with
  | nil => exact (insertHealth_cons_of_lt h x y []).trans (insertHealth_cons_of_gt h y x []).symm
  | cons entry details ih =>
    obtain ⟨other, kept⟩ := entry
    rcases lt_trichotomy a other with ha | rfl | ha
    · -- The first goes in front, wherever the second goes.
      rw [insertHealth_cons_of_lt ha, insertHealth_cons_of_gt h]
      rcases lt_trichotomy b other with hb | rfl | hb
      · rw [insertHealth_cons_of_lt hb, insertHealth_cons_of_lt h]
      · rw [insertHealth_cons_self, insertHealth_cons_of_lt h]
      · rw [insertHealth_cons_of_gt hb, insertHealth_cons_of_lt ha]
    · rw [insertHealth_cons_self, insertHealth_cons_of_gt h, insertHealth_cons_of_gt h,
        insertHealth_cons_self]
    · have hb : other < b := ha.trans h
      rw [insertHealth_cons_of_gt ha, insertHealth_cons_of_gt hb, insertHealth_cons_of_gt hb,
        insertHealth_cons_of_gt ha, ih]

/-- The results of two components' checks may be written in either order. -/
theorem insertHealth_comm {a b : String} (h : a ≠ b) (x y : Health)
    (details : List (String × Health)) :
    insertHealth a x (insertHealth b y details) = insertHealth b y (insertHealth a x details) := by
  rcases lt_or_gt_of_ne h with hlt | hgt
  · exact insertHealth_comm_of_lt hlt x y details
  · exact (insertHealth_comm_of_lt hgt y x details).symm

/-! ## One update -/

namespace Component

theorem name_injective {c d : Component} (h : c.name = d.name) : c = d := by
  cases c <;> cases d <;> first | rfl | exact absurd h (by decide)

theorem mark_comm {c d : Component} (h : c ≠ d) (v w : Bool) (status : Status) :
    c.mark v (d.mark w status) = d.mark w (c.mark v status) := by
  cases c <;> cases d <;> first | rfl | exact absurd rfl h

theorem mark_details (c : Component) (v : Bool) (status : Status)
    (details : List (String × Health)) :
    c.mark v { status with details := details } = { c.mark v status with details := details } := by
  cases c <;> rfl

theorem details_mark (c : Component) (v : Bool) (status : Status) :
    (c.mark v status).details = status.details := by
  cases c <;> rfl

end Component

namespace StatusUpdate

/-- Two updates that may be made in either order. -/
def Commutes (u v : StatusUpdate) : Prop :=
  ∀ s : Server, (s.update u).update v = (s.update v).update u

theorem Commutes.symm {u v : StatusUpdate} (h : u.Commutes v) : v.Commutes u :=
  fun s => (h s).symm

theorem installed_commutes_checked {c d : Component} (h : c ≠ d) (v : Bool) (health : Health) :
    (installed c v).Commutes (checked d health) := by
  intro s
  simp only [Server.update, Status.check, Component.mark_details, Component.details_mark,
    Component.mark_comm h]

theorem checked_commutes_checked {c d : Component} (h : c ≠ d) (x y : Health) :
    (checked c x).Commutes (checked d y) := by
  intro s
  simp only [Server.update, Status.check, Component.mark_details, Component.details_mark,
    Component.mark_comm h, insertHealth_comm fun hname => h (Component.name_injective hname)]

theorem appsec_commutes_installed {c : Component} (h : c ≠ .engine) (b v : Bool) :
    (appsec b).Commutes (installed c v) := by
  cases c <;> first | exact fun _ => rfl | exact absurd rfl h

theorem appsec_commutes_checked {c : Component} (h : c ≠ .engine) (b : Bool) (health : Health) :
    (appsec b).Commutes (checked c health) := by
  cases c <;> first | exact fun _ => rfl | exact absurd rfl h

theorem completed_commutes_installed {c : Component} (h : c ≠ .validator) (b v : Bool)
    (time : Instant) : (completed b time).Commutes (installed c v) := by
  cases c <;> first | exact fun _ => rfl | exact absurd rfl h

theorem completed_commutes_checked {c : Component} (h : c ≠ .validator) (b : Bool)
    (time : Instant) (health : Health) : (completed b time).Commutes (checked c health) := by
  cases c <;> first | exact fun _ => rfl | exact absurd rfl h

theorem progress_commutes {u : StatusUpdate} (h : u.owner ≠ .provisioning) (step : Progress) :
    (progress step).Commutes u := by
  cases u with
  | progress => exact absurd rfl h
  | _ => exact fun _ => rfl

/-- **Updates of different owners may be made in either order.** -/
theorem commutes_of_owner_ne : ∀ {u v : StatusUpdate}, u.owner ≠ v.owner → u.Commutes v
  | progress step, _, h => progress_commutes h.symm step
  | _, progress step, h => (progress_commutes h step).symm
  | installed c v, installed d w, h => by
    have hcd : c ≠ d := fun hcd => h (congrArg Owner.part hcd)
    intro s
    simp only [Server.update, Component.mark_comm hcd]
  | installed c v, checked d health, h =>
    installed_commutes_checked (fun hcd => h (congrArg Owner.part hcd)) v health
  | checked c health, installed d v, h =>
    (installed_commutes_checked (fun hcd => h.symm (congrArg Owner.part hcd)) v health).symm
  | checked c x, checked d y, h =>
    checked_commutes_checked (fun hcd => h (congrArg Owner.part hcd)) x y
  | appsec b, installed c v, h =>
    appsec_commutes_installed (fun hc => h.symm (congrArg Owner.part hc)) b v
  | installed c v, appsec b, h =>
    (appsec_commutes_installed (fun hc => h (congrArg Owner.part hc)) b v).symm
  | appsec b, checked c health, h =>
    appsec_commutes_checked (fun hc => h.symm (congrArg Owner.part hc)) b health
  | checked c health, appsec b, h =>
    (appsec_commutes_checked (fun hc => h (congrArg Owner.part hc)) b health).symm
  | completed b time, installed c v, h =>
    completed_commutes_installed (fun hc => h.symm (congrArg Owner.part hc)) b v time
  | installed c v, completed b time, h =>
    (completed_commutes_installed (fun hc => h (congrArg Owner.part hc)) b v time).symm
  | completed b time, checked c health, h =>
    completed_commutes_checked (fun hc => h.symm (congrArg Owner.part hc)) b time health
  | checked c health, completed b time, h =>
    (completed_commutes_checked (fun hc => h (congrArg Owner.part hc)) b time health).symm
  | appsec _, appsec _, h => absurd rfl h
  | completed _ _, completed _ _, h => absurd rfl h
  | appsec _, completed _ _, _ => fun _ => rfl
  | completed _ _, appsec _, _ => fun _ => rfl

end StatusUpdate

namespace Server

theorem updateAll_eq_of_sameOrders {us vs : List StatusUpdate} (h : SameOrders us vs)
    (s : Server) : s.updateAll us = s.updateAll vs :=
  foldl_eq_of_owners (fun s _ _ howner => StatusUpdate.commutes_of_owner_ne howner s) h s

theorem mark_sameApart (s : Server) (c : Component) (v : Bool) :
    SameApart (.part c) { s with status := c.mark v s.status } s := by
  refine ⟨fun other hother => ?_, fun name _ => ?_, rfl, rfl, rfl, rfl, rfl⟩
  · cases other with
    | provisioning => rfl
    | part d =>
      cases c <;> cases d <;> first | rfl | exact absurd rfl hother
  · rw [Component.details_mark]

theorem details_sameApart (s : Server) (c : Component) (health : Health) :
    SameApart (.part c)
      { s with status := { s.status with
          details := insertHealth c.name health s.status.details } } s := by
  refine ⟨fun other hother => ?_, fun name hname => ?_, rfl, rfl, rfl, rfl, rfl⟩
  · cases other with
    | provisioning => rfl
    | part d =>
      have hname : d.name ≠ c.name := fun h =>
        hother (congrArg Owner.part (Component.name_injective h))
      simp only [share, lookup_insertHealth_of_ne hname]
      cases d <;> rfl
  · exact lookup_insertHealth_of_ne (hname c rfl) health _

theorem SameApart.trans {owner : Owner} {s t u : Server} (hst : SameApart owner s t)
    (htu : SameApart owner t u) : SameApart owner s u where
  shares other hother := (hst.shares other hother).trans (htu.shares other hother)
  details name hname := (hst.details name hname).trans (htu.details name hname)
  id := hst.id.trans htu.id
  name := hst.name.trans htu.name
  host := hst.host.trans htu.host
  user := hst.user.trans htu.user
  port := hst.port.trans htu.port

/-- **No update touches what another owner writes.** -/
theorem update_sameApart (s : Server) (u : StatusUpdate) : SameApart u.owner (s.update u) s := by
  cases u with
  | installed c v => exact mark_sameApart s c v
  | appsec b =>
    refine ⟨fun other hother => ?_, fun _ _ => rfl, rfl, rfl, rfl, rfl, rfl⟩
    rcases other with ⟨d⟩ | -
    · cases d <;> first | rfl | exact absurd rfl hother
    · rfl
  | checked c health =>
    exact (details_sameApart { s with status := c.mark health.healthy s.status } c health).trans
      (mark_sameApart s c health.healthy)
  | completed b time =>
    refine ⟨fun other hother => ?_, fun _ _ => rfl, rfl, rfl, rfl, rfl, rfl⟩
    rcases other with ⟨d⟩ | -
    · cases d <;> first | rfl | exact absurd rfl hother
    · rfl
  | progress step =>
    refine ⟨fun other hother => ?_, fun _ _ => rfl, rfl, rfl, rfl, rfl, rfl⟩
    cases other with
    | provisioning => exact absurd rfl hother
    | part d => rfl

theorem id_updateAll (s : Server) (us : List StatusUpdate) : (s.updateAll us).id = s.id := by
  induction us generalizing s with
  | nil => rfl
  | cons u us ih => exact (ih (s.update u)).trans (update_sameApart s u).id

end Server

/-! ## The engine's flags -/

theorem Component.mark_isCoupled {status : Status} (h : status.IsCoupled) (c : Component)
    (v : Bool) : (c.mark v status).IsCoupled := by
  cases c with
  | engine => exact ⟨rfl, fun happsec => (Bool.and_eq_true_iff.mp happsec).1⟩
  | _ => exact ⟨h.engine, h.appsec⟩

theorem Server.update_isCoupled {s : Server} (h : s.status.IsCoupled) (u : StatusUpdate) :
    (s.update u).status.IsCoupled := by
  cases u with
  | installed c v => exact Component.mark_isCoupled h c v
  | appsec b => exact ⟨h.engine, fun happsec => (Bool.and_eq_true_iff.mp happsec).2⟩
  | checked c health =>
    have hmarked := Component.mark_isCoupled h c health.healthy
    exact ⟨hmarked.engine, hmarked.appsec⟩
  | completed b time => exact ⟨h.engine, h.appsec⟩
  | progress step => exact h

/-! ## The registry -/

namespace Registry

variable {r : Registry} {id : UInt64} {s t : Server}

theorem id_of_get? (h : r.get? id = some s) : s.id = id := by
  have hid := List.find?_some h
  exact LawfulBEq.eq_of_beq hid

theorem find?_insertInto_self (s : Server) (l : List Server) :
    (insertInto s l).find? (·.id == s.id) = some s := by
  induction l with
  | nil => simp [insertInto]
  | cons other others ih =>
    unfold insertInto
    split
    · simp
    · split
      · simp
      · rename_i hne _
        rw [List.find?_cons_of_neg (by simpa using Ne.symm hne)]
        exact ih

theorem find?_insertInto_of_ne (h : s.id ≠ id) (l : List Server) :
    (insertInto s l).find? (·.id == id) = l.find? (·.id == id) := by
  have hs (rest : List Server) :
      (s :: rest).find? (·.id == id) = rest.find? (·.id == id) :=
    List.find?_cons_of_neg (by simpa using h)
  induction l with
  | nil => exact hs []
  | cons other others ih =>
    unfold insertInto
    split
    · rename_i hid
      rw [hs, List.find?_cons_of_neg (by simpa [← hid] using h)]
    · split
      · exact hs (other :: others)
      · rw [List.find?_cons, List.find?_cons, ih]

theorem insertInto_insertInto (h : s.id = t.id) (l : List Server) :
    insertInto t (insertInto s l) = insertInto t l := by
  induction l with
  | nil => simp [insertInto, h]
  | cons other others ih =>
    rw [insertInto, insertInto.eq_2 t, h]
    split
    · simp [insertInto, h]
    · split
      · simp [insertInto, h]
      · rename_i hne hlt
        rw [insertInto, if_neg hne, if_neg hlt, ih]

theorem get?_insert_self (r : Registry) (s : Server) : (r.insert s).get? s.id = some s :=
  find?_insertInto_self s r.servers

theorem get?_insert_of_ne (h : s.id ≠ id) : (r.insert s).get? id = r.get? id :=
  find?_insertInto_of_ne h r.servers

theorem insert_insert (h : s.id = t.id) : (r.insert s).insert t = r.insert t :=
  congrArg Registry.mk (insertInto_insertInto h r.servers)

theorem apply_of_get? (h : r.get? id = some s) (u : StatusUpdate) :
    r.apply id u = .ok (s.update u, r.insert (s.update u)) := by
  simp only [apply, h]

theorem applyAll_cons (h : r.get? id = some s) (u : StatusUpdate) (us : List StatusUpdate) :
    r.applyAll id (u :: us) = (r.insert (s.update u)).applyAll id us := by
  rw [applyAll, apply_of_get? h]
  rfl

theorem get?_insert_update (h : r.get? id = some s) (u : StatusUpdate) :
    (r.insert (s.update u)).get? id = some (s.update u) := by
  have hid : (s.update u).id = id := (s.update_sameApart u).id.trans (id_of_get? h)
  rw [← hid]
  exact get?_insert_self r _

/-- Updates of a known server never fail, and leave what they make of it in its place. -/
theorem applyAll_of_get? (h : r.get? id = some s) (u : StatusUpdate) (us : List StatusUpdate) :
    r.applyAll id (u :: us) = .ok (r.insert (s.updateAll (u :: us))) := by
  induction us generalizing r s u with
  | nil => rw [applyAll_cons h]; rfl
  | cons v us ih =>
    have hid : (s.update u).id = ((s.update u).updateAll (v :: us)).id :=
      ((s.update u).id_updateAll (v :: us)).symm
    calc r.applyAll id (u :: v :: us)
        = (r.insert (s.update u)).applyAll id (v :: us) := applyAll_cons h u (v :: us)
      _ = .ok ((r.insert (s.update u)).insert ((s.update u).updateAll (v :: us))) :=
          ih (get?_insert_update h u) v
      _ = .ok (r.insert (s.updateAll (u :: v :: us))) := by rw [insert_insert hid]; rfl

/-- The registry after updates of a known server. -/
structure IsAfter (r : Registry) (id : UInt64) (t : Server) (after : Registry) : Prop where
  get? : after.get? id = some t
  others : ∀ other, other ≠ id → after.get? other = r.get? other

theorem isAfter_insert (h : t.id = id) : r.IsAfter id t (r.insert t) := by
  subst h
  exact ⟨get?_insert_self r t, fun other hother => get?_insert_of_ne hother.symm⟩

theorem exists_applyAll (h : r.get? id = some s) (us : List StatusUpdate) :
    ∃ after, r.applyAll id us = .ok after ∧ r.IsAfter id (s.updateAll us) after := by
  cases us with
  | nil => exact ⟨r, rfl, h, fun _ _ => rfl⟩
  | cons u us =>
    exact ⟨_, applyAll_of_get? h u us,
      isAfter_insert ((s.id_updateAll (u :: us)).trans (id_of_get? h))⟩

theorem applyAll_eq_of_sameOrders (h : r.get? id = some s) {us vs : List StatusUpdate}
    (hsame : SameOrders us vs) : r.applyAll id us = r.applyAll id vs := by
  have hserver := s.updateAll_eq_of_sameOrders hsame
  cases us with
  | nil =>
    cases vs with
    | nil => rfl
    | cons v vs =>
      have hv := hsame v.owner
      rw [List.filter_nil, List.filter_cons_of_pos (by simp)] at hv
      cases hv
  | cons u us =>
    cases vs with
    | nil =>
      have hu := hsame u.owner
      rw [List.filter_nil, List.filter_cons_of_pos (by simp)] at hu
      cases hu
    | cons v vs => rw [applyAll_of_get? h, applyAll_of_get? h, hserver]

/-- **Branches lose no update.** For a server that is known: any two sequences of updates in which
every owner's updates are the same and in the same order, however they alternate, end in the same
registry, with every other server as it was; an update changes nothing but its owner's share of the
server; and the engine's flags stay consistent. -/
theorem branches_keep_their_updates (r : Registry) (id : UInt64) (s : Server)
    (h : r.get? id = some s) :
    (∀ us vs : List StatusUpdate, SameOrders us vs →
      ∃ after, r.applyAll id us = .ok after ∧ r.applyAll id vs = .ok after ∧
        r.IsAfter id (s.updateAll us) after ∧ s.updateAll us = s.updateAll vs) ∧
    (∀ u : StatusUpdate, ∃ t after, r.apply id u = .ok (t, after) ∧ r.IsAfter id t after ∧
      Server.SameApart u.owner t s) ∧
    (s.status.IsCoupled → ∀ (u : StatusUpdate) (t : Server) (after : Registry),
      r.apply id u = .ok (t, after) → t.status.IsCoupled) := by
  refine ⟨fun us vs hsame => ?_, fun u => ?_, fun hcoupled u t after happly => ?_⟩
  · obtain ⟨after, hus, hafter⟩ := exists_applyAll h us
    have hvs : r.applyAll id vs = .ok after := (applyAll_eq_of_sameOrders h hsame).symm.trans hus
    exact ⟨after, hus, hvs, hafter, s.updateAll_eq_of_sameOrders hsame⟩
  · have hapart := s.update_sameApart u
    exact ⟨s.update u, r.insert (s.update u), apply_of_get? h u,
      isAfter_insert (hapart.id.trans (id_of_get? h)), hapart⟩
  · rw [apply_of_get? h] at happly
    cases happly
    exact Server.update_isCoupled hcoupled u

/-- Two servers under installation. -/
def site : Registry :=
  ofList [⟨2, "mail", "10.0.0.2", "root", 22, {}, .requested⟩,
    ⟨1, "web", "10.0.0.1", "root", 22, {}, .requested⟩]

/-- The engine's branch on the first server: installed, inspection found, and found broken. -/
def engineBranch : List StatusUpdate :=
  [.installed .engine true, .appsec true, .checked .engine ⟨false, "engine down"⟩]

/-- The branch of the access log beside it. -/
def logBranch : List StatusUpdate :=
  [.installed .requestLogging true, .checked .requestLogging ⟨true, "lines arrive"⟩]

/-- One branch after the other, or taking turns: the failed check of the engine turns inspection off
and leaves the log alone. -/
theorem taking_turns_changes_nothing :
    ∃ after, site.applyAll 1 (engineBranch ++ logBranch) = .ok after ∧
      site.applyAll 1 [.installed .requestLogging true, .installed .engine true, .appsec true,
        .checked .requestLogging ⟨true, "lines arrive"⟩,
        .checked .engine ⟨false, "engine down"⟩] = .ok after ∧
      (after.get? 1).map (·.status) = some
        { requestLogging := true
          details := [("crowdsec", ⟨false, "engine down"⟩),
            ("request_logging", ⟨true, "lines arrive"⟩)] } ∧
      after.get? 2 = site.get? 2 := by
  have hsame : SameOrders (engineBranch ++ logBranch)
      [.installed .requestLogging true, .installed .engine true, .appsec true,
        .checked .requestLogging ⟨true, "lines arrive"⟩,
        .checked .engine ⟨false, "engine down"⟩] := by
    rintro (c | -)
    · cases c <;> rfl
    · rfl
  obtain ⟨after, hus, hvs, hafter, -⟩ := (branches_keep_their_updates site 1
    ⟨1, "web", "10.0.0.1", "root", 22, {}, .requested⟩ rfl).1 _ _ hsame
  refine ⟨after, hus, hvs, ?_, hafter.others 2 (by decide)⟩
  rw [hafter.get?]
  rfl

end Registry

end Rampart
