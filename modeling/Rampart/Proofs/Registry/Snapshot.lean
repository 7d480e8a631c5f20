import Mathlib.Data.List.Perm.Basic
import Rampart.Event.Bridge
import Rampart.Proofs.Wire
import Rampart.Registry.Snapshot

/-!
# What is kept and what is sent comes back

A registry is kept as a text across restarts, and events are sent as texts by a broker.

* `Registry.IsProper`: a registry of proper servers in order of their numbers;
  `Registry.isProper_ofList`: any proper servers make one, which has all of them if their numbers
  are different (`Registry.perm_ofList`).
* **`Registry.load_snapshot`**: what is loaded of a snapshot is the registry of which it was taken.
* `Bridge.event?_compress`: an event that has been sent is the one that arrives.
* **`kept_and_sent_come_back`**: all of it, with no two events sharing a form.
-/

namespace Rampart

/-! ## Updates -/

theorem mem_insertHealth {name : String} {health : Health} {details : List (String × Health)}
    {entry : String × Health} (h : entry ∈ insertHealth name health details) :
    entry.1 = name ∨ entry ∈ details := by
  induction details with
  | nil => exact .inl (congrArg Prod.fst (List.mem_singleton.mp h))
  | cons other details ih =>
    unfold insertHealth at h
    split at h
    · exact (List.mem_cons.mp h).imp (congrArg Prod.fst) (List.mem_cons_of_mem other)
    · split at h
      · exact (List.mem_cons.mp h).imp_left (congrArg Prod.fst)
      · rcases List.mem_cons.mp h with rfl | h
        · exact .inr List.mem_cons_self
        · exact (ih h).imp_right (List.mem_cons_of_mem other)

/-- A result is put in its place by name. -/
theorem pairwise_insertHealth {name : String} {health : Health} {details : List (String × Health)}
    (h : details.Pairwise fun a b => a.1 < b.1) :
    (insertHealth name health details).Pairwise fun a b => a.1 < b.1 := by
  induction details with
  | nil => exact List.pairwise_singleton _ _
  | cons other details ih =>
    obtain ⟨hother, hdetails⟩ := List.pairwise_cons.mp h
    unfold insertHealth
    split
    · next heq => exact List.pairwise_cons.mpr ⟨fun t ht => heq ▸ hother t ht, hdetails⟩
    · next hne =>
      split
      · next hlt =>
        refine List.pairwise_cons.mpr ⟨fun t ht => ?_, h⟩
        rcases List.mem_cons.mp ht with rfl | ht
        · exact hlt
        · exact lt_trans hlt (hother t ht)
      · next hnlt =>
        refine List.pairwise_cons.mpr ⟨fun t ht => ?_, ih hdetails⟩
        rcases mem_insertHealth ht with heq | ht
        · rw [heq]
          exact lt_of_le_of_ne (not_lt.mp hnlt) (Ne.symm hne)
        · exact hother t ht

/-- An update with a time that there is keeps a server proper. -/
theorem Server.isProper_update {s : Server} {u : StatusUpdate} (hs : s.IsProper)
    (hu : ∀ validated time, u = .completed validated time → time.IsProper) :
    (s.update u).IsProper := by
  cases u with
  | installed component value => cases component <;> exact ⟨hs.details, hs.validatedAt⟩
  | appsec available => exact ⟨hs.details, hs.validatedAt⟩
  | checked component health =>
    cases component <;> exact ⟨pairwise_insertHealth hs.details, hs.validatedAt⟩
  | completed validated time =>
    refine ⟨hs.details, fun i hi => ?_⟩
    obtain rfl := Option.some.inj hi
    exact hu validated _ rfl
  | progress step => exact hs

/-! ## Registries -/

namespace Registry

variable {s : Server} {servers : List Server}

/-- Servers in order of their numbers, each number once. -/
def AreOrdered (servers : List Server) : Prop :=
  servers.Pairwise fun s t => s.id < t.id

/-- Proper servers in order of their numbers. -/
structure IsProper (r : Registry) : Prop where
  ordered : AreOrdered r.servers
  servers : ∀ s ∈ r.servers, s.IsProper

theorem mem_insertInto {t : Server} (h : t ∈ insertInto s servers) : t = s ∨ t ∈ servers := by
  induction servers with
  | nil => exact .inl (List.mem_singleton.mp h)
  | cons other others ih =>
    unfold insertInto at h
    split at h
    · exact (List.mem_cons.mp h).imp_right (List.mem_cons_of_mem other)
    · split at h
      · exact List.mem_cons.mp h
      · rcases List.mem_cons.mp h with rfl | h
        · exact .inr List.mem_cons_self
        · exact (ih h).imp_right (List.mem_cons_of_mem other)

theorem areOrdered_insertInto (h : AreOrdered servers) : AreOrdered (insertInto s servers) := by
  induction servers with
  | nil => exact List.pairwise_singleton _ s
  | cons other others ih =>
    obtain ⟨hother, hothers⟩ := List.pairwise_cons.mp h
    unfold insertInto
    split
    · next heq => exact List.pairwise_cons.mpr ⟨fun t ht => heq ▸ hother t ht, hothers⟩
    · next hne =>
      split
      · next hlt =>
        refine List.pairwise_cons.mpr ⟨fun t ht => ?_, h⟩
        rcases List.mem_cons.mp ht with rfl | ht
        · exact hlt
        · exact UInt64.lt_trans hlt (hother t ht)
      · next hnlt =>
        refine List.pairwise_cons.mpr ⟨fun t ht => ?_, ih hothers⟩
        rcases mem_insertInto ht with rfl | ht
        · exact UInt64.lt_of_le_of_ne (UInt64.not_lt.mp hnlt) (Ne.symm hne)
        · exact hother t ht

/-- A server with a higher number than all others comes behind them. -/
theorem insertInto_eq_append (h : ∀ t ∈ servers, t.id < s.id) :
    insertInto s servers = servers ++ [s] := by
  induction servers with
  | nil => rfl
  | cons other others ih =>
    obtain ⟨hlt, hothers⟩ := List.forall_mem_cons.mp h
    rw [insertInto, if_neg (UInt64.ne_of_lt hlt).symm, if_neg (UInt64.lt_asymm hlt), ih hothers]
    rfl

/-- A server with a number of its own is added. -/
theorem perm_insertInto (h : ∀ t ∈ servers, s.id ≠ t.id) :
    (insertInto s servers).Perm (s :: servers) := by
  induction servers with
  | nil => exact List.Perm.refl _
  | cons other others ih =>
    obtain ⟨hne, hothers⟩ := List.forall_mem_cons.mp h
    unfold insertInto
    rw [if_neg hne]
    split
    · exact List.Perm.refl _
    · exact ((ih hothers).cons other).trans (List.Perm.swap s other others)

theorem isProper_insert {r : Registry} (hr : r.IsProper) (hs : s.IsProper) :
    (r.insert s).IsProper where
  ordered := areOrdered_insertInto hr.ordered
  servers t ht := by
    rcases mem_insertInto ht with rfl | ht
    · exact hs
    · exact hr.servers t ht

/-- Updates keep a registry proper. -/
theorem isProper_apply {r updated : Registry} {id : UInt64} {u : StatusUpdate} (hr : r.IsProper)
    (hu : ∀ validated time, u = .completed validated time → time.IsProper)
    (h : r.apply id u = .ok (s, updated)) : updated.IsProper := by
  unfold apply at h
  split at h
  · next t ht =>
    obtain ⟨rfl, rfl⟩ := Prod.mk.inj (Except.ok.inj h)
    exact isProper_insert hr
      (Server.isProper_update (hr.servers t (List.mem_of_find?_eq_some ht)) hu)
  · cases h

/-- Any proper servers make a proper registry. -/
theorem isProper_ofList (h : ∀ s ∈ servers, s.IsProper) : (ofList servers).IsProper := by
  suffices hall : ∀ r : Registry, r.IsProper → (servers.foldl insert r).IsProper from
    hall {} ⟨List.Pairwise.nil, fun _ hs => absurd hs List.not_mem_nil⟩
  induction servers with
  | nil => exact fun _ hr => hr
  | cons s servers ih =>
    obtain ⟨hs, hservers⟩ := List.forall_mem_cons.mp h
    exact fun r hr => ih hservers (r.insert s) (isProper_insert hr hs)

/-- Servers of different numbers are all in the registry that they make. -/
theorem perm_ofList (h : (servers.map (·.id)).Nodup) : (ofList servers).list.Perm servers := by
  suffices hall : ∀ r : Registry, (∀ s ∈ servers, ∀ t ∈ r.servers, s.id ≠ t.id) →
      (servers.foldl insert r).servers.Perm (r.servers ++ servers) from
    hall {} fun _ _ _ ht => absurd ht List.not_mem_nil
  induction servers with
  | nil =>
    intro r _
    rw [List.append_nil]
    exact List.Perm.refl _
  | cons s servers ih =>
    intro r hnew
    rw [List.map_cons, List.nodup_cons] at h
    obtain ⟨hs, hservers⟩ := List.forall_mem_cons.mp hnew
    have hinsert : (r.insert s).servers.Perm (s :: r.servers) := perm_insertInto hs
    have hnext := ih h.2 (r.insert s) fun t ht u hu => by
      rcases mem_insertInto hu with rfl | hu
      · exact fun heq => h.1 (heq ▸ List.mem_map_of_mem ht)
      · exact hservers t ht u hu
    exact hnext.trans ((hinsert.append_right servers).trans List.perm_middle.symm)

/-- Servers that are in order make a registry as they are. -/
theorem ofList_of_areOrdered (h : AreOrdered servers) : ofList servers = ⟨servers⟩ := by
  suffices hall : ∀ front, AreOrdered (front ++ servers) →
      servers.foldl insert ⟨front⟩ = ⟨front ++ servers⟩ from hall [] h
  clear h
  induction servers with
  | nil => exact fun front _ => by rw [List.append_nil, List.foldl_nil]
  | cons s servers ih =>
    intro front h
    have hbefore : ∀ t ∈ front, t.id < s.id := fun t ht =>
      (List.pairwise_append.mp h).2.2 t ht s List.mem_cons_self
    have hinsert : insert ⟨front⟩ s = ⟨front ++ [s]⟩ :=
      congrArg Registry.mk (insertInto_eq_append hbefore)
    have hnext := ih (front ++ [s]) (by rwa [List.append_assoc])
    rw [List.append_assoc, List.singleton_append] at hnext
    rw [List.foldl_cons, hinsert, hnext]

/-- **What is loaded of a snapshot** is the registry of which it was taken. -/
theorem load_snapshot {r : Registry} (h : r.IsProper) : load (.text r.snapshot) = .ok r := by
  have hback : Json.GivesBack (Json.list Server.decode) (encode r.list) r.list :=
    Json.givesBack_list fun s hs => Server.givesBack (h.servers s hs)
  have htext : Json.decodeText (Json.list Server.decode) r.snapshot = .ok r.list :=
    Json.decodeText_pretty hback
  rw [load, ofSnapshot, htext]
  exact congrArg Except.ok (ofList_of_areOrdered h.ordered)

end Registry

namespace Bridge

variable {ε : Type} {decode : Json.Decoder ε} {j : Json} {e : ε}

/-- **An event that has been sent is the one that arrives.** -/
theorem event?_compress (h : Json.GivesBack decode j e) : event? decode j.compress = some e := by
  rw [event?, Json.decodeText_compress h]
  rfl

end Bridge

/-- The form of a rule's event is none of a server's event. -/
theorem RuleEvent.encode_ne (e : RuleEvent) (f : ServerEvent) : encode e ≠ encode f := by
  cases e <;> cases f <;> simp [encode, Json.member]

/-- **What is kept and what is sent comes back.** Any proper servers of different numbers are all in
the registry that they make, and what is loaded of its snapshot lists the same servers. Every event
of a rule or a server that is sent arrives as it was, and no two events share a form. -/
theorem kept_and_sent_come_back {servers : List Server} (hproper : ∀ s ∈ servers, s.IsProper)
    (hdistinct : (servers.map (·.id)).Nodup) :
    (Registry.ofList servers).list.Perm servers ∧
    (∃ r, Registry.load (.text (Registry.ofList servers).snapshot) = .ok r ∧
      r.list = (Registry.ofList servers).list) ∧
    (∀ e : RuleEvent, Bridge.event? RuleEvent.decode (encode e).compress = some e) ∧
    (∀ e : ServerEvent, Bridge.event? ServerEvent.decode (encode e).compress = some e) ∧
    (∀ e f : RuleEvent, (encode e).compress = (encode f).compress → e = f) ∧
    (∀ e f : ServerEvent, (encode e).compress = (encode f).compress → e = f) ∧
    (∀ (e : RuleEvent) (f : ServerEvent), (encode e).compress ≠ (encode f).compress) := by
  have hrule (e : RuleEvent) := Bridge.event?_compress e.givesBack
  have hserver (e : ServerEvent) := Bridge.event?_compress e.givesBack
  refine ⟨Registry.perm_ofList hdistinct,
    ⟨_, Registry.load_snapshot (Registry.isProper_ofList hproper), rfl⟩, hrule, hserver,
    fun e f h => ?_, fun e f h => ?_, fun e f h => ?_⟩
  · exact Option.some.inj ((hrule e).symm.trans (h ▸ hrule f))
  · exact Option.some.inj ((hserver e).symm.trans (h ▸ hserver f))
  · exact e.encode_ne f (Json.compress_injective e.givesBack.isExact f.givesBack.isExact h)

namespace Demo

/-- A server that was last checked in a leap second of a year before the first. -/
def checked : Server where
  id := 2
  name := "edge \"2\"\n"
  host := "10.0.0.2"
  status := { validatedAt := some ⟨-719529, 86399, 1500000001⟩,
              details := [("crowdsec", ⟨false, "\x00"⟩), ("validator", ⟨true, ""⟩)] }
  progress := .failed .engine

/-- A server of a lower number. -/
def fresh : Server where
  id := 1
  name := "edge-1"
  host := "10.0.0.1"

end Demo

/-- A registry of two servers, the one of the higher number first. -/
theorem kept_and_sent_come_back_checked :
    (Registry.ofList [Demo.checked, Demo.fresh]).list.Perm [Demo.checked, Demo.fresh] ∧
    ∃ r, Registry.load (.text (Registry.ofList [Demo.checked, Demo.fresh]).snapshot) = .ok r ∧
      r.list = [Demo.fresh, Demo.checked] := by
  have hproper : ∀ s ∈ [Demo.checked, Demo.fresh], s.IsProper := by
    refine List.forall_mem_cons.mpr ⟨⟨by decide, ?_⟩, List.forall_mem_singleton.mpr
      ⟨List.Pairwise.nil, nofun⟩⟩
    rintro i ⟨⟩
    decide
  obtain ⟨hperm, ⟨r, hload, hlist⟩, -⟩ := kept_and_sent_come_back hproper (by decide)
  exact ⟨hperm, r, hload, hlist⟩

end Rampart
