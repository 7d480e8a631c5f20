import Mathlib.Algebra.Group.Nat.Defs
import Rampart.Alert
import Rampart.Proofs.Table

/-!
# Feeds of alerts

What the feeds hold after any alerts, in whatever order of their time stamps they come.

* `AlertFeeds.after`, `accepted`: the feeds after alerts, and the alerts that were accepted on the
  way.
* `Alert.SharesNumber`, `Alert.IsNear`: the two ways in which one alert repeats another; both are
  symmetric, and neither looks at the number that is given when an alert is recorded.
* `AlertFeeds.Holds`: each feed is the end of what was accepted of its application, and none of its
  entries repeats another. `Holds.record` has one alert more, accepted or not.
* **`feeds_hold_newest_apart`**: the lengths, entries and numbers of feeds, and when an alert is
  refused.
-/

namespace Rampart

/-! ## Distance -/

namespace Instant

theorem eq_of_not_isAfter {a b : Instant} (h : a.isAfter b = false) (h' : b.isAfter a = false) :
    a = b := by
  obtain ⟨day, second, nanos⟩ := a
  obtain ⟨day', second', nanos'⟩ := b
  simp only [isAfter, Bool.or_eq_false_iff, Bool.and_eq_false_iff, decide_eq_false_iff_not] at h h'
  simp only [mk.injEq]
  omega

theorem isAfter_asymm {a b : Instant} (h : a.isAfter b = true) : b.isAfter a = false := by
  simp only [isAfter, Bool.or_eq_true, Bool.and_eq_true, decide_eq_true_eq] at h
  simp only [isAfter, Bool.or_eq_false_iff, Bool.and_eq_false_iff, decide_eq_false_iff_not]
  omega

theorem distance_comm (a b : Instant) : a.distance b = b.distance a := by
  unfold distance
  cases hab : a.isAfter b with
  | true => simp [isAfter_asymm hab]
  | false =>
    cases hba : b.isAfter a with
    | true => rfl
    | false => rw [eq_of_not_isAfter hab hba]

end Instant

/-! ## Repeated alerts -/

namespace Alert

/-- Two alerts have one number, other than zero, of one engine. -/
def SharesNumber (a b : Alert) : Prop :=
  a.serverId = b.serverId ∧ a.engineAlertId = b.engineAlertId ∧ a.engineAlertId ≠ 0

/-- Two alerts are about one address and scenario, within less than some nanoseconds. -/
def IsNear (nanoseconds : Int) (a b : Alert) : Prop :=
  a.ip = b.ip ∧ a.scenario = b.scenario ∧ a.observedAt.distance b.observedAt < nanoseconds

/-- One alert repeats another. -/
def Repeats (nanoseconds : Int) (a b : Alert) : Prop :=
  a.SharesNumber b ∨ IsNear nanoseconds a b

variable {nanoseconds : Int} {a b : Alert}

theorem SharesNumber.symm (h : a.SharesNumber b) : b.SharesNumber a :=
  ⟨h.1.symm, h.2.1.symm, h.2.1 ▸ h.2.2⟩

theorem IsNear.symm (h : IsNear nanoseconds a b) : IsNear nanoseconds b a :=
  ⟨h.1.symm, h.2.1.symm, Instant.distance_comm a.observedAt b.observedAt ▸ h.2.2⟩

theorem Repeats.symm (h : Repeats nanoseconds a b) : Repeats nanoseconds b a :=
  h.imp SharesNumber.symm IsNear.symm

end Alert

namespace AlertFeeds

open Alert

variable {f : AlertFeeds} {alert : Alert}

theorem sameEngineAlert_iff {a b : Alert} : sameEngineAlert a b = true ↔ a.SharesNumber b := by
  unfold sameEngineAlert SharesNumber
  simp only [Bool.and_eq_true, bne_iff_ne, decide_eq_true_eq]
  constructor
  · rintro ⟨⟨hne, hserver⟩, hnumber⟩
    exact ⟨hserver, hnumber, hnumber ▸ hne⟩
  · rintro ⟨hserver, hnumber, hne⟩
    exact ⟨⟨hnumber ▸ hne, hserver⟩, hnumber⟩

theorem repeats_iff {window : Int} {a b : Alert} :
    repeats window a b = true ↔ IsNear (window * 1000000000) a b := by
  unfold repeats IsNear
  rw [Bool.and_eq_true, Bool.and_eq_true, decide_eq_true_eq, decide_eq_true_eq, decide_eq_true_eq,
    and_assoc]

/-- An alert is refused exactly if it repeats an entry that is in its feed then. -/
theorem refuses_iff :
    f.refuses alert = true ↔
      ∃ entry ∈ f.feed alert.uuid, Repeats (f.window * 1000000000) entry alert := by
  simp only [refuses, List.any_eq_true, Bool.or_eq_true, sameEngineAlert_iff, repeats_iff, Repeats]

/-! ## One alert -/

/-- The last entries of a feed, as many as it may have. -/
def newest (capacity : Nat) (entries : List Alert) : List Alert :=
  entries.drop (entries.length - capacity)

/-- What is dropped before another entry comes would be dropped after it. -/
theorem newest_newest_concat (capacity : Nat) (entries : List Alert) (entry : Alert) :
    newest capacity (newest capacity entries ++ [entry]) =
      newest capacity (entries ++ [entry]) := by
  have hle : entries.length - capacity ≤ entries.length := Nat.sub_le _ _
  unfold newest
  rw [← List.drop_append_of_le_length hle, List.drop_drop, List.length_drop, List.length_append,
    List.length_singleton]
  congr 1
  omega

theorem reverse_newest (capacity : Nat) (entries : List Alert) :
    (newest capacity entries).reverse = entries.reverse.take capacity :=
  List.take_reverse.symm

/-- An alert with the next number of the feeds. -/
def numbered (f : AlertFeeds) (alert : Alert) : Alert :=
  { alert with id := f.lastId + 1 }

theorem record_of_refuses (h : f.refuses alert = true) : f.record alert = (none, f) :=
  if_pos h

theorem record_of_not_refuses (h : f.refuses alert = false) :
    (f.record alert).1 = some (f.numbered alert) ∧
      (f.record alert).2.lastId = f.lastId + 1 ∧
      ∀ uuid, (f.record alert).2.feed uuid =
        if alert.uuid = uuid then newest f.capacity (f.feed uuid ++ [f.numbered alert])
        else f.feed uuid := by
  have hrecord : f.record alert = _ := if_neg (ne_true_of_eq_false h)
  rw [hrecord]
  refine ⟨rfl, rfl, fun uuid => ?_⟩
  by_cases huuid : alert.uuid = uuid
  · subst huuid
    simp [feed, newest, numbered]
  · have hne : (uuid == alert.uuid) = false := beq_eq_false_iff_ne.mpr (Ne.symm huuid)
    rw [if_neg huuid, feed, feed, List.lookup_cons, hne]
    exact congrArg (Option.getD · []) (Table.lookup_filter_ne (Ne.symm huuid))

theorem window_record : (f.record alert).2.window = f.window := by
  unfold record
  split <;> rfl

theorem capacity_record : (f.record alert).2.capacity = f.capacity := by
  unfold record
  split <;> rfl

/-! ## Any alerts -/

/-- The feeds after alerts have come in. -/
def after (f : AlertFeeds) (alerts : List Alert) : AlertFeeds :=
  alerts.foldl (fun f alert => (f.record alert).2) f

/-- Those alerts of the ones that come in that are accepted, as they are recorded. -/
def accepted (f : AlertFeeds) : List Alert → List Alert
  | [] => []
  | alert :: alerts => (f.record alert).1.toList ++ (f.record alert).2.accepted alerts

/-- What holds of feeds when `taken` are the alerts that have been accepted. -/
structure Holds (f : AlertFeeds) (taken : List Alert) : Prop where
  feed_eq_newest : ∀ uuid, f.feed uuid = newest f.capacity (taken.filter (·.uuid = uuid))
  pairwise_feed : ∀ uuid,
    (f.feed uuid).Pairwise fun a b => ¬ Repeats (f.window * 1000000000) a b
  lastId_eq : f.lastId = UInt64.ofNat taken.length
  numbers_eq : taken.map (·.id) = (List.range taken.length).map fun i => UInt64.ofNat (i + 1)

theorem Holds.ofSettings (s : Settings.Alerts) : Holds (ofSettings s) [] where
  feed_eq_newest _ := List.drop_nil.symm
  pairwise_feed _ := .nil
  lastId_eq := rfl
  numbers_eq := rfl

/-- Every alert that comes in keeps the feeds as they have to be, accepted or not. -/
theorem Holds.record {taken : List Alert} (h : Holds f taken) (alert : Alert) :
    Holds (f.record alert).2 (taken ++ (f.record alert).1.toList) := by
  cases hrefuses : f.refuses alert with
  | true =>
    rw [record_of_refuses hrefuses, Option.toList_none, List.append_nil]
    exact h
  | false =>
    obtain ⟨hanswer, hlast, hfeed⟩ := record_of_not_refuses hrefuses
    rw [hanswer, Option.toList_some]
    refine ⟨fun uuid => ?_, fun uuid => ?_, ?_, ?_⟩
    · rw [hfeed, capacity_record, List.filter_append, h.feed_eq_newest]
      by_cases huuid : alert.uuid = uuid
      · rw [if_pos huuid, newest_newest_concat]
        congr 2
        simp [numbered, huuid]
      · rw [if_neg huuid]
        congr 1
        simp [numbered, huuid]
    · rw [hfeed, window_record]
      split
      · rename_i huuid
        subst huuid
        refine List.Pairwise.sublist (List.drop_sublist _ _) ?_
        refine List.pairwise_append.mpr ⟨h.pairwise_feed _, List.pairwise_singleton _ _, ?_⟩
        intro entry hentry other hother
        rw [List.mem_singleton.mp hother]
        intro hrepeats
        have : f.refuses alert = true := refuses_iff.mpr ⟨entry, hentry, hrepeats⟩
        rw [hrefuses] at this
        contradiction
      · exact h.pairwise_feed uuid
    · rw [hlast, h.lastId_eq, List.length_append, List.length_singleton, UInt64.ofNat_add]
      rfl
    · rw [List.map_append, h.numbers_eq, List.length_append, List.length_singleton,
        List.range_succ, List.map_append]
      simp [numbered, h.lastId_eq, UInt64.ofNat_add]

theorem Holds.after {taken : List Alert} (h : Holds f taken) (alerts : List Alert) :
    Holds (f.after alerts) (taken ++ f.accepted alerts) := by
  induction alerts generalizing f taken with
  | nil =>
    rw [accepted, List.append_nil]
    exact h
  | cons alert alerts ih =>
    rw [accepted, ← List.append_assoc]
    exact ih (h.record alert)

theorem window_after (alerts : List Alert) : (f.after alerts).window = f.window := by
  induction alerts generalizing f with
  | nil => rfl
  | cons alert alerts ih => exact (ih (f := (f.record alert).2)).trans window_record

theorem capacity_after (alerts : List Alert) : (f.after alerts).capacity = f.capacity := by
  induction alerts generalizing f with
  | nil => rfl
  | cons alert alerts ih => exact (ih (f := (f.record alert).2)).trans capacity_record

theorem Holds.newestFirst_eq {taken : List Alert} (h : Holds f taken) (uuid : String) :
    f.newestFirst uuid = (taken.filter (·.uuid = uuid)).reverse.take f.capacity := by
  rw [newestFirst, h.feed_eq_newest, reverse_newest]

theorem Holds.pairwise_newestFirst {taken : List Alert} (h : Holds f taken) (uuid : String) :
    (f.newestFirst uuid).Pairwise fun a b => ¬ Repeats (f.window * 1000000000) a b :=
  List.pairwise_reverse.mpr ((h.pairwise_feed uuid).imp fun hnot hrepeats => hnot hrepeats.symm)

/-- Numbers grow with every accepted alert, as long as there are numbers left. -/
theorem Holds.pairwise_id_lt {taken : List Alert} (h : Holds f taken)
    (hlength : taken.length < 2 ^ 64) : taken.Pairwise fun a b => a.id < b.id := by
  have hnumbers : (taken.map (·.id)).Pairwise (· < ·) := by
    rw [h.numbers_eq, List.pairwise_map]
    refine List.pairwise_lt_range.imp_of_mem fun {i j} _ hj hij => ?_
    have hj := List.mem_range.mp hj
    have hsize : UInt64.size = 2 ^ 64 := rfl
    rw [UInt64.lt_iff_toNat_lt, UInt64.toNat_ofNat_of_lt' (by omega),
      UInt64.toNat_ofNat_of_lt' (by omega)]
    omega
  exact List.pairwise_map.mp hnumbers

/-- An alert is refused if it repeats an entry, and else recorded under the next number. -/
theorem Holds.record_cases {taken : List Alert} (h : Holds f taken) (alert : Alert) :
    (f.record alert).1 = none ∧
        (∃ entry ∈ f.newestFirst alert.uuid, Repeats (f.window * 1000000000) entry alert) ∨
      (f.record alert).1 = some { alert with id := UInt64.ofNat (taken.length + 1) } ∧
        ∀ entry ∈ f.newestFirst alert.uuid, ¬ Repeats (f.window * 1000000000) entry alert := by
  simp only [newestFirst, List.mem_reverse]
  cases hrefuses : f.refuses alert with
  | true => exact .inl ⟨congrArg Prod.fst (record_of_refuses hrefuses), refuses_iff.mp hrefuses⟩
  | false =>
    refine .inr ⟨?_, fun entry hentry hrepeats => ?_⟩
    · rw [(record_of_not_refuses hrefuses).1, numbered, h.lastId_eq, UInt64.ofNat_add]
      rfl
    · exact ne_true_of_eq_false hrefuses (refuses_iff.mpr ⟨entry, hentry, hrepeats⟩)

/-- A window that fits in a signed word is what the settings say. -/
theorem signedSeconds_eq {seconds : UInt64} (h : seconds.toNat < 2 ^ 63) :
    signedSeconds seconds = seconds.toNat :=
  Int64.toInt_ofNat_of_lt h

/-- After any alerts, every feed has the last ones that were accepted of its application, with the
newest first. It has no more than it may have, and no two that repeat each other. Numbers grow in
the order of acceptance over all feeds. The next alert is refused if it repeats an entry of its
feed, and only then; otherwise it is recorded as it is, with the next number. -/
theorem feeds_hold_newest_apart (s : Settings.Alerts) (hwindow : s.dedupeWindow.toNat ≤ 2 ^ 53)
    (alerts : List Alert) :
    let f := (ofSettings s).after alerts
    let taken := (ofSettings s).accepted alerts
    let capacity := max 1 s.maxPerApplication.toNat
    let window : Int := s.dedupeWindow.toNat * 1000000000
    (∀ uuid,
        (f.newestFirst uuid).length ≤ capacity ∧
        (f.newestFirst uuid).Pairwise (fun a b => ¬ a.SharesNumber b ∧ ¬ IsNear window a b) ∧
        f.newestFirst uuid = (taken.filter (·.uuid = uuid)).reverse.take capacity) ∧
      (taken.length < 2 ^ 64 → taken.Pairwise fun a b => a.id < b.id) ∧
      ∀ alert,
        (f.record alert).1 = none ∧
            (∃ entry ∈ f.newestFirst alert.uuid,
              entry.SharesNumber alert ∨ IsNear window entry alert) ∨
          (f.record alert).1 = some { alert with id := UInt64.ofNat (taken.length + 1) } ∧
            ∀ entry ∈ f.newestFirst alert.uuid,
              ¬ (entry.SharesNumber alert ∨ IsNear window entry alert) := by
  intro f taken capacity window
  have hholds : Holds f taken := (Holds.ofSettings s).after alerts
  have hcapacity : f.capacity = capacity := (capacity_after alerts).trans (Nat.max_comm _ _)
  have hseconds : f.window * 1000000000 = window := by
    rw [show f.window = signedSeconds s.dedupeWindow from window_after alerts,
      signedSeconds_eq (by omega)]
  refine ⟨fun uuid => ?_, hholds.pairwise_id_lt, fun alert => ?_⟩
  · have hlist := hholds.newestFirst_eq uuid
    have hapart := hholds.pairwise_newestFirst uuid
    rw [hcapacity] at hlist
    rw [hseconds] at hapart
    refine ⟨?_, hapart.imp not_or.mp, hlist⟩
    rw [hlist]
    exact List.length_take_le _ _
  · have hcases := hholds.record_cases alert
    rw [hseconds] at hcases
    exact hcases

namespace Demo

/-- Feeds of two alerts, and an hour in which an address is reported once. -/
def settings : Settings.Alerts :=
  { dedupeWindow := 3600, maxPerApplication := 2 }

/-- An alert of an application, some seconds after midnight. -/
def seen (ip : String) (engineAlertId : UInt64) (second : Nat) : Alert where
  id := 0
  applicationId := 7
  uuid := "abc"
  serverId := 1
  engineAlertId
  kind := .portScan
  severity := .low
  ip
  scenario := "bastion/abc/scan"
  message := ""
  decisions := 0
  observedAt := ⟨0, second, 0⟩

/-- Three addresses; the first is seen again, half an hour before. -/
def alerts : List Alert :=
  [seen "10.0.0.1" 1 7200, seen "10.0.0.1" 2 5400, seen "10.0.0.2" 3 7200, seen "10.0.0.3" 4 7200]

end Demo

theorem feeds_hold_newest_apart_three_addresses :
    Demo.settings.dedupeWindow.toNat ≤ 2 ^ 53 ∧
      ((ofSettings Demo.settings).after Demo.alerts).newestFirst "abc" =
        [{ Demo.seen "10.0.0.3" 4 7200 with id := 3 },
          { Demo.seen "10.0.0.2" 3 7200 with id := 2 }] ∧
      ((ofSettings Demo.settings).accepted Demo.alerts).Pairwise fun a b => a.id < b.id := by
  have hwindow : Demo.settings.dedupeWindow.toNat ≤ 2 ^ 53 := by decide
  obtain ⟨hfeeds, hnumbers, -⟩ := feeds_hold_newest_apart Demo.settings hwindow Demo.alerts
  refine ⟨hwindow, ?_, hnumbers (by decide +kernel)⟩
  rw [(hfeeds "abc").2.2]
  decide +kernel

end AlertFeeds

end Rampart
